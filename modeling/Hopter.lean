import Hopter.Time
import Hopter.Mailbox.State
import Hopter.Mailbox.Step
import Hopter.Mailbox.Waiter
import Hopter.Mailbox.Sleepers
import Hopter.Mailbox.Tally
import Hopter.Mailbox.Conservation
import Hopter.Mailbox.PendedOp
import Hopter.Mailbox.Calls
import Hopter.Mailbox.Progress
import Hopter.Mailbox.WaitLoop
import Hopter.Mailbox.Spec
import Hopter.Mailbox.Refinement
import Hopter.Uart.Reader
import Hopter.Uart.Agreement
import Hopter.Uart.Progress
