/-
# A mailbox and the parties that use it

`src/src/sync/mailbox.rs`.  `Inner` holds four fields: `count`,
`pending_count`, `wait_task` and `task_notified`.  It sits behind a `SoftLock`,
which gives each caller either full access (an exclusive critical section,
during which task scheduling is suspended but interrupts keep running) or, to an
interrupt handler that preempts an open critical section, pend-only access to
`pending_count` alone.  The holder of full access later merges what was pended,
in `InnerFullAccessor::run_pended_op`.

The `SoftLock` is not among the sources.  Its part here is modelled from the
spec and from the contract the mailbox's comments rely on: a flag records that
pend-only access was granted since `run_pended_op` last began, the holder may
start `run_pended_op` outside its closure whenever the flag is set, and must
have done so before its closure starts.

`Sys` is the whole system around one mailbox, flat: the four fields of `Inner`,
the `SoftLock`'s holder, flag and the progress of a `run_pended_op` under way,
the sleep queue, each task's place in `wait_until_timeout`, whether an
`assert!` has stopped the kernel, and two counters of calls that no code reads
but the statements do.  `count` and `pending_count` are `AtomicUsize`s, whose
`fetch_add` and `fetch_sub` wrap around; `usize` has 32 bits on the Cortex-M
targets the kernel is built for.
-/

import Hopter.Time

namespace Hopter
namespace Mailbox

open Time

/-- `usize::MAX + 1`, `2^32` on the `thumbv7em` targets the kernel runs on. -/
def usizeSize : Nat := 4294967296

/-- What `AtomicUsize::fetch_add(b)` stores over `a`: the sum, wrapped around. -/
def wrappingAdd (a b : Nat) : Nat := (a + b) % usizeSize

/-- What `AtomicUsize::fetch_sub(b)` stores over `a < 2^usize`, `b ≤ 2^usize`:
the difference, wrapped around. -/
def wrappingSub (a b : Nat) : Nat := (a + usizeSize - b) % usizeSize

theorem usizeSize_pos : 0 < usizeSize := by decide

theorem wrappingAdd_of_lt {a b : Nat} (h : a + b < usizeSize) : wrappingAdd a b = a + b :=
  Nat.mod_eq_of_lt h

theorem wrappingSub_one_of_pos {a : Nat} (h0 : 0 < a) (h : a < usizeSize) :
    wrappingSub a 1 = a - 1 := by
  unfold wrappingSub
  rw [show a + usizeSize - 1 = a - 1 + usizeSize by omega, Nat.add_mod_right,
    Nat.mod_eq_of_lt (by omega)]

theorem wrappingAdd_lt (a b : Nat) : wrappingAdd a b < usizeSize :=
  Nat.mod_lt _ usizeSize_pos

/-- Where a task stands in `Mailbox::wait_until_timeout` (lines 163-221). -/
inductive WaitPc
  /-- Not inside the call. -/
  | idle
  /-- Holds full access for the first closure, which has not run yet. -/
  | phase1 (timeoutMs : UInt32)
  /-- The first closure ran and chose `should_block`; full access is still held. -/
  | leave (shouldBlock : Bool)
  /-- Parked in `svc_yield_current_task` after blocking. -/
  | blocked
  /-- Holds full access again for the second closure, which has not run yet. -/
  | phase2
  /-- The second closure read `task_notified`; full access is still held. -/
  | finish (notified : Bool)
  /-- The call returned `notified`. -/
  | done (notified : Bool)
  deriving DecidableEq, Repr

/-- Outside `wait_until_timeout`: free to call it. -/
@[simp] def WaitPc.outside : WaitPc → Bool
  | .idle => true
  | .phase1 _ => false
  | .leave _ => false
  | .blocked => false
  | .phase2 => false
  | .finish _ => false
  | .done _ => true

/-- Between registering in `wait_task` and the second closure: the stretch of
a blocking call in which a notification can reach the task. -/
@[simp] def WaitPc.waiting : WaitPc → Bool
  | .idle => false
  | .phase1 _ => false
  | .leave b => b
  | .blocked => true
  | .phase2 => true
  | .finish _ => false
  | .done _ => false

/-- Holding full access, for one closure or the other. -/
@[simp] def WaitPc.holding : WaitPc → Bool
  | .idle => false
  | .phase1 _ => true
  | .leave _ => true
  | .blocked => false
  | .phase2 => true
  | .finish _ => true
  | .done _ => false

/-- The call has decided to return `true`: it took a notification, which
`trueWaits` counts, and returns or has returned `true`. -/
@[simp] def WaitPc.took : WaitPc → Bool
  | .idle => false
  | .phase1 _ => false
  | .leave b => !b
  | .blocked => false
  | .phase2 => false
  | .finish b => b
  | .done b => b

/-- The holder of the `SoftLock`'s full access. -/
inductive Party
  /-- Task `t` inside `wait_until_timeout`; its `WaitPc` says which closure. -/
  | task (t : TaskId)
  /-- A task or an interrupt handler in `notify_allow_isr` with full access;
  `ran` once its closure has run. -/
  | notifier (ran : Bool)
  deriving DecidableEq, Repr

/-- How far the holder is through `run_pended_op` (lines 86-109). -/
inductive PendedPc
  /-- Begun; `pending_count.swap(0)` next. -/
  | swap
  /-- Swapped `v` out of `pending_count`; `count.fetch_add(v)` next. -/
  | fetchAdd (v : Nat)
  /-- `wait_task.take()`, with the wake-up of a task found there, next. -/
  | take
  deriving DecidableEq, Repr

/-- A `Mailbox` with the tasks and interrupt handlers that use it. -/
structure Sys where
  /-- `Inner::count`: notifications posted and not yet received. -/
  count : Nat
  /-- `Inner::pending_count`: notifications posted under pend-only access. -/
  pendingCount : Nat
  /-- `Inner::wait_task`. -/
  waitTask : Option TaskId
  /-- `Inner::task_notified`. -/
  taskNotified : Bool
  /-- The party holding the `SoftLock`'s full access, while its critical section
  is open. -/
  holder : Option Party
  /-- Pend-only access was granted since `run_pended_op` last began. -/
  pended : Bool
  /-- The holder's `run_pended_op`, while one is under way. -/
  pendedOp : Option PendedPc
  /-- The kernel's sleep queue. -/
  sleepQueue : SleepQueue
  /-- Each task's place in `wait_until_timeout`. -/
  pc : TaskId → WaitPc
  /-- An `assert!` has failed and the kernel has stopped. -/
  aborted : Bool
  /-- `notify_allow_isr` calls made, each counted as it begins. -/
  notifyCalls : Nat
  /-- `wait_until_timeout` calls whose closure decided to return `true`. -/
  trueWaits : Nat

/-- `Mailbox::new()`, before any party has run. -/
def Sys.new : Sys where
  count := 0
  pendingCount := 0
  waitTask := none
  taskNotified := false
  holder := none
  pended := false
  pendedOp := none
  sleepQueue := []
  pc := fun _ => .idle
  aborted := false
  notifyCalls := 0
  trueWaits := 0

/-- One atomic step of one party. -/
inductive Act
  /-- Task `t` calls `wait_until_timeout(timeout_ms)` and takes full access. -/
  | wait (t : TaskId) (timeoutMs : UInt32)
  /-- Task `t`, ready again, takes full access for the second closure. -/
  | resume (t : TaskId)
  /-- A task or an interrupt handler calls `notify_allow_isr`. -/
  | notify
  /-- The holder runs its closure; `tick` is what `time::get_tick()` returns. -/
  | closure (tick : UInt32)
  /-- The holder begins `run_pended_op`, clearing the pended flag. -/
  | runPendedOp
  /-- `pending_count.swap(0)`. -/
  | swapPending
  /-- `count.fetch_add(pending_count)`. -/
  | addPending
  /-- `wait_task.take()`, and the wake-up of a task found there. -/
  | takeWaiter
  /-- The holder gives up full access. -/
  | release
  /-- The tick handler removes `t` from the sleep queue once its deadline has
  passed.  Ticks are not modelled, so a timeout may come at any time after `t`
  was filed. -/
  | timeout (t : TaskId)
  deriving DecidableEq, Repr

/-- The task an action is a call of `wait_until_timeout` by. -/
def Act.caller : Act → Option TaskId
  | .wait t _ => some t
  | _ => none

end Mailbox
end Hopter
