/-
# Ticks and the sleep queue

`src/src/sync/mailbox.rs` reaches the kernel's clock and sleep queue through
`time::get_tick`, `time::add_task_to_sleep_queue` and
`time::remove_task_from_sleep_queue_allow_isr`.  The `time` module is not among
the sources; what the mailbox needs of it is modelled here from the spec: a
sleep queue of `(wake_tick, task)` pairs kept in `wake_tick` order, with
insertion and an idempotent removal by task identity, used both by a notifier's
early wake-up and by the tick handler when a deadline passes.

The tick is a `u32` (`UsartTimer::get_timestamp_ms`, `src/src/uart/mod.rs`,
lines 32-37, hands it on unchanged), one per millisecond by the `FIXME` in
`wait_until_timeout`.  `wakeAtTick` is that method's deadline, line 195.

Every statement about the queue goes through `queued`, the number of entries a
task has: insertion adds one to the inserted task, removal zeroes the removed
one, and neither touches any other task.
-/

import Mathlib.Data.List.Sort

namespace Hopter
namespace Time

/-- A task, compared by identity as `Arc<Task>` is. -/
abbrev TaskId := Nat

/-- `time::get_tick() + timeout_ms` on `u32` (`mailbox.rs`, line 195), as a build
without overflow checks computes it: the sum wraps around at `2^32`. -/
def wakeAtTick (tick timeoutMs : UInt32) : UInt32 := tick + timeoutMs

theorem wakeAtTick_toNat (tick timeoutMs : UInt32) :
    (wakeAtTick tick timeoutMs).toNat = (tick.toNat + timeoutMs.toNat) % UInt32.size := rfl

/-- The deadline is earlier than the tick exactly when the sum overflows `u32`. -/
theorem wakeAtTick_lt_iff (tick timeoutMs : UInt32) :
    wakeAtTick tick timeoutMs < tick ↔ UInt32.size ≤ tick.toNat + timeoutMs.toNat := by
  show (wakeAtTick tick timeoutMs).toNat < tick.toNat ↔ _
  rw [wakeAtTick_toNat]
  have := tick.toNat_lt_size
  have := timeoutMs.toNat_lt_size
  simp only [UInt32.size] at *
  omega

/-- The sleep queue: `(wake_tick, task)` pairs in `wake_tick` order. -/
abbrev SleepQueue := List (UInt32 × TaskId)

/-- `time::add_task_to_sleep_queue`: file `t` under `wakeAt`, after the entries
due no later. -/
def addTaskToSleepQueue (q : SleepQueue) (t : TaskId) (wakeAt : UInt32) : SleepQueue :=
  q.orderedInsert (fun a b => a.1 < b.1) (wakeAt, t)

/-- `time::remove_task_from_sleep_queue_allow_isr`, and the tick handler's removal
when a deadline passes: drop the entries of `t`, if any. -/
def removeTaskFromSleepQueue (q : SleepQueue) (t : TaskId) : SleepQueue :=
  q.filter fun e => e.2 != t

/-- The number of entries task `t` has in the sleep queue. -/
def queued (q : SleepQueue) (t : TaskId) : Nat := (q.map Prod.snd).count t

@[simp] theorem queued_nil (t : TaskId) : queued [] t = 0 := rfl

@[simp] theorem queued_addTaskToSleepQueue (q : SleepQueue) (t u : TaskId) (w : UInt32) :
    queued (addTaskToSleepQueue q t w) u = queued q u + if t = u then 1 else 0 := by
  have h := ((List.perm_orderedInsert (fun a b : UInt32 × TaskId => a.1 < b.1) (w, t) q).map
    Prod.snd).count_eq u
  simp only [queued, addTaskToSleepQueue, h, List.map_cons, List.count_cons, beq_iff_eq]

@[simp] theorem queued_removeTaskFromSleepQueue (q : SleepQueue) (t u : TaskId) :
    queued (removeTaskFromSleepQueue q t) u = if t = u then 0 else queued q u := by
  induction q with
  | nil => simp [removeTaskFromSleepQueue]
  | cons e q ih =>
    by_cases he : e.2 = t <;> by_cases hu : t = u <;>
      simp_all [queued, removeTaskFromSleepQueue, List.filter_cons, List.count_cons]

/-- Removing a task that is not filed leaves the queue as it is. -/
theorem removeTaskFromSleepQueue_of_queued_eq_zero {q : SleepQueue} {t : TaskId}
    (h : queued q t = 0) : removeTaskFromSleepQueue q t = q :=
  List.filter_eq_self.2 fun e he => by
    have : t ∉ q.map Prod.snd := List.count_eq_zero.1 h
    simpa using fun h' => this (List.mem_map.2 ⟨e, he, h'⟩)

/-- Removing a task just filed, and not filed before, gives the queue back. -/
theorem removeTaskFromSleepQueue_addTaskToSleepQueue {q : SleepQueue} {t : TaskId} (w : UInt32)
    (h : queued q t = 0) : removeTaskFromSleepQueue (addTaskToSleepQueue q t w) t = q := by
  induction q with
  | nil => simp [removeTaskFromSleepQueue, addTaskToSleepQueue]
  | cons e q ih =>
    have he : e.2 ≠ t := fun he => by simp [queued, he] at h
    have hq : queued q t = 0 := by
      simp only [queued, List.map_cons, List.count_cons] at h ⊢; omega
    have hk : removeTaskFromSleepQueue (e :: q) t = e :: q := by
      rw [removeTaskFromSleepQueue, List.filter_cons_of_pos (by simpa using he)]
      exact congrArg _ (removeTaskFromSleepQueue_of_queued_eq_zero hq)
    simp only [addTaskToSleepQueue, List.orderedInsert] at ih ⊢
    split_ifs
    · rw [removeTaskFromSleepQueue, List.filter_cons_of_neg (by simp)]; exact hk
    · rw [removeTaskFromSleepQueue, List.filter_cons_of_pos (by simpa using he)]
      exact congrArg _ (ih hq)

end Time
end Hopter
