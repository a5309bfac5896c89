/-
# The sleep queue with any number of waiting tasks

`Mailbox` is meant for one waiting task, and a second one can slip past the
`assert!` of `src/src/sync/mailbox.rs`, line 174 (`secondWaiter_not_caught`).
What the mailbox does to the kernel's sleep queue stays sound all the same.
Only the first closure files a task (line 196), and only after registering it
in `wait_task`; a notifier (line 236), `run_pended_op` (line 105) and the tick
handler take tasks out; a task resumes only once out.  So, in every run with any
number of waiting tasks (`sleepers_well_formed`): no task is filed twice, a
filed task is parked in its own blocking call, and `wait_task` names only a
task inside its blocking stretch.  A wake-up, early or at the deadline, never
takes out a task that is running or outside the call.
-/

import Hopter.Mailbox.Step

namespace Hopter
namespace Mailbox

open Time Function

/-- What every run keeps of the sleep queue and `wait_task`, however many tasks
wait. -/
structure SleepInv (s : Sys) : Prop where
  /-- No task is filed twice. -/
  once : ∀ t, queued s.sleepQueue t ≤ 1
  /-- A filed task has blocked, or is about to, in its own call. -/
  parked : ∀ t, 0 < queued s.sleepQueue t → s.pc t = .leave true ∨ s.pc t = .blocked
  /-- `wait_task` names only a task inside its blocking stretch. -/
  registered : ∀ t, s.waitTask = some t → (s.pc t).waiting = true

namespace SleepInv

variable {s s' : Sys}

theorem new : SleepInv Sys.new := ⟨fun _ => by simp [Sys.new], fun _ h => by simp [Sys.new] at h,
  fun _ h => nomatch h⟩

/-- A task not filed. -/
theorem queued_eq_zero (hi : SleepInv s) {t : TaskId} (hp : s.pc t ≠ .leave true)
    (hb : s.pc t ≠ .blocked) : queued s.sleepQueue t = 0 := by
  by_contra h; rcases hi.parked t (Nat.pos_of_ne_zero h) with h' | h' <;> contradiction

/-- A step that touches neither the sleep queue, nor `wait_task`, nor any task. -/
theorem frame (hi : SleepInv s) (h1 : s'.sleepQueue = s.sleepQueue) (h2 : s'.waitTask = s.waitTask)
    (h3 : s'.pc = s.pc) : SleepInv s' :=
  ⟨h1 ▸ hi.once, h1 ▸ h3 ▸ hi.parked, h2 ▸ h3 ▸ hi.registered⟩

/-- Task `t` moves to `q`, which it may hold if filed, or if registered
afterwards; `wait_task` is emptied or left alone. -/
theorem move (hi : SleepInv s) {t : TaskId} {q : WaitPc} (h1 : s'.sleepQueue = s.sleepQueue)
    (h2 : s'.waitTask = none ∨ s'.waitTask = s.waitTask) (h3 : s'.pc = update s.pc t q)
    (hq : 0 < queued s.sleepQueue t → q = .leave true ∨ q = .blocked)
    (hw : s'.waitTask = some t → q.waiting = true) : SleepInv s' := by
  refine ⟨h1 ▸ hi.once, fun u hu => ?_, fun u hu => ?_⟩ <;> rw [h3] <;> by_cases hut : u = t
  · subst hut; simpa using hq (h1 ▸ hu)
  · simpa [update_noteq hut] using hi.parked u (h1 ▸ hu)
  · subst hut; simpa using hw hu
  · rcases h2 with h2 | h2 <;> rw [h2] at hu
    · cases hu
    · simpa [update_noteq hut] using hi.registered u hu

/-- A wake-up: task `w` taken out of the sleep queue, and `wait_task` emptied or
left alone. -/
theorem wake (hi : SleepInv s) {w : TaskId}
    (h1 : s'.sleepQueue = removeTaskFromSleepQueue s.sleepQueue w)
    (h2 : s'.waitTask = none ∨ s'.waitTask = s.waitTask) (h3 : s'.pc = s.pc) : SleepInv s' := by
  refine ⟨fun u => ?_, fun u hu => ?_, fun u hu => ?_⟩
  · rw [h1, queued_removeTaskFromSleepQueue]; split_ifs <;> simp [hi.once u]
  · rw [h1, queued_removeTaskFromSleepQueue] at hu
    split_ifs at hu
    · omega
    · exact h3 ▸ hi.parked u hu
  · rcases h2 with h2 | h2 <;> rw [h2] at hu
    · cases hu
    · exact h3 ▸ hi.registered u hu

theorem step {a : Act} (hi : SleepInv s) (h : step s a = some s') : SleepInv s' := by
  cases a with
  | wait t ms =>
    obtain ⟨-, -, hout, rfl⟩ := step_wait.1 h
    exact hi.move rfl (.inr rfl) rfl
      (fun hq => by rcases hi.parked t hq with hp | hp <;> simp [hp] at hout)
      (fun hw => by have := hi.registered t hw; revert hout this; cases s.pc t <;> simp)
  | resume t =>
    obtain ⟨-, -, -, hq, rfl⟩ := step_resume.1 h
    exact hi.move rfl (.inr rfl) rfl (fun h => absurd h (by omega)) fun _ => rfl
  | notify => obtain ⟨-, ⟨-, rfl⟩ | ⟨-, rfl⟩⟩ := step_notify.1 h <;> exact hi.frame rfl rfl rfl
  | closure tick =>
    obtain ⟨-, -, -, hc⟩ := step_closure.1 h
    obtain ⟨t, ms, -, hp, rfl⟩ | ⟨t, -, hp, rfl⟩ | ⟨-, rfl⟩ := runClosure_eq_some.1 hc
    · have hq := hi.queued_eq_zero (t := t) (by simp [hp]) (by simp [hp])
      unfold Sys.waitPhase1
      split_ifs with hw
      · exact hi.frame rfl rfl rfl
      · exact hi.move rfl (.inr rfl) rfl (fun h => absurd h (by omega)) fun h => by simp_all
      · refine ⟨fun u => ?_, fun u hu => ?_, fun u hu => ?_⟩
        · by_cases hut : t = u
          · subst hut; simp [hq]
          · simp [hut, hi.once u]
        · by_cases hut : t = u
          · subst hut; simp
          · simp only [queued_addTaskToSleepQueue, hut, if_false, Nat.add_zero] at hu
            simpa [update_noteq (Ne.symm hut)] using hi.parked u hu
        · cases hu; simp
    · have hq := hi.queued_eq_zero (t := t) (by simp [hp]) (by simp [hp])
      exact hi.move rfl (.inl rfl) rfl (fun h => absurd h (by omega)) (by simp [Sys.waitPhase2])
    · unfold Sys.notifyFull
      split
      · exact hi.wake rfl (.inl rfl) rfl
      · exact hi.frame rfl rfl rfl
  | runPendedOp => obtain ⟨-, -, -, -, rfl⟩ := step_runPendedOp.1 h; exact hi.frame rfl rfl rfl
  | swapPending => obtain ⟨-, -, rfl⟩ := step_swapPending.1 h; exact hi.frame rfl rfl rfl
  | addPending => obtain ⟨-, v, -, rfl⟩ := step_addPending.1 h; exact hi.frame rfl rfl rfl
  | takeWaiter =>
    obtain ⟨-, -, rfl⟩ := step_takeWaiter.1 h
    unfold Sys.takeWaiter
    split
    · exact hi.wake rfl (.inl rfl) rfl
    · exact hi.frame rfl rfl rfl
  | release =>
    obtain ⟨-, -, hr⟩ := step_release.1 h
    obtain ⟨t, b, -, hp, rfl⟩ | ⟨t, b, -, hp, rfl⟩ | ⟨-, rfl⟩ := releaseAccess_eq_some.1 hr
    · cases b
      · have hq := hi.queued_eq_zero (t := t) (by simp [hp]) (by simp [hp])
        exact hi.move rfl (.inr rfl) rfl (fun h => absurd h (by omega))
          fun hw => by simpa [hp] using hi.registered t hw
      · exact hi.move rfl (.inr rfl) rfl (fun _ => by simp) fun _ => rfl
    · have hq := hi.queued_eq_zero (t := t) (by simp [hp]) (by simp [hp])
      exact hi.move rfl (.inr rfl) rfl (fun h => absurd h (by omega))
        fun hw => by simpa [hp] using hi.registered t hw
    · exact hi.frame rfl rfl rfl
  | timeout t => obtain ⟨-, -, rfl⟩ := step_timeout.1 h; exact hi.wake rfl (.inr rfl) rfl

end SleepInv

theorem Reach.sleepInv {s : Sys} (h : Reach AnyStep s) : SleepInv s := by
  induction h with
  | new => exact .new
  | step _ hs _ ih => exact ih.step hs

/-- **The sleep queue stays well formed, however many tasks wait.**  In every
state of every run, with any number of tasks calling `wait_until_timeout` on the
one mailbox, any notifiers and any timeouts: no task is in the sleep queue twice;
a task is in it only while it has blocked, or is about to, in its own call; and
`wait_task` names only a task between its registration and its second closure.
So no wake-up, by a notifier, by `run_pended_op` or at a deadline, ever takes
out of the sleep queue a task that is running or outside the call. -/
theorem sleepers_well_formed {s : Sys} (h : Reach AnyStep s) (t : TaskId) :
    queued s.sleepQueue t ≤ 1 ∧
      (0 < queued s.sleepQueue t → s.pc t = .leave true ∨ s.pc t = .blocked) ∧
      (s.waitTask = some t → (s.pc t).waiting = true) :=
  have hi := h.sleepInv
  ⟨hi.once t, hi.parked t, hi.registered t⟩

/-- Task `2` registers while task `1`, woken, has not yet run its second closure,
which then takes task `2`'s registration: task `2` stays filed, and parked. -/
theorem sleepers_well_formed_stolen :
    queued (Sys.after (secondWaiterRun ++ [.closure 0])).sleepQueue 2 ≤ 1 ∧
      (0 < queued (Sys.after (secondWaiterRun ++ [.closure 0])).sleepQueue 2 →
        (Sys.after (secondWaiterRun ++ [.closure 0])).pc 2 = .leave true ∨
          (Sys.after (secondWaiterRun ++ [.closure 0])).pc 2 = .blocked) ∧
      ((Sys.after (secondWaiterRun ++ [.closure 0])).waitTask = some 2 →
        ((Sys.after (secondWaiterRun ++ [.closure 0])).pc 2).waiting = true) :=
  sleepers_well_formed (Reach.new.steps (Steps.of_run
    (show run Sys.new (secondWaiterRun ++ [.closure 0]) = some _ from rfl)
    fun _ _ _ _ => trivial)) 2

end Mailbox
end Hopter
