/-
# One waiting task

`Mailbox` allows only one task to wait on it (`mailbox.rs`, lines 15-19).  For a
run in which task `me` is that task, `WaiterInv` collects what holds of every
state: the single-waiter `assert!` of line 174 never fails, only `me` is ever in
`wait_task` or the sleep queue, at most once and only between its first closure
and whichever of its timeout or a notifier's wake-up comes first, and a blocking
call ends with both cleared.  `decided` is the episode's outcome: either a
notifier took `wait_task` and set `task_notified`, or nobody did and the flag is
still the `false` the first closure stored.

`NoLostWakeup` holds on every run, with any number of waiting tasks: while a task
is registered in `wait_task`, no notification sits in `count`, save for the
instant inside `run_pended_op` between its `fetch_add` and its `take`.
-/

import Hopter.Mailbox.Step

namespace Hopter
namespace Mailbox

open Time Function

/-! ### No notification left beside a registered task -/

/-- While a task is registered in `wait_task`, `count` is `0`, except inside
`run_pended_op` between its `fetch_add` and its `take`. -/
def Sys.NoLostWakeup (s : Sys) : Prop :=
  s.waitTask ≠ none → s.count = 0 ∨ s.pendedOp = some .take

theorem Sys.NoLostWakeup.step {s s' : Sys} {a : Act} (hi : s.NoLostWakeup)
    (h : step s a = some s') : s'.NoLostWakeup := by
  cases a with
  | wait t ms => obtain ⟨-, -, -, rfl⟩ := step_wait.1 h; exact hi
  | resume t => obtain ⟨-, -, -, -, rfl⟩ := step_resume.1 h; exact hi
  | notify => obtain ⟨-, ⟨-, rfl⟩ | ⟨-, rfl⟩⟩ := step_notify.1 h <;> exact hi
  | closure tick =>
    obtain ⟨-, -, -, hc⟩ := step_closure.1 h
    obtain ⟨t, ms, -, -, rfl⟩ | ⟨t, -, -, rfl⟩ | ⟨-, rfl⟩ := runClosure_eq_some.1 hc
    · unfold Sys.waitPhase1
      split_ifs with hw hc
      · exact hi
      · simp_all [Sys.NoLostWakeup]
      · simp only [Sys.NoLostWakeup]; omega
    · simp [Sys.NoLostWakeup, Sys.waitPhase2]
    · unfold Sys.notifyFull; split <;> simp_all [Sys.NoLostWakeup]
  | runPendedOp =>
    obtain ⟨-, -, hop, -, rfl⟩ := step_runPendedOp.1 h
    exact fun hw => .inl ((hi hw).resolve_right (by simp [hop]))
  | swapPending =>
    obtain ⟨-, hop, rfl⟩ := step_swapPending.1 h
    exact fun hw => .inl ((hi hw).resolve_right (by simp [hop]))
  | addPending => obtain ⟨-, v, -, rfl⟩ := step_addPending.1 h; exact fun _ => .inr rfl
  | takeWaiter =>
    obtain ⟨-, -, rfl⟩ := step_takeWaiter.1 h
    unfold Sys.takeWaiter; split <;> simp_all [Sys.NoLostWakeup]
  | release =>
    obtain ⟨-, -, hr⟩ := step_release.1 h
    obtain ⟨t, b, -, -, rfl⟩ | ⟨t, b, -, -, rfl⟩ | ⟨-, rfl⟩ := releaseAccess_eq_some.1 hr <;>
      exact hi
  | timeout t => obtain ⟨-, -, rfl⟩ := step_timeout.1 h; exact hi

/-- **No lost wake-up.**  In every reachable state of every run, with any number
of waiting tasks, notifiers and timeouts: if a task is registered in
`wait_task`, then `count = 0`, unless `run_pended_op` is between its
`fetch_add` into `count` and its `take` of `wait_task`. -/
theorem noLostWakeup_of_reach {s : Sys} (h : Reach AnyStep s) : s.NoLostWakeup := by
  induction h with
  | new => exact fun hw => absurd rfl hw
  | step _ hs _ ih => exact ih.step hs

/-- Task `0` registers on a fresh mailbox, and while it still holds full access a
pend-only notification lands: it waits in `pending_count`, and `count` is `0`. -/
theorem noLostWakeup_pended :
    (Sys.after [.wait 0 500, .closure 0, .notify]).count = 0 ∨
      (Sys.after [.wait 0 500, .closure 0, .notify]).pendedOp = some .take :=
  noLostWakeup_of_reach ((@Reach.of_run 0 _ [.wait 0 500, .closure 0, .notify] rfl
    (by simp [Act.caller]) (by decide)).mono fun _ _ _ _ => trivial) (by decide)

/-- `NoLostWakeup` on a run of any class of steps. -/
theorem Reach.noLostWakeup {ok : Sys → Act → Sys → Prop} {s : Sys} (h : Reach ok s) :
    s.NoLostWakeup := by
  induction h with
  | new => exact fun hw => absurd rfl hw
  | step _ hs _ ih => exact ih.step hs

/-! ### The waiting task's episodes -/

/-- Where task `me`'s call stands, as `wait_task`, `task_notified` and the sleep
queue record it: outside a blocking stretch nothing is registered or asleep;
inside it, either `me` is still registered with its flag cleared, or a notifier
took it out of `wait_task` and the sleep queue and set the flag. -/
def Episode (me : TaskId) (s : Sys) : WaitPc → Prop
  | .leave true | .blocked =>
    s.waitTask = some me ∧ s.taskNotified = false ∧ queued s.sleepQueue me ≤ 1 ∨
      s.waitTask = none ∧ s.taskNotified = true ∧ queued s.sleepQueue me = 0
  | .phase2 =>
    (s.waitTask = some me ∧ s.taskNotified = false ∨ s.waitTask = none ∧ s.taskNotified = true) ∧
      queued s.sleepQueue me = 0
  | _ => s.waitTask = none ∧ queued s.sleepQueue me = 0

/-- What holds of every state of a run in which `me` is the only task that ever
calls `wait_until_timeout`. -/
structure WaiterInv (me : TaskId) (s : Sys) : Prop where
  /-- The single-waiter `assert!` has never failed. -/
  running : s.aborted = false
  /-- No other task is inside the call. -/
  others : ∀ t, t ≠ me → s.pc t = .idle
  /-- Only `me` ever holds full access as a task ... -/
  holderTask : ∀ t, s.holder = some (.task t) → t = me
  /-- ... and it does exactly while inside one of its closures. -/
  holder : s.holder = some (.task me) ↔ (s.pc me).holding
  /-- Nobody else sleeps. -/
  asleep : ∀ t, t ≠ me → queued s.sleepQueue t = 0
  /-- `me`'s own call. -/
  episode : Episode me s (s.pc me)

namespace WaiterInv

variable {me : TaskId} {s s' : Sys}

theorem new : WaiterInv me Sys.new where
  running := rfl
  others _ _ := rfl
  holderTask _ h := nomatch h
  holder := by simp [Sys.new]
  asleep _ _ := rfl
  episode := ⟨rfl, rfl⟩

theorem waitTask_eq (hi : WaiterInv me s) {t : TaskId} (h : s.waitTask = some t) : t = me := by
  have := hi.episode
  revert this; rcases s.pc me with _ | _ | (_ | _) | _ | _ | _ | _ <;> simp_all [Episode]

/-- While `me` is registered in `wait_task`, its call is in its blocking stretch. -/
theorem waiting_of_waitTask (hi : WaiterInv me s) (h : s.waitTask = some me) :
    (s.pc me).waiting = true := by
  have := hi.episode
  revert this; rcases s.pc me with _ | _ | (_ | _) | _ | _ | _ | _ <;> simp [Episode, h]

/-- Outside its blocking stretch, `me` is neither registered nor asleep. -/
theorem episode_settled {p : WaitPc} (hp : p.waiting = false) :
    Episode me s p ↔ s.waitTask = none ∧ queued s.sleepQueue me = 0 := by
  rcases p with _ | _ | (_ | _) | _ | _ | _ | _ <;> simp_all [Episode]

theorem episode_congr {p : WaitPc} (h1 : s'.waitTask = s.waitTask)
    (h2 : s'.taskNotified = s.taskNotified) (h3 : s'.sleepQueue = s.sleepQueue) :
    Episode me s' p ↔ Episode me s p := by
  rcases p with _ | _ | (_ | _) | _ | _ | _ | _ <;> simp [Episode, h1, h2, h3]

/-- A step that touches no task, no holder, nor `wait_task`, `task_notified` or
the sleep queue. -/
theorem frame (hi : WaiterInv me s) (h1 : s'.aborted = s.aborted) (h2 : s'.pc = s.pc)
    (h3 : s'.holder = s.holder) (h4 : s'.waitTask = s.waitTask)
    (h5 : s'.taskNotified = s.taskNotified) (h6 : s'.sleepQueue = s.sleepQueue) :
    WaiterInv me s' where
  running := h1 ▸ hi.running
  others := h2 ▸ hi.others
  holderTask := h3 ▸ hi.holderTask
  holder := by rw [h2, h3]; exact hi.holder
  asleep := h6 ▸ hi.asleep
  episode := by rw [h2, episode_congr h4 h5 h6]; exact hi.episode

/-- A notifier takes `me` out of `wait_task` and the sleep queue and sets its flag. -/
theorem episode_handOff (hi : WaiterInv me s) (hw : s.waitTask = some me) {s' : Sys}
    (h1 : s'.waitTask = none) (h2 : s'.taskNotified = true)
    (h3 : s'.sleepQueue = removeTaskFromSleepQueue s.sleepQueue me) :
    Episode me s' (s.pc me) := by
  have := hi.episode
  revert this
  rcases s.pc me with _ | _ | (_ | _) | _ | _ | _ | _ <;> simp_all [Episode]

/-- With nobody registered, setting `task_notified` changes no episode. -/
theorem episode_setNotified (hi : WaiterInv me s) (hw : s.waitTask = none) {s' : Sys}
    (h1 : s'.waitTask = none) (h2 : s'.taskNotified = true) (h3 : s'.sleepQueue = s.sleepQueue) :
    Episode me s' (s.pc me) := by
  have := hi.episode
  revert this
  rcases s.pc me with _ | _ | (_ | _) | _ | _ | _ | _ <;> simp_all [Episode]

theorem wait {ms : UInt32} (hi : WaiterInv me s) (h : step s (.wait me ms) = some s') :
    WaiterInv me s' := by
  obtain ⟨-, hh, hout, rfl⟩ := step_wait.1 h
  have hset := (episode_settled (by revert hout; cases s.pc me <;> simp)).1 hi.episode
  refine ⟨hi.running, fun t ht => by simp [update_noteq ht, hi.others t ht], ?_, by simp,
    hi.asleep, ?_⟩
  · simp [eq_comm]
  · simp only [update_same]; exact (episode_settled (p := .phase1 ms) rfl).2 hset

theorem resume {t : TaskId} (hi : WaiterInv me s) (h : step s (.resume t) = some s') :
    WaiterInv me s' := by
  obtain ⟨-, hh, hb, hq, rfl⟩ := step_resume.1 h
  obtain rfl : t = me := by by_contra ht; simp [hi.others t ht] at hb
  have := hi.episode
  rw [hb] at this
  refine ⟨hi.running, fun u hu => by simp [update_noteq hu, hi.others u hu], ?_, by simp,
    hi.asleep, ?_⟩
  · simp [eq_comm]
  · simp only [update_same, Episode]
    exact ⟨by rcases this with ⟨h1, h2, -⟩ | ⟨h1, h2, -⟩ <;> simp [h1, h2], hq⟩

theorem notify (hi : WaiterInv me s) (h : step s .notify = some s') : WaiterInv me s' := by
  obtain ⟨-, ⟨hh, rfl⟩ | ⟨-, rfl⟩⟩ := step_notify.1 h
  · exact { hi with holderTask := by simp, holder := by simpa [hh] using hi.holder }
  · exact hi.frame rfl rfl rfl rfl rfl rfl

theorem closure {tick : UInt32} (hi : WaiterInv me s) (h : step s (.closure tick) = some s') :
    WaiterInv me s' := by
  obtain ⟨-, -, -, hc⟩ := step_closure.1 h
  obtain ⟨t, ms, hh, hp, rfl⟩ | ⟨t, hh, hp, rfl⟩ | ⟨hh, rfl⟩ := runClosure_eq_some.1 hc
  · obtain rfl := hi.holderTask t hh
    have hset := (episode_settled (by simp [hp])).1 (hp ▸ hi.episode)
    unfold Sys.waitPhase1
    rw [if_neg (by simp [hset.1])]
    split_ifs
    · refine ⟨hi.running, fun u hu => by simp [update_noteq hu, hi.others u hu], hi.holderTask,
        by simp [hh], hi.asleep, ?_⟩
      simp only [update_same]; exact (episode_settled (p := .leave false) rfl).2 hset
    · refine ⟨hi.running, fun u hu => by simp [update_noteq hu, hi.others u hu], hi.holderTask,
        by simp [hh], fun u hu => by simp [hi.asleep u hu, Ne.symm hu], ?_⟩
      simp [Episode, hset.2]
  · obtain rfl := hi.holderTask t hh
    have hep := hi.episode
    rw [hp] at hep
    refine ⟨hi.running, fun u hu => by simp [Sys.waitPhase2, update_noteq hu, hi.others u hu],
      hi.holderTask, by simp [Sys.waitPhase2, hh], hi.asleep, ?_⟩
    simp only [Sys.waitPhase2, update_same]
    exact (episode_settled (p := .finish s.taskNotified) rfl).2 ⟨rfl, hep.2⟩
  · have hl : (s.pc me).holding = false := by simpa [hh] using hi.holder
    unfold Sys.notifyFull
    split
    · rename_i w hw
      obtain rfl := hi.waitTask_eq hw
      exact { running := hi.running, others := hi.others, holderTask := by simp,
              holder := by simp only [hl]; simp, asleep := fun u hu => by simp [hi.asleep u hu],
              episode := hi.episode_handOff hw rfl rfl rfl }
    · rename_i hw
      exact { running := hi.running, others := hi.others, holderTask := by simp,
              holder := by simp only [hl]; simp, asleep := hi.asleep,
              episode := hi.episode_setNotified hw hw rfl rfl }

theorem takeWaiter (hi : WaiterInv me s) (h : step s .takeWaiter = some s') : WaiterInv me s' := by
  obtain ⟨-, -, rfl⟩ := step_takeWaiter.1 h
  unfold Sys.takeWaiter
  split
  · rename_i w hw
    obtain rfl := hi.waitTask_eq hw
    exact { hi with asleep := fun u hu => by simp [hi.asleep u hu],
                    episode := hi.episode_handOff hw rfl rfl rfl }
  · exact hi.frame rfl rfl rfl rfl rfl rfl

theorem release (hi : WaiterInv me s) (h : step s .release = some s') : WaiterInv me s' := by
  obtain ⟨-, -, hr⟩ := step_release.1 h
  obtain ⟨t, b, hh, hp, rfl⟩ | ⟨t, b, hh, hp, rfl⟩ | ⟨hh, rfl⟩ := releaseAccess_eq_some.1 hr
  · obtain rfl := hi.holderTask t hh
    have hep := hi.episode
    rw [hp] at hep
    exact ⟨hi.running, fun u hu => by simp [update_noteq hu, hi.others u hu], by simp,
      by cases b <;> simp, hi.asleep, by cases b <;> simpa [Episode] using hep⟩
  · obtain rfl := hi.holderTask t hh
    have hep := hi.episode
    rw [hp] at hep
    exact ⟨hi.running, fun u hu => by simp [update_noteq hu, hi.others u hu], by simp, by simp,
      hi.asleep, by simpa [Episode] using hep⟩
  · exact { hi with holderTask := by simp, holder := by simpa [hh] using hi.holder }

theorem timeout {t : TaskId} (hi : WaiterInv me s) (h : step s (.timeout t) = some s') :
    WaiterInv me s' := by
  obtain ⟨-, hq, rfl⟩ := step_timeout.1 h
  obtain rfl : me = t := by by_contra ht; simp [hi.asleep t (Ne.symm ht)] at hq
  refine { hi with asleep := fun u hu => by simp [hi.asleep u hu], episode := ?_ }
  have := hi.episode
  revert this
  rcases s.pc me with _ | _ | (_ | _) | _ | _ | _ | _ <;> simp [Episode] <;> tauto

/-- `WaiterInv` is preserved by every step of a single-waiter run. -/
theorem next {a : Act} (hi : WaiterInv me s) (h : Mailbox.step s a = some s')
    (ha : SingleWaiter me s a s') : WaiterInv me s' := by
  cases a with
  | wait t ms => obtain rfl := ha t rfl; exact hi.wait h
  | resume t => exact hi.resume h
  | notify => exact hi.notify h
  | closure tick => exact hi.closure h
  | runPendedOp =>
    obtain ⟨-, -, -, -, rfl⟩ := step_runPendedOp.1 h; exact hi.frame rfl rfl rfl rfl rfl rfl
  | swapPending =>
    obtain ⟨-, -, rfl⟩ := step_swapPending.1 h; exact hi.frame rfl rfl rfl rfl rfl rfl
  | addPending =>
    obtain ⟨-, v, -, rfl⟩ := step_addPending.1 h; exact hi.frame rfl rfl rfl rfl rfl rfl
  | takeWaiter => exact hi.takeWaiter h
  | release => exact hi.release h
  | timeout t => exact hi.timeout h

/-- On every step but a new call, `trueWaits` grows exactly as `me`'s call comes
to decide that it returns `true`. -/
theorem trueWaits_step {a : Act} (hi : WaiterInv me s) (h : Mailbox.step s a = some s')
    (hc : a.caller = none) :
    s'.trueWaits + (s.pc me).took.toNat = s.trueWaits + (s'.pc me).took.toNat := by
  cases a with
  | wait t ms => cases hc
  | resume t =>
    obtain ⟨-, -, hb, -, rfl⟩ := step_resume.1 h
    obtain rfl : t = me := by by_contra ht; simp [hi.others t ht] at hb
    simp [hb]
  | notify => obtain ⟨-, ⟨-, rfl⟩ | ⟨-, rfl⟩⟩ := step_notify.1 h <;> rfl
  | closure tick =>
    obtain ⟨-, -, -, hcl⟩ := step_closure.1 h
    obtain ⟨t, ms, hh, hp, rfl⟩ | ⟨t, hh, hp, rfl⟩ | ⟨-, rfl⟩ := runClosure_eq_some.1 hcl
    · obtain rfl := hi.holderTask t hh
      have hset := (episode_settled (by simp [hp])).1 (hp ▸ hi.episode)
      unfold Sys.waitPhase1
      rw [if_neg (by simp [hset.1])]
      split_ifs <;> simp [hp]
    · obtain rfl := hi.holderTask t hh
      cases htn : s.taskNotified <;> simp [Sys.waitPhase2, hp, htn]
    · simp
  | runPendedOp => obtain ⟨-, -, -, -, rfl⟩ := step_runPendedOp.1 h; rfl
  | swapPending => obtain ⟨-, -, rfl⟩ := step_swapPending.1 h; rfl
  | addPending => obtain ⟨-, v, -, rfl⟩ := step_addPending.1 h; rfl
  | takeWaiter => obtain ⟨-, -, rfl⟩ := step_takeWaiter.1 h; simp
  | release =>
    obtain ⟨-, -, hr⟩ := step_release.1 h
    obtain ⟨t, b, hh, hp, rfl⟩ | ⟨t, b, hh, hp, rfl⟩ | ⟨-, rfl⟩ := releaseAccess_eq_some.1 hr
    · obtain rfl := hi.holderTask t hh
      cases b <;> simp [hp]
    · obtain rfl := hi.holderTask t hh
      simp [hp]
    · rfl
  | timeout t => obtain ⟨-, -, rfl⟩ := step_timeout.1 h; rfl

end WaiterInv

theorem Reach.waiterInv {me : TaskId} {s : Sys} (h : Reach (SingleWaiter me) s) :
    WaiterInv me s := by
  induction h with
  | new => exact .new
  | step _ hs ha ih => exact ih.next hs ha

/-- **Episodes end cleanly with one waiting task.**  In every state of every run
in which `me` is the only task calling `wait_until_timeout`, whatever the
notifiers, their access and the timeouts: the single-waiter `assert!` has never
failed; no other task is asleep, and `me` at most once; `me` is asleep only while
still registered in `wait_task`, between its first closure and its second, so
only until its timeout or a notifier's wake-up; and once the call has returned,
by either outcome, `wait_task` is empty and `me` is not in the sleep queue. -/
theorem waiter_episodes_clean {me : TaskId} {s : Sys} (h : Reach (SingleWaiter me) s) :
    s.aborted = false ∧ (∀ t, t ≠ me → queued s.sleepQueue t = 0) ∧
      queued s.sleepQueue me ≤ 1 ∧
      (0 < queued s.sleepQueue me →
        s.waitTask = some me ∧ (s.pc me = .leave true ∨ s.pc me = .blocked)) ∧
      ((s.pc me).outside → s.waitTask = none ∧ queued s.sleepQueue me = 0) := by
  have hi := h.waiterInv
  refine ⟨hi.running, hi.asleep, ?_⟩
  have := hi.episode
  revert this
  rcases s.pc me with _ | _ | (_ | _) | _ | _ | _ | _ <;> simp [Episode] <;> aesop

/-- Task `0` parked on a fresh mailbox: filed once, and registered. -/
theorem waiter_episodes_clean_parked :
    (Sys.after [.wait 0 500, .closure 0, .release]).aborted = false ∧
      (∀ t, t ≠ 0 → queued (Sys.after [.wait 0 500, .closure 0, .release]).sleepQueue t = 0) ∧
      queued (Sys.after [.wait 0 500, .closure 0, .release]).sleepQueue 0 ≤ 1 ∧
      (0 < queued (Sys.after [.wait 0 500, .closure 0, .release]).sleepQueue 0 →
        (Sys.after [.wait 0 500, .closure 0, .release]).waitTask = some 0 ∧
          ((Sys.after [.wait 0 500, .closure 0, .release]).pc 0 = .leave true ∨
            (Sys.after [.wait 0 500, .closure 0, .release]).pc 0 = .blocked)) ∧
      (((Sys.after [.wait 0 500, .closure 0, .release]).pc 0).outside →
        (Sys.after [.wait 0 500, .closure 0, .release]).waitTask = none ∧
          queued (Sys.after [.wait 0 500, .closure 0, .release]).sleepQueue 0 = 0) :=
  waiter_episodes_clean (Reach.of_run [.wait 0 500, .closure 0, .release] rfl
    (by simp [Act.caller]) (by decide)).single

end Mailbox
end Hopter
