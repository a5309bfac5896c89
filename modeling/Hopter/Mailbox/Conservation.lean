/-
# No notification lost or duplicated, with one waiting task

With one task calling `wait_until_timeout`, the tally of `Hopter.Mailbox.Tally`
is exact.  Every call of `notify_allow_isr` is, at every instant, in exactly one
place: received by a `wait_until_timeout` call whose closure decided to return
`true`, in `count`, in `pending_count`, in the hands of a `run_pended_op`
between its `swap` and its `fetch_add` (`inflight`), with a notifier holding
full access whose closure has not run (`notifying`), or handed to the waiting
task by a notifier that took it out of `wait_task`, its second closure not yet
run (`owed`).  `CountInv` says so for every run with one waiting task in which
fewer than `2^usize` notifications are ever outstanding.

`Tally`'s other facts give the rest.  No closure starts while a notification
sits in `pending_count`, so an interrupt's notification is in the mailbox's
canonical state by the next closure (`isr_notify_reflected`).  While a task is
registered, whatever `run_pended_op` is doing has at least one notification to
hand it, so `count` is never decremented from `0` (`count_never_underflows`).
Without the bound the counters wrap: `run_pended_op` then takes a task out of
`wait_task` with `count = 0` (`count_underflows`), and a wait blocks beside
`2^usize` outstanding notifications (`wait_blocks_outstanding`).
-/

import Hopter.Mailbox.Waiter
import Hopter.Mailbox.Tally

namespace Hopter
namespace Mailbox

open Time Function

/-- A notification a notifier handed to `me`'s blocking call, by taking `me` out
of `wait_task`, that its second closure has not yet received. -/
def Sys.owed (me : TaskId) (s : Sys) : Nat :=
  if s.waitTask = none ∧ (s.pc me).waiting = true then 1 else 0

/-- The counting invariant of a single-waiter run with fewer than `2^usize`
notifications ever outstanding. -/
structure CountInv (me : TaskId) (s : Sys) : Prop where
  /-- Every call of `notify_allow_isr` is in exactly one place. -/
  conserved :
    s.notifyCalls = s.trueWaits + s.count + s.pendingCount + s.inflight + s.notifying + s.owed me

namespace CountInv

variable {me : TaskId} {s s' : Sys}

theorem new : CountInv me Sys.new := ⟨rfl⟩

theorem count_lt (hi : CountInv me s) (hb : s.Bounded) : s.count < usizeSize := by
  have := hi.conserved; unfold Sys.Bounded at hb; omega

/-- A step that moves no notification and leaves `owed` alone. -/
theorem frame (hi : CountInv me s) (h1 : s'.count = s.count)
    (h2 : s'.pendingCount = s.pendingCount) (h3 : s'.inflight = s.inflight)
    (h4 : s'.notifyCalls = s.notifyCalls) (h5 : s'.trueWaits = s.trueWaits)
    (h6 : s'.notifying = s.notifying) (h7 : s'.owed me = s.owed me) : CountInv me s' :=
  ⟨by rw [h1, h2, h3, h4, h5, h6, h7]; exact hi.conserved⟩

/-- `me` takes one of its own steps: its place in the call moves from `p` to `q`
without entering or leaving the blocking stretch, and no notifier's closure is
pending on either side. -/
theorem frame_pc (hi : CountInv me s) {q : WaitPc} (hq : q.waiting = (s.pc me).waiting)
    (hn : s'.notifying = s.notifying)
    (hs' : s' = { s with holder := s'.holder, pc := update s.pc me q }) : CountInv me s' :=
  hi.frame (by rw [hs']) (by rw [hs']) (by rw [hs']; rfl) (by rw [hs']) (by rw [hs']) hn
    (by rw [hs']; simp only [Sys.owed, update_same, hq])

theorem wait {ms : UInt32} (hi : CountInv me s) (h : step s (.wait me ms) = some s') :
    CountInv me s' := by
  obtain ⟨-, hh, hout, rfl⟩ := step_wait.1 h
  exact hi.frame_pc (by revert hout; cases s.pc me <;> simp) (by simp [Sys.notifying, hh]) rfl

theorem resume {t : TaskId} (hi : CountInv me s) (hw : WaiterInv me s)
    (h : step s (.resume t) = some s') : CountInv me s' := by
  obtain ⟨-, hh, hb, -, rfl⟩ := step_resume.1 h
  obtain rfl : t = me := by by_contra ht; simp [hw.others t ht] at hb
  exact hi.frame_pc (by simp [hb]) (by simp [Sys.notifying, hh]) rfl

theorem notify (hi : CountInv me s) (hb' : s'.Bounded) (h : step s .notify = some s') :
    CountInv me s' := by
  have hc := hi.conserved
  obtain ⟨-, ⟨hh, rfl⟩ | ⟨hh, rfl⟩⟩ := step_notify.1 h
  · -- full access taken: the call holds its notification until its closure runs
    refine ⟨?_⟩
    simp only [Sys.inflight, Sys.notifying, Sys.owed, hh, reduceCtorEq, ↓reduceIte, add_zero]
      at hc ⊢
    omega
  · have hlt : s.pendingCount + 1 < usizeSize := by
      have : s.notifyCalls + 1 < s.trueWaits + usizeSize := hb'
      omega
    refine ⟨?_⟩
    simp only [Sys.inflight, Sys.notifying, Sys.owed, Sys.notifyPendOnly, wrappingAdd_of_lt hlt]
      at hc ⊢
    omega

theorem closure {tick : UInt32} (hi : CountInv me s) (ht : Tally s) (hw : WaiterInv me s)
    (hb : s.Bounded) (h : step s (.closure tick) = some s') : CountInv me s' := by
  obtain ⟨-, hop, hpd, hc⟩ := step_closure.1 h
  have hc0 := hi.conserved
  have hinf : s.inflight = 0 := by simp [Sys.inflight, hop]
  have hpc := ht.pendingCount_eq_zero hop hpd
  obtain ⟨t, ms, hh, hp, rfl⟩ | ⟨t, hh, hp, rfl⟩ | ⟨hh, rfl⟩ := runClosure_eq_some.1 hc
  · obtain rfl := hw.holderTask t hh
    have hset := (WaiterInv.episode_settled (by simp [hp])).1 (hp ▸ hw.episode)
    unfold Sys.waitPhase1
    rw [if_neg (by simp [hset.1])]
    split_ifs with hcnt
    · -- a notification in `count` received
      have hsub := wrappingSub_one_of_pos hcnt (hi.count_lt hb)
      refine ⟨?_⟩
      simp only [Sys.inflight, hop, add_zero, Sys.notifying, hh, Option.some.injEq, reduceCtorEq,
        ↓reduceIte, Sys.owed, hset.1, WaitPc.waiting, hp, Bool.false_eq_true, and_false, hsub,
        update_same] at hc0 ⊢
      omega
    · -- `me` registers, with nothing yet owed
      refine ⟨?_⟩
      simp only [Sys.inflight, hop, add_zero, Sys.notifying, hh, Option.some.injEq, reduceCtorEq,
        ↓reduceIte, Sys.owed, WaitPc.waiting, hp, Bool.false_eq_true, and_false, update_same,
        and_true] at hc0 ⊢
      omega
  · -- `me` leaves its blocking stretch, receiving what it was owed
    obtain rfl := hw.holderTask t hh
    have hep := hw.episode
    rw [hp] at hep
    refine ⟨?_⟩
    simp only [Sys.inflight, hop, add_zero, Sys.notifying, hh, Option.some.injEq, reduceCtorEq,
      ↓reduceIte, Sys.owed, WaitPc.waiting, hp, and_true, Sys.waitPhase2, update_same,
      Bool.false_eq_true, and_false] at hc0 ⊢
    rcases hep.1 with ⟨h1, h2⟩ | ⟨h1, h2⟩ <;> simp [h1, h2] at hc0 ⊢ <;> omega
  · have hnot : s.notifying = 1 := by simp [Sys.notifying, hh]
    unfold Sys.notifyFull
    split
    · -- the notifier hands its notification to `me`
      rename_i w hwt
      obtain rfl := hw.waitTask_eq hwt
      refine ⟨?_⟩
      simp only [Sys.inflight, hop, Sys.notifying, hh, Sys.owed, hwt, hw.waiting_of_waitTask hwt,
        ↓reduceIte, reduceCtorEq, Option.some.injEq, Party.notifier.injEq, Bool.true_eq_false,
        and_self, false_and, add_zero] at hc0 ⊢
      omega
    · -- the notifier counts its notification
      rename_i hwt
      have hlt : s.count + 1 < usizeSize := by unfold Sys.Bounded at hb; omega
      refine ⟨?_⟩
      simp only [Sys.inflight, hop, Sys.notifying, hh, Sys.owed, hwt, true_and,
        wrappingAdd_of_lt hlt, Option.some.injEq, Party.notifier.injEq, Bool.true_eq_false,
        ↓reduceIte, add_zero] at hc0 ⊢
      omega

theorem runPendedOp (hi : CountInv me s) (h : step s .runPendedOp = some s') : CountInv me s' := by
  obtain ⟨-, -, hop, -, rfl⟩ := step_runPendedOp.1 h
  exact hi.frame rfl rfl (by simp [Sys.inflight, hop]) rfl rfl rfl rfl

theorem swapPending (hi : CountInv me s) (h : step s .swapPending = some s') : CountInv me s' := by
  obtain ⟨-, hop, rfl⟩ := step_swapPending.1 h
  have hc := hi.conserved
  refine ⟨?_⟩
  simp only [Sys.inflight, hop, add_zero, Sys.notifying, Sys.owed] at hc ⊢
  omega

theorem addPending (hi : CountInv me s) (hb : s.Bounded) (h : step s .addPending = some s') :
    CountInv me s' := by
  obtain ⟨-, v, hop, rfl⟩ := step_addPending.1 h
  have hc := hi.conserved
  have hinf : s.inflight = v := by simp [Sys.inflight, hop]
  have hlt : s.count + v < usizeSize := by unfold Sys.Bounded at hb; omega
  refine ⟨?_⟩
  simp only [Sys.inflight, hop, Sys.notifying, Sys.owed, wrappingAdd_of_lt hlt, add_zero] at hc ⊢
  omega

theorem takeWaiter (hi : CountInv me s) (ht : Tally s) (hw : WaiterInv me s) (hb : s.Bounded)
    (h : step s .takeWaiter = some s') : CountInv me s' := by
  obtain ⟨-, hop, rfl⟩ := step_takeWaiter.1 h
  have hc := hi.conserved
  unfold Sys.takeWaiter
  split
  · -- `me` is handed what `count` gives up
    rename_i w hwt
    obtain rfl := hw.waitTask_eq hwt
    have hcnt := (ht.supplied (by simp [hwt])).2.2.2 hop
    refine ⟨?_⟩
    simp only [Sys.inflight, hop, add_zero, Sys.notifying, Sys.owed, hwt, reduceCtorEq,
      hw.waiting_of_waitTask hwt, false_and, ↓reduceIte,
      wrappingSub_one_of_pos hcnt (hi.count_lt hb), and_self] at hc ⊢
    omega
  · exact hi.frame rfl rfl (by simp [Sys.inflight, hop]) rfl rfl rfl rfl

theorem release (hi : CountInv me s) (hw : WaiterInv me s) (h : step s .release = some s') :
    CountInv me s' := by
  obtain ⟨-, -, hr⟩ := step_release.1 h
  obtain ⟨t, b, hh, hp, rfl⟩ | ⟨t, b, hh, hp, rfl⟩ | ⟨hh, rfl⟩ := releaseAccess_eq_some.1 hr
  · obtain rfl := hw.holderTask t hh
    exact hi.frame_pc (by cases b <;> simp [hp]) (by simp [Sys.notifying, hh]) rfl
  · obtain rfl := hw.holderTask t hh
    exact hi.frame_pc (by simp [hp]) (by simp [Sys.notifying, hh]) rfl
  · exact hi.frame rfl rfl rfl rfl rfl (by simp [Sys.notifying, hh]) rfl

theorem timeout {t : TaskId} (hi : CountInv me s) (h : step s (.timeout t) = some s') :
    CountInv me s' := by
  obtain ⟨-, -, rfl⟩ := step_timeout.1 h
  exact hi.frame rfl rfl rfl rfl rfl rfl rfl

/-- `CountInv` is preserved by every step of a single-waiter run that stays below
`2^usize` outstanding notifications. -/
theorem next {a : Act} (hi : CountInv me s) (ht : Tally s) (hw : WaiterInv me s)
    (hb : s.Bounded) (h : step s a = some s') (ha : SingleBounded me s a s') : CountInv me s' := by
  cases a with
  | wait t ms => obtain rfl := ha.1 t rfl; exact hi.wait h
  | resume t => exact hi.resume hw h
  | notify => exact hi.notify ha.2 h
  | closure tick => exact hi.closure ht hw hb h
  | runPendedOp => exact hi.runPendedOp h
  | swapPending => exact hi.swapPending h
  | addPending => exact hi.addPending hb h
  | takeWaiter => exact hi.takeWaiter ht hw hb h
  | release => exact hi.release hw h
  | timeout t => exact hi.timeout h

end CountInv

theorem Reach.countInv {me : TaskId} {s : Sys} (h : Reach (SingleBounded me) s) :
    CountInv me s := by
  induction h with
  | new => exact .new
  | step hr hs ha ih => exact ih.next hr.any.tally hr.single.waiterInv hr.bounded hs ha

/-! ### What the counting invariant gives -/

/-- **No notification lost or duplicated; one winner per wait.**  In every state
of every run with one waiting task `me` and fewer than `2^usize` notifications
ever outstanding, wherever the pend-only notifications land and whenever the
timeouts fire: every call of `notify_allow_isr` has been received by a call
whose closure decided to return `true`, or sits in `count`, in `pending_count`,
in a `run_pended_op` between its `swap` and its `fetch_add`, with a notifier
whose closure has not run, or is owed to `me`'s blocking call by the notifier
that took it out of `wait_task`.  And throughout that call's blocking stretch
exactly one of two things holds: `me` is still registered with its flag cleared
(no notifier has won; a timeout may), or a notifier took it out of `wait_task`
and set the flag, once. -/
theorem notifications_conserved {me : TaskId} {s : Sys} (h : Reach (SingleBounded me) s) :
    s.notifyCalls =
        s.trueWaits + s.count + s.pendingCount + s.inflight + s.notifying + s.owed me ∧
      ((s.pc me).waiting = true →
        s.waitTask = some me ∧ s.taskNotified = false ∨
          s.waitTask = none ∧ s.taskNotified = true) := by
  refine ⟨h.countInv.conserved, fun hw => ?_⟩
  have := h.single.waiterInv.episode
  revert this hw
  rcases s.pc me with _ | _ | (_ | _) | _ | _ | _ | _ <;> simp [Episode] <;> tauto

/-- Task `1`, blocked, is woken by a notifier: the one notification posted is
owed to it, and it is out of `wait_task` with its flag set. -/
theorem notifications_conserved_handOff :
    (Sys.after handOffRun).notifyCalls =
        (Sys.after handOffRun).trueWaits + (Sys.after handOffRun).count +
          (Sys.after handOffRun).pendingCount + (Sys.after handOffRun).inflight +
          (Sys.after handOffRun).notifying + (Sys.after handOffRun).owed 1 ∧
      (((Sys.after handOffRun).pc 1).waiting = true →
        (Sys.after handOffRun).waitTask = some 1 ∧ (Sys.after handOffRun).taskNotified = false ∨
          (Sys.after handOffRun).waitTask = none ∧ (Sys.after handOffRun).taskNotified = true) :=
  notifications_conserved (Reach.of_run handOffRun rfl (by simp [handOffRun, Act.caller])
    (by decide))

/-- **`count` never underflows.**  In a run with one waiting task and fewer than
`2^usize` notifications ever outstanding, each `count.fetch_sub(1)` finds `count`
positive and stores `count - 1` unwrapped; and a `run_pended_op` that will find a
task in `wait_task` swapped at least one notification out of `pending_count`. -/
theorem count_never_underflows {me : TaskId} {s : Sys} (h : Reach (SingleBounded me) s) :
    (∀ a s', step s a = some s' → s.subsCount a → 0 < s.count ∧ s'.count = s.count - 1) ∧
      ∀ v, s.pendedOp = some (.fetchAdd v) → s.waitTask ≠ none → 0 < v := by
  have ht := h.any.tally
  refine ⟨fun a s' hs ha => ?_, fun v hv hw => (ht.supplied hw).2.2.1 v hv⟩
  have hpos : 0 < s.count := by
    cases a with
    | closure tick => obtain ⟨-, -, -, -, -, hc⟩ := ha; exact hc
    | takeWaiter => exact (ht.supplied ha.2).2.2.2 ha.1
    | _ => exact ha.elim
  exact ⟨hpos, (step_subsCount hs ha).trans
    (wrappingSub_one_of_pos hpos (h.countInv.count_lt h.bounded))⟩

/-- Task `0` registers; still holding full access, it receives a pend-only
notification and runs `run_pended_op`, whose last step is then about to take it
out of `wait_task` and apply `count.fetch_sub(1)` to the `1` just merged. -/
def mergeRun : List Act :=
  [.wait 0 500, .closure 0, .notify, .runPendedOp, .swapPending, .addPending]

theorem count_never_underflows_merged :
    (∀ a s', step (Sys.after mergeRun) a = some s' → (Sys.after mergeRun).subsCount a →
      0 < (Sys.after mergeRun).count ∧ s'.count = (Sys.after mergeRun).count - 1) ∧
      ∀ v, (Sys.after mergeRun).pendedOp = some (.fetchAdd v) →
        (Sys.after mergeRun).waitTask ≠ none → 0 < v :=
  count_never_underflows (@Reach.of_run 0 _ mergeRun rfl (by simp [mergeRun, Act.caller])
    (by decide))

/-- Without the bound, `run_pended_op` takes task `0` out of `wait_task` with
`count = 0` and stores `usize::MAX`: task `0` registers and, still holding full
access, receives one pend-only notification; its `run_pended_op` begins, and
`2^usize - 1` more land before the `swap`, which then finds `0`. -/
theorem count_underflows :
    ¬ ∀ (me : TaskId) (s : Sys), Reach (SingleWaiter me) s →
      (∀ a s', step s a = some s' → s.subsCount a → 0 < s.count ∧ s'.count = s.count - 1) ∧
        ∀ v, s.pendedOp = some (.fetchAdd v) → s.waitTask ≠ none → 0 < v := by
  intro h
  obtain ⟨s, hr, ha, hw, hop, hc⟩ : ∃ s, run Sys.new ([.wait 0 500, .closure 0, .notify,
        .runPendedOp] ++ List.replicate (usizeSize - 1) .notify ++ [.swapPending, .addPending]) =
        some s ∧ s.aborted = false ∧ s.waitTask = some 0 ∧ s.pendedOp = some .take ∧ s.count = 0 :=
    ⟨_, (run_burst (x := Sys.after [.wait 0 500, .closure 0, .notify, .runPendedOp])
      [.wait 0 500, .closure 0, .notify, .runPendedOp] rfl rfl
      (by decide) (by decide) _).trans rfl, rfl, rfl, rfl, rfl⟩
  have := ((h 0 s (Reach.new.steps (Steps.of_run hr (singleWaiter_of_mem
    (by simp))))).1 .takeWaiter _ (step_takeWaiter.2 ⟨ha, hop, rfl⟩) ⟨hop, by simp [hw]⟩).1
  rw [hc] at this
  exact Nat.lt_irrefl _ this

/-- **A wait blocks only when nothing is outstanding.**  In a run with one
waiting task `me` and fewer than `2^usize` notifications ever outstanding, the
first closure of a `wait_until_timeout` call returns `true` without registering
in `wait_task` or touching the sleep queue exactly when more notifications have
reached the mailbox than earlier calls have received. -/
theorem wait_blocks_iff_none_outstanding {me : TaskId} {s s' : Sys} {ms tick : UInt32}
    (h : Reach (SingleBounded me) s) (hp : s.pc me = .phase1 ms)
    (hs : step s (.closure tick) = some s') :
    (s'.pc me = .leave false ∧ s'.waitTask = none ∧ s'.sleepQueue = s.sleepQueue) ↔
      s.trueWaits < s.notifyCalls := by
  have hw := h.single.waiterInv
  obtain ⟨-, hop, hpd, hc⟩ := step_closure.1 hs
  have hset := (WaiterInv.episode_settled (by simp [hp])).1 (hp ▸ hw.episode)
  have hh := hw.holder.2 (by simp [hp])
  have hcons : s.notifyCalls = s.trueWaits + s.count := by
    have := h.countInv.conserved
    simp only [Sys.inflight, Sys.owed, Sys.notifying, hop, hp, hh,
      h.any.tally.pendingCount_eq_zero hop hpd] at this
    simpa using this
  simp only [Sys.runClosure, hh, hp, Option.some.injEq] at hc
  subst hc
  unfold Sys.waitPhase1
  rw [if_neg (by simp [hset.1])]
  split_ifs <;> simp [hset.1] <;> omega

/-- After one notification under full access, task `0`'s call consumes it. -/
theorem wait_blocks_iff_none_outstanding_notified :
    (Sys.after [.notify, .closure 0, .release, .wait 0 500, .closure 0]).pc 0 = .leave false :=
  ((@wait_blocks_iff_none_outstanding 0 (Sys.after [.notify, .closure 0, .release, .wait 0 500]) _
    500 0 (Reach.of_run [.notify, .closure 0, .release, .wait 0 500] rfl (by simp [Act.caller])
      (by decide)) rfl rfl).2 (by decide)).1

/-- Without the bound, a wait blocks with `2^usize` notifications outstanding:
a notifier takes full access, `2^usize - 1` pend-only notifications follow, its
`run_pended_op` moves them into `count` and its closure adds one more, so
`count` wraps to `0`; then task `0` calls `wait_until_timeout(500)`. -/
theorem wait_blocks_outstanding :
    ¬ ∀ (me : TaskId) (s s' : Sys) (ms tick : UInt32), Reach (SingleWaiter me) s →
      s.pc me = .phase1 ms → step s (.closure tick) = some s' →
      ((s'.pc me = .leave false ∧ s'.waitTask = none ∧ s'.sleepQueue = s.sleepQueue) ↔
        s.trueWaits < s.notifyCalls) := by
  intro h
  obtain ⟨s, s', hr, hs, hp, htw, hnc, hp'⟩ : ∃ s s', run Sys.new ([.notify] ++
        List.replicate (usizeSize - 1) .notify ++ [.runPendedOp, .swapPending, .addPending,
          .takeWaiter, .closure 0, .release, .wait 0 500]) = some s ∧
        step s (.closure 0) = some s' ∧ s.pc 0 = .phase1 500 ∧ s.trueWaits = 0 ∧
        s.notifyCalls = usizeSize ∧ s'.pc 0 = .leave true := by
    rw [run_burst (x := Sys.after [.notify]) [.notify] rfl rfl (by decide) (by decide)]
    exact ⟨_, _, rfl, rfl, rfl, rfl, rfl, rfl⟩
  have := (h 0 s s' 500 0 (Reach.new.steps (Steps.of_run hr (singleWaiter_of_mem
    (by simp)))) hp hs).2 (by rw [htw, hnc]; decide)
  rw [hp'] at this
  exact absurd this.1 (by decide)

/-- **An interrupt's notification is never refused and never left behind.**  In
every state of every run with one waiting task `me` and fewer than `2^usize`
notifications outstanding, `notify_allow_isr` can run, whoever holds the
mailbox.  And whenever a closure is about to run under full access, every call
of `notify_allow_isr` so far is in the mailbox's canonical state: received, in
`count`, held by the notifier whose closure it is, or handed to `me`'s blocked
call; none is left in `pending_count` or in a `run_pended_op`. -/
theorem isr_notify_reflected {me : TaskId} {s : Sys} (h : Reach (SingleBounded me) s) :
    (∃ s', step s .notify = some s') ∧
      ∀ tick s', step s (.closure tick) = some s' →
        s.pendingCount = 0 ∧ s.inflight = 0 ∧
          s.notifyCalls = s.trueWaits + s.count + s.notifying + s.owed me := by
  refine ⟨step_notify_enabled h.single.waiterInv.running, fun tick s' hs => ?_⟩
  obtain ⟨-, hop, hpd, -⟩ := step_closure.1 hs
  have hpc := h.any.tally.pendingCount_eq_zero hop hpd
  have hinf : s.inflight = 0 := by simp [Sys.inflight, hop]
  have := h.countInv.conserved
  exact ⟨hpc, hinf, by omega⟩

/-- Task `0` calls `wait_until_timeout(500)`, and an interrupt preempts it with a
pend-only notification before its first closure; `run_pended_op` merges it into
`count`, and the closure is next. -/
def preemptRun : List Act :=
  [.wait 0 500, .notify, .runPendedOp, .swapPending, .addPending, .takeWaiter]

theorem isr_notify_reflected_merged :
    (∃ s', step (Sys.after preemptRun) .notify = some s') ∧
      ∀ tick s', step (Sys.after preemptRun) (.closure tick) = some s' →
        (Sys.after preemptRun).pendingCount = 0 ∧ (Sys.after preemptRun).inflight = 0 ∧
          (Sys.after preemptRun).notifyCalls = (Sys.after preemptRun).trueWaits +
            (Sys.after preemptRun).count + (Sys.after preemptRun).notifying +
            (Sys.after preemptRun).owed 0 :=
  isr_notify_reflected (Reach.of_run preemptRun rfl (by simp [preemptRun, Act.caller])
    (by decide))

end Mailbox
end Hopter
