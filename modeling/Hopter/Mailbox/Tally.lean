/-
# No notification counted twice, however many tasks wait

`Mailbox` is meant for one waiting task, and with two a notification can be
lost (`secondWaiter_not_caught`).  None is ever counted twice, though.  Every
call of `notify_allow_isr` is at every instant in at most one place: received by
a call of `wait_until_timeout` whose closure decided to return `true`, in
`count`, in `pending_count`, in a `run_pended_op` between its `swap` and its
`fetch_add` (`inflight`), with a notifier that holds full access and has not run
its closure (`notifying`), or owed to a task in its blocking stretch that is no
longer registered in `wait_task`.

That last place needs care.  A task that a notifier or `run_pended_op` took out
of `wait_task` is owed the notification that took it out; a task whose
registration another task's second closure took (line 211) is owed nothing, yet
both read the one `task_notified`.  A registered task reads the flag clear, since
only a wake-up sets it and a wake-up empties `wait_task`; so at most the tasks in
a blocking stretch other than the registered one can read it set, and the tally
counts each of them as owed.  `Tally` is that count with the facts that keep it,
in every run with any number of waiting tasks in which fewer than `2^usize`
notifications are ever outstanding (`notifications_never_duplicated`).  It
bounds what the counters hold, so that no `fetch_add` of the mailbox wraps
(`fetchAdd_never_wraps`); without the bound one does (`fetchAdd_wraps`).
-/

import Mathlib.Data.Finset.Card
import Hopter.Mailbox.Sleepers

namespace Hopter
namespace Mailbox

open Time Function

/-- What `run_pended_op` has swapped out of `pending_count` and not yet added to
`count`. -/
def Sys.inflight (s : Sys) : Nat :=
  match s.pendedOp with
  | some (.fetchAdd v) => v
  | _ => 0

/-- A call of `notify_allow_isr` holding full access whose closure has not run. -/
def Sys.notifying (s : Sys) : Nat := if s.holder = some (.notifier false) then 1 else 0

/-- `W` is the set of the tasks inside a blocking stretch. -/
def Sys.Waiters (s : Sys) (W : Finset TaskId) : Prop := ∀ t, t ∈ W ↔ (s.pc t).waiting = true

/-- What every run with fewer than `2^usize` notifications outstanding keeps,
however many tasks wait. -/
structure Tally (s : Sys) : Prop where
  /-- A registered task's flag is clear: only a wake-up sets it, and a wake-up
  empties `wait_task`. -/
  cleared : s.waitTask ≠ none → s.taskNotified = false
  /-- A pended notification is flagged for `run_pended_op`, or about to be swapped. -/
  flagged : 0 < s.pendingCount → s.pended = true ∨ s.pendedOp = some .swap
  /-- While a task is registered, `run_pended_op` has a notification to hand it. -/
  supplied : s.waitTask ≠ none →
    (s.pended = true → 0 < s.pendingCount ∨ s.pendedOp ≠ none ∧ s.pendedOp ≠ some .swap) ∧
    (s.pendedOp = some .swap → 0 < s.pendingCount) ∧
    (∀ v, s.pendedOp = some (.fetchAdd v) → 0 < v) ∧
    (s.pendedOp = some .take → 0 < s.count)
  /-- Every call of `notify_allow_isr` is received, held by the mailbox, or owed
  to one of the finitely many tasks in a blocking stretch other than the
  registered one, or lost; none is in two places. -/
  counted : ∃ W, s.Waiters W ∧
    s.trueWaits + s.count + s.pendingCount + s.inflight + s.notifying + W.card ≤
      s.notifyCalls + (if s.waitTask = none then 0 else 1)

/-- A task's own step that neither enters nor leaves its blocking stretch. -/
theorem waiting_update {s : Sys} {t : TaskId} {q : WaitPc} (hq : q.waiting = (s.pc t).waiting)
    (u : TaskId) : (update s.pc t q u).waiting = (s.pc u).waiting := by
  by_cases hu : u = t
  · subst hu; simpa using hq
  · simp [update_noteq hu]

namespace Tally

variable {s s' : Sys}

theorem new : Tally Sys.new :=
  ⟨fun h => absurd rfl h, fun h => absurd h (by decide), fun h => absurd rfl h,
    ⟨∅, fun t => by simp [Sys.new], by simp [Sys.new, Sys.inflight, Sys.notifying]⟩⟩

/-- What the mailbox holds and has handed out is no more than the calls of
`notify_allow_isr`: the registered task, if any, is one of the tasks waiting. -/
theorem held (hi : Tally s) (hs : SleepInv s) :
    s.trueWaits + s.count + s.pendingCount + s.inflight + s.notifying ≤ s.notifyCalls := by
  obtain ⟨W, hW, hc⟩ := hi.counted
  rcases hw : s.waitTask with _ | w
  · simp only [hw, if_true] at hc; omega
  · have : 0 < W.card := Finset.card_pos.2 ⟨w, (hW w).2 (hs.registered w hw)⟩
    simp only [hw, reduceCtorEq, if_false] at hc; omega

/-- Below the bound, what the mailbox holds stays below `2^usize`. -/
theorem lt_usizeSize (hi : Tally s) (hs : SleepInv s) (hb : s.Bounded) :
    s.count + s.pendingCount + s.inflight + s.notifying < usizeSize := by
  have := hi.held hs; unfold Sys.Bounded at hb; omega

/-- No closure starts while a notification sits in `pending_count`. -/
theorem pendingCount_eq_zero (hi : Tally s) (hop : s.pendedOp = none) (hpd : s.pended = false) :
    s.pendingCount = 0 := by
  by_contra hne; rcases hi.flagged (Nat.pos_of_ne_zero hne) with h' | h' <;> simp_all

/-- A step that moves no notification, touches neither `wait_task` nor the flags,
and takes no task into or out of a blocking stretch. -/
theorem frame (hi : Tally s) (h1 : s'.count = s.count) (h2 : s'.pendingCount = s.pendingCount)
    (h3 : s'.pended = s.pended) (h4 : s'.pendedOp = s.pendedOp) (h5 : s'.waitTask = s.waitTask)
    (h6 : s'.taskNotified = s.taskNotified) (h7 : s'.notifyCalls = s.notifyCalls)
    (h8 : s'.trueWaits = s.trueWaits) (h9 : s'.notifying = s.notifying)
    (h10 : ∀ t, (s'.pc t).waiting = (s.pc t).waiting) : Tally s' where
  cleared := by rw [h5, h6]; exact hi.cleared
  flagged := by rw [h2, h3, h4]; exact hi.flagged
  supplied := by rw [h1, h2, h3, h4, h5]; exact hi.supplied
  counted := by
    obtain ⟨W, hW, hc⟩ := hi.counted
    refine ⟨W, fun t => by rw [h10]; exact hW t, ?_⟩
    rw [h1, h2, h7, h8, h9, Sys.inflight, h4, h5]; exact hc

theorem notify (hi : Tally s) (hs : SleepInv s) (hb' : s'.Bounded) (h : step s .notify = some s') :
    Tally s' := by
  obtain ⟨W, hW, hc⟩ := hi.counted
  obtain ⟨-, ⟨hh, rfl⟩ | ⟨hh, rfl⟩⟩ := step_notify.1 h
  · refine ⟨hi.cleared, hi.flagged, hi.supplied, W, hW, ?_⟩
    simp only [Sys.inflight, Sys.notifying, hh, reduceCtorEq, ↓reduceIte, add_zero] at hc ⊢
    omega
  · have hlt : s.pendingCount + 1 < usizeSize := by
      have := hi.held hs
      have : s.notifyCalls + 1 < s.trueWaits + usizeSize := hb'
      omega
    have hp : wrappingAdd s.pendingCount 1 = s.pendingCount + 1 := wrappingAdd_of_lt hlt
    refine ⟨hi.cleared, fun _ => .inl rfl, fun hwt => ?_, W, hW, ?_⟩
    · obtain ⟨-, -, h3, h4⟩ := hi.supplied hwt
      exact ⟨fun _ => .inl (by simp only [Sys.notifyPendOnly, hp]; omega),
        fun _ => by simp only [Sys.notifyPendOnly, hp]; omega, h3, h4⟩
    · simp only [Sys.inflight, Sys.notifying, Sys.notifyPendOnly, hp] at hc ⊢
      omega

theorem closure {tick : UInt32} (hi : Tally s) (hs : SleepInv s) (hb : s.Bounded)
    (h : step s (.closure tick) = some s') : Tally s' := by
  obtain ⟨-, hop, hpd, hc⟩ := step_closure.1 h
  have hpc := hi.pendingCount_eq_zero hop hpd
  have hlt := hi.lt_usizeSize hs hb
  obtain ⟨W, hW, hcnt⟩ := hi.counted
  have hinf : s.inflight = 0 := by simp [Sys.inflight, hop]
  obtain ⟨t, ms, hh, hp, rfl⟩ | ⟨t, hh, hp, rfl⟩ | ⟨hh, rfl⟩ := runClosure_eq_some.1 hc
  · have htW : t ∉ W := fun h' => by simpa [hp] using (hW t).1 h'
    unfold Sys.waitPhase1
    split_ifs with hw hc0
    · exact hi.frame rfl rfl rfl rfl rfl rfl rfl rfl rfl fun _ => rfl
    · -- a notification in `count` taken
      have hwt : s.waitTask = none := by simpa using hw
      have hsub := wrappingSub_one_of_pos hc0 (by omega)
      refine ⟨fun h' => absurd hwt h', hi.flagged, fun h' => absurd hwt h', W,
        fun u => by rw [waiting_update (by simp [hp])]; exact hW u, ?_⟩
      simp only [Sys.inflight, hop, add_zero, Sys.notifying, hh, Option.some.injEq, reduceCtorEq,
        ↓reduceIte, hwt, hsub] at hcnt ⊢
      omega
    · -- `t` registered: it joins the tasks in a blocking stretch
      have hwt : s.waitTask = none := by simpa using hw
      refine ⟨fun _ => rfl, fun h' => by simp [hpc] at h', fun _ => ⟨fun h' => by simp [hpd] at h',
        fun h' => by simp [hop] at h', fun _ h' => by simp [hop] at h',
        fun h' => by simp [hop] at h'⟩, insert t W, fun u => ?_, ?_⟩
      · by_cases hu : u = t
        · subst hu; simp
        · simp [update_noteq hu, hW u, hu]
      · simp only [Sys.inflight, hop, add_zero, Sys.notifying, hh, Option.some.injEq, reduceCtorEq,
          ↓reduceIte, hwt, Finset.card_insert_of_not_mem htW] at hcnt ⊢
        omega
  · -- `t` leaves its blocking stretch, reading the flag
    have htW : t ∈ W := (hW t).2 (by simp [hp])
    refine ⟨fun h' => absurd rfl h', hi.flagged, fun h' => absurd rfl h', W.erase t, fun u => ?_,
      ?_⟩
    · by_cases hu : u = t
      · subst hu; simp [Sys.waitPhase2]
      · simp [Sys.waitPhase2, update_noteq hu, hW u, hu]
    · have hpos : 0 < W.card := Finset.card_pos.2 ⟨t, htW⟩
      simp only [Sys.inflight, hop, add_zero, Sys.notifying, hh, Option.some.injEq, reduceCtorEq,
        ↓reduceIte, Sys.waitPhase2, Finset.card_erase_of_mem htW, ge_iff_le] at hcnt ⊢
      by_cases hwt : s.waitTask = none
      · simp only [hwt, ↓reduceIte, add_zero] at hcnt; split_ifs <;> omega
      · simp only [hwt, ↓reduceIte, hi.cleared hwt, Bool.false_eq_true, add_zero] at hcnt ⊢
        omega
  · have hnot : s.notifying = 1 := by simp [Sys.notifying, hh]
    unfold Sys.notifyFull
    split
    · -- the notifier wakes the registered task, which it owes its notification
      rename_i w hwt
      refine ⟨fun h' => absurd rfl h', hi.flagged, fun h' => absurd rfl h', W, hW, ?_⟩
      simp only [Sys.inflight, hop, add_zero, Sys.notifying, hh, ↓reduceIte, hwt, reduceCtorEq,
        Option.some.injEq, Party.notifier.injEq, Bool.true_eq_false] at hcnt ⊢
      omega
    · -- the notifier counts its notification
      rename_i hwt
      have hadd := wrappingAdd_of_lt (show s.count + 1 < usizeSize by omega)
      refine ⟨fun h' => absurd hwt h', hi.flagged, fun h' => absurd hwt h', W, hW, ?_⟩
      simp only [Sys.inflight, hop, add_zero, Sys.notifying, hh, ↓reduceIte, hwt, reduceCtorEq,
        Option.some.injEq, Party.notifier.injEq, Bool.true_eq_false, hadd] at hcnt ⊢
      omega

theorem runPendedOp (hi : Tally s) (h : step s .runPendedOp = some s') : Tally s' := by
  obtain ⟨-, -, hop, hpd, rfl⟩ := step_runPendedOp.1 h
  refine ⟨hi.cleared, fun _ => .inr rfl, fun hwt => ⟨fun h' => absurd h' (by simp), fun _ => ?_,
    fun _ h' => by simp at h', fun h' => by simp at h'⟩, ?_⟩
  · rcases (hi.supplied hwt).1 hpd with h' | ⟨h', -⟩
    exacts [h', absurd hop h']
  · obtain ⟨W, hW, hc⟩ := hi.counted
    exact ⟨W, hW, by simpa only [Sys.inflight, hop] using hc⟩

theorem swapPending (hi : Tally s) (h : step s .swapPending = some s') : Tally s' := by
  obtain ⟨-, hop, rfl⟩ := step_swapPending.1 h
  obtain ⟨W, hW, hc⟩ := hi.counted
  have hinf : s.inflight = 0 := by simp [Sys.inflight, hop]
  refine ⟨hi.cleared, fun h' => absurd h' (Nat.lt_irrefl 0), fun hwt => ⟨fun _ => .inr ⟨by simp,
    by simp⟩, fun h' => by simp at h', fun v hv => ?_, fun h' => by simp at h'⟩, W, hW, ?_⟩
  · simp only [Option.some.injEq, PendedPc.fetchAdd.injEq] at hv
    exact hv ▸ (hi.supplied hwt).2.1 hop
  · simp only [Sys.inflight, hop, add_zero, Sys.notifying] at hc ⊢
    omega

theorem addPending (hi : Tally s) (hs : SleepInv s) (hb : s.Bounded)
    (h : step s .addPending = some s') : Tally s' := by
  obtain ⟨-, v, hop, rfl⟩ := step_addPending.1 h
  have hlt := hi.lt_usizeSize hs hb
  have hinf : s.inflight = v := by simp [Sys.inflight, hop]
  have hadd := wrappingAdd_of_lt (show s.count + v < usizeSize by omega)
  obtain ⟨W, hW, hc⟩ := hi.counted
  refine ⟨hi.cleared, fun h' => .inl ((hi.flagged h').resolve_right (by simp [hop])),
    fun hwt => ⟨fun _ => .inr ⟨by simp, by simp⟩, fun h' => by simp at h',
      fun _ h' => by simp at h', fun _ => ?_⟩, W, hW, ?_⟩
  · have := (hi.supplied hwt).2.2.1 v hop
    simp only [hadd]
    omega
  · simp only [Sys.inflight, hop, Sys.notifying, hadd, add_zero] at hc ⊢
    omega

theorem takeWaiter (hi : Tally s) (hs : SleepInv s) (hb : s.Bounded)
    (h : step s .takeWaiter = some s') : Tally s' := by
  obtain ⟨-, hop, rfl⟩ := step_takeWaiter.1 h
  have hlt := hi.lt_usizeSize hs hb
  have hinf : s.inflight = 0 := by simp [Sys.inflight, hop]
  have hpd : 0 < s.pendingCount → s.pended = true :=
    fun h' => (hi.flagged h').resolve_right (by simp [hop])
  obtain ⟨W, hW, hc⟩ := hi.counted
  unfold Sys.takeWaiter
  split
  · -- the registered task is woken, and owed what `count` gives up
    rename_i w hwt
    have hcnt := (hi.supplied (by simp [hwt])).2.2.2 hop
    have hsub := wrappingSub_one_of_pos hcnt (by omega)
    refine ⟨fun h' => absurd rfl h', fun h' => .inl (hpd h'), fun h' => absurd rfl h', W,
      fun u => by simpa only using hW u, ?_⟩
    simp only [Sys.inflight, hop, add_zero, Sys.notifying, hwt, reduceCtorEq, ↓reduceIte, hsub]
      at hc ⊢
    omega
  · rename_i hwt
    refine ⟨fun h' => absurd hwt h', fun h' => .inl (hpd h'), fun h' => absurd hwt h', W, hW, ?_⟩
    simp only [Sys.inflight, hop, add_zero, Sys.notifying] at hc ⊢
    omega

theorem release (hi : Tally s) (h : step s .release = some s') : Tally s' := by
  obtain ⟨-, -, hr⟩ := step_release.1 h
  obtain ⟨t, b, hh, hp, rfl⟩ | ⟨t, b, hh, hp, rfl⟩ | ⟨hh, rfl⟩ := releaseAccess_eq_some.1 hr
  · exact hi.frame rfl rfl rfl rfl rfl rfl rfl rfl (by simp [Sys.notifying, hh])
      (waiting_update (by cases b <;> simp [hp]))
  · exact hi.frame rfl rfl rfl rfl rfl rfl rfl rfl (by simp [Sys.notifying, hh])
      (waiting_update (by simp [hp]))
  · exact hi.frame rfl rfl rfl rfl rfl rfl rfl rfl (by simp [Sys.notifying, hh]) fun _ => rfl

/-- `Tally` is preserved by every step that stays below `2^usize` outstanding
notifications. -/
theorem step {a : Act} (hi : Tally s) (hs : SleepInv s) (hb : s.Bounded)
    (h : Mailbox.step s a = some s') (hb' : s'.Bounded) : Tally s' := by
  cases a with
  | wait t ms =>
    obtain ⟨-, hh, hout, rfl⟩ := step_wait.1 h
    exact hi.frame rfl rfl rfl rfl rfl rfl rfl rfl (by simp [Sys.notifying, hh])
      (waiting_update (by revert hout; cases s.pc t <;> simp))
  | resume t =>
    obtain ⟨-, hh, hbl, -, rfl⟩ := step_resume.1 h
    exact hi.frame rfl rfl rfl rfl rfl rfl rfl rfl (by simp [Sys.notifying, hh])
      (waiting_update (by simp [hbl]))
  | notify => exact hi.notify hs hb' h
  | closure tick => exact hi.closure hs hb h
  | runPendedOp => exact hi.runPendedOp h
  | swapPending => exact hi.swapPending h
  | addPending => exact hi.addPending hs hb h
  | takeWaiter => exact hi.takeWaiter hs hb h
  | release => exact hi.release h
  | timeout t =>
    obtain ⟨-, -, rfl⟩ := step_timeout.1 h
    exact hi.frame rfl rfl rfl rfl rfl rfl rfl rfl rfl fun _ => rfl

end Tally

theorem Reach.tally {s : Sys} (h : Reach AnyBounded s) : Tally s := by
  induction h with
  | new => exact .new
  | step hr hs hok ih =>
    exact ih.step (hr.mono fun _ _ _ _ => trivial).sleepInv hr.anyBounded hs hok

/-- **No `fetch_add` wraps.**  In every run with any number of waiting tasks in
which fewer than `2^usize` notifications are ever outstanding, none of the three
`fetch_add`s of the mailbox (on `pending_count` under pend-only access, on
`count` with no task waiting, and of the swapped value into `count`) computes a
sum above `usize::MAX`. -/
theorem fetchAdd_never_wraps {s s' : Sys} {a : Act} {x : Nat} (h : Reach AnyBounded s)
    (hs : step s a = some s') (ha : AnyBounded s a s') (hx : s.fetchAddSum a = some x) :
    x < usizeSize := by
  have hl := h.tally.held (h.mono fun _ _ _ _ => trivial).sleepInv
  have hb' : s'.notifyCalls < s'.trueWaits + usizeSize := ha
  cases a with
  | notify =>
    obtain ⟨-, ⟨hh, -⟩ | ⟨hh, rfl⟩⟩ := step_notify.1 hs
    · simp [Sys.fetchAddSum, hh] at hx
    · simp only [Sys.fetchAddSum, hh, if_false, Option.some.injEq] at hx
      have : s.notifyCalls + 1 < s.trueWaits + usizeSize := hb'
      omega
  | closure tick =>
    simp only [Sys.fetchAddSum] at hx
    split_ifs at hx with hf
    cases hx
    have : s.notifyCalls < s.trueWaits + usizeSize := h.anyBounded
    simp only [Sys.notifying, hf.1, if_true] at hl
    omega
  | addPending =>
    obtain ⟨-, v, hv, rfl⟩ := step_addPending.1 hs
    simp only [Sys.fetchAddSum, hv, Option.some.injEq] at hx
    simp only [Sys.inflight, hv] at hl
    have : s.notifyCalls < s.trueWaits + usizeSize := h.anyBounded
    omega
  | _ => simp [Sys.fetchAddSum] at hx

/-- A second task waits on the mailbox beside a first one that lost its
notification: a pend-only notification adds `1` to an empty `pending_count`. -/
theorem fetchAdd_never_wraps_stolen :
    (Sys.after (secondWaiterRun ++ [.closure 0])).pendingCount + 1 < usizeSize :=
  fetchAdd_never_wraps (Reach.new.steps (Steps.anyBounded (Steps.of_run
      (show run Sys.new (secondWaiterRun ++ [.closure 0]) =
        some (Sys.after (secondWaiterRun ++ [.closure 0])) from rfl) fun _ _ _ _ => trivial)
      (by decide))) (step_notify.2 ⟨rfl, .inr ⟨by decide, rfl⟩⟩) (show Sys.Bounded _ by decide) rfl

/-- Without the bound, the `fetch_add` on `pending_count` computes `2^usize`,
even with no task waiting: a notifier takes full access, and `2^usize`
pend-only notifications follow. -/
theorem fetchAdd_wraps :
    ¬ ∀ (me : TaskId) (s s' : Sys) (a : Act) (x : Nat), Reach (SingleWaiter me) s →
      step s a = some s' → s.fetchAddSum a = some x → x < usizeSize := by
  intro h
  obtain ⟨s, hr, ha, hh, hp⟩ : ∃ s, run Sys.new ([.notify] ++ List.replicate (usizeSize - 1) .notify
      ++ []) = some s ∧ s.aborted = false ∧ s.holder = some (.notifier false) ∧
        s.pendingCount = usizeSize - 1 :=
    ⟨_, (run_burst (x := Sys.after [.notify]) [.notify] rfl rfl (by decide) (by decide)
      _).trans rfl, rfl, rfl, rfl⟩
  have hx : s.fetchAddSum .notify = some usizeSize := by
    simp only [Sys.fetchAddSum, hh, hp]; decide
  exact Nat.lt_irrefl _ (h 0 s _ .notify _ (Reach.new.steps (Steps.of_run hr
    (singleWaiter_of_mem (by simp)))) (step_notify.2 ⟨ha, .inr ⟨by simp [hh], rfl⟩⟩) hx)

end Mailbox
end Hopter
