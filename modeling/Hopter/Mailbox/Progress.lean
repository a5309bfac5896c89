/-
# Nothing gets stuck

The `SoftLock` of `src/src/sync/mailbox.rs` serialises the closures, and a task
that blocks parks in `svc_yield_current_task` (line 202) until a notifier or the
tick handler takes it out of the sleep queue.  None of it can wedge: from every
state of a run with one waiting task, the parties already at work and the tick
handler, with no new call of `wait_until_timeout` or `notify_allow_isr`, bring the
mailbox to rest within thirteen steps (`mailbox_settles`).  Nobody then holds
full access, no `run_pended_op` is under way, and the waiting task's call has
returned, with `wait_task` empty and the task out of the sleep queue.

The run is built in phases, each a lemma with its own bound.  The
`run_pended_op` under way ends (`drains_pendedOp`, three steps); the holder
merges what was pended before its closure may run (`drains_merge`, four), runs
its closure if it has not and gives full access back (`drains_close`, two); a
parked task is timed out by the tick handler unless a notifier took it out of
the sleep queue, resumes, and returns (`drains_parked`).  Every phase keeps
`WaiterInv`, which is what says that each step it needs is enabled: the first
closure finds `wait_task` empty, so its `assert!` holds, and a parked task finds
full access free.
-/

import Hopter.Mailbox.Waiter

namespace Hopter
namespace Mailbox

open Time Function

/-- `s'` follows from `s` by at most `n` steps of the parties already at work and
of the tick handler: no new call of `wait_until_timeout` or `notify_allow_isr`. -/
def Drains (n : Nat) (s s' : Sys) : Prop :=
  ∃ as, run s as = some s' ∧ as.length ≤ n ∧ ∀ a ∈ as, a.caller = none ∧ a ≠ .notify

namespace Drains

variable {m n : Nat} {s s₁ s' : Sys}

theorem refl (s : Sys) : Drains 0 s s := ⟨[], rfl, le_rfl, by simp⟩

theorem mono (h : Drains m s s') (hmn : m ≤ n) : Drains n s s' :=
  let ⟨as, hr, hl, ha⟩ := h
  ⟨as, hr, hl.trans hmn, ha⟩

theorem of_step {a : Act} (h : step s a = some s') (ha : a.caller = none) (hn : a ≠ .notify) :
    Drains 1 s s' :=
  ⟨[a], by simp [run_cons, h], le_rfl, by simpa using ⟨ha, hn⟩⟩

theorem trans (h₁ : Drains m s s₁) (h₂ : Drains n s₁ s') : Drains (m + n) s s' := by
  obtain ⟨as, hr, hl, ha⟩ := h₁
  obtain ⟨bs, hr', hl', hb⟩ := h₂
  refine ⟨as ++ bs, by rw [run_append, hr, Option.some_bind, hr'], by simp; omega, ?_⟩
  simp only [List.mem_append]
  rintro a (h | h)
  exacts [ha a h, hb a h]

/-- The steps of such a run. -/
theorem steps (h : Drains n s s') :
    ∃ as, Steps (fun _ a _ => a.caller = none ∧ a ≠ .notify) s as s' := by
  obtain ⟨as, hr, -, ha⟩ := h
  exact ⟨as, Steps.of_run hr fun a h _ _ => ha a h⟩

/-- No step of such a run is a call of `wait_until_timeout`, so it keeps `WaiterInv`. -/
theorem waiterInv {me : TaskId} (h : Drains n s s') (hi : WaiterInv me s) : WaiterInv me s' := by
  obtain ⟨as, hs⟩ := h.steps
  clear h
  induction hs with
  | nil => exact hi
  | cons h₁ ha _ ih => exact ih (hi.next h₁ fun t ht => by simp [ha.1] at ht)

/-- Along such a run `trueWaits` grows exactly as `me`'s call comes to decide that
it returns `true`. -/
theorem trueWaits {me : TaskId} (h : Drains n s s') (hi : WaiterInv me s) :
    s'.trueWaits + (s.pc me).took.toNat = s.trueWaits + (s'.pc me).took.toNat := by
  obtain ⟨as, hs⟩ := h.steps
  clear h
  induction hs with
  | nil => rfl
  | cons h₁ ha _ ih =>
    have := hi.trueWaits_step h₁ ha.1
    have := ih (hi.next h₁ fun t ht => by simp [ha.1] at ht)
    omega

/-- Such a run makes no call of `notify_allow_isr`. -/
theorem notifyCalls (h : Drains n s s') : s'.notifyCalls = s.notifyCalls := by
  obtain ⟨as, hs⟩ := h.steps
  clear h
  induction hs with
  | nil => rfl
  | cons h₁ ha _ ih => rw [ih, step_notifyCalls h₁ ha.2]

theorem counters_mono (h : Drains n s s') :
    s.notifyCalls ≤ s'.notifyCalls ∧ s.trueWaits ≤ s'.trueWaits :=
  let ⟨_, hs⟩ := h.steps
  hs.counters_mono

end Drains

/-! ### What the holder has left to do -/

section Holder

variable {me : TaskId} {s s₁ s' : Sys}

/-- A closure leaves `run_pended_op` and the pended flag alone. -/
theorem runClosure_pended {tick : UInt32} (h : s.runClosure tick = some s') :
    s'.pendedOp = s.pendedOp ∧ s'.pended = s.pended := by
  obtain ⟨t, ms, -, -, rfl⟩ | ⟨t, -, -, rfl⟩ | ⟨-, rfl⟩ := runClosure_eq_some.1 h
  · unfold Sys.waitPhase1; split_ifs <;> exact ⟨rfl, rfl⟩
  · exact ⟨rfl, rfl⟩
  · simp

/-- Giving full access back leaves nobody holding it, and `run_pended_op` and the
pended flag alone. -/
theorem releaseAccess_holder (h : s.releaseAccess = some s') :
    s'.holder = none ∧ s'.pendedOp = s.pendedOp ∧ s'.pended = s.pended := by
  obtain ⟨t, b, -, -, rfl⟩ | ⟨t, b, -, -, rfl⟩ | ⟨-, rfl⟩ := releaseAccess_eq_some.1 h <;>
    exact ⟨rfl, rfl, rfl⟩

/-- Whoever holds full access has its closure, or else the release, left to run. -/
theorem WaiterInv.holder_next (hi : WaiterInv me s) (hh : s.holder ≠ none) (tick : UInt32) :
    (∃ s₁, s.runClosure tick = some s₁) ∨ ∃ s₁, s.releaseAccess = some s₁ := by
  rcases hs : s.holder with _ | t | (_ | _)
  · exact absurd hs hh
  · obtain rfl := hi.holderTask t hs
    have := hi.holder.1 hs
    simp only [Sys.runClosure, Sys.releaseAccess, hs]
    revert this
    rcases s.pc t with _ | _ | _ | _ | _ | _ | _ <;> simp
  · simp [Sys.runClosure, hs]
  · simp [Sys.releaseAccess, hs]

/-- Once the holder's closure has run, it can give full access back: the first
closure of `wait_until_timeout` finds `wait_task` empty, so its `assert!` holds. -/
theorem WaiterInv.release_after_closure (hi : WaiterInv me s) {tick : UInt32}
    (h : s.runClosure tick = some s₁) : ∃ s₂, s₁.releaseAccess = some s₂ := by
  obtain ⟨t, ms, hh, hp, rfl⟩ | ⟨t, hh, hp, rfl⟩ | ⟨-, rfl⟩ := runClosure_eq_some.1 h
  · obtain rfl := hi.holderTask t hh
    have hset := (WaiterInv.episode_settled (by simp [hp])).1 (hp ▸ hi.episode)
    unfold Sys.waitPhase1
    rw [if_neg (by simp [hset.1])]
    split_ifs <;> simp [Sys.releaseAccess, hh]
  · simp [Sys.releaseAccess, Sys.waitPhase2, hh]
  · simp [Sys.releaseAccess]

end Holder

/-! ### The phases -/

section Phases

variable {me : TaskId} {s : Sys}

/-- The `run_pended_op` under way (lines 96-108) runs to its end; nobody's place
moves. -/
theorem drains_pendedOp (hr : s.aborted = false) :
    ∃ s', Drains 3 s s' ∧ s'.pendedOp = none ∧ s'.aborted = false ∧ s'.holder = s.holder ∧
      s'.pc = s.pc ∧ s'.pended = s.pended := by
  have take : ∀ x : Sys, x.aborted = false → x.pendedOp = some .take → Drains 1 x x.takeWaiter :=
    fun x hr hop => .of_step (step_takeWaiter.2 ⟨hr, hop, rfl⟩) rfl nofun
  have fetchAdd : ∀ (x : Sys) v, x.aborted = false → x.pendedOp = some (.fetchAdd v) →
      Drains 2 x { x with count := wrappingAdd x.count v, pendedOp := some .take }.takeWaiter :=
    fun x v hr hop => (Drains.of_step (step_addPending.2 ⟨hr, v, hop, rfl⟩) rfl nofun).trans
      (take _ hr rfl)
  rcases hop : s.pendedOp with _ | (_ | v | _)
  · exact ⟨s, (Drains.refl s).mono (Nat.zero_le _), hop, hr, rfl, rfl, rfl⟩
  · exact ⟨_, (Drains.of_step (step_swapPending.2 ⟨hr, hop, rfl⟩) rfl nofun).trans
      (fetchAdd _ _ hr rfl), by simp, by simpa, by simp, by simp, by simp⟩
  · exact ⟨_, (fetchAdd s v hr hop).mono (by omega), by simp, by simpa, by simp, by simp, by simp⟩
  · exact ⟨_, (take s hr hop).mono (by omega), by simp, by simpa, by simp, by simp, by simp⟩

/-- The holder merges what was pended before its closure may run: a whole
`run_pended_op`. -/
theorem drains_merge (hr : s.aborted = false) (hh : s.holder ≠ none) (hop : s.pendedOp = none) :
    ∃ s', Drains (if s.pended then 4 else 0) s s' ∧ s'.pendedOp = none ∧ s'.pended = false ∧
      s'.holder = s.holder ∧ s'.pc = s.pc := by
  cases hpd : s.pended
  · exact ⟨s, Drains.refl s, hop, hpd, rfl, rfl⟩
  · obtain ⟨s', d, hop', -, hh', hpc', hpd'⟩ :=
      drains_pendedOp (s := { s with pended := false, pendedOp := some .swap }) hr
    exact ⟨s', (Drains.of_step (step_runPendedOp.2 ⟨hr, hh, hop, hpd, rfl⟩) rfl nofun).trans d,
      hop', hpd', hh', hpc'⟩

/-- The holder, with nothing pended, runs its closure if it has not, and gives
full access back. -/
theorem drains_close (hi : WaiterInv me s) (hh : s.holder ≠ none) (hop : s.pendedOp = none)
    (hpd : s.pended = false) :
    ∃ s', Drains 2 s s' ∧ s'.holder = none ∧ s'.pendedOp = none ∧ s'.pended = false := by
  rcases hi.holder_next hh 0 with ⟨s₁, hc⟩ | ⟨s', hr⟩
  · have h₁ := step_closure.2 ⟨hi.running, hop, hpd, hc⟩
    obtain ⟨hop₁, hpd₁⟩ := runClosure_pended hc
    obtain ⟨s', hr⟩ := hi.release_after_closure hc
    obtain ⟨hh', hop', hpd'⟩ := releaseAccess_holder hr
    have h₂ := step_release.2 ⟨(hi.closure h₁).running, hop₁.trans hop, hr⟩
    exact ⟨s', (Drains.of_step h₁ rfl nofun).trans (.of_step h₂ rfl nofun), hh',
      by rw [hop', hop₁, hop], by rw [hpd', hpd₁, hpd]⟩
  · obtain ⟨hh', hop', hpd'⟩ := releaseAccess_holder hr
    exact ⟨s', (Drains.of_step (step_release.2 ⟨hi.running, hop, hr⟩) rfl nofun).mono
      (by omega), hh', hop'.trans hop, hpd'.trans hpd⟩

/-- The holder finishes: merge, closure, release. -/
theorem drains_release (hi : WaiterInv me s) (hh : s.holder ≠ none) (hop : s.pendedOp = none) :
    ∃ s', Drains (if s.pended then 6 else 2) s s' ∧ s'.holder = none ∧ s'.pendedOp = none ∧
      s'.pended = false := by
  obtain ⟨s₁, d₁, hop₁, hpd₁, hh₁, -⟩ := drains_merge hi.running hh hop
  obtain ⟨s', d', rest⟩ := drains_close (d₁.waiterInv hi) (hh₁ ▸ hh) hop₁ hpd₁
  exact ⟨s', (d₁.trans d').mono (by cases s.pended <;> decide), rest⟩

/-- A task parked in `svc_yield_current_task`: the tick handler takes it out of
the sleep queue unless a notifier did, it resumes, and its second closure runs
and returns. -/
theorem drains_parked (hi : WaiterInv me s) (hh : s.holder = none) (hop : s.pendedOp = none)
    (hb : s.pc me = .blocked) :
    ∃ s', Drains (if s.pended then 8 else 4) s s' ∧ s'.holder = none ∧ s'.pendedOp = none ∧
      (s'.pc me).outside = true := by
  obtain ⟨s₁, d₁, hq₁, hh₁, hpc₁, hop₁, hpd₁⟩ : ∃ s₁, Drains 1 s s₁ ∧
      queued s₁.sleepQueue me = 0 ∧ s₁.holder = s.holder ∧ s₁.pc = s.pc ∧
      s₁.pendedOp = s.pendedOp ∧ s₁.pended = s.pended := by
    by_cases hq : 0 < queued s.sleepQueue me
    · exact ⟨_, .of_step (step_timeout.2 ⟨hi.running, hq, rfl⟩) rfl nofun, by simp, rfl, rfl, rfl,
        rfl⟩
    · exact ⟨s, (Drains.refl s).mono (by omega), by omega, rfl, rfl, rfl, rfl⟩
  have hi₁ := d₁.waiterInv hi
  have h₂ := step_resume.2 ⟨hi₁.running, hh₁.trans hh, hpc₁ ▸ hb, hq₁, rfl⟩
  have hi₂ := hi₁.resume h₂
  obtain ⟨s₃, d₃, hop₃, hpd₃, hh₃, hpc₃⟩ := drains_merge hi₂.running (by simp) (hop₁.trans hop)
  have hi₃ := d₃.waiterInv hi₂
  have hc₄ : s₃.runClosure 0 = some (s₃.waitPhase2 me) := by simp [Sys.runClosure, hh₃, hpc₃]
  have h₄ := step_closure.2 ⟨hi₃.running, hop₃, hpd₃, hc₄⟩
  obtain ⟨s', hr⟩ := hi₃.release_after_closure hc₄
  have h₅ : step (s₃.waitPhase2 me) .release = some s' := step_release.2 ⟨hi₃.running, hop₃, hr⟩
  simp only [Sys.releaseAccess, Sys.waitPhase2, hh₃, update_same, Option.some.injEq] at hr
  subst hr
  refine ⟨_, ((d₁.trans (.of_step h₂ rfl nofun)).trans
    (d₃.trans ((Drains.of_step h₄ rfl nofun).trans (.of_step h₅ rfl nofun)))).mono ?_, rfl, hop₃,
    by simp⟩
  dsimp only
  rw [hpd₁]
  cases s.pended <;> decide

/-- With nobody holding full access, a parked task returns, and any other is
already outside the call. -/
theorem drains_rest (hi : WaiterInv me s) (hh : s.holder = none) (hop : s.pendedOp = none) :
    ∃ s', Drains (if s.pended then 8 else 4) s s' ∧ s'.holder = none ∧ s'.pendedOp = none ∧
      (s'.pc me).outside = true := by
  by_cases hb : s.pc me = .blocked
  · exact drains_parked hi hh hop hb
  · refine ⟨s, (Drains.refl s).mono (Nat.zero_le _), hh, hop, ?_⟩
    have := hi.holder
    rw [hh] at this
    revert hb this
    cases s.pc me <;> simp

end Phases

/-- From every state that keeps `WaiterInv`, the parties at work bring the mailbox
to rest within thirteen steps. -/
theorem WaiterInv.settles {me : TaskId} {s : Sys} (hi : WaiterInv me s) :
    ∃ s', Drains 13 s s' ∧ s'.holder = none ∧ s'.pendedOp = none ∧ (s'.pc me).outside = true ∧
      s'.waitTask = none ∧ queued s'.sleepQueue me = 0 := by
  obtain ⟨s₁, d₁, hop₁, -⟩ := drains_pendedOp hi.running
  have hi₁ := d₁.waiterInv hi
  obtain ⟨s', d', hh', hop', hout⟩ : ∃ s', Drains 10 s₁ s' ∧ s'.holder = none ∧
      s'.pendedOp = none ∧ (s'.pc me).outside = true := by
    by_cases hh : s₁.holder = none
    · obtain ⟨s', d', rest⟩ := drains_rest hi₁ hh hop₁
      exact ⟨s', d'.mono (by split <;> omega), rest⟩
    · obtain ⟨s₂, d₂, hh₂, hop₂, hpd₂⟩ := drains_release hi₁ hh hop₁
      obtain ⟨s', d', rest⟩ := drains_rest (d₂.waiterInv hi₁) hh₂ hop₂
      rw [hpd₂] at d'
      exact ⟨s', (d₂.trans d').mono (by split <;> decide), rest⟩
  have hep := ((d₁.trans d').waiterInv hi).episode
  have hw : (s'.pc me).waiting = false := by revert hout; cases s'.pc me <;> simp
  exact ⟨s', d₁.trans d', hh', hop', hout, (WaiterInv.episode_settled hw).1 hep⟩

/-- **Nothing gets stuck.**  From every state of every run in which `me` is the
only task calling `wait_until_timeout`, whatever the notifiers, their access and
the timeouts so far: the parties already at work and the tick handler alone, with
no new call of `wait_until_timeout` or `notify_allow_isr`, bring the mailbox to
rest within thirteen steps.  Nobody holds full access, no `run_pended_op` is under
way, and `me`'s call has returned, with `wait_task` empty and `me` out of the
sleep queue. -/
theorem mailbox_settles {me : TaskId} {s : Sys} (h : Reach (SingleWaiter me) s) :
    ∃ s', Drains 13 s s' ∧ s'.holder = none ∧ s'.pendedOp = none ∧ (s'.pc me).outside = true ∧
      s'.waitTask = none ∧ queued s'.sleepQueue me = 0 :=
  h.waiterInv.settles

/-- A notifier holding full access, with a second notification pended beside the
parked waiting task: the mailbox still comes to rest. -/
theorem mailbox_settles_busy :
    ∃ s', Drains 13 (Sys.after [.wait 0 500, .closure 0, .release, .notify, .notify]) s' ∧
      s'.holder = none ∧ s'.pendedOp = none ∧ (s'.pc 0).outside = true ∧ s'.waitTask = none ∧
      queued s'.sleepQueue 0 = 0 :=
  mailbox_settles (Reach.of_run [.wait 0 500, .closure 0, .release, .notify, .notify] rfl
    (by simp [Act.caller]) (by decide)).single

end Mailbox
end Hopter
