/-
# The code implements the documented mailbox

`Sys.spec me` reads off a state of the system the documented mailbox of
`Hopter.Mailbox.Spec`: `count`, the notifications deferred in `pending_count`
or in a `run_pended_op` between its `swap` and its `fetch_add`, task `me`'s call,
and the two counters of calls.  Two readings need care.  Between its
`fetch_add` and its `take` of `wait_task`, a `run_pended_op` that will find `me`
registered has already added to `count` the notification it will hand `me`: the
documented mailbox has handed it over at the merge.  A full-access notifier's
notification reaches the documented mailbox when its closure runs, so a notifier
holding full access whose closure has not run is not yet among the posted.  And
`me`'s first closure decides what its call returns, so from then on the call is
`returned`.

`spec_step` says that every step of a run with one waiting task `me` and fewer
than `2^usize` notifications outstanding is matched by steps of the documented
mailbox: by none (taking or giving back full access, a timeout, the `swap` and
the `take` of `run_pended_op`), by one (a closure, a pend-only notification), or,
for the `fetch_add` of `run_pended_op`, by one `merge` for each notification it
adds.  So each call of `me` returns what the documented mailbox's call returns,
and the code keeps the documented mailbox's `Spec.Inv`.
-/

import Hopter.Mailbox.Conservation
import Hopter.Mailbox.Spec

namespace Hopter
namespace Mailbox

open Time Function Relation

/-- The call at `p`, as `Spec.Call` reads it; the `Bool` says whether, inside
the blocking stretch, a notification has been handed to it. -/
def WaitPc.call : WaitPc → Bool → Spec.Call
  | .idle, _ | .phase1 _, _ => .idle
  | .leave false, _ => .returned true
  | .leave true, h | .blocked, h | .phase2, h => if h then .handed else .waiting
  | .finish b, _ | .done b, _ => .returned b

theorem WaitPc.call_of_waiting {p : WaitPc} (hp : p.waiting = true) (h : Bool) :
    p.call h = if h then .handed else .waiting := by
  rcases p with _ | _ | (_ | _) | _ | _ | _ | _ <;> simp_all [WaitPc.call]

/-- With a notification handed to it, the call is not blocked waiting. -/
@[simp] theorem WaitPc.call_true_ne (p : WaitPc) : p.call true ≠ .waiting := by
  rcases p with _ | _ | (_ | _) | _ | _ | _ | _ <;> simp [WaitPc.call]

/-- `run_pended_op` is between its `fetch_add` and its `take`, and will find a
task in `wait_task`. -/
def Sys.Taking (s : Sys) : Prop := s.pendedOp = some .take ∧ s.waitTask ≠ none

instance : DecidablePred Sys.Taking := fun _ => inferInstanceAs (Decidable (_ ∧ _))

/-- The documented mailbox that a state of the system implements, for the
waiting task `me`. -/
def Sys.spec (me : TaskId) (s : Sys) : Spec.State where
  count := if s.Taking then s.count - 1 else s.count
  deferred := s.pendingCount + s.inflight
  call := (s.pc me).call (decide (s.waitTask = none ∨ s.pendedOp = some .take))
  posted := s.notifyCalls - s.notifying
  received := s.trueWaits

section Fields

variable (me : TaskId) (s : Sys)

@[simp] theorem spec_count : (s.spec me).count = if s.Taking then s.count - 1 else s.count := rfl

@[simp] theorem spec_deferred : (s.spec me).deferred = s.pendingCount + s.inflight := rfl

@[simp] theorem spec_call :
    (s.spec me).call = (s.pc me).call (decide (s.waitTask = none ∨ s.pendedOp = some .take)) := rfl

@[simp] theorem spec_posted : (s.spec me).posted = s.notifyCalls - s.notifying := rfl

@[simp] theorem spec_received : (s.spec me).received = s.trueWaits := rfl

end Fields

theorem spec_new (me : TaskId) : Sys.new.spec me = Spec.init := by
  ext <;> simp [Sys.new, Sys.Taking, Sys.inflight, Sys.notifying, WaitPc.call, Spec.init]

/-! ### Each step -/

section Simulation

variable {me : TaskId} {s s' : Sys}

/-- Steps of the documented mailbox to `a`, where `s'` implements `a`. -/
theorem spec_steps {a : Spec.State} (h : ReflTransGen Spec.Step (s.spec me) a)
    (e : s'.spec me = a) : ReflTransGen Spec.Step (s.spec me) (s'.spec me) :=
  e ▸ h

/-- `me` calls `wait_until_timeout` again. -/
theorem spec_wait {ms : UInt32} (h : step s (.wait me ms) = some s') :
    ReflTransGen Spec.Step (s.spec me) (s'.spec me) := by
  obtain ⟨-, hh, hout, rfl⟩ := step_wait.1 h
  rcases hp : s.pc me with _ | _ | _ | _ | _ | _ | b <;> simp [hp] at hout
  · exact spec_steps .refl (by ext <;> simp [hp, hh, Sys.Taking, Sys.notifying, Sys.inflight,
      WaitPc.call])
  · exact spec_steps (.single (.reenter (b := b) (by simp [hp, WaitPc.call])))
      (by ext <;> simp [hp, hh, Sys.Taking, Sys.notifying, Sys.inflight, WaitPc.call])

theorem spec_resume {t : TaskId} (hw : WaiterInv me s) (h : step s (.resume t) = some s') :
    ReflTransGen Spec.Step (s.spec me) (s'.spec me) := by
  obtain ⟨-, hh, hb, -, rfl⟩ := step_resume.1 h
  obtain rfl : t = me := by by_contra ht; simp [hw.others t ht] at hb
  exact spec_steps .refl (by ext <;> simp [hb, hh, Sys.Taking, Sys.notifying, Sys.inflight,
    WaitPc.call])

/-- A pend-only notification is deferred; a full-access one waits for its closure. -/
theorem spec_notify (hi : CountInv me s) (hb' : s'.Bounded) (h : step s .notify = some s') :
    ReflTransGen Spec.Step (s.spec me) (s'.spec me) := by
  have hc := hi.conserved
  obtain ⟨-, ⟨hh, rfl⟩ | ⟨hh, rfl⟩⟩ := step_notify.1 h
  · exact spec_steps .refl (by ext <;> simp [Sys.Taking, Sys.inflight, Sys.notifying, hh])
  · have : s.notifyCalls + 1 < s.trueWaits + usizeSize := hb'
    have hlt : s.pendingCount + 1 < usizeSize := by omega
    simp only [Sys.notifying] at hc
    exact spec_steps (.single (.defer _)) (by
      ext <;> simp [Sys.notifyPendOnly, Sys.Taking, Sys.inflight, Sys.notifying,
        wrappingAdd_of_lt hlt] <;> omega)

/-- The first closure takes a counted notification or blocks, the second returns
what the call was handed, and a notifier's closure delivers its notification. -/
theorem spec_closure {tick : UInt32} (hi : CountInv me s) (ht : Tally s) (hw : WaiterInv me s)
    (hb : s.Bounded) (h : step s (.closure tick) = some s') :
    ReflTransGen Spec.Step (s.spec me) (s'.spec me) := by
  obtain ⟨-, hop, hpd, hc⟩ := step_closure.1 h
  have hpc := ht.pendingCount_eq_zero hop hpd
  obtain ⟨t, ms, hh, hp, rfl⟩ | ⟨t, hh, hp, rfl⟩ | ⟨hh, rfl⟩ := runClosure_eq_some.1 hc
  · obtain rfl := hw.holderTask t hh
    have hset := (WaiterInv.episode_settled (by simp [hp])).1 (hp ▸ hw.episode)
    unfold Sys.waitPhase1
    rw [if_neg (by simp [hset.1])]
    split_ifs with hcnt
    · exact spec_steps
        (.single (.take (by simp [hp, WaitPc.call]) (by simp [Sys.Taking, hop, hcnt])))
        (by ext <;> simp [Sys.Taking, Sys.notifying, Sys.inflight, WaitPc.call, hop, hpc, hset.1,
          wrappingSub_one_of_pos hcnt (hi.count_lt hb)])
    · exact spec_steps (.single (.block (by simp [hp, WaitPc.call])
          (by simp [Sys.Taking, Sys.notifying, hop]; omega) (by simp [Sys.inflight, hop, hpc])))
        (by ext <;> simp [Sys.Taking, Sys.notifying, Sys.inflight, WaitPc.call, hop, hpc])
  · obtain rfl := hw.holderTask t hh
    have hep := hw.episode
    rw [hp] at hep
    rcases hep.1 with ⟨h1, h2⟩ | ⟨h1, h2⟩
    · exact spec_steps (.single (.expire (by simp [hp, WaitPc.call, h1, hop])))
        (by ext <;> simp [Sys.waitPhase2, Sys.Taking, Sys.notifying, Sys.inflight, WaitPc.call, h1,
          h2, hop])
    · exact spec_steps (.single (.wake (by simp [hp, WaitPc.call, h1])))
        (by ext <;> simp [Sys.waitPhase2, Sys.Taking, Sys.notifying, Sys.inflight, WaitPc.call, h1,
          h2, hop])
  · have hc0 := hi.conserved
    rw [show s.notifying = 1 by simp [Sys.notifying, hh]] at hc0
    unfold Sys.notifyFull
    split
    · rename_i w hwt
      obtain rfl := hw.waitTask_eq hwt
      have hwait := hw.waiting_of_waitTask hwt
      exact spec_steps (.single (.notify _)) (by
        ext <;> simp [Spec.State.deliver, Sys.Taking, Sys.inflight, Sys.notifying,
          WaitPc.call_of_waiting hwait, hwt, hop, hh]; omega)
    · rename_i hwt
      have hlt : s.count + 1 < usizeSize := by unfold Sys.Bounded at hb; omega
      exact spec_steps (.single (.notify _)) (by
        ext <;> simp [Spec.State.deliver, Sys.Taking, Sys.inflight, Sys.notifying, hwt, hop, hh,
          wrappingAdd_of_lt hlt]; omega)

/-- The `fetch_add` of `run_pended_op` merges what its `swap` took, one
notification at a time: the first goes to `me` if `me` is registered. -/
theorem spec_addPending (hi : CountInv me s) (ht : Tally s) (hw : WaiterInv me s) (hb : s.Bounded)
    (h : step s .addPending = some s') : ReflTransGen Spec.Step (s.spec me) (s'.spec me) := by
  obtain ⟨-, v, hop, rfl⟩ := step_addPending.1 h
  have hinf : s.inflight = v := by simp [Sys.inflight, hop]
  have hlt : s.count + v < usizeSize := by have := hi.conserved; unfold Sys.Bounded at hb; omega
  rcases hwt : s.waitTask with _ | w
  · exact spec_steps (Spec.merges v (by simp [hwt]) (by simp [hinf]))
      (by ext <;> simp [Sys.Taking, Sys.notifying, Sys.inflight, hop, hwt, wrappingAdd_of_lt hlt])
  · obtain rfl := hw.waitTask_eq hwt
    have hv := (ht.supplied (by simp [hwt])).2.2.1 v hop
    have hwait := hw.waiting_of_waitTask hwt
    exact spec_steps (.head (.merge (by simp [hinf]; omega))
        (Spec.merges (v - 1) (Spec.State.deliver_call_ne _) (by simp [hinf]; omega)))
      (by ext <;> simp [Spec.State.deliver, Sys.Taking, Sys.notifying, Sys.inflight, hop, hwt,
        WaitPc.call_of_waiting hwait, wrappingAdd_of_lt hlt] <;> omega)

/-- The `take` of `run_pended_op` hands `me` what the merge already gave it. -/
theorem spec_takeWaiter (hi : CountInv me s) (ht : Tally s) (hw : WaiterInv me s) (hb : s.Bounded)
    (h : step s .takeWaiter = some s') : ReflTransGen Spec.Step (s.spec me) (s'.spec me) := by
  obtain ⟨-, hop, rfl⟩ := step_takeWaiter.1 h
  refine spec_steps .refl ?_
  unfold Sys.takeWaiter
  split
  · rename_i w hwt
    obtain rfl := hw.waitTask_eq hwt
    have hcnt := (ht.supplied (by simp [hwt])).2.2.2 hop
    ext <;> simp [Sys.Taking, Sys.notifying, Sys.inflight, hop, hwt,
      WaitPc.call_of_waiting (hw.waiting_of_waitTask hwt),
      wrappingSub_one_of_pos hcnt (hi.count_lt hb)]
  · rename_i hwt
    ext <;> simp [Sys.Taking, Sys.notifying, Sys.inflight, hop, hwt]

theorem spec_release (hw : WaiterInv me s) (h : step s .release = some s') :
    ReflTransGen Spec.Step (s.spec me) (s'.spec me) := by
  obtain ⟨-, -, hr⟩ := step_release.1 h
  refine spec_steps .refl ?_
  obtain ⟨t, b, hh, hp, rfl⟩ | ⟨t, b, hh, hp, rfl⟩ | ⟨hh, rfl⟩ := releaseAccess_eq_some.1 hr
  · obtain rfl := hw.holderTask t hh
    cases b <;> ext <;> simp [Sys.Taking, Sys.notifying, Sys.inflight, hh, hp, WaitPc.call]
  · obtain rfl := hw.holderTask t hh
    ext <;> simp [Sys.Taking, Sys.notifying, Sys.inflight, hh, hp, WaitPc.call]
  · ext <;> simp [Sys.Taking, Sys.notifying, Sys.inflight, hh]

/-- Every step of a run with one waiting task and fewer than `2^usize`
notifications outstanding is matched by steps of the documented mailbox. -/
theorem spec_step {a : Act} (hi : CountInv me s) (ht : Tally s) (hw : WaiterInv me s)
    (hb : s.Bounded)
    (h : step s a = some s') (ha : SingleBounded me s a s') :
    ReflTransGen Spec.Step (s.spec me) (s'.spec me) := by
  cases a with
  | wait t ms => obtain rfl := ha.1 t rfl; exact spec_wait h
  | resume t => exact spec_resume hw h
  | notify => exact spec_notify hi ha.2 h
  | closure tick => exact spec_closure hi ht hw hb h
  | runPendedOp =>
    obtain ⟨-, -, hop, -, rfl⟩ := step_runPendedOp.1 h
    exact spec_steps .refl (by ext <;> simp [Sys.Taking, Sys.notifying, Sys.inflight, hop])
  | swapPending =>
    obtain ⟨-, hop, rfl⟩ := step_swapPending.1 h
    exact spec_steps .refl (by ext <;> simp [Sys.Taking, Sys.notifying, Sys.inflight, hop])
  | addPending => exact spec_addPending hi ht hw hb h
  | takeWaiter => exact spec_takeWaiter hi ht hw hb h
  | release => exact spec_release hw h
  | timeout t => obtain ⟨-, -, rfl⟩ := step_timeout.1 h; exact spec_steps .refl rfl

end Simulation

theorem Reach.spec {me : TaskId} {s : Sys} (h : Reach (SingleBounded me) s) :
    ReflTransGen Spec.Step Spec.init (s.spec me) := by
  induction h with
  | new => exact spec_new me ▸ .refl
  | step hr hs ha ih =>
    exact ih.trans (spec_step hr.countInv hr.any.tally hr.single.waiterInv hr.bounded hs ha)

/-- **The mailbox implements the mailbox its documentation describes.**  In every
run with one waiting task `me` and fewer than `2^usize` notifications
outstanding, whatever the notifiers, their access and the timeouts, every
reachable state implements a state that the documented mailbox reaches from
`Mailbox::new()`, and every further step of the run is matched by steps of the
documented mailbox; so `me`'s calls return what the documented mailbox's calls
return, and the code keeps the documented mailbox's invariant. -/
theorem mailbox_refines_spec {me : TaskId} {s : Sys} (h : Reach (SingleBounded me) s) :
    ReflTransGen Spec.Step Spec.init (s.spec me) ∧
      (∀ a s', step s a = some s' → SingleBounded me s a s' →
        ReflTransGen Spec.Step (s.spec me) (s'.spec me)) ∧
      Spec.Inv (s.spec me) :=
  ⟨h.spec, fun _ _ hs ha => spec_step h.countInv h.any.tally h.single.waiterInv h.bounded hs ha,
    Spec.Inv.of_reach h.spec⟩

/-- Task `0` blocks; a notifier takes full access, and a pend-only notification
lands and is merged by the notifier's `run_pended_op`, up to its `fetch_add`. -/
def handOverRun : List Act :=
  [.wait 0 500, .closure 0, .release, .notify, .notify, .runPendedOp, .swapPending, .addPending]

/-- The documented mailbox has handed the merged notification to the blocked
call and counts none; the notifier's own has not reached it yet. -/
example : (Sys.after handOverRun).spec 0 = ⟨0, 0, .handed, 1, 0⟩ := by decide

theorem mailbox_refines_spec_handOver :
    ReflTransGen Spec.Step Spec.init ((Sys.after handOverRun).spec 0) ∧
      (∀ a s', step (Sys.after handOverRun) a = some s' →
        SingleBounded 0 (Sys.after handOverRun) a s' →
        ReflTransGen Spec.Step ((Sys.after handOverRun).spec 0) (s'.spec 0)) ∧
      Spec.Inv ((Sys.after handOverRun).spec 0) :=
  mailbox_refines_spec (Reach.of_run handOverRun rfl (by simp [handOverRun, Act.caller])
    (by decide))

end Mailbox
end Hopter
