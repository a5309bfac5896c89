/-
# The mailbox its documentation describes

The doc comments of `src/src/sync/mailbox.rs` describe a simpler object than its
code: a counter of notifications and at most one waiting task.
`notify_allow_isr` makes the waiting task ready if there is one and otherwise
increments the counter (lines 223-227); `wait_until_timeout` decrements a
positive counter and returns `true`, or else blocks until a notification, which
makes it return `true`, or its timeout, which makes it return `false`
(lines 147-162).  `Spec.State` is that object, with the one thing the
`SoftLock` adds to it: a notification posted under pend-only access takes
effect only when the holder of full access merges it, so those notifications
wait aside, in `deferred`, until a `merge` delivers them one at a time, and all
of them have been merged before a call decides whether to block.

Nothing here reads the code; `Hopter.Mailbox.Refinement` says that the code
implements this object.  `Inv` is what it keeps: a blocked call never waits
beside a counted notification, and every notification posted is received,
counted, deferred or handed to the blocked call.
-/

import Mathlib.Logic.Relation

namespace Hopter
namespace Mailbox
namespace Spec

open Relation

/-- The waiting task's call of `wait_until_timeout`, as a user of the mailbox sees it. -/
inductive Call
  /-- Not inside a call, or inside one that has not yet looked at the counter. -/
  | idle
  /-- Blocked, and no notification handed to it. -/
  | waiting
  /-- Blocked, and a notification handed to it. -/
  | handed
  /-- The call returned `notified`, or is bound to. -/
  | returned (notified : Bool)
  deriving DecidableEq, Repr

/-- A counter of notifications and one waiting task's call. -/
@[ext] structure State where
  /-- Notifications that took effect with no task blocked, not yet received. -/
  count : Nat
  /-- Notifications posted under pend-only access, not yet merged. -/
  deferred : Nat
  /-- The waiting task's call. -/
  call : Call
  /-- `notify_allow_isr` calls. -/
  posted : Nat
  /-- Calls that returned, or are bound to return, `true`. -/
  received : Nat
  deriving DecidableEq, Repr

/-- `Mailbox::new()`. -/
def init : State := ⟨0, 0, .idle, 0, 0⟩

/-- A notification takes effect: it wakes the blocked call, or else is counted. -/
def State.deliver (a : State) : State :=
  if a.call = .waiting then { a with call := .handed } else { a with count := a.count + 1 }

/-- The steps of the documented mailbox. -/
inductive Step : State → State → Prop
  /-- `notify_allow_isr` under full access. -/
  | notify (a : State) : Step a { a.deliver with posted := a.posted + 1 }
  /-- `notify_allow_isr` under pend-only access: posted, its effect deferred. -/
  | defer (a : State) : Step a { a with deferred := a.deferred + 1, posted := a.posted + 1 }
  /-- One deferred notification takes effect. -/
  | merge {a : State} (h : 0 < a.deferred) : Step a { a.deliver with deferred := a.deferred - 1 }
  /-- The task calls `wait_until_timeout` again. -/
  | reenter {a : State} {b : Bool} (h : a.call = .returned b) : Step a { a with call := .idle }
  /-- A call finds a notification counted, takes it and returns `true`. -/
  | take {a : State} (h : a.call = .idle) (hc : 0 < a.count) :
      Step a { a with count := a.count - 1, call := .returned true, received := a.received + 1 }
  /-- A call finds nothing counted or deferred, and blocks. -/
  | block {a : State} (h : a.call = .idle) (hc : a.count = 0) (hd : a.deferred = 0) :
      Step a { a with call := .waiting }
  /-- A blocked call handed nothing times out and returns `false`. -/
  | expire {a : State} (h : a.call = .waiting) : Step a { a with call := .returned false }
  /-- A blocked call handed a notification returns `true`. -/
  | wake {a : State} (h : a.call = .handed) :
      Step a { a with call := .returned true, received := a.received + 1 }

/-! ### What a delivery changes -/

namespace State

variable (a : State)

@[simp] theorem deliver_deferred : a.deliver.deferred = a.deferred := by
  unfold deliver; split_ifs <;> rfl

@[simp] theorem deliver_posted : a.deliver.posted = a.posted := by unfold deliver; split_ifs <;> rfl

@[simp] theorem deliver_received : a.deliver.received = a.received := by
  unfold deliver; split_ifs <;> rfl

/-- After a delivery no call is left blocked. -/
theorem deliver_call_ne : a.deliver.call ≠ .waiting := by unfold deliver; split_ifs <;> simp [*]

/-- A delivery adds one to what is counted or handed to the blocked call. -/
theorem deliver_tally : a.deliver.count + (if a.deliver.call = .handed then 1 else 0) =
    a.count + (if a.call = .handed then 1 else 0) + 1 := by
  unfold deliver; split_ifs <;> simp_all

end State

/-- A deferred notification taking effect with no call blocked is counted. -/
theorem merge_counted {a : State} (hw : a.call ≠ .waiting) (h : 0 < a.deferred) :
    Step a { a with count := a.count + 1, deferred := a.deferred - 1 } := by
  have := Step.merge h
  simp only [State.deliver, hw, if_false] at this
  exact this

/-- `k` deferred notifications take effect one after another, no call blocked. -/
theorem merges {a : State} (k : Nat) (hw : a.call ≠ .waiting) (hk : k ≤ a.deferred) :
    ReflTransGen Step a { a with count := a.count + k, deferred := a.deferred - k } := by
  induction k with
  | zero => exact .refl
  | succ k ih => exact (ih (by omega)).tail (merge_counted hw (by simp only; omega))

/-- What every reachable state of the documented mailbox keeps. -/
structure Inv (a : State) : Prop where
  /-- A blocked call never waits beside a counted notification. -/
  noLostWakeup : a.call = .waiting → a.count = 0
  /-- Every notification posted is received, counted, deferred, or handed to the
  blocked call. -/
  conserved : a.posted = a.received + a.count + a.deferred + if a.call = .handed then 1 else 0

theorem Inv.initial : Inv init := ⟨fun _ => rfl, rfl⟩

theorem Inv.step {a a' : State} (hi : Inv a) (h : Step a a') : Inv a' := by
  have hc := hi.conserved
  cases h with
  | notify =>
    have := a.deliver_tally
    exact ⟨fun h => absurd h a.deliver_call_ne,
      by simp only [State.deliver_received, State.deliver_deferred] at this ⊢; omega⟩
  | defer => exact ⟨hi.noLostWakeup, by simp only; omega⟩
  | merge hd =>
    have := a.deliver_tally
    exact ⟨fun h => absurd h a.deliver_call_ne,
      by simp only [State.deliver_received, State.deliver_posted] at this ⊢; omega⟩
  | reenter h => exact ⟨by simp, by simp_all⟩
  | take h hpos => exact ⟨by simp, by simp_all; omega⟩
  | block h hz hd => exact ⟨fun _ => hz, by simp_all⟩
  | expire h => exact ⟨by simp, by simp_all⟩
  | wake h => exact ⟨by simp, by simp_all; omega⟩

/-- Every state the documented mailbox reaches keeps `Inv`. -/
theorem Inv.of_reach {a : State} (h : ReflTransGen Step init a) : Inv a := by
  induction h with
  | refl => exact .initial
  | tail _ hs ih => exact ih.step hs

end Spec
end Mailbox
end Hopter
