/-
# One atomic step

The closures of `src/src/sync/mailbox.rs`, each run whole by the holder of full
access: nothing else touches the fields a closure reads or writes while it runs,
except the sleep queue, whose removals are idempotent, so each is one step.
`run_pended_op` is three steps, as the comment at its lines 89-95 asks: the
`swap`, the `fetch_add`, and the `take` with what follows it.  Between any two
steps a preempting interrupt handler may post a pend-only notification, and the
tick handler may time a sleeping task out.

A task's own steps (`wait`, `resume`) need the `SoftLock` free: while a task
holds it, scheduling is suspended, and while an interrupt handler holds it, no
task runs.  `step` is `none` when the action is not enabled, and always after an
`assert!` has stopped the kernel.
-/

import Hopter.Mailbox.State

namespace Hopter
namespace Mailbox

open Time Function

namespace Sys

variable (s : Sys)

/-- The first closure of `wait_until_timeout` (lines 169-198), run by task `t`:
the single-waiter `assert!`, then either a notification consumed or the task
registered, its flag cleared and the task put to sleep until `tick + timeout_ms`. -/
def waitPhase1 (t : TaskId) (timeoutMs tick : UInt32) : Sys :=
  if s.waitTask.isSome then { s with aborted := true }
  else if 0 < s.count then
    { s with count := wrappingSub s.count 1, pc := update s.pc t (.leave false),
             trueWaits := s.trueWaits + 1 }
  else
    { s with taskNotified := false, waitTask := some t,
             sleepQueue := addTaskToSleepQueue s.sleepQueue t (wakeAtTick tick timeoutMs),
             pc := update s.pc t (.leave true) }

/-- The second closure of `wait_until_timeout` (lines 208-215): clear `wait_task`
and read `task_notified`. -/
def waitPhase2 (t : TaskId) : Sys :=
  { s with waitTask := none, pc := update s.pc t (.finish s.taskNotified),
           trueWaits := s.trueWaits + if s.taskNotified then 1 else 0 }

/-- The closure of `notify_allow_isr` under full access (lines 233-244): wake the
waiting task, or else count the notification. -/
def notifyFull : Sys :=
  match s.waitTask with
  | some w =>
    { s with waitTask := none, sleepQueue := removeTaskFromSleepQueue s.sleepQueue w,
             taskNotified := true, holder := some (.notifier true) }
  | none =>
    { s with count := wrappingAdd s.count 1, taskNotified := true,
             holder := some (.notifier true) }

/-- `notify_allow_isr` under pend-only access (lines 249-251), with the
`SoftLock` noting that it granted one. -/
def notifyPendOnly : Sys :=
  { s with pendingCount := wrappingAdd s.pendingCount 1, pended := true }

/-- The last step of `run_pended_op` (lines 104-108): take the waiting task, if
any, out of `wait_task` and the sleep queue, and hand it a notification. -/
def takeWaiter : Sys :=
  match s.waitTask with
  | some w =>
    { s with waitTask := none, sleepQueue := removeTaskFromSleepQueue s.sleepQueue w,
             count := wrappingSub s.count 1, taskNotified := true, pendedOp := none }
  | none => { s with pendedOp := none }

/-! The fields `notifyFull` and `takeWaiter` set whichever branch they take. -/

@[simp] theorem notifyFull_notifyCalls : s.notifyFull.notifyCalls = s.notifyCalls := by
  unfold notifyFull; split <;> rfl

@[simp] theorem notifyFull_trueWaits : s.notifyFull.trueWaits = s.trueWaits := by
  unfold notifyFull; split <;> rfl

@[simp] theorem notifyFull_pc : s.notifyFull.pc = s.pc := by unfold notifyFull; split <;> rfl

@[simp] theorem notifyFull_holder : s.notifyFull.holder = some (.notifier true) := by
  unfold notifyFull; split <;> rfl

@[simp] theorem notifyFull_pendedOp : s.notifyFull.pendedOp = s.pendedOp := by
  unfold notifyFull; split <;> rfl

@[simp] theorem notifyFull_pended : s.notifyFull.pended = s.pended := by
  unfold notifyFull; split <;> rfl

@[simp] theorem takeWaiter_notifyCalls : s.takeWaiter.notifyCalls = s.notifyCalls := by
  unfold takeWaiter; split <;> rfl

@[simp] theorem takeWaiter_trueWaits : s.takeWaiter.trueWaits = s.trueWaits := by
  unfold takeWaiter; split <;> rfl

@[simp] theorem takeWaiter_pc : s.takeWaiter.pc = s.pc := by unfold takeWaiter; split <;> rfl

@[simp] theorem takeWaiter_holder : s.takeWaiter.holder = s.holder := by
  unfold takeWaiter; split <;> rfl

@[simp] theorem takeWaiter_pendedOp : s.takeWaiter.pendedOp = none := by
  unfold takeWaiter; split <;> rfl

@[simp] theorem takeWaiter_pended : s.takeWaiter.pended = s.pended := by
  unfold takeWaiter; split <;> rfl

@[simp] theorem takeWaiter_aborted : s.takeWaiter.aborted = s.aborted := by
  unfold takeWaiter; split <;> rfl

/-- The holder's closure, `none` once it has run. -/
def runClosure (tick : UInt32) : Option Sys :=
  match s.holder with
  | some (.task t) =>
    match s.pc t with
    | .phase1 ms => some (s.waitPhase1 t ms tick)
    | .phase2 => some (s.waitPhase2 t)
    | _ => none
  | some (.notifier false) => some s.notifyFull
  | _ => none

/-- The holder gives up full access after its closure; a task then returns
`true` (line 219), parks in `svc_yield_current_task` (line 202), or returns what
its second closure read. -/
def releaseAccess : Option Sys :=
  match s.holder with
  | some (.task t) =>
    match s.pc t with
    | .leave b =>
      some { s with holder := none, pc := update s.pc t (if b then .blocked else .done true) }
    | .finish b => some { s with holder := none, pc := update s.pc t (.done b) }
    | _ => none
  | some (.notifier true) => some { s with holder := none }
  | _ => none

end Sys

/-- One atomic step. -/
def step (s : Sys) (a : Act) : Option Sys :=
  if s.aborted then none else
  match a with
  | .wait t ms =>
    if s.holder = none ∧ (s.pc t).outside then
      some { s with holder := some (.task t), pc := update s.pc t (.phase1 ms) }
    else none
  | .resume t =>
    if s.holder = none ∧ s.pc t = .blocked ∧ queued s.sleepQueue t = 0 then
      some { s with holder := some (.task t), pc := update s.pc t .phase2 }
    else none
  | .notify =>
    if s.holder = none then
      some { s with holder := some (.notifier false), notifyCalls := s.notifyCalls + 1 }
    else some { s.notifyPendOnly with notifyCalls := s.notifyCalls + 1 }
  | .closure tick => if s.pendedOp = none ∧ s.pended = false then s.runClosure tick else none
  | .runPendedOp =>
    if s.holder ≠ none ∧ s.pendedOp = none ∧ s.pended then
      some { s with pended := false, pendedOp := some .swap }
    else none
  | .swapPending =>
    if s.pendedOp = some .swap then
      some { s with pendingCount := 0, pendedOp := some (.fetchAdd s.pendingCount) }
    else none
  | .addPending =>
    match s.pendedOp with
    | some (.fetchAdd v) => some { s with count := wrappingAdd s.count v, pendedOp := some .take }
    | _ => none
  | .takeWaiter => if s.pendedOp = some .take then some s.takeWaiter else none
  | .release => if s.pendedOp = none then s.releaseAccess else none
  | .timeout t =>
    if 0 < queued s.sleepQueue t then
      some { s with sleepQueue := removeTaskFromSleepQueue s.sleepQueue t }
    else none

/-- Whether step `a` applies `count.fetch_sub(1)`: the first closure of
`wait_until_timeout` taking its `count > 0` branch (line 179), or the last step of
`run_pended_op` finding a task in `wait_task` (line 106). -/
def Sys.subsCount (s : Sys) : Act → Prop
  | .closure _ =>
    ∃ t ms, s.holder = some (.task t) ∧ s.pc t = .phase1 ms ∧ s.waitTask = none ∧ 0 < s.count
  | .takeWaiter => s.pendedOp = some .take ∧ s.waitTask ≠ none
  | _ => False

/-- The sum a step's `fetch_add` computes before `AtomicUsize` wraps it: on
`pending_count` under pend-only access (line 250), on `count` in the full-access
branch with no waiting task (line 241), and on `count` in `run_pended_op`
(line 97). -/
def Sys.fetchAddSum (s : Sys) : Act → Option Nat
  | .notify => if s.holder = none then none else some (s.pendingCount + 1)
  | .closure _ =>
    if s.holder = some (.notifier false) ∧ s.waitTask = none then some (s.count + 1) else none
  | .addPending =>
    match s.pendedOp with
    | some (.fetchAdd v) => some (s.count + v)
    | _ => none
  | _ => none

/-! ### What each step can do -/

section Inversion

variable {s s' : Sys}

theorem step_wait {t : TaskId} {ms : UInt32} :
    step s (.wait t ms) = some s' ↔ s.aborted = false ∧ s.holder = none ∧
      (s.pc t).outside = true ∧
      s' = { s with holder := some (.task t), pc := update s.pc t (.phase1 ms) } := by
  simp only [step, Option.ite_none_left_eq_some, Option.ite_none_right_eq_some, Option.some.injEq,
    Bool.not_eq_true, and_assoc, @eq_comm Sys _ s']

theorem step_resume {t : TaskId} :
    step s (.resume t) = some s' ↔ s.aborted = false ∧ s.holder = none ∧
      s.pc t = .blocked ∧ queued s.sleepQueue t = 0 ∧
      s' = { s with holder := some (.task t), pc := update s.pc t .phase2 } := by
  simp only [step, Option.ite_none_left_eq_some, Option.ite_none_right_eq_some, Option.some.injEq,
    Bool.not_eq_true, and_assoc, @eq_comm Sys _ s']

theorem step_notify :
    step s .notify = some s' ↔ s.aborted = false ∧
      (s.holder = none ∧
          s' = { s with holder := some (.notifier false), notifyCalls := s.notifyCalls + 1 } ∨
        s.holder ≠ none ∧ s' = { s.notifyPendOnly with notifyCalls := s.notifyCalls + 1 }) := by
  by_cases hh : s.holder = none <;> simp [step, hh, @eq_comm Sys _ s']

/-- `notify_allow_isr` never waits: whoever holds the mailbox, it gets full
access or pend-only access. -/
theorem step_notify_enabled (ha : s.aborted = false) : ∃ s', step s .notify = some s' := by
  by_cases hh : s.holder = none
  · exact ⟨_, step_notify.2 ⟨ha, .inl ⟨hh, rfl⟩⟩⟩
  · exact ⟨_, step_notify.2 ⟨ha, .inr ⟨hh, rfl⟩⟩⟩

theorem step_closure {tick : UInt32} :
    step s (.closure tick) = some s' ↔ s.aborted = false ∧ s.pendedOp = none ∧
      s.pended = false ∧ s.runClosure tick = some s' := by
  simp only [step, Option.ite_none_left_eq_some, Option.ite_none_right_eq_some, Bool.not_eq_true,
    and_assoc]

theorem runClosure_eq_some {tick : UInt32} :
    s.runClosure tick = some s' ↔
      (∃ t ms, s.holder = some (.task t) ∧ s.pc t = .phase1 ms ∧ s' = s.waitPhase1 t ms tick) ∨
      (∃ t, s.holder = some (.task t) ∧ s.pc t = .phase2 ∧ s' = s.waitPhase2 t) ∨
      (s.holder = some (.notifier false) ∧ s' = s.notifyFull) := by
  unfold Sys.runClosure
  rcases hh : s.holder with _ | t | (_ | _)
  · simp
  · rcases hp : s.pc t <;> simp [hp, @eq_comm _ s']
  · simp [@eq_comm _ s']
  · simp

theorem step_runPendedOp :
    step s .runPendedOp = some s' ↔ s.aborted = false ∧ s.holder ≠ none ∧
      s.pendedOp = none ∧ s.pended = true ∧
      s' = { s with pended := false, pendedOp := some .swap } := by
  simp only [step, Option.ite_none_left_eq_some, Option.ite_none_right_eq_some, Option.some.injEq,
    Bool.not_eq_true, and_assoc, @eq_comm Sys _ s']

theorem step_swapPending :
    step s .swapPending = some s' ↔ s.aborted = false ∧ s.pendedOp = some .swap ∧
      s' = { s with pendingCount := 0, pendedOp := some (.fetchAdd s.pendingCount) } := by
  simp only [step, Option.ite_none_left_eq_some, Option.ite_none_right_eq_some, Option.some.injEq,
    Bool.not_eq_true, and_assoc, @eq_comm Sys _ s']

theorem step_addPending :
    step s .addPending = some s' ↔ s.aborted = false ∧ ∃ v, s.pendedOp = some (.fetchAdd v) ∧
      s' = { s with count := wrappingAdd s.count v, pendedOp := some .take } := by
  simp only [step, Option.ite_none_left_eq_some, Bool.not_eq_true]
  rcases s.pendedOp with _ | (_ | v | _) <;> simp [@eq_comm _ s']

theorem step_takeWaiter :
    step s .takeWaiter = some s' ↔ s.aborted = false ∧ s.pendedOp = some .take ∧
      s' = s.takeWaiter := by
  simp only [step, Option.ite_none_left_eq_some, Option.ite_none_right_eq_some, Option.some.injEq,
    Bool.not_eq_true, and_assoc, @eq_comm Sys _ s']

theorem step_release :
    step s .release = some s' ↔ s.aborted = false ∧ s.pendedOp = none ∧
      s.releaseAccess = some s' := by
  simp only [step, Option.ite_none_left_eq_some, Option.ite_none_right_eq_some, Bool.not_eq_true]

theorem releaseAccess_eq_some :
    s.releaseAccess = some s' ↔
      (∃ t b, s.holder = some (.task t) ∧ s.pc t = .leave b ∧
        s' = { s with holder := none, pc := update s.pc t (if b then .blocked else .done true) }) ∨
      (∃ t b, s.holder = some (.task t) ∧ s.pc t = .finish b ∧
        s' = { s with holder := none, pc := update s.pc t (.done b) }) ∨
      (s.holder = some (.notifier true) ∧ s' = { s with holder := none }) := by
  unfold Sys.releaseAccess
  rcases hh : s.holder with _ | t | (_ | _)
  · simp
  · rcases hp : s.pc t <;> simp [hp, @eq_comm _ s', -Bool.exists_bool]
  · simp
  · simp [@eq_comm _ s']

theorem step_timeout {t : TaskId} :
    step s (.timeout t) = some s' ↔ s.aborted = false ∧ 0 < queued s.sleepQueue t ∧
      s' = { s with sleepQueue := removeTaskFromSleepQueue s.sleepQueue t } := by
  simp only [step, Option.ite_none_left_eq_some, Option.ite_none_right_eq_some, Option.some.injEq,
    Bool.not_eq_true, and_assoc, @eq_comm Sys _ s']

end Inversion

/-- `subsCount` names exactly the steps that store `count - 1`, wrapped. -/
theorem step_subsCount {s s' : Sys} {a : Act} (h : step s a = some s') (hs : s.subsCount a) :
    s'.count = wrappingSub s.count 1 := by
  cases a with
  | closure tick =>
    obtain ⟨t, ms, hh, hp, hw, hc⟩ := hs
    obtain ⟨-, -, -, hr⟩ := step_closure.1 h
    simp only [Sys.runClosure, hh, hp, Option.some.injEq] at hr
    subst hr
    simp [Sys.waitPhase1, hw, hc]
  | takeWaiter =>
    obtain ⟨-, -, rfl⟩ := step_takeWaiter.1 h
    obtain ⟨w, hw⟩ := Option.ne_none_iff_exists'.1 hs.2
    simp [Sys.takeWaiter, hw]
  | _ => exact hs.elim

/-- `fetchAddSum` is what the step stores, before the wrap. -/
theorem step_fetchAddSum {s s' : Sys} {a : Act} {x : Nat} (h : step s a = some s')
    (hx : s.fetchAddSum a = some x) :
    s'.count = x % usizeSize ∨ s'.pendingCount = x % usizeSize := by
  cases a with
  | notify =>
    obtain ⟨-, ⟨hh, -⟩ | ⟨hh, rfl⟩⟩ := step_notify.1 h
    · simp [Sys.fetchAddSum, hh] at hx
    · simp only [Sys.fetchAddSum, hh, if_false, Option.some.injEq] at hx
      exact .inr (by simp [Sys.notifyPendOnly, wrappingAdd, hx])
  | closure tick =>
    obtain ⟨-, -, -, hr⟩ := step_closure.1 h
    simp only [Sys.fetchAddSum] at hx
    split_ifs at hx with hc
    obtain ⟨hh, hw⟩ := hc
    cases hx
    simp only [Sys.runClosure, hh, Option.some.injEq] at hr
    subst hr
    exact .inl (by simp [Sys.notifyFull, hw, wrappingAdd])
  | addPending =>
    obtain ⟨-, v, hv, rfl⟩ := step_addPending.1 h
    simp only [Sys.fetchAddSum, hv, Option.some.injEq] at hx
    exact .inl (by simp [wrappingAdd, hx])
  | _ => simp [Sys.fetchAddSum] at hx

/-- The actions `as` in turn, `none` as soon as one is not enabled. -/
def run : Sys → List Act → Option Sys
  | s, [] => some s
  | s, a :: as => (step s a).bind fun s' => run s' as

@[simp] theorem run_nil (s : Sys) : run s [] = some s := rfl

theorem run_cons (s : Sys) (a : Act) (as : List Act) :
    run s (a :: as) = (step s a).bind fun s' => run s' as := rfl

/-- Where the run `as` from `Mailbox::new()` ends, `Mailbox::new()` itself if one
of its actions is not enabled. -/
def Sys.after (as : List Act) : Sys := (run Sys.new as).getD Sys.new

theorem run_append (s : Sys) (as bs : List Act) :
    run s (as ++ bs) = (run s as).bind fun s' => run s' bs := by
  induction as generalizing s with
  | nil => rfl
  | cons a as ih => simp only [List.cons_append, run_cons, ih, Option.bind_assoc]

/-- `s'` follows from `s` by the actions `as`, every step satisfying `ok`. -/
inductive Steps (ok : Sys → Act → Sys → Prop) : Sys → List Act → Sys → Prop
  | nil (s : Sys) : Steps ok s [] s
  | cons {s s₁ s' : Sys} {a : Act} {as : List Act} :
      step s a = some s₁ → ok s a s₁ → Steps ok s₁ as s' → Steps ok s (a :: as) s'

/-- The states reachable from `Mailbox::new()` by steps that each satisfy `ok`. -/
inductive Reach (ok : Sys → Act → Sys → Prop) : Sys → Prop
  | new : Reach ok Sys.new
  | step {s s' : Sys} {a : Act} : Reach ok s → step s a = some s' → ok s a s' → Reach ok s'

variable {ok : Sys → Act → Sys → Prop}

theorem Steps.run_eq {s s' : Sys} {as : List Act} (h : Steps ok s as s') : run s as = some s' := by
  induction h with
  | nil => rfl
  | cons hs _ _ ih => rw [run_cons, hs, Option.some_bind, ih]

/-- A run whose every action `ok` allows wherever it happens. -/
theorem Steps.of_run {s s' : Sys} {as : List Act} (h : run s as = some s')
    (hok : ∀ a ∈ as, ∀ x y, ok x a y) : Steps ok s as s' := by
  induction as generalizing s with
  | nil => cases h; exact .nil _
  | cons a as ih =>
    rw [run_cons] at h
    obtain ⟨s₁, h₁, h'⟩ := Option.bind_eq_some.1 h
    exact .cons h₁ (hok a (List.mem_cons_self _ _) _ _)
      (ih h' fun b hb => hok b (List.mem_cons_of_mem _ hb))

theorem Steps.mono {ok' : Sys → Act → Sys → Prop} (hok : ∀ s a s', ok s a s' → ok' s a s')
    {s s' : Sys} {as : List Act} (h : Steps ok s as s') : Steps ok' s as s' := by
  induction h with
  | nil => exact .nil _
  | cons h₁ ha _ ih => exact .cons h₁ (hok _ _ _ ha) ih

theorem Reach.steps {s s' : Sys} {as : List Act} (hs : Reach ok s) (h : Steps ok s as s') :
    Reach ok s' := by
  induction h with
  | nil => exact hs
  | cons h₁ hok _ ih => exact ih (hs.step h₁ hok)

theorem Reach.mono {ok' : Sys → Act → Sys → Prop} (hok : ∀ s a s', ok s a s' → ok' s a s')
    {s : Sys} (h : Reach ok s) : Reach ok' s := by
  induction h with
  | new => exact .new
  | step _ hs ha ih => exact ih.step hs (hok _ _ _ ha)

/-! ### Which runs the statements are about -/

/-- Every step. -/
def AnyStep (_ : Sys) (_ : Act) (_ : Sys) : Prop := True

/-- Task `me` is the only one that ever calls `wait_until_timeout`. -/
def SingleWaiter (me : TaskId) (_ : Sys) (a : Act) (_ : Sys) : Prop :=
  ∀ t, a.caller = some t → t = me

/-- A run in which no task other than `me` calls `wait_until_timeout`. -/
theorem singleWaiter_of_mem {me : TaskId} {as : List Act} (h : ∀ t ms, .wait t ms ∈ as → t = me) :
    ∀ a ∈ as, ∀ x y, SingleWaiter me x a y := by
  intro a ha _ _ t ht
  cases a with
  | wait u ms => cases ht; exact h _ _ ha
  | _ => cases ht

/-- Fewer than `2^usize` notifications are outstanding: called and not received. -/
def Sys.Bounded (s : Sys) : Prop := s.notifyCalls < s.trueWaits + usizeSize

/-- Any number of waiting tasks, and fewer than `2^usize` notifications ever
outstanding. -/
def AnyBounded (_ : Sys) (_ : Act) (s' : Sys) : Prop := s'.Bounded

/-- A single waiting task `me`, and fewer than `2^usize` notifications ever
outstanding. -/
def SingleBounded (me : TaskId) (s : Sys) (a : Act) (s' : Sys) : Prop :=
  SingleWaiter me s a s' ∧ s'.Bounded

instance : DecidablePred Sys.Bounded := fun _ => inferInstanceAs (Decidable (_ < _))

theorem Reach.bounded {me : TaskId} {s : Sys} (h : Reach (SingleBounded me) s) : s.Bounded := by
  cases h with
  | new => exact usizeSize_pos
  | step _ _ hok => exact hok.2

theorem Reach.anyBounded {s : Sys} (h : Reach AnyBounded s) : s.Bounded := by
  cases h with
  | new => exact usizeSize_pos
  | step _ _ hok => exact hok

theorem Reach.single {me : TaskId} {s : Sys} (h : Reach (SingleBounded me) s) :
    Reach (SingleWaiter me) s :=
  h.mono fun _ _ _ hok => hok.1

/-- A run with one waiting task is a run. -/
theorem Reach.any {me : TaskId} {s : Sys} (h : Reach (SingleBounded me) s) : Reach AnyBounded s :=
  h.mono fun _ _ _ hok => hok.2

/-- The two counters of calls only grow. -/
theorem step_counters_mono {s s' : Sys} {a : Act} (h : step s a = some s') :
    s.notifyCalls ≤ s'.notifyCalls ∧ s.trueWaits ≤ s'.trueWaits := by
  cases a with
  | wait t ms => obtain ⟨-, -, -, rfl⟩ := step_wait.1 h; exact ⟨le_rfl, le_rfl⟩
  | resume t => obtain ⟨-, -, -, -, rfl⟩ := step_resume.1 h; exact ⟨le_rfl, le_rfl⟩
  | notify =>
    obtain ⟨-, ⟨-, rfl⟩ | ⟨-, rfl⟩⟩ := step_notify.1 h <;> exact ⟨Nat.le_succ _, le_rfl⟩
  | closure tick =>
    obtain ⟨-, -, -, hc⟩ := step_closure.1 h
    obtain ⟨t, ms, -, -, rfl⟩ | ⟨t, -, -, rfl⟩ | ⟨-, rfl⟩ := runClosure_eq_some.1 hc
    · unfold Sys.waitPhase1
      split_ifs
      exacts [⟨le_rfl, le_rfl⟩, ⟨le_rfl, Nat.le_succ _⟩, ⟨le_rfl, le_rfl⟩]
    · exact ⟨le_rfl, Nat.le_add_right _ _⟩
    · simp
  | runPendedOp => obtain ⟨-, -, -, -, rfl⟩ := step_runPendedOp.1 h; exact ⟨le_rfl, le_rfl⟩
  | swapPending => obtain ⟨-, -, rfl⟩ := step_swapPending.1 h; exact ⟨le_rfl, le_rfl⟩
  | addPending => obtain ⟨-, v, -, rfl⟩ := step_addPending.1 h; exact ⟨le_rfl, le_rfl⟩
  | takeWaiter =>
    obtain ⟨-, -, rfl⟩ := step_takeWaiter.1 h
    unfold Sys.takeWaiter; split <;> exact ⟨le_rfl, le_rfl⟩
  | release =>
    obtain ⟨-, -, hr⟩ := step_release.1 h
    obtain ⟨t, b, -, -, rfl⟩ | ⟨t, b, -, -, rfl⟩ | ⟨-, rfl⟩ := releaseAccess_eq_some.1 hr <;>
      exact ⟨le_rfl, le_rfl⟩
  | timeout t => obtain ⟨-, -, rfl⟩ := step_timeout.1 h; exact ⟨le_rfl, le_rfl⟩

/-- Only a call of `notify_allow_isr` is counted as one. -/
theorem step_notifyCalls {s s' : Sys} {a : Act} (h : step s a = some s') (hn : a ≠ .notify) :
    s'.notifyCalls = s.notifyCalls := by
  cases a with
  | wait t ms => obtain ⟨-, -, -, rfl⟩ := step_wait.1 h; rfl
  | resume t => obtain ⟨-, -, -, -, rfl⟩ := step_resume.1 h; rfl
  | notify => exact absurd rfl hn
  | closure tick =>
    obtain ⟨-, -, -, hc⟩ := step_closure.1 h
    obtain ⟨t, ms, -, -, rfl⟩ | ⟨t, -, -, rfl⟩ | ⟨-, rfl⟩ := runClosure_eq_some.1 hc
    · unfold Sys.waitPhase1; split_ifs <;> rfl
    · rfl
    · simp
  | runPendedOp => obtain ⟨-, -, -, -, rfl⟩ := step_runPendedOp.1 h; rfl
  | swapPending => obtain ⟨-, -, rfl⟩ := step_swapPending.1 h; rfl
  | addPending => obtain ⟨-, v, -, rfl⟩ := step_addPending.1 h; rfl
  | takeWaiter => obtain ⟨-, -, rfl⟩ := step_takeWaiter.1 h; simp
  | release =>
    obtain ⟨-, -, hr⟩ := step_release.1 h
    obtain ⟨t, b, -, -, rfl⟩ | ⟨t, b, -, -, rfl⟩ | ⟨-, rfl⟩ := releaseAccess_eq_some.1 hr <;> rfl
  | timeout t => obtain ⟨-, -, rfl⟩ := step_timeout.1 h; rfl

/-- No step brings a task back to `idle`, its place only before its first call. -/
theorem step_pc_idle {s s' : Sys} {a : Act} {t : TaskId} (h : step s a = some s')
    (ht : s'.pc t = .idle) : s.pc t = .idle := by
  have upd : ∀ {u : TaskId} {q : WaitPc}, update s.pc u q t = .idle → q ≠ .idle → s.pc t = .idle :=
    fun {u _} h' hq => by
      by_cases htu : t = u
      · subst htu; simp only [update_same] at h'; exact absurd h' hq
      · rwa [update_noteq htu] at h'
  cases a with
  | wait u ms => obtain ⟨-, -, -, rfl⟩ := step_wait.1 h; exact upd ht nofun
  | resume u => obtain ⟨-, -, -, -, rfl⟩ := step_resume.1 h; exact upd ht nofun
  | notify => obtain ⟨-, ⟨-, rfl⟩ | ⟨-, rfl⟩⟩ := step_notify.1 h <;> exact ht
  | closure tick =>
    obtain ⟨-, -, -, hc⟩ := step_closure.1 h
    obtain ⟨u, ms, -, -, rfl⟩ | ⟨u, -, -, rfl⟩ | ⟨-, rfl⟩ := runClosure_eq_some.1 hc
    · unfold Sys.waitPhase1 at ht; split_ifs at ht; exacts [ht, upd ht nofun, upd ht nofun]
    · exact upd ht nofun
    · simpa using ht
  | runPendedOp => obtain ⟨-, -, -, -, rfl⟩ := step_runPendedOp.1 h; exact ht
  | swapPending => obtain ⟨-, -, rfl⟩ := step_swapPending.1 h; exact ht
  | addPending => obtain ⟨-, v, -, rfl⟩ := step_addPending.1 h; exact ht
  | takeWaiter => obtain ⟨-, -, rfl⟩ := step_takeWaiter.1 h; simpa using ht
  | release =>
    obtain ⟨-, -, hr⟩ := step_release.1 h
    obtain ⟨u, b, -, -, rfl⟩ | ⟨u, b, -, -, rfl⟩ | ⟨-, rfl⟩ := releaseAccess_eq_some.1 hr
    · exact upd ht (by cases b <;> simp)
    · exact upd ht nofun
    · exact ht
  | timeout u => obtain ⟨-, -, rfl⟩ := step_timeout.1 h; exact ht

theorem Steps.counters_mono {s s' : Sys} {as : List Act} (h : Steps ok s as s') :
    s.notifyCalls ≤ s'.notifyCalls ∧ s.trueWaits ≤ s'.trueWaits := by
  induction h with
  | nil => exact ⟨le_rfl, le_rfl⟩
  | cons h₁ _ _ ih => have := step_counters_mono h₁; omega

/-- A run whose calls of `notify_allow_isr` outnumber by fewer than `2^usize`
the notifications received when it began stays below the bound throughout. -/
theorem Steps.bounded {s s' : Sys} {as : List Act} (h : Steps ok s as s')
    (hb : s'.notifyCalls < s.trueWaits + usizeSize) :
    Steps (fun x a y => ok x a y ∧ y.Bounded) s as s' := by
  induction h with
  | nil => exact .nil _
  | cons h₁ hok hrest ih =>
    have := hrest.counters_mono
    have := step_counters_mono h₁
    exact .cons h₁ ⟨hok, show _ < _ by omega⟩ (ih (by omega))

theorem Steps.singleBounded {me : TaskId} {s s' : Sys} {as : List Act}
    (h : Steps (SingleWaiter me) s as s') (hb : s'.notifyCalls < s.trueWaits + usizeSize) :
    Steps (SingleBounded me) s as s' :=
  h.bounded hb

theorem Steps.anyBounded {s s' : Sys} {as : List Act} (h : Steps ok s as s')
    (hb : s'.notifyCalls < s.trueWaits + usizeSize) : Steps AnyBounded s as s' :=
  (h.bounded hb).mono fun _ _ _ hok => hok.2

/-- A run from `Mailbox::new()` with one waiting task and fewer than `2^usize`
notifications in all. -/
theorem Reach.of_run {me : TaskId} {s : Sys} (as : List Act) (h : run Sys.new as = some s)
    (hok : ∀ a ∈ as, ∀ t, a.caller = some t → t = me) (hb : s.notifyCalls < usizeSize) :
    Reach (SingleBounded me) s :=
  Reach.new.steps ((Steps.of_run h fun a ha _ _ => hok a ha).singleBounded (by simpa [Sys.new]))

/-! ### Bursts of pend-only notifications -/

/-- While some party holds full access, `k` calls of `notify_allow_isr` are all
pend-only: `pending_count` gains `k`, wrapped around, and the `SoftLock` notes
that it granted pend-only access. -/
theorem run_replicate_notify {s : Sys} (ha : s.aborted = false) (hh : s.holder ≠ none)
    (hp : s.pendingCount < usizeSize) (k : Nat) :
    run s (List.replicate k .notify) =
      some { s with pendingCount := (s.pendingCount + k) % usizeSize,
                    pended := s.pended || decide (0 < k), notifyCalls := s.notifyCalls + k } := by
  induction k generalizing s with
  | zero => simp [Nat.mod_eq_of_lt hp]
  | succ k ih =>
    let s₁ : Sys := { s with pendingCount := wrappingAdd s.pendingCount 1, pended := true,
                             notifyCalls := s.notifyCalls + 1 }
    have h₁ : step s .notify = some s₁ := step_notify.2 ⟨ha, .inr ⟨hh, rfl⟩⟩
    rw [List.replicate_succ, run_cons, h₁, Option.some_bind,
      ih (s := s₁) ha hh (wrappingAdd_lt _ _)]
    simp only [s₁, wrappingAdd, Nat.mod_add_mod, Nat.add_assoc, Nat.add_comm 1 k,
      Bool.true_or, Nat.succ_pos, decide_True, Bool.or_true]

/-- A run from `Mailbox::new()` with a burst of `k` pend-only notifications in
it, while some party holds full access. -/
theorem run_burst {x : Sys} (as : List Act) {bs : List Act} (hx : run Sys.new as = some x)
    (ha : x.aborted = false) (hh : x.holder ≠ none) (hp : x.pendingCount < usizeSize) (k : Nat) :
    run Sys.new (as ++ List.replicate k .notify ++ bs) =
      run { x with pendingCount := (x.pendingCount + k) % usizeSize,
                   pended := x.pended || decide (0 < k), notifyCalls := x.notifyCalls + k } bs := by
  rw [run_append, run_append, hx, Option.some_bind, run_replicate_notify ha hh hp, Option.some_bind]

/-! ### Two runs of the first closure

The first closure of `wait_until_timeout` (lines 169-198) relies on two things
that do not hold.  Its `assert!` (line 174) is meant to stop a second task
waiting on the mailbox while a first one is registered, but a notifier that
wakes the first task empties `wait_task` (lines 233-238) before that task's
second closure has run.  In that window a second task passes the assertion,
clears `task_notified` and registers, and the first task's second closure then
takes the second task's registration (line 211) and reads the flag the second
task cleared (`secondWaiter_not_caught`).  And the closure files a blocking task
under `time::get_tick() + timeout_ms` (line 195), a sum of two `u32`s that a
build without overflow checks wraps around.  Ticks are milliseconds, so the tick
passes `u32::MAX` after about 49.7 days of uptime, and within `timeout_ms` of
that the deadline wraps to a tick already past (`wait_deadline_in_past`);
`Mailbox::wait` (lines 140-145) passes `100_000_000` on every round of its loop,
so every tick in the last 27.8 hours before the wrap is such a tick for it. -/

/-- Task `1` blocks on a fresh mailbox, and a notifier wakes it. -/
def handOffRun : List Act := [.wait 1 500, .closure 0, .release, .notify, .closure 0, .release]

/-- Then task `2` calls `wait_until_timeout(500)`, and task `1` resumes. -/
def secondWaiterRun : List Act := handOffRun ++ [.wait 2 500, .closure 0, .release, .resume 1]

/-- Task `2`'s first closure ran after task `1` registered and blocked, and
before task `1`'s call returned, and the kernel has not stopped; task `1`'s
second closure takes task `2`'s registration and returns `false`.  One
notification was posted, and none was received or is left. -/
theorem secondWaiter_not_caught :
    ∃ s s', run Sys.new secondWaiterRun = some s ∧ step s (.closure 0) = some s' ∧
      s.aborted = false ∧ s.pc 1 = .phase2 ∧ s.pc 2 = .blocked ∧ s.waitTask = some 2 ∧
      s'.aborted = false ∧ s'.waitTask = none ∧ s'.pc 1 = .finish false ∧
      queued s'.sleepQueue 2 = 1 ∧ s'.notifyCalls = 1 ∧
      s'.trueWaits + s'.count + s'.pendingCount = 0 :=
  ⟨_, _, rfl, rfl, rfl, rfl, rfl, rfl, rfl, rfl, rfl, rfl, rfl, rfl⟩

/-- The timeout `Mailbox::wait` passes to `wait_until_timeout` on every round of
its loop (line 144). -/
def waitTimeoutMs : UInt32 := 100000000

/-- `Mailbox::wait` at tick `4_200_000_000` files its task under tick
`5_032_704`, already past. -/
theorem wait_deadline_in_past :
    ∃ s', step (Sys.after [.wait 0 waitTimeoutMs]) (.closure 4200000000) = some s' ∧
      s'.pc 0 = .leave true ∧ s'.sleepQueue = [(5032704, 0)] ∧ (5032704 : UInt32) < 4200000000 :=
  ⟨_, rfl, rfl, rfl, by decide⟩

end Mailbox
end Hopter
