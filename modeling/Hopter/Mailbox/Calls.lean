/-
# Whole calls, one after another

The doc comment of `Mailbox` (`src/src/sync/mailbox.rs`, lines 23-29) describes
calls made one after another: a notification posted before the task waits is
counted, and the task's later wait decrements the counter and returns at once;
a task blocks only when the counter is zero.  And `wait_until_timeout`
returns `false` when it wakes by its timeout (lines 158-160).

Here each call runs whole before the next begins, from an idle mailbox: a
full-access `notify_allow_isr` is `notifyCall`, a `wait_until_timeout` that
finds a notification is `waitCall`.  `run_notifyCall` and `run_waitCall` say
what one call does, and `notifies_then_waits` what `n` notifications followed by
`m ≤ n` waits do.
-/

import Hopter.Mailbox.Step

namespace Hopter
namespace Mailbox

open Time Function

/-- Nobody holds the mailbox, nothing is pending, no task is registered, and
task `t` is outside `wait_until_timeout` and not asleep. -/
def Sys.Idle (t : TaskId) (s : Sys) : Prop :=
  s.aborted = false ∧ s.holder = none ∧ s.pended = false ∧ s.pendedOp = none ∧
    s.waitTask = none ∧ (s.pc t).outside = true ∧ queued s.sleepQueue t = 0

instance (t : TaskId) : DecidablePred (Sys.Idle t) :=
  fun _ => inferInstanceAs (Decidable (_ ∧ _))

/-! ### Notifications, then waits -/

/-- A `notify_allow_isr` with the mailbox free: it takes full access, runs its
closure and gives the mailbox back. -/
def notifyCall (tick : UInt32) : List Act := [.notify, .closure tick, .release]

/-- A `wait_until_timeout(ms)` by task `t` that returns from its first closure. -/
def waitCall (t : TaskId) (ms tick : UInt32) : List Act := [.wait t ms, .closure tick, .release]

/-- One notification on an idle mailbox is counted. -/
theorem run_notifyCall (tick : UInt32) {s : Sys} {t : TaskId} (hs : s.Idle t)
    (hc : s.count + 1 < usizeSize) :
    ∃ s', run s (notifyCall tick) = some s' ∧ s'.Idle t ∧ s'.count = s.count + 1 ∧
      s'.notifyCalls = s.notifyCalls + 1 ∧ s'.trueWaits = s.trueWaits ∧
      s'.sleepQueue = s.sleepQueue ∧ s'.pc = s.pc := by
  obtain ⟨ha, hh, hpd, hop, hw, hout, hq⟩ := hs
  simp [notifyCall, run_cons, step, Sys.runClosure, Sys.releaseAccess, Sys.notifyFull, Sys.Idle,
    ha, hh, hpd, hop, hw, hout, hq, wrappingAdd_of_lt hc, -WaitPc.outside]

/-- One wait on an idle mailbox with a notification counted takes it and returns
`true`, without registering or sleeping. -/
theorem run_waitCall (ms tick : UInt32) {s : Sys} {t : TaskId} (hs : s.Idle t)
    (hc : 0 < s.count) (hcl : s.count < usizeSize) :
    ∃ s', run s (waitCall t ms tick) = some s' ∧ s'.Idle t ∧ s'.count = s.count - 1 ∧
      s'.notifyCalls = s.notifyCalls ∧ s'.trueWaits = s.trueWaits + 1 ∧
      s'.sleepQueue = s.sleepQueue ∧ s'.pc t = .done true := by
  obtain ⟨ha, hh, hpd, hop, hw, hout, hq⟩ := hs
  simp [waitCall, run_cons, step, Sys.runClosure, Sys.releaseAccess, Sys.waitPhase1, Sys.Idle,
    ha, hh, hpd, hop, hw, hout, hq, hc, wrappingSub_one_of_pos hc hcl, -WaitPc.outside,
    WaitPc.outside.eq_7]

theorem run_notifyCalls (tick : UInt32) (n : Nat) {s : Sys} {t : TaskId} (hs : s.Idle t)
    (hc : s.count + n < usizeSize) :
    ∃ s', run s (List.replicate n (notifyCall tick)).flatten = some s' ∧ s'.Idle t ∧
      s'.count = s.count + n ∧ s'.notifyCalls = s.notifyCalls + n ∧ s'.trueWaits = s.trueWaits ∧
      s'.sleepQueue = s.sleepQueue := by
  induction n generalizing s with
  | zero => exact ⟨s, rfl, hs, rfl, rfl, rfl, rfl⟩
  | succ n ih =>
    obtain ⟨s₁, h₁, hs₁, hc₁, hn₁, ht₁, hq₁, -⟩ := run_notifyCall tick hs (by omega)
    obtain ⟨s', h', hs', hc', hn', ht', hq'⟩ := ih hs₁ (by omega)
    refine ⟨s', ?_, hs', by omega, by omega, ht'.trans ht₁, hq'.trans hq₁⟩
    rw [List.replicate_succ, List.flatten_cons, run_append, h₁, Option.some_bind, h']

theorem run_waitCalls (ms tick : UInt32) (m : Nat) {s : Sys} {t : TaskId} (hs : s.Idle t)
    (hm : m ≤ s.count) (hcl : s.count < usizeSize) :
    ∃ s', run s (List.replicate m (waitCall t ms tick)).flatten = some s' ∧ s'.Idle t ∧
      s'.count = s.count - m ∧ s'.notifyCalls = s.notifyCalls ∧ s'.trueWaits = s.trueWaits + m ∧
      s'.sleepQueue = s.sleepQueue ∧ (0 < m → s'.pc t = .done true) := by
  induction m generalizing s with
  | zero => exact ⟨s, rfl, hs, rfl, rfl, rfl, rfl, fun h => absurd h (Nat.lt_irrefl 0)⟩
  | succ m ih =>
    obtain ⟨s₁, h₁, hs₁, hc₁, hn₁, ht₁, hq₁, hp₁⟩ := run_waitCall ms tick hs (by omega) hcl
    obtain ⟨s', h', hs', hc', hn', ht', hq', hp'⟩ := ih hs₁ (by omega) (by omega)
    refine ⟨s', ?_, hs', by omega, hn'.trans hn₁, by omega, hq'.trans hq₁, fun _ => ?_⟩
    · rw [List.replicate_succ, List.flatten_cons, run_append, h₁, Option.some_bind, h']
    · rcases Nat.eq_zero_or_pos m with rfl | hm'
      · cases h'; exact hp₁
      · exact hp' hm'

/-- **Notifications first, then as many waits: all return `true` at once.**
From every idle mailbox, `n` full-access notifications followed by `m` waits of
task `t`, with `m` at most what `count` then holds, run to the end: every wait
takes a counted notification and returns `true` without registering or
sleeping, and `count` is left with the rest.  The bound keeps `count` below
`2^usize`. -/
theorem notifies_then_waits {s : Sys} {t : TaskId} {ms tick : UInt32} (n m : Nat) (hs : s.Idle t)
    (hm : m ≤ s.count + n) (hn : s.count + n < usizeSize) :
    ∃ s', run s ((List.replicate n (notifyCall tick)).flatten ++
        (List.replicate m (waitCall t ms tick)).flatten) = some s' ∧
      s'.Idle t ∧ s'.count = s.count + n - m ∧ s'.notifyCalls = s.notifyCalls + n ∧
      s'.trueWaits = s.trueWaits + m ∧ s'.sleepQueue = s.sleepQueue ∧
      (0 < m → s'.pc t = .done true) := by
  obtain ⟨s₁, h₁, hs₁, hc₁, hn₁, ht₁, hq₁⟩ := run_notifyCalls tick n hs hn
  obtain ⟨s', h', hs', hc', hn', ht', hq', hp'⟩ :=
    run_waitCalls ms tick m hs₁ (by omega) (by omega)
  refine ⟨s', ?_, hs', by omega, by omega, by omega, hq'.trans hq₁, hp'⟩
  rw [run_append, h₁, Option.some_bind, h']

/-- After one notification, two more and then three waits: the last wait takes
the notification counted before. -/
theorem notifies_then_waits_counted :
    ∃ s', run (Sys.after (notifyCall 0)) ((List.replicate 2 (notifyCall 0)).flatten ++
        (List.replicate 3 (waitCall 0 500 0)).flatten) = some s' ∧
      s'.Idle 0 ∧ s'.count = (Sys.after (notifyCall 0)).count + 2 - 3 ∧
      s'.notifyCalls = (Sys.after (notifyCall 0)).notifyCalls + 2 ∧
      s'.trueWaits = (Sys.after (notifyCall 0)).trueWaits + 3 ∧
      s'.sleepQueue = (Sys.after (notifyCall 0)).sleepQueue ∧ (0 < 3 → s'.pc 0 = .done true) :=
  notifies_then_waits 2 3 (by decide) (by decide) (by decide)

end Mailbox
end Hopter
