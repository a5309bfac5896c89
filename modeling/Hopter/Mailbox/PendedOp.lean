/-
# One `run_pended_op`

`InnerFullAccessor::run_pended_op` (`src/src/sync/mailbox.rs`, lines 86-109)
merges into `count` what interrupt handlers posted under pend-only access.  More
may land while it runs: before its `swap`, between the `swap` and the
`fetch_add`, between the `fetch_add` and the `take` of `wait_task`, and after, as
the comment at its lines 89-95 expects.  `pendedRun` is such an execution, and
`run_pendedRun` computes what it leaves, wrap-around included.
`runPendedOp_counts` says that it loses none of those notifications and counts
none twice, however many tasks wait, as long as fewer than `2^usize` are ever
outstanding; `runPendedOp_loses` is an execution past the bound.
-/

import Hopter.Mailbox.Conservation

namespace Hopter
namespace Mailbox

open Time Function

theorem mod_usizeSize_lt (a : Nat) : a % usizeSize < usizeSize := Nat.mod_lt _ usizeSize_pos

/-- An execution of `run_pended_op` by the holder of full access, with `k₁`, `k₂`,
`k₃` and `k₄` pend-only notifications landing before its `swap`, between the
`swap` and the `fetch_add`, between the `fetch_add` and the `take` of
`wait_task`, and after. -/
def pendedRun (k₁ k₂ k₃ k₄ : Nat) : List Act :=
  .runPendedOp :: List.replicate k₁ .notify ++ .swapPending :: List.replicate k₂ .notify ++
    .addPending :: List.replicate k₃ .notify ++ .takeWaiter :: List.replicate k₄ .notify

/-- No task waits in an execution of `run_pended_op`. -/
theorem pendedRun_singleWaiter {me : TaskId} {k₁ k₂ k₃ k₄ : Nat} :
    ∀ a ∈ pendedRun k₁ k₂ k₃ k₄, ∀ x y, SingleWaiter me x a y :=
  singleWaiter_of_mem (by simp [pendedRun])

/-- What an execution of `run_pended_op` leaves, wrap-around included: `count`
gains what `pending_count` held at the `swap` and gives one to a task it finds in
`wait_task`; `pending_count` holds what landed after the `swap`. -/
theorem run_pendedRun {s : Sys} (k₁ k₂ k₃ k₄ : Nat) (ha : s.aborted = false)
    (hh : s.holder ≠ none) (hop : s.pendedOp = none) (hpd : s.pended = true)
    (hp : s.pendingCount < usizeSize) :
    ∃ s', run s (pendedRun k₁ k₂ k₃ k₄) = some s' ∧
      s'.count = (if s.waitTask = none then id else (wrappingSub · 1))
        (wrappingAdd s.count ((s.pendingCount + k₁) % usizeSize)) ∧
      s'.pendingCount = (k₂ + k₃ + k₄) % usizeSize ∧ s'.waitTask = none ∧ s'.pendedOp = none ∧
      s'.notifyCalls = s.notifyCalls + (k₁ + k₂ + k₃ + k₄) ∧ s'.trueWaits = s.trueWaits ∧
      s'.pc = s.pc := by
  simp only [pendedRun, List.cons_append, List.append_assoc, run_cons, run_append,
    step_runPendedOp.2 ⟨ha, hh, hop, hpd, rfl⟩, Option.some_bind, run_replicate_notify, ha, hh,
    ne_eq, not_false_eq_true, hp, usizeSize_pos, mod_usizeSize_lt,
    step, hop, hpd, Bool.false_eq_true, if_false, if_true, true_and, and_self, Option.some.injEq]
  rcases hw : s.waitTask with _ | w <;>
    simp [Sys.takeWaiter, hw, run_replicate_notify, ha, hh, mod_usizeSize_lt, Nat.mod_add_mod,
      Nat.add_assoc]

/-- **One `run_pended_op` loses and double-counts nothing.**  In a run with any
number of waiting tasks and fewer than `2^usize` notifications ever outstanding,
an execution of `run_pended_op` around which `k₁ + k₂ + k₃ + k₄` pend-only
notifications land leaves `count + pending_count` what it found, plus those
notifications, less the one it hands to a task it takes out of `wait_task`; and
those that landed after the `swap` are still in `pending_count`. -/
theorem runPendedOp_counts {s₀ s : Sys} {k₁ k₂ k₃ k₄ : Nat}
    (h₀ : Reach AnyBounded s₀) (h : Steps AnyBounded s₀ (pendedRun k₁ k₂ k₃ k₄) s) :
    s.count + s.pendingCount + (if s₀.waitTask = none then 0 else 1) =
      s₀.count + s₀.pendingCount + (k₁ + k₂ + k₃ + k₄) ∧ s.pendingCount = k₂ + k₃ + k₄ := by
  have ht := h₀.tally
  have hs := (h₀.mono fun _ _ _ _ => trivial).sleepInv
  have hl := ht.held hs
  have hlt := ht.lt_usizeSize hs h₀.anyBounded
  have hb : s.notifyCalls < s.trueWaits + usizeSize := (h₀.steps h).anyBounded
  have hr := h.run_eq
  simp only [pendedRun, List.cons_append, List.append_assoc] at h
  obtain ⟨_, h₁⟩ : ∃ s₁, step s₀ .runPendedOp = some s₁ := by
    cases h with | cons h₁ _ _ => exact ⟨_, h₁⟩
  obtain ⟨ha, hh, hop, hpd, -⟩ := step_runPendedOp.1 h₁
  simp only [Sys.inflight, hop] at hl
  obtain ⟨s', hr', hcount, hpend, -, -, hnc, htw, -⟩ :=
    run_pendedRun k₁ k₂ k₃ k₄ ha hh hop hpd (by omega)
  obtain rfl : s = s' := Option.some.inj (hr.symm.trans hr')
  have hk : s₀.count + s₀.pendingCount + (k₁ + k₂ + k₃ + k₄) < usizeSize := by omega
  have hadd : wrappingAdd s₀.count ((s₀.pendingCount + k₁) % usizeSize) =
      s₀.count + s₀.pendingCount + k₁ := by
    rw [Nat.mod_eq_of_lt (by omega), wrappingAdd_of_lt (by omega), Nat.add_assoc]
  rw [hpend, Nat.mod_eq_of_lt (by omega)] at *
  refine ⟨?_, rfl⟩
  rw [hcount, hadd]
  split_ifs with hw
  · simp only [id]; omega
  · have : 0 < s₀.pendingCount := ((ht.supplied hw).1 hpd).resolve_right (by simp [hop])
    simp only [wrappingSub_one_of_pos (by omega : 0 < s₀.count + s₀.pendingCount + k₁) (by omega)]
    omega

/-- Task `0` registers and, holding full access, receives a pend-only
notification; its `run_pended_op` follows, with one more landing at each of the
four boundaries.  Task `0` is handed one, and the three after the `swap` stay
pending. -/
theorem runPendedOp_counts_each :
    (Sys.after ([.wait 0 500, .closure 0, .notify] ++ pendedRun 1 1 1 1)).count +
        (Sys.after ([.wait 0 500, .closure 0, .notify] ++ pendedRun 1 1 1 1)).pendingCount +
        (if (Sys.after [.wait 0 500, .closure 0, .notify]).waitTask = none then 0 else 1) =
      (Sys.after [.wait 0 500, .closure 0, .notify]).count +
        (Sys.after [.wait 0 500, .closure 0, .notify]).pendingCount + (1 + 1 + 1 + 1) ∧
    (Sys.after ([.wait 0 500, .closure 0, .notify] ++ pendedRun 1 1 1 1)).pendingCount =
      1 + 1 + 1 :=
  runPendedOp_counts (@Reach.of_run 0 _ [.wait 0 500, .closure 0, .notify] rfl
    (by simp [Act.caller]) (by decide)).any
    (Steps.anyBounded (Steps.of_run (s := Sys.after [.wait 0 500, .closure 0, .notify])
      (show run (Sys.after [.wait 0 500, .closure 0, .notify]) (pendedRun 1 1 1 1) =
        some (Sys.after ([.wait 0 500, .closure 0, .notify] ++ pendedRun 1 1 1 1)) from rfl)
      fun _ _ _ _ => trivial) (by decide))

/-- Without the bound, even with no task waiting: one notification pending when
`run_pended_op` begins and `2^usize - 1` more before its `swap` leave
`count + pending_count` at `0`. -/
theorem runPendedOp_loses :
    ¬ ∀ (me : TaskId) (s₀ s : Sys) (k₁ k₂ k₃ k₄ : Nat), Reach (SingleWaiter me) s₀ →
      Steps (SingleWaiter me) s₀ (pendedRun k₁ k₂ k₃ k₄) s →
      s.count + s.pendingCount + (if s₀.waitTask = none then 0 else 1) =
          s₀.count + s₀.pendingCount + (k₁ + k₂ + k₃ + k₄) ∧
        s.pendingCount = k₂ + k₃ + k₄ := by
  intro h
  obtain ⟨s, hr, hc, hp, -⟩ := run_pendedRun (s := Sys.after [.notify, .notify])
    (usizeSize - 1) 0 0 0 rfl (by decide) rfl rfl (by decide)
  have := (h 0 _ s _ _ _ _ (Reach.new.steps (@Steps.of_run _ _ _ [.notify, .notify] rfl
    (singleWaiter_of_mem (by simp)))) (Steps.of_run hr pendedRun_singleWaiter)).1
  rw [hc, hp] at this
  exact absurd this (by decide)

end Mailbox
end Hopter
