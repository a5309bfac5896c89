/-
# Every read returns

`read_byte_with_timeout` (`src/src/uart/mod.rs`, lines 46-58) waits on
`G_UART_MAILBOX`, then pops a byte or reports a timeout.  It never hangs, and,
without an overrun, never panics.  From every state of every run of the UART's
parties in which no byte has been dropped, the kernel's steps and the reader's
own, with no new interrupt and no new read, bring the call to return, `Ok` with a
byte or `Err(SerialError::Timeout)`, within fifteen steps (`read_returns`).  The
mailbox comes to rest by `Hopter.Mailbox.Progress`, and the deque then holds the
byte that a `true` return promises, by `Hopter.Uart.Agreement`, so the read ends
in at most two steps of its own (`State.Reach.read_ends`).
-/

import Hopter.Uart.Agreement
import Hopter.Mailbox.Progress

namespace Hopter
namespace Uart

open Mailbox

/-- Mailbox steps of the kernel and the reader, run as events of the UART's
parties. -/
theorem State.run_kernels {u : State} {as : List Act} {mb : Sys} (hp : u.panicked = false)
    (hr : Mailbox.run u.mb as = some mb) (ha : ∀ a ∈ as, a.caller = none ∧ a ≠ .notify) :
    u.run (as.map .kernel) = some { u with mb := mb } := by
  induction as generalizing u with
  | nil => cases hr; rfl
  | cons a as ih =>
    rw [Mailbox.run_cons] at hr
    obtain ⟨mb₁, h₁, hr⟩ := Option.bind_eq_some.1 hr
    have h₁' : u.step (.kernel a) = some { u with mb := mb₁ } :=
      State.step_kernel.2 ⟨hp, (ha a (.head _)).1, (ha a (.head _)).2, mb₁, h₁, rfl⟩
    rw [List.map_cons, State.run_cons, h₁', Option.some_bind]
    exact ih hp hr fun b hb => ha b (.tail _ hb)

/-- A read in progress has called `wait_until_timeout`. -/
theorem State.Reach.reading_called {u : State} (h : u.Reach) (hr : u.reading = true) :
    u.mb.pc reader ≠ .idle := by
  induction h with
  | init => cases hr
  | step _ hs ih =>
    rename_i u u' e _
    cases e with
    | usart1 b tick =>
      obtain ⟨-, mb, hrun, rfl⟩ := State.step_usart1.1 hs
      have hpc := (run_notifySteps hrun).2.2.1
      revert hr
      rcases pushBack u.rbyte b with _ | q <;> intro hr <;> simpa [hpc] using ih hr
    | read ms =>
      obtain ⟨-, -, mb, hs', rfl⟩ := State.step_read.1 hs
      obtain ⟨-, -, -, rfl⟩ := step_wait.1 hs'
      simp
    | kernel a =>
      obtain ⟨-, -, -, mb, hs', rfl⟩ := State.step_kernel.1 hs
      exact fun h' => ih hr (step_pc_idle hs' h')
    | readDone =>
      obtain ⟨-, -, -, b, -, rfl⟩ := State.step_readDone.1 hs
      rw [State.readRest_mb]
      refine ih ?_
      revert hr
      unfold State.readRest
      split_ifs <;> [split <;> simp; simp]
    | readMaxSize =>
      obtain ⟨-, -, rfl⟩ := State.step_readMaxSize.1 hs
      exact absurd hr (by simp [State.readMaxSize])

/-- **A read whose mailbox call has returned ends.**  In every run with no byte
dropped, once the reader is outside `wait_until_timeout`, at most two events of
its own end `read_byte_with_timeout`: the `pop_front` or the timeout, and the
update of `G_UART_MAX_SIZE` after a pop.  The mailbox is left as it was. -/
theorem State.Reach.read_ends {u : State} (h : u.Reach) (hd : u.dropped = 0)
    (hout : (u.mb.pc reader).outside = true) :
    ∃ es u', u.run es = some u' ∧ es.length ≤ 2 ∧ (∀ e ∈ es, e = .readDone ∨ e = .readMaxSize) ∧
      u'.reading = false ∧ u'.mb = u.mb ∧ u'.dropped = u.dropped := by
  -- the return of a popped byte, which comes last
  have ret : ∀ v : State, v.Reach → v.dropped = 0 → v.popped ≠ none →
      v.run [.readMaxSize] = some v.readMaxSize := fun v hv hvd hp => by
    rw [State.run_cons, State.step_readMaxSize.2 ⟨(hv.agree hvd).ok, hp, rfl⟩]; rfl
  cases hrd : u.reading
  · exact ⟨[], u, rfl, by simp, by simp, hrd, rfl, rfl⟩
  by_cases hpo : u.popped = none
  · obtain ⟨b, hb⟩ : ∃ b, u.mb.pc reader = .done b := by
      have := h.reading_called hrd
      revert hout this
      cases u.mb.pc reader <;> simp
    have h₂ := State.step_readDone.2 ⟨(h.agree hd).ok, hrd, hpo, b, hb, rfl⟩
    have hd₂ : (u.readRest b).dropped = 0 := by simpa using hd
    cases b
    · exact ⟨[.readDone], _, by rw [State.run_cons, h₂]; rfl, by simp, by simp, rfl, by simp,
        by simp⟩
    · have hp₂ : (u.readRest true).popped ≠ none := by
        have := ((h.step h₂).agree hd₂).ok
        revert this
        simp only [State.readRest, if_true]
        split <;> simp
      refine ⟨[.readDone, .readMaxSize], (u.readRest true).readMaxSize, ?_, by simp, by simp, rfl,
        by simp [State.readMaxSize], by simp [State.readMaxSize]⟩
      rw [State.run_cons, h₂, Option.some_bind]
      exact ret _ (h.step h₂) hd₂ hp₂
  · exact ⟨[.readMaxSize], _, ret u h hd hpo, by simp, by simp, rfl, rfl, rfl⟩

/-- **A read always returns.**  In every run of the UART's parties, whatever the
order of the interrupts, the reader's steps, the pend-only notifications and the
timeouts so far, as long as no byte has been dropped: the kernel's steps and the
reader's own, with no new interrupt and no new read, bring a
`read_byte_with_timeout` in progress to return, `Ok` with a byte or
`Err(SerialError::Timeout)`, within fifteen steps and without a panic, and leave
nobody holding `G_UART_MAILBOX`. -/
theorem read_returns {u : State} (h : u.Reach) (hd : u.dropped = 0) :
    ∃ es u', u.run es = some u' ∧ es.length ≤ 15 ∧
      (∀ e ∈ es, e = .readDone ∨ e = .readMaxSize ∨ ∃ a, e = .kernel a) ∧
      u'.reading = false ∧ u'.panicked = false ∧ u'.mb.holder = none := by
  have hi := h.agree hd
  obtain ⟨mb, ⟨as, hr, hl, ha⟩, hh, -, hout, -⟩ := hi.mb.single.waiterInv.settles
  have h₁ := State.run_kernels hi.ok hr ha
  have r₁ := h.run h₁
  obtain ⟨es, u', h₂, hl₂, he₂, hrd, hm, hd'⟩ := r₁.read_ends (by simpa using hd) hout
  refine ⟨as.map .kernel ++ es, u', by rw [State.run_append, h₁, Option.some_bind, h₂],
    by simp; omega, ?_, hrd, ((r₁.run h₂).agree (by simpa [hd'] using hd)).ok, by rw [hm]; exact hh⟩
  simp only [List.mem_append, List.mem_map]
  rintro e (⟨a, -, rfl⟩ | he)
  · exact .inr (.inr ⟨a, rfl⟩)
  · rcases he₂ e he with rfl | rfl
    exacts [.inl rfl, .inr (.inl rfl)]

/-- A byte arrives while the reader is parked in its first read: the read returns. -/
theorem read_returns_parked :
    ∃ es u', (State.after [.read 500, .kernel (.closure 0), .kernel .release,
        .usart1 7 0]).run es = some u' ∧ es.length ≤ 15 ∧
      (∀ e ∈ es, e = .readDone ∨ e = .readMaxSize ∨ ∃ a, e = .kernel a) ∧
      u'.reading = false ∧ u'.panicked = false ∧ u'.mb.holder = none :=
  read_returns (State.Reach.init.run (show State.init.run [.read 500, .kernel (.closure 0),
    .kernel .release, .usart1 7 0] = some (State.after [.read 500, .kernel (.closure 0),
    .kernel .release, .usart1 7 0]) from rfl)) rfl

end Uart
end Hopter
