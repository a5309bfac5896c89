/-
# The deque and the mailbox agree until a byte is dropped

Every byte `usart1_handler` keeps in `G_UART_RBYTE` comes with one notification
of `G_UART_MAILBOX`, and every wait that returns `true` is followed by one
`pop_front`.  So, in every run of the UART's parties, the bytes in the deque,
plus the bytes dropped at a full deque, plus the waits that returned `true`,
equal the notifications posted, plus one while a read has taken a notification
and not yet popped its byte (`Agree.bytes`).  While no byte has been dropped,
the notifications outstanding never exceed the bytes in the deque, and no
`unwrap` panics (`reader_agrees`); and a closure of the reader's call decides to
block, or that the call timed out, only with the deque empty
(`reader_waits_only_when_empty`).  The first dropped byte breaks this, and
`Hopter.Uart.Reader` shows the panic it leads to.

The mailbox part rests on `Hopter.Mailbox.Conservation`: the reader is the
mailbox's one waiting task, and with no byte dropped the notifications
outstanding stay below `129`, far below `2^usize`.
-/

import Hopter.Uart.Reader
import Hopter.Mailbox.Conservation

namespace Hopter
namespace Uart

open Time Mailbox Function

/-- The states the UART's parties reach from the statics as declared. -/
inductive State.Reach : State → Prop
  | init : State.Reach State.init
  | step {u u' : State} {e : Event} : State.Reach u → u.step e = some u' → State.Reach u'

/-- The end of a run of events from a reachable state is reachable. -/
theorem State.Reach.run {u u' : State} {es : List Event} (h : u.Reach) (hr : u.run es = some u') :
    u'.Reach := by
  induction es generalizing u with
  | nil => cases hr; exact h
  | cons e es ih =>
    rw [State.run_cons] at hr
    obtain ⟨u₁, h₁, hr⟩ := Option.bind_eq_some.1 hr
    exact ih (h.step h₁) hr

/-- A read in progress that has taken a notification and not yet popped. -/
def State.owes (u : State) : Nat := (u.reading && (u.mb.pc reader).took && u.popped.isNone).toNat

theorem State.owes_le (u : State) : u.owes ≤ 1 := Bool.toNat_le _

/-! ### The handler's notification -/

/-- The four steps of a `run_pended_op` move notifications but post none, touch
no task, and leave the holder in place. -/
theorem run_pendedOpSteps {s s' : Sys}
    (h : run s [.runPendedOp, .swapPending, .addPending, .takeWaiter] = some s') :
    s'.notifyCalls = s.notifyCalls ∧ s'.trueWaits = s.trueWaits ∧ s'.pc = s.pc ∧
      s'.holder = s.holder := by
  simp only [run_cons, run_nil, Option.bind_eq_some, Option.some.injEq] at h
  obtain ⟨s₁, h₁, s₂, h₂, s₃, h₃, s₄, h₄, rfl⟩ := h
  obtain ⟨-, -, -, -, rfl⟩ := step_runPendedOp.1 h₁
  obtain ⟨-, -, rfl⟩ := step_swapPending.1 h₂
  obtain ⟨-, v, -, rfl⟩ := step_addPending.1 h₃
  obtain ⟨-, -, rfl⟩ := step_takeWaiter.1 h₄
  simp

/-- A notifier's closure and release: no task touched, and the mailbox given
back. -/
theorem run_notifierClosure {s s' : Sys} {tick : UInt32} (hh : s.holder = some (.notifier false))
    (h : run s [.closure tick, .release] = some s') :
    s'.notifyCalls = s.notifyCalls ∧ s'.trueWaits = s.trueWaits ∧ s'.pc = s.pc ∧
      s'.holder = none := by
  simp only [run_cons, run_nil, Option.bind_eq_some, Option.some.injEq] at h
  obtain ⟨s₁, h₁, s₂, h₂, rfl⟩ := h
  obtain ⟨t, -, hh', -, -⟩ | ⟨t, hh', -, -⟩ | ⟨-, rfl⟩ :=
    runClosure_eq_some.1 (step_closure.1 h₁).2.2.2
  iterate 2 · simp [hh] at hh'
  obtain ⟨t, b, hh', -, -⟩ | ⟨t, b, hh', -, -⟩ | ⟨-, rfl⟩ :=
    releaseAccess_eq_some.1 (step_release.1 h₂).2.2
  iterate 2 · simp at hh'
  simp

/-- `notify_allow_isr` from the handler posts one notification, and touches no
task and nobody's return value; the handler leaves the mailbox to whoever held
it. -/
theorem run_notifySteps {s s' : Sys} {tick : UInt32} (h : run s (notifySteps s tick) = some s') :
    s'.notifyCalls = s.notifyCalls + 1 ∧ s'.trueWaits = s.trueWaits ∧ s'.pc = s.pc ∧
      s'.holder = s.holder := by
  unfold notifySteps at h
  by_cases hh : s.holder = none
  · rw [if_pos hh, List.cons_append, run_cons] at h
    obtain ⟨s₁, h₁, h⟩ := Option.bind_eq_some.1 h
    obtain ⟨-, ⟨-, rfl⟩ | ⟨hne, -⟩⟩ := step_notify.1 h₁
    swap; · exact absurd hh hne
    rw [run_append] at h
    obtain ⟨s₂, h₂, h₃⟩ := Option.bind_eq_some.1 h
    obtain ⟨m1, m2, m3, m4⟩ : s₂.notifyCalls = s.notifyCalls + 1 ∧ s₂.trueWaits = s.trueWaits ∧
        s₂.pc = s.pc ∧ s₂.holder = some (.notifier false) := by
      split_ifs at h₂
      · exact run_pendedOpSteps h₂
      · cases h₂; exact ⟨rfl, rfl, rfl, rfl⟩
    obtain ⟨h1, h2, h3, h4⟩ := run_notifierClosure m4 h₃
    rw [h1, h2, h3, h4, m1, m2, m3, hh]
    exact ⟨rfl, rfl, rfl, rfl⟩
  · rw [if_neg hh] at h
    obtain ⟨s₁, h₁, h⟩ := Option.bind_eq_some.1 h
    obtain ⟨-, ⟨hne, -⟩ | ⟨-, rfl⟩⟩ := step_notify.1 h₁
    · exact absurd hne hh
    · cases h; exact ⟨rfl, rfl, rfl, rfl⟩

theorem notifySteps_singleWaiter {s : Sys} {tick : UInt32} :
    ∀ a ∈ notifySteps s tick, ∀ x y, SingleWaiter reader x a y :=
  singleWaiter_of_mem fun t ms h => by unfold notifySteps at h; split_ifs at h <;> simp at h

/-! ### The reader's and the kernel's steps -/

section Kernel

variable {s s' : Sys} {a : Act}

/-- A mailbox step of the reader's call or of the kernel, with no interrupt
handler inside the mailbox: the waits that returned `true` grow exactly as the
reader's call takes notifications; no notification is posted; no handler comes
to hold the mailbox; and a reader outside a call stays there. -/
theorem kernel_step (hw : WaiterInv reader s) (hisr : ∀ r, s.holder ≠ some (.notifier r))
    (hc : a.caller = none) (hn : a ≠ .notify) (h : step s a = some s') :
    s'.notifyCalls = s.notifyCalls ∧
      s'.trueWaits + (s.pc reader).took.toNat =
        s.trueWaits + (s'.pc reader).took.toNat ∧
      (∀ r, s'.holder ≠ some (.notifier r)) ∧
      ((s.pc reader).outside = true → s'.pc reader = s.pc reader) := by
  cases a with
  | wait t ms => cases hc
  | notify => exact absurd rfl hn
  | resume t =>
    obtain ⟨-, -, hb, -, rfl⟩ := step_resume.1 h
    obtain rfl : t = reader := by by_contra ht; simp [hw.others t ht] at hb
    simp [hb]
  | closure tick =>
    obtain ⟨-, -, -, hcl⟩ := step_closure.1 h
    obtain ⟨t, ms, hh, hp, rfl⟩ | ⟨t, hh, hp, rfl⟩ | ⟨hh, -⟩ := runClosure_eq_some.1 hcl
    · obtain rfl := hw.holderTask t hh
      have hset := (WaiterInv.episode_settled (by simp [hp])).1 (hp ▸ hw.episode)
      unfold Sys.waitPhase1
      rw [if_neg (by simp [hset.1])]
      split_ifs <;> simp [hp, hh]
    · obtain rfl := hw.holderTask t hh
      cases htn : s.taskNotified <;> simp [Sys.waitPhase2, hp, hh, htn]
    · exact absurd hh (hisr false)
  | runPendedOp =>
    obtain ⟨-, -, -, -, rfl⟩ := step_runPendedOp.1 h; exact ⟨rfl, rfl, hisr, fun _ => rfl⟩
  | swapPending =>
    obtain ⟨-, -, rfl⟩ := step_swapPending.1 h; exact ⟨rfl, rfl, hisr, fun _ => rfl⟩
  | addPending =>
    obtain ⟨-, v, -, rfl⟩ := step_addPending.1 h; exact ⟨rfl, rfl, hisr, fun _ => rfl⟩
  | takeWaiter =>
    obtain ⟨-, -, rfl⟩ := step_takeWaiter.1 h
    unfold Sys.takeWaiter; split <;> exact ⟨rfl, rfl, hisr, fun _ => rfl⟩
  | release =>
    obtain ⟨-, -, hr⟩ := step_release.1 h
    obtain ⟨t, b, hh, hp, rfl⟩ | ⟨t, b, hh, hp, rfl⟩ | ⟨hh, -⟩ := releaseAccess_eq_some.1 hr
    · obtain rfl := hw.holderTask t hh
      cases b <;> simp [hp]
    · obtain rfl := hw.holderTask t hh
      simp [hp]
    · exact absurd hh (hisr true)
  | timeout t => obtain ⟨-, -, rfl⟩ := step_timeout.1 h; exact ⟨rfl, rfl, hisr, fun _ => rfl⟩

end Kernel

/-! ### The invariant -/

/-- What holds of every state of a run of the UART's parties in which no byte has
been dropped. -/
structure Agree (u : State) : Prop where
  /-- The mailbox's run is one with the reader as its one waiting task, and
  fewer than `2^usize` notifications outstanding. -/
  mb : Mailbox.Reach (SingleBounded reader) u.mb
  /-- Every byte kept or dropped came with one notification, and every wait that
  returned `true` popped a byte or is about to. -/
  bytes : u.rbyte.length + u.dropped + u.mb.trueWaits = u.mb.notifyCalls + u.owes
  /-- The deque holds at most its capacity. -/
  cap : u.rbyte.length ≤ rbyteCapacity
  /-- Outside `read_byte_with_timeout`, the reader is outside the mailbox call. -/
  calls : u.reading = false → (u.mb.pc reader).outside = true
  /-- A byte popped and not yet returned: the read is under way, its mailbox call
  returned. -/
  popped : u.popped ≠ none → u.reading = true ∧ (u.mb.pc reader).outside = true
  /-- No interrupt handler is inside the mailbox between events: it runs its
  notification whole. -/
  isr : ∀ r, u.mb.holder ≠ some (.notifier r)
  /-- No `unwrap` has panicked. -/
  ok : u.panicked = false

namespace Agree

variable {u u' : State}

theorem init : Agree State.init where
  mb := .new
  bytes := rfl
  cap := by decide
  calls _ := rfl
  popped h := absurd rfl h
  isr _ h := nomatch h
  ok := rfl

theorem usart1 {b : UInt8} {tick : UInt32} (hi : Agree u) (h : u.step (.usart1 b tick) = some u')
    (hd : u'.dropped = 0) : Agree u' := by
  obtain ⟨-, mb, hr, rfl⟩ := State.step_usart1.1 h
  obtain ⟨hnc, htw, hpc, hh⟩ := run_notifySteps hr
  have hlt : u.rbyte.length < rbyteCapacity := by
    by_contra hlt; simp [pushBack, hlt] at hd
  simp only [pushBack, hlt, if_true] at hd ⊢
  have hb := hi.bytes
  have hcap := hi.cap
  have := u.owes_le
  simp only [rbyteCapacity] at hlt hcap
  refine ⟨hi.mb.steps ((Steps.of_run hr notifySteps_singleWaiter).singleBounded ?_), ?_,
    by simp only [List.length_append, List.length_singleton, rbyteCapacity]; omega,
    fun hr' => by simpa [hpc] using hi.calls hr', fun hp' => by simpa [hpc] using hi.popped hp',
    by simpa [hh] using hi.isr, hi.ok⟩
  · rw [hnc]; simp only [usizeSize]; omega
  · simp only [State.owes, List.length_append, List.length_singleton, hnc, htw, hpc] at hb ⊢
    omega

theorem read {ms : UInt32} (hi : Agree u) (h : u.step (.read ms) = some u') : Agree u' := by
  obtain ⟨-, hr, mb, hs, rfl⟩ := State.step_read.1 h
  obtain ⟨-, hh, -, rfl⟩ := step_wait.1 hs
  have hpo : u.popped = none := by by_contra h'; simp [(hi.popped h').1] at hr
  have hb := hi.bytes
  refine ⟨hi.mb.step hs ⟨fun t ht => (Option.some.inj ht).symm, hi.mb.bounded⟩, ?_, hi.cap,
    fun h' => absurd h' (by simp), fun h' => absurd hpo h', fun r => by simp, hi.ok⟩
  simp only [State.owes, hr] at hb ⊢
  simpa using hb

theorem kernel {a : Act} (hi : Agree u) (h : u.step (.kernel a) = some u') : Agree u' := by
  obtain ⟨-, hc, hn, mb, hs, rfl⟩ := State.step_kernel.1 h
  obtain ⟨hnc, htw, hisr, hout⟩ := kernel_step hi.mb.single.waiterInv hi.isr hc hn hs
  have hmono := step_counters_mono hs
  have hb := hi.bytes
  have hbd : mb.Bounded := by
    have := hi.mb.bounded; unfold Sys.Bounded at this ⊢; omega
  refine ⟨hi.mb.step hs ⟨fun t ht => by simp [hc] at ht, hbd⟩, ?_, hi.cap,
    fun hr => (hout (hi.calls hr)).symm ▸ hi.calls hr,
    fun hp => ⟨(hi.popped hp).1, (hout (hi.popped hp).2).symm ▸ (hi.popped hp).2⟩, hisr, hi.ok⟩
  simp only [State.owes] at hb ⊢
  cases hr : u.reading
  · rw [hout (hi.calls hr)] at htw
    simp only [hr, Bool.false_and, Bool.toNat_false] at hb ⊢
    omega
  · cases hpo : u.popped
    · simp only [hr, hpo, Bool.true_and, Option.isNone_none, Bool.and_true] at hb ⊢
      omega
    · rw [hout (hi.popped (by simp [hpo])).2] at htw
      simp only [hr, hpo, Option.isNone_some, Bool.and_false, Bool.toNat_false] at hb ⊢
      omega

theorem readDone (hi : Agree u) (hd : u.dropped = 0) (h : u.step .readDone = some u') :
    Agree u' := by
  obtain ⟨-, hr, hpo, b, hp, rfl⟩ := State.step_readDone.1 h
  have hb := hi.bytes
  have hc := hi.mb.countInv.conserved
  cases b
  · refine ⟨by simpa using hi.mb, ?_, hi.cap, fun _ => by simp [hp], fun h' => ?_, hi.isr, hi.ok⟩
    · simp only [State.owes, hr, hp, WaitPc.took, Bool.and_false, Bool.false_and,
        Bool.toNat_false] at hb
      simpa [State.readRest, State.owes] using hb
    · simp [State.readRest, hpo] at h'
  · simp only [State.owes, hr, hp, WaitPc.took, hpo, Option.isNone_none, Bool.and_self,
      Bool.toNat_true, hd] at hb
    obtain ⟨x, q, hq⟩ : ∃ x q, u.rbyte = x :: q := by
      rcases hq : u.rbyte with _ | ⟨x, q⟩
      · simp only [hq, List.length_nil] at hb; omega
      · exact ⟨x, q, rfl⟩
    have hcap := hi.cap
    simp only [hq, List.length_cons] at hb hcap
    refine ⟨by simpa using hi.mb, ?_, ?_,
      fun h' => by simp [State.readRest, hq, popFront, hr] at h',
      fun _ => by simp [State.readRest, hq, popFront, hr, hp], by simpa using hi.isr, ?_⟩ <;>
      simp [State.readRest, hq, popFront, State.owes, hd, hi.ok] <;> omega

theorem readMaxSize (hi : Agree u) (h : u.step .readMaxSize = some u') : Agree u' := by
  obtain ⟨-, hpo, rfl⟩ := State.step_readMaxSize.1 h
  obtain ⟨hr, hout⟩ := hi.popped hpo
  have hb := hi.bytes
  simp only [State.owes, hr, Bool.true_and] at hb
  rcases hpo' : u.popped with _ | x
  · exact absurd hpo' hpo
  refine ⟨hi.mb, ?_, hi.cap, fun _ => hout, fun h' => absurd rfl h', hi.isr, hi.ok⟩
  simp only [hpo', Option.isNone_some, Bool.and_false, Bool.toNat_false] at hb
  simpa [State.readMaxSize, State.owes] using hb

theorem dropped_mono {e : Event} (h : u.step e = some u') : u.dropped ≤ u'.dropped := by
  cases e with
  | usart1 b tick => obtain ⟨-, mb, -, rfl⟩ := State.step_usart1.1 h; split <;> simp
  | read ms => obtain ⟨-, -, mb, -, rfl⟩ := State.step_read.1 h; exact le_rfl
  | kernel a => obtain ⟨-, -, -, mb, -, rfl⟩ := State.step_kernel.1 h; exact le_rfl
  | readDone => obtain ⟨-, -, -, b, -, rfl⟩ := State.step_readDone.1 h; simp
  | readMaxSize => obtain ⟨-, -, rfl⟩ := State.step_readMaxSize.1 h; exact le_rfl

theorem next {e : Event} (hi : Agree u) (hd : u.dropped = 0) (h : u.step e = some u')
    (hd' : u'.dropped = 0) : Agree u' := by
  cases e with
  | usart1 b tick => exact hi.usart1 h hd'
  | read ms => exact hi.read h
  | kernel a => exact hi.kernel h
  | readDone => exact hi.readDone hd h
  | readMaxSize => exact hi.readMaxSize h

end Agree

theorem State.Reach.agree {u : State} (h : u.Reach) (hd : u.dropped = 0) : Agree u := by
  induction h with
  | init => exact .init
  | step _ hs ih =>
    have hd₀ := Nat.eq_zero_of_le_zero (hd ▸ Agree.dropped_mono hs)
    exact (ih hd₀).next hd₀ hs hd

/-- **Without an overrun the reader never panics.**  In every run of the UART's
parties, whatever the order of the interrupts, the reader's steps, the
pend-only notifications and the timeouts, as long as no byte has arrived at a
full `G_UART_RBYTE`: no `pop_front().unwrap()` has panicked, and the
notifications outstanding on `G_UART_MAILBOX` do not exceed the bytes in
`G_UART_RBYTE`. -/
theorem reader_agrees {u : State} (h : u.Reach) (hd : u.dropped = 0) :
    u.panicked = false ∧ u.mb.notifyCalls ≤ u.mb.trueWaits + u.rbyte.length := by
  have hi := h.agree hd
  have := hi.bytes
  have := u.owes_le
  exact ⟨hi.ok, by omega⟩

/-- A byte arrives on the fresh UART: one notification, one byte. -/
theorem reader_agrees_byte :
    (State.after [.usart1 7 0]).panicked = false ∧
      (State.after [.usart1 7 0]).mb.notifyCalls ≤
        (State.after [.usart1 7 0]).mb.trueWaits + (State.after [.usart1 7 0]).rbyte.length :=
  reader_agrees (State.Reach.init.run (show State.init.run [.usart1 7 0] =
    some (State.after [.usart1 7 0]) from rfl)) rfl

/-- **A read decides to wait only on an empty deque.**  In every run of the
UART's parties with no byte dropped: at the step in which the reader's first
closure decides to block, or its second decides that the call timed out,
`G_UART_RBYTE` is empty.  A byte that arrives after that step, under pend-only
access while the reader still holds the mailbox, is not merged until the next
holder of full access, and the reader may sleep beside it until its timeout. -/
theorem reader_waits_only_when_empty {u u' : State} {tick : UInt32} (h : u.Reach)
    (hd : u.dropped = 0) (hs : u.step (.kernel (.closure tick)) = some u')
    (hw : u'.mb.pc reader = .leave true ∨ u'.mb.pc reader = .finish false) : u.rbyte = [] := by
  have hi := h.agree hd
  have hv := hi.mb.single.waiterInv
  have ht := hi.mb.any.tally
  obtain ⟨-, -, -, mb, hmb, rfl⟩ := State.step_kernel.1 hs
  obtain ⟨-, hop, hpd, hcl⟩ := step_closure.1 hmb
  have hcons := hi.mb.countInv.conserved
  have hb := hi.bytes
  simp only [Sys.inflight, hop, ht.pendingCount_eq_zero hop hpd, hd] at hcons hb
  -- neither closure runs once the call has taken a notification, and nothing is counted
  obtain ⟨hcnt, hnot, hown, howes⟩ :
      u.mb.count = 0 ∧ u.mb.notifying = 0 ∧ u.mb.owed reader = 0 ∧ u.owes = 0 := by
    obtain ⟨t, ms, hh, hp, rfl⟩ | ⟨t, hh, hp, rfl⟩ | ⟨hh, -⟩ := runClosure_eq_some.1 hcl
    · obtain rfl := hv.holderTask t hh
      have hset := (WaiterInv.episode_settled (by simp [hp])).1 (hp ▸ hv.episode)
      refine ⟨?_, by simp [Sys.notifying, hh], by simp [Sys.owed, hp], by simp [State.owes, hp]⟩
      revert hw
      unfold Sys.waitPhase1
      rw [if_neg (by simp [hset.1])]
      split_ifs with hc
      · simp
      · intro; omega
    · obtain rfl := hv.holderTask t hh
      have htn : u.mb.taskNotified = false := by revert hw; simp [Sys.waitPhase2, hp]
      have hep := hv.episode
      simp only [hp, Episode, htn, Bool.false_eq_true, and_false, or_false, and_true] at hep
      refine ⟨(hi.mb.noLostWakeup (by simp [hep.1])).resolve_right (by simp [hop]),
        by simp [Sys.notifying, hh], by simp [Sys.owed, hep.1], by simp [State.owes, hp]⟩
    · exact absurd hh (hi.isr false)
  simp only [hcnt, hnot, hown, howes] at hcons hb
  exact List.eq_nil_of_length_eq_zero (by omega)

/-- A byte arrives and is read; the reader calls `read_byte_with_timeout(500)`
again, and its first closure is next. -/
def readAgainRun : List Event :=
  [.usart1 7 0, .read 500, .kernel (.closure 0), .kernel .release, .readDone, .readMaxSize,
    .read 500]

/-- The second read blocks, the deque emptied by the first. -/
theorem reader_waits_only_when_empty_again : (State.after readAgainRun).rbyte = [] :=
  @reader_waits_only_when_empty _ _ 0
    (State.Reach.init.run (show State.init.run readAgainRun = some (State.after readAgainRun)
      from rfl)) rfl (show (State.after readAgainRun).step (.kernel (.closure 0)) = some _ from rfl)
    (.inl rfl)

end Uart
end Hopter
