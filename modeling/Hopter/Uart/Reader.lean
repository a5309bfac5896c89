/-
# The UART reader

`src/src/uart/mod.rs`, with the `usart1_handler` of `src/examples/off_unw.rs`
(lines 101-110; that of `src/examples/unw_iter.rs`, lines 92-101, is the same).
Each byte received raises USART1.  Its handler, with interrupts masked, pushes
the byte into `G_UART_RBYTE`, a `heapless::Deque` of 128 bytes, discards the
error a full deque returns, and calls `G_UART_MAILBOX.notify_allow_isr()`.  One
task reads through `UsartSerial::read_byte_with_timeout`, which waits on the
mailbox and, when the wait returns `true`, pops a byte and unwraps it.

The mailbox is the system of `Hopter.Mailbox`, the reader its one waiting task.
The statics are accessed without a lock, so each access is a step of its own: the
handler's `push_back`, the reader's `pop_front` (line 52), and its update of
`G_UART_MAX_SIZE` from `G_UART_RBYTE.len()` (line 53), between which the
handler may run.  The deque's `push_back` and `pop_front` are taken as atomic
against each other: the handler runs with interrupts masked, and the reader's
`pop_front` is one step of the model.

A byte that arrives at a full deque is dropped, but its notification is not: the
mailbox then promises a byte the deque does not hold, and the reader's `unwrap`
panics (`overrun_panics`).
-/

import Hopter.Mailbox.Step

namespace Hopter
namespace Uart

open Time Mailbox Function

/-- The capacity of `G_UART_RBYTE: heapless::Deque<u8, 128>`. -/
def rbyteCapacity : Nat := 128

/-- `heapless::Deque::push_back`: the byte appended, or `none` when the deque is
full and hands the byte back. -/
def pushBack (q : List UInt8) (b : UInt8) : Option (List UInt8) :=
  if q.length < rbyteCapacity then some (q ++ [b]) else none

/-- `heapless::Deque::pop_front`. -/
def popFront : List UInt8 → Option (UInt8 × List UInt8)
  | [] => none
  | b :: q => some (b, q)

/-- The task that calls `read_byte_with_timeout`. -/
def reader : TaskId := 0

/-- The UART's statics, with the system around `G_UART_MAILBOX`. -/
structure State where
  /-- `G_UART_MAILBOX`, the parties around it and the kernel's sleep queue. -/
  mb : Sys
  /-- `G_UART_RBYTE`, front first. -/
  rbyte : List UInt8
  /-- `G_UART_MAX_SIZE`. -/
  maxSize : Nat
  /-- The reader is inside `read_byte_with_timeout`. -/
  reading : Bool
  /-- The byte the reader's `pop_front` took, before line 53 runs. -/
  popped : Option UInt8
  /-- An `unwrap` has panicked. -/
  panicked : Bool
  /-- Bytes `push_back` handed back: a count no code keeps. -/
  dropped : Nat

/-- The statics as declared, before any byte. -/
def State.init : State where
  mb := Sys.new
  rbyte := []
  maxSize := 0
  reading := false
  popped := none
  panicked := false
  dropped := 0

/-- The mailbox steps of the `notify_allow_isr` in `usart1_handler`, which runs
with interrupts masked, so that nothing else runs meanwhile: pend-only access
while the reader holds full access; otherwise full access, the `SoftLock` first
merging what was pended, then the closure and the release. -/
def notifySteps (s : Sys) (tick : UInt32) : List Act :=
  if s.holder = none then
    .notify :: (if s.pended then [.runPendedOp, .swapPending, .addPending, .takeWaiter] else []) ++
      [.closure tick, .release]
  else [.notify]

/-- `usart1_handler`: the byte received pushed into `G_UART_RBYTE`, the error of a
full deque discarded (`let _ =`), then `G_UART_MAILBOX.notify_allow_isr()`. -/
def State.usart1Handler (u : State) (b : UInt8) (tick : UInt32) : Option State :=
  (run u.mb (notifySteps u.mb tick)).map fun mb =>
    match pushBack u.rbyte b with
    | some q => { u with mb := mb, rbyte := q }
    | none => { u with mb := mb, dropped := u.dropped + 1 }

/-- `read_byte_with_timeout` once `wait_until_timeout` has returned `notified`
(lines 51-52, 56): on `true` a byte popped and unwrapped, on `false`
`Err(SerialError::Timeout)`. -/
def State.readRest (u : State) (notified : Bool) : State :=
  if notified then
    match popFront u.rbyte with
    | some (x, q) => { u with rbyte := q, popped := some x }
    | none => { u with panicked := true }
  else { u with reading := false }

/-- The end of a read that popped a byte (lines 53-54): `G_UART_MAX_SIZE` raised
to the length of `G_UART_RBYTE` at that moment, and the byte returned in `Ok`. -/
def State.readMaxSize (u : State) : State :=
  { u with maxSize := max u.rbyte.length u.maxSize, reading := false, popped := none }

@[simp] theorem State.readRest_mb (u : State) (b : Bool) : (u.readRest b).mb = u.mb := by
  unfold State.readRest; split_ifs <;> [split <;> rfl; rfl]

@[simp] theorem State.readRest_dropped (u : State) (b : Bool) :
    (u.readRest b).dropped = u.dropped := by
  unfold State.readRest; split_ifs <;> [split <;> rfl; rfl]

/-- One atomic step of the UART's parties. -/
inductive Event
  /-- USART1 raises its interrupt with byte `b` at `tick`. -/
  | usart1 (b : UInt8) (tick : UInt32)
  /-- The reader calls `read_byte_with_timeout(timeout_ms)`. -/
  | read (timeoutMs : UInt32)
  /-- A mailbox step of the reader's call or of the kernel: a closure, a release,
  a step of `run_pended_op`, the reader's resumption, a timeout. -/
  | kernel (a : Act)
  /-- `wait_until_timeout` returns to `read_byte_with_timeout`, which pops a byte
  or reports the timeout. -/
  | readDone
  /-- The reader updates `G_UART_MAX_SIZE` and returns the byte it popped. -/
  | readMaxSize

/-- One step; `none` when it is not enabled, and always once an `unwrap` has
panicked. -/
def State.step (u : State) : Event → Option State
  | .usart1 b tick => if u.panicked then none else u.usart1Handler b tick
  | .read ms =>
    if u.panicked ∨ u.reading then none
    else (Mailbox.step u.mb (.wait reader ms)).map fun mb => { u with mb := mb, reading := true }
  | .kernel a =>
    if u.panicked ∨ a.caller ≠ none ∨ a = .notify then none
    else (Mailbox.step u.mb a).map fun mb => { u with mb := mb }
  | .readDone =>
    if u.panicked ∨ u.reading = false ∨ u.popped ≠ none then none
    else
      match u.mb.pc reader with
      | .done b => some (u.readRest b)
      | _ => none
  | .readMaxSize => if u.panicked ∨ u.popped = none then none else some u.readMaxSize

/-! ### What each event can do -/

section Inversion

variable {u u' : State}

theorem State.step_usart1 {b : UInt8} {tick : UInt32} :
    u.step (.usart1 b tick) = some u' ↔ u.panicked = false ∧ ∃ mb,
      run u.mb (notifySteps u.mb tick) = some mb ∧
      u' = match pushBack u.rbyte b with
        | some q => { u with mb := mb, rbyte := q }
        | none => { u with mb := mb, dropped := u.dropped + 1 } := by
  simp only [State.step, State.usart1Handler, Option.map_eq_some', @eq_comm _ u']
  cases u.panicked <;> simp

theorem State.step_read {ms : UInt32} :
    u.step (.read ms) = some u' ↔ u.panicked = false ∧ u.reading = false ∧
      ∃ mb, Mailbox.step u.mb (.wait reader ms) = some mb ∧
        u' = { u with mb := mb, reading := true } := by
  simp only [State.step, Option.map_eq_some', @eq_comm _ u']
  cases u.panicked <;> cases u.reading <;> simp

theorem State.step_kernel {a : Act} :
    u.step (.kernel a) = some u' ↔ u.panicked = false ∧ a.caller = none ∧ a ≠ .notify ∧
      ∃ mb, Mailbox.step u.mb a = some mb ∧ u' = { u with mb := mb } := by
  simp only [State.step, Option.map_eq_some', @eq_comm _ u']
  cases u.panicked <;> by_cases hc : a.caller = none <;> by_cases hn : a = .notify <;> simp [hc, hn]

theorem State.step_readDone :
    u.step .readDone = some u' ↔ u.panicked = false ∧ u.reading = true ∧ u.popped = none ∧
      ∃ b, u.mb.pc reader = .done b ∧ u' = u.readRest b := by
  simp only [State.step]
  cases u.panicked <;> cases u.reading <;> cases u.popped <;>
    rcases u.mb.pc reader with _ | _ | _ | _ | _ | _ | b <;> simp [@eq_comm _ u']

theorem State.step_readMaxSize :
    u.step .readMaxSize = some u' ↔ u.panicked = false ∧ u.popped ≠ none ∧ u' = u.readMaxSize := by
  simp only [State.step]
  cases u.panicked <;> cases u.popped <;> simp [@eq_comm _ u']

end Inversion

/-- The events `es` in turn, `none` as soon as one is not enabled. -/
def State.run : State → List Event → Option State
  | u, [] => some u
  | u, e :: es => (u.step e).bind fun u' => u'.run es

theorem State.run_cons (u : State) (e : Event) (es : List Event) :
    u.run (e :: es) = (u.step e).bind fun u' => u'.run es := rfl

theorem State.run_append (u : State) (es fs : List Event) :
    u.run (es ++ fs) = (u.run es).bind fun u' => u'.run fs := by
  induction es generalizing u with
  | nil => rfl
  | cons e es ih => simp only [List.cons_append, State.run_cons, ih, Option.bind_assoc]

/-- Where the events `es` lead from the statics as declared; the statics
themselves if an event is not enabled. -/
def State.after (es : List Event) : State := (State.init.run es).getD State.init

/-! ### More bytes than the deque holds -/

/-- Nobody holds the mailbox or is inside a call, and nothing is pending. -/
def State.Quiet (u : State) : Prop :=
  u.panicked = false ∧ u.reading = false ∧ u.popped = none ∧ u.mb.aborted = false ∧
    u.mb.holder = none ∧ u.mb.pended = false ∧ u.mb.pendedOp = none ∧ u.mb.waitTask = none ∧
    (u.mb.pc reader).outside = true

instance : DecidablePred State.Quiet := fun _ => inferInstanceAs (Decidable (_ ∧ _))

/-- A byte arriving while all is quiet: one notification counted, the byte kept
if the deque has room. -/
theorem usart1_quiet (b : UInt8) (tick : UInt32) {u : State} (hq : u.Quiet)
    (hc : u.mb.count + 1 < usizeSize) :
    ∃ u', u.step (.usart1 b tick) = some u' ∧ u'.Quiet ∧ u'.mb.count = u.mb.count + 1 ∧
      u'.rbyte = (pushBack u.rbyte b).getD u.rbyte ∧
      u'.dropped = u.dropped + (if (pushBack u.rbyte b).isSome then 0 else 1) := by
  obtain ⟨hp, hr, hpo, ha, hh, hpd, hop, hw, ho⟩ := hq
  simp only [State.step, hp, Bool.false_eq_true, if_false, State.usart1Handler, notifySteps, hh,
    hpd, if_true, List.nil_append, List.cons_append]
  simp [run_cons, Mailbox.step, Sys.runClosure, Sys.releaseAccess, Sys.notifyFull, ha, hh, hop, hpd,
    hw, wrappingAdd_of_lt hc]
  rcases pushBack u.rbyte b with _ | q <;>
    simp [State.Quiet, hp, hr, hpo, ha, hpd, hop, hw, ho, -WaitPc.outside]

theorem pushBack_replicate (k : Nat) (b : UInt8) :
    pushBack (List.replicate k b) b =
      if k < rbyteCapacity then some (List.replicate (k + 1) b) else none := by
  simp [pushBack, List.replicate_succ']

/-- `n` bytes `b` arriving while all is quiet, with `k` already in the deque. -/
theorem usart1s_quiet (b : UInt8) (tick : UInt32) (n : Nat) {u : State} {k : Nat} (hq : u.Quiet)
    (hk : u.rbyte = List.replicate k b) (hkc : k ≤ rbyteCapacity)
    (hc : u.mb.count + n < usizeSize) :
    ∃ u', u.run (List.replicate n (.usart1 b tick)) = some u' ∧ u'.Quiet ∧
      u'.mb.count = u.mb.count + n ∧ u'.rbyte = List.replicate (min (k + n) rbyteCapacity) b ∧
      u'.dropped = u.dropped + (k + n - rbyteCapacity) := by
  induction n generalizing u k with
  | zero => exact ⟨u, rfl, hq, rfl, by simp [hk, Nat.min_eq_left hkc], by omega⟩
  | succ n ih =>
    obtain ⟨u₁, h₁, hq₁, hc₁, hr₁, hd₁⟩ := usart1_quiet b tick hq (by omega)
    rw [hk, pushBack_replicate] at hr₁ hd₁
    have hrun : ∀ u', u₁.run (List.replicate n (.usart1 b tick)) = some u' →
        u.run (List.replicate (n + 1) (.usart1 b tick)) = some u' := fun u' h' => by
      rw [List.replicate_succ, State.run_cons, h₁, Option.some_bind, h']
    by_cases hlt : k < rbyteCapacity
    · rw [if_pos hlt] at hr₁ hd₁
      obtain ⟨u', h', hq', hc', hr', hd'⟩ := ih (k := k + 1) hq₁ hr₁ hlt (by omega)
      refine ⟨u', hrun u' h', hq', by omega, by rw [hr']; congr 2; omega, ?_⟩
      rw [hd', hd₁]; simp only [Option.isSome_some, if_true]; omega
    · rw [if_neg hlt] at hr₁ hd₁
      obtain ⟨u', h', hq', hc', hr', hd'⟩ := ih (k := k) hq₁ hr₁ hkc (by omega)
      refine ⟨u', hrun u' h', hq', by omega, by rw [hr']; congr 1; omega, ?_⟩
      rw [hd', hd₁]; simp only [Option.isSome_none, Bool.false_eq_true, if_false]; omega

/-- One `read_byte_with_timeout(ms)` whose wait finds a notification in `count`,
up to its `pop_front`: the call, its first closure, the release, and the pop. -/
def readOnce (ms : UInt32) : List Event :=
  [.read ms, .kernel (.closure 0), .kernel .release, .readDone]

/-- `n` whole such reads, each ending with the update of `G_UART_MAX_SIZE`. -/
def reads (ms : UInt32) (n : Nat) : List Event :=
  (List.replicate n (readOnce ms ++ [.readMaxSize])).flatten

/-- A read while all is quiet and a notification waits in `count`: the wait
returns `true`, and the byte at the front is popped, after which the read ends
and all is quiet again; or, with the deque empty, the `unwrap` panics. -/
theorem readOnce_quiet (ms : UInt32) {u : State} (hq : u.Quiet) (hc0 : 0 < u.mb.count)
    (hc : u.mb.count < usizeSize) :
    ∃ u', u.run (readOnce ms) = some u' ∧ u'.mb.pc reader = .done true ∧
      u'.mb.count = u.mb.count - 1 ∧ (u'.panicked = true ↔ u.rbyte = []) ∧
      (u.rbyte ≠ [] → ∃ u'', u'.step .readMaxSize = some u'' ∧ u''.Quiet ∧
        u''.mb.count = u.mb.count - 1 ∧ u''.rbyte = u.rbyte.tail) := by
  obtain ⟨hp, hr, hpo, ha, hh, hpd, hop, hw, ho⟩ := hq
  simp [readOnce, State.run, State.step, hp, hr, hpo, Mailbox.step, ha, hh, ho, hop, hpd,
    Sys.runClosure, Sys.waitPhase1, hw, hc0, Sys.releaseAccess, Act.caller,
    wrappingSub_one_of_pos hc0 hc, -WaitPc.outside]
  rcases hq : u.rbyte with _ | ⟨x, q⟩ <;>
    simp [State.readRest, State.readMaxSize, popFront, hq, State.Quiet, hp, ha, hpd, hop, hw]

/-- `n` reads while all is quiet, with at least `n` notifications in `count` and
`n` bytes `b` in the deque: every one pops a byte. -/
theorem reads_quiet (ms : UInt32) (n : Nat) {u : State} {b : UInt8} {k : Nat} (hq : u.Quiet)
    (hk : u.rbyte = List.replicate (k + n) b) (hc : n ≤ u.mb.count) (hcl : u.mb.count < usizeSize) :
    ∃ u', u.run (reads ms n) = some u' ∧ u'.Quiet ∧ u'.mb.count = u.mb.count - n ∧
      u'.rbyte = List.replicate k b := by
  induction n generalizing u with
  | zero => exact ⟨u, rfl, hq, rfl, by simpa using hk⟩
  | succ n ih =>
    obtain ⟨u₁, h₁, -, -, -, hq₁⟩ := readOnce_quiet ms hq (by omega) hcl
    obtain ⟨u₂, h₂, hq₂, hc₂, hr₂⟩ := hq₁ (by simp [hk, List.replicate_succ])
    obtain ⟨u', h', hq', hc', hr'⟩ :=
      ih hq₂ (by rw [hr₂, hk]; simp [← Nat.add_assoc, List.replicate_succ])
      (by omega) (by omega)
    refine ⟨u', ?_, hq', by omega, hr'⟩
    rw [reads, List.replicate_succ, List.flatten_cons, State.run_append, State.run_append, h₁,
      Option.some_bind, State.run_cons, h₂, Option.some_bind]
    exact h'

/-- The 129th byte finds the deque full and is dropped, but counted: the mailbox
holds 129 notifications for 128 bytes.  The first 128 reads each pop a byte; the
129th read's wait returns `true` with the deque empty, and its `unwrap` panics. -/
theorem overrun_panics :
    ∃ u₁ u₂, State.init.run (List.replicate 129 (.usart1 0 0)) = some u₁ ∧
      u₁.mb.count = 129 ∧ u₁.rbyte.length = 128 ∧ u₁.dropped = 1 ∧
      u₁.run (reads 500 128 ++ readOnce 500) = some u₂ ∧ u₂.mb.pc reader = .done true ∧
      u₂.panicked = true := by
  obtain ⟨u₁, h₁, hq₁, hc₁, hr₁, hd₁⟩ :=
    usart1s_quiet 0 0 129 (u := State.init) (k := 0) (by decide) rfl (by decide) (by decide)
  simp only [State.init, Sys.new, Nat.zero_add, rbyteCapacity] at hc₁ hr₁ hd₁
  obtain ⟨u₂, h₂, hq₂, hc₂, hr₂⟩ := reads_quiet 500 128 (k := 0) hq₁ (by rw [hr₁]; rfl)
    (by omega) (by rw [hc₁]; decide)
  obtain ⟨u₃, h₃, hpc₃, -, hp₃, -⟩ := readOnce_quiet 500 hq₂ (by omega)
    (by rw [hc₂, hc₁]; decide)
  refine ⟨u₁, u₃, h₁, hc₁, by simp [hr₁], hd₁, ?_, hpc₃, hp₃.2 (by simpa using hr₂)⟩
  rw [State.run_append, h₂, Option.some_bind, h₃]

end Uart
end Hopter
