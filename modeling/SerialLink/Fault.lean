/-
# Faults and errors

Two things can end an operation before it is done.  An *error* is an answer: the caller gets
it and may go on.  A *fault* is not: a quantity has left the machine word it is kept in, or a
writer has stopped taking bytes, and nothing that follows would mean anything.

`Fault` lists the causes, `Fault.message` words them, and `Halt` is what an operation over
some state ends with when it is subject to both.

In the program the errors are the `Err` of a call.  The faults are its panics: a sum or a shift
that leaves its word in `RxState::step` or `Line::run`, and a writer that takes nothing in
`write_all`.
-/

namespace SerialLink

/-! ## 1. Faults -/

/-- Why a run cannot go on. -/
inductive Fault where
  /-- A high level was sampled for a data bit that a byte has no place for. -/
  | bitPlace
  /-- The index of the next data bit does not fit its byte. -/
  | bitIndex
  /-- A count of clock cycles does not fit 64 bits. -/
  | clock
  /-- A count of interrupts does not fit 32 bits. -/
  | count
  /-- A writer accepted none of the bytes offered to it. -/
  | stalledWrite
  deriving DecidableEq, Repr

/-- The words for a fault.  All sums that leave their word are worded alike. -/
def Fault.message : Fault → String
  | bitPlace => "attempt to shift left with overflow"
  | bitIndex => "attempt to add with overflow"
  | clock => "attempt to add with overflow"
  | count => "attempt to add with overflow"
  | stalledWrite => "write() returned Ok(0)"

/-! ## 2. Errors beside faults -/

/-- What ends an operation early: an error of its own kind, or a fault. -/
inductive Halt (ε : Type) where
  | error (cause : ε)
  | fault (cause : Fault)
  deriving DecidableEq, Repr

/-- The same halt with its error restated; a fault stays what it is. -/
def Halt.mapError {ε ε' : Type} (f : ε → ε') : Halt ε → Halt ε'
  | error e => error (f e)
  | fault c => fault c

@[simp] theorem Halt.mapError_error {ε ε' : Type} (f : ε → ε') (e : ε) :
    (Halt.error e).mapError f = Halt.error (f e) := rfl

@[simp] theorem Halt.mapError_fault {ε ε' : Type} (f : ε → ε') (c : Fault) :
    (Halt.fault c).mapError f = (Halt.fault c : Halt ε') := rfl

/-! ## 3. Operations that may be stopped -/

section Operations

variable {ε ε' σ α β : Type} {s s' : σ}

/-- Two operations in a row have ended if the first has, and the second from there. -/
theorem bind_eq_ok {x : EStateM ε σ α} {f : α → EStateM ε σ β} {b : β} :
    (x >>= f) s = .ok b s' ↔ ∃ a t, x s = .ok a t ∧ f a t = .ok b s' := by
  simp only [bind, EStateM.bind]
  cases x s with
  | error e t => exact ⟨nofun, nofun⟩
  | ok a t =>
    constructor
    · exact fun h => ⟨a, t, rfl, h⟩
    · rintro ⟨_, _, ⟨⟩, h⟩
      exact h

/-- Errors can be renamed before or after operations are put together. -/
theorem adaptExcept_bind (f : ε → ε') (x : EStateM ε σ α) (g : α → EStateM ε σ β) (s : σ) :
    (x >>= g).adaptExcept f s = (x.adaptExcept f >>= fun a => (g a).adaptExcept f) s := by
  simp only [EStateM.adaptExcept, bind, EStateM.bind]
  cases x s <;> rfl

theorem adaptExcept_eq_ok {f : ε → ε'} {x : EStateM ε σ α} {a : α} :
    x.adaptExcept f s = .ok a s' ↔ x s = .ok a s' := by
  unfold EStateM.adaptExcept
  cases x s with
  | error e t => exact ⟨nofun, nofun⟩
  | ok b t =>
    constructor
    · intro h
      cases h
      rfl
    · intro h
      cases h
      rfl

theorem adaptExcept_eq_error {f : ε → ε'} {x : EStateM ε σ α} {e' : ε'} :
    x.adaptExcept f s = .error e' s' ↔ ∃ e, x s = .error e s' ∧ f e = e' := by
  unfold EStateM.adaptExcept
  cases x s with
  | ok b t => exact ⟨nofun, nofun⟩
  | error e t =>
    constructor
    · intro h
      cases h
      exact ⟨e, rfl, rfl⟩
    · rintro ⟨_, h, rfl⟩
      cases h
      rfl

end Operations

end SerialLink
