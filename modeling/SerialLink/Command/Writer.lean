/-
# Writing bytes

A writer takes the front part of what it is offered, as much as it likes, and can be told to
flush.  `writeFully` offers what is left again and again until nothing is.  A writer that takes
nothing of something would be asked forever; that is a fault.

These are the `write`, the `flush` and the `write_all` of the trait `Write` that the program's
`Sender` writes to, and `Transmitter.writer` is what `Transmitter` makes of it.
-/
import SerialLink.Transmission.Transmitter

namespace SerialLink

/-- A place to write bytes to, over a state, with errors of its own kind. -/
structure Writer (ε σ : Type) where
  /-- Offer bytes.  The answer is how many of them were taken. -/
  write : List UInt8 → EStateM (Halt ε) σ Nat
  flush : EStateM (Halt ε) σ Unit

namespace Writer

variable {ε σ : Type}

/-- Offer bytes until all are taken. -/
def writeFully (w : Writer ε σ) (bytes : List UInt8) : EStateM (Halt ε) σ Unit := fun s =>
  match bytes with
  | [] => .ok () s
  | first :: rest =>
    match w.write (first :: rest) s with
    | .error e s => .error e s
    | .ok 0 s => .error (.fault .stalledWrite) s
    | .ok (taken + 1) s => w.writeFully (rest.drop taken) s
termination_by bytes.length
decreasing_by
  simp only [List.length_drop, List.length_cons]
  omega

/-- The same writer with its errors restated. -/
def mapError {ε' : Type} (f : ε → ε') (w : Writer ε σ) : Writer ε' σ where
  write bytes := (w.write bytes).adaptExcept (Halt.mapError f)
  flush := w.flush.adaptExcept (Halt.mapError f)

/-- What is written is the same whatever the errors are called. -/
theorem writeFully_mapError {ε' : Type} (f : ε → ε') (w : Writer ε σ) (bytes : List UInt8) :
    (w.mapError f).writeFully bytes = (w.writeFully bytes).adaptExcept (Halt.mapError f) := by
  funext s
  simp only [EStateM.adaptExcept]
  fun_induction w.writeFully bytes s with
  | case1 s => rw [writeFully]
  | case2 s first rest halt s' write =>
    -- each side is one turn of its loop, and the error is restated at the turn where it comes
    rw [writeFully]
    simp only [mapError, EStateM.adaptExcept, write]
  | case3 s first rest s' write =>
    rw [writeFully]
    simp only [mapError, EStateM.adaptExcept, write]
    rfl
  | case4 s first rest taken s' write ih =>
    rw [writeFully]
    simp only [mapError, EStateM.adaptExcept, write]
    exact ih

end Writer

/-- Writing to a transmitter sends the bytes, and there is nothing left to flush. -/
def Transmitter.writer {σ : Type} (tx : Transmitter σ) : Writer PinFault σ where
  write := tx.write
  flush := pure ()

/-- A transmitter takes all that it is offered at once. -/
theorem Transmitter.writeFully_writer {σ : Type} (tx : Transmitter σ) (bytes : List UInt8) :
    tx.writer.writeFully bytes = tx.sendEach bytes := by
  funext s
  cases bytes with
  | nil =>
    rw [Writer.writeFully]
    rfl
  | cons first rest =>
    rw [Writer.writeFully]
    simp only [writer, write, bind, EStateM.bind]
    cases tx.sendEach (first :: rest) s with
    | error halt s' => rfl
    | ok a s' =>
      simp only [pure, EStateM.pure, List.length_cons, List.drop_length]
      rw [Writer.writeFully]

end SerialLink
