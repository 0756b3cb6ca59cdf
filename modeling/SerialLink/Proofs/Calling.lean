/-
# One call after the other

A component that is called answers, and is another one afterwards.  Whatever it is, calls in a
row can be cut into a first part and the rest, and each of them has its own answer, which stands
where the call stands.  This is all that is said here; what the answers are is said of each
component for itself: of a receive queue (`ByteQueue`), a line buffer (`LineAssembler`), a registry
(`AtMaster`), and a router at its queue (`Ingress`).
-/

namespace SerialLink

variable {σ ι α : Type} {call : σ → ι → α × σ}

/-- Make calls one after the other. -/
def callEach (call : σ → ι → α × σ) (s : σ) : List ι → List α × σ
  | [] => ([], s)
  | first :: rest =>
    let (answer, s) := call s first
    let (others, s) := callEach call s rest
    (answer :: others, s)

/-- The rest of the calls goes to what the first of them have left. -/
theorem callEach_append (before rest : List ι) : ∀ s : σ,
    callEach call s (before ++ rest)
      = ((callEach call s before).1 ++ (callEach call (callEach call s before).2 rest).1,
          (callEach call (callEach call s before).2 rest).2) := by
  induction before with
  | nil => exact fun _ => rfl
  | cons first before ih =>
    intro s
    simp only [List.cons_append, callEach, ih]

/-- One call more. -/
theorem callEach_concat (before : List ι) (next : ι) (s : σ) :
    callEach call s (before ++ [next])
      = ((callEach call s before).1 ++ [(call (callEach call s before).2 next).1],
          (call (callEach call s before).2 next).2) :=
  callEach_append before [next] s

theorem length_callEach (calls : List ι) : ∀ s : σ,
    (callEach call s calls).1.length = calls.length := by
  induction calls with
  | nil => exact fun _ => rfl
  | cons first rest ih =>
    intro s
    simp only [callEach, List.length_cons, ih]

/-- **Each call has its own answer,** which those behind it do not change. -/
theorem getElem?_callEach (s : σ) (before : List ι) (next : ι) (rest : List ι) :
    (callEach call s (before ++ next :: rest)).1[before.length]?
      = some (call (callEach call s before).2 next).1 := by
  have hlength : (callEach call s before).1.length = before.length := length_callEach before s
  rw [callEach_append, ← hlength, List.getElem?_append_right (Nat.le_refl _), Nat.sub_self]
  rfl

end SerialLink
