/-
# From bytes to lines

A line buffer takes bytes one at a time and gives a line when its end comes.  The line end is
not part of the line, the ignored byte is part of nothing, and where both are the same byte it
is ignored.

A buffer holds a limited number of bytes.  What comes beyond them is lost, and the line is
given cut, and marked so, when its end comes; the next line starts afresh.  A line is empty
only if nothing came before its end, not if nothing could be held.

This is the program's `LineAssembler`, whose callers read a completed line where it is stored.
So the line stays there, marked `isComplete`, and it is the next byte that makes room for its
own line (`settled`), be that byte one that is ignored.  Until then nothing is held of a next
line (`held`).  `Proofs.Splitting` proves that nobody can tell when the line went
(`pushAtOnce_settled`).
-/
import SerialLink.Log
import SerialLink.Text.Quoted
import SerialLink.Command.Settings

namespace SerialLink

/-- A received line without its end. -/
structure Line where
  bytes : List UInt8
  /-- The line was longer than the buffer. -/
  overlong : Bool
  deriving DecidableEq, Repr

/-- The line that is being received, or the one that has just been completed. -/
structure LineBuffer where
  settings : CommandSettings
  /-- How many bytes can be held. -/
  limit : Nat
  /-- What has come of that line, as far as it can be held. -/
  stored : List UInt8
  /-- The line has been given, and goes when the next byte comes. -/
  isComplete : Bool
  /-- Bytes of the line have been lost. -/
  overlong : Bool
  length_le : stored.length ≤ limit
  deriving DecidableEq, Repr

namespace LineBuffer

/-- A buffer that holds nothing. -/
def empty (settings : CommandSettings) (limit : Nat) : LineBuffer :=
  ⟨settings, limit, [], false, false, Nat.zero_le _⟩

/-- Forget the line that is stored. -/
def forget (b : LineBuffer) : LineBuffer := empty b.settings b.limit

/-- The buffer without the line that it has given. -/
def settled (b : LineBuffer) : LineBuffer := if b.isComplete then b.forget else b

/-- What has come since the last line, as far as it can be held. -/
def held (b : LineBuffer) : List UInt8 := if b.isComplete then [] else b.stored

/-- Nothing has come of the line. -/
def isFresh (b : LineBuffer) : Bool := b.stored.isEmpty && !b.overlong

/-- Hold one more byte, or lose it. -/
def hold (b : LineBuffer) (byte : UInt8) : LineBuffer :=
  if room : b.stored.length < b.limit then
    { b with
      stored := b.stored ++ [byte], length_le := by rw [List.length_append]; exact room }
  else
    { b with overlong := true }

/-- End the line. -/
def complete (b : LineBuffer) : Option Line × LineBuffer :=
  if b.isFresh && b.settings.skipEmpty then (none, b)
  else (some ⟨b.stored, b.overlong⟩, { b with isComplete := true })

/-- Take one byte.  The answer is the line that it completes, if any. -/
def push (b : LineBuffer) (byte : UInt8) : Option Line × LineBuffer :=
  let b := b.settled
  if b.settings.ignored = some byte then (none, b)
  else if byte = b.settings.lineEnd then b.complete
  else (none, b.hold byte)

/-- Take bytes one after the other, each with its own answer. -/
def pushEach (b : LineBuffer) : List UInt8 → List (Option Line) × LineBuffer
  | [] => ([], b)
  | byte :: rest =>
    let (line, b) := b.push byte
    let (others, b) := b.pushEach rest
    (line :: others, b)

/-- What the log says of a completed line. -/
def records (limit : Nat) (line : Line) : List Record :=
  if line.overlong then
    [⟨.warn, "at_master::line", "Line longer than " ++ toString limit ++ " bytes: " ++
      Text.showBytes line.bytes⟩]
  else []

end LineBuffer

end SerialLink
