/-
# A writer that follows a script

Each `write` and each `flush` takes the next line of its script; with the script used up, a
write takes everything and a flush succeeds.  All calls are written down, with the bytes that
were offered in hexadecimal.

It stands where the tests of `Sender` have a writer that records and one that is broken.
-/
import SerialLink.Command.Request

namespace SerialLink

namespace Text

/-- The digit for a number below sixteen. -/
def hexDigit (n : Nat) : Char := Nat.digitChar n

/-- Bytes in hexadecimal: two digits for each, in lower case and with nothing between. -/
def hex (bytes : List UInt8) : String :=
  String.ofList (bytes.flatMap fun b => [hexDigit (b.toNat / 16), hexDigit (b.toNat % 16)])

end Text

/-- What a scripted write does. -/
inductive Reply where
  /-- It takes this many bytes, or all if there are fewer. -/
  | accept (count : Nat)
  | fail
  deriving DecidableEq, Repr

/-- A call of a scripted writer. -/
inductive WriterEvent where
  | wrote (offered : List UInt8) (taken : Nat)
  | writeFailed (offered : List UInt8)
  | flushed
  | flushFailed
  deriving DecidableEq, Repr

/-- A call in the trace. -/
def WriterEvent.token : WriterEvent → String
  | wrote offered taken => "W" ++ Text.hex offered ++ "=" ++ toString taken
  | writeFailed offered => "W" ++ Text.hex offered ++ "=err"
  | flushed => "F"
  | flushFailed => "F=err"

/-- The two scripts, as far as they are not used, and the calls so far. -/
structure Script where
  writes : List Reply
  /-- Whether each flush succeeds. -/
  flushes : List Bool
  events : List WriterEvent
  deriving DecidableEq, Repr

namespace Script

/-- Add to the trace. -/
def note (s : Script) (event : WriterEvent) : Script := { s with events := s.events ++ [event] }

/-- The trace so far, leaving it empty. -/
def takeEvents (s : Script) : List WriterEvent × Script := (s.events, { s with events := [] })

/-- A trace as a line of text. -/
def trace (events : List WriterEvent) : String :=
  String.intercalate " " (events.map WriterEvent.token)

/-- Take bytes as the script says. -/
def write (bytes : List UInt8) : EStateM (Halt WriteFailure) Script Nat := fun s =>
  match s.writes with
  | [] => .ok bytes.length (s.note (.wrote bytes bytes.length))
  | .accept count :: rest =>
    let taken := min count bytes.length
    .ok taken ({ s with writes := rest }.note (.wrote bytes taken))
  | .fail :: rest => .error (.error ⟨⟩) ({ s with writes := rest }.note (.writeFailed bytes))

/-- Flush as the script says. -/
def flush : EStateM (Halt WriteFailure) Script Unit := fun s =>
  match s.flushes with
  | [] => .ok () (s.note .flushed)
  | true :: rest => .ok () ({ s with flushes := rest }.note .flushed)
  | false :: rest => .error (.error ⟨⟩) ({ s with flushes := rest }.note .flushFailed)

/-- The writer that follows the script. -/
def writer : Writer WriteFailure Script := ⟨write, flush⟩

end Script

end SerialLink
