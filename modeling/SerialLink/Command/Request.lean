/-
# Requests

What one party of a link can be asked to send.  A command is the bytes before the first NUL,
and never more of them than the settings allow; `send` writes just that and `command` writes
the end of commands after it.  The two answers of a device are fixed.

A request is written in pieces (`Request.pieces`).  Each piece is written whole and flushed
before the next is offered, and any failure of the writer ends the request with the one error
there is (`Request.perform`).

A request is a call of the program's `Sender`: `send`, `send_command`, `respond_ok` or
`respond_error`.  What is sent of a command is its `bounded`, and `writePiece` is its `write_all`
with the flush behind it.
-/
import SerialLink.Log
import SerialLink.Text.Quoted
import SerialLink.Command.Settings
import SerialLink.Command.Writer

namespace SerialLink

/-- The writer failed. -/
structure WriteFailure where
  deriving DecidableEq, Repr

/-- The words for a failed writer. -/
def WriteFailure.message (_ : WriteFailure) : String := "serial write failed"

/-- Something to send. -/
inductive Request where
  /-- A command as it is. -/
  | send (bytes : List UInt8)
  /-- A command and the end of commands. -/
  | command (bytes : List UInt8)
  /-- The answer to a command that was carried out. -/
  | respondOk
  /-- The answer to a command that was not. -/
  | respondError
  deriving DecidableEq, Repr

namespace Request

/-! ## 1. What is written -/

/-- The line `OK` between line ends. -/
def okResponse : List UInt8 := [13, 10, 79, 75, 13, 10]

/-- The line `ERROR` between line ends. -/
def errorResponse : List UInt8 := [13, 10, 69, 82, 82, 79, 82, 13, 10]

/-- A command up to its first NUL and to the longest there is. -/
def trimmed (settings : CommandSettings) (bytes : List UInt8) : List UInt8 :=
  (Transmitter.upToNul bytes).take settings.maxCommand

/-- What a request writes first. -/
def payload (settings : CommandSettings) : Request → List UInt8
  | send bytes => trimmed settings bytes
  | command bytes => trimmed settings bytes
  | respondOk => okResponse
  | respondError => errorResponse

/-- What a request writes after that, piece by piece. -/
def trailer (settings : CommandSettings) : Request → List (List UInt8)
  | command _ => [settings.commandEnd]
  | _ => []

/-- The pieces that a request writes, in order. -/
def pieces (settings : CommandSettings) (request : Request) : List (List UInt8) :=
  request.payload settings :: request.trailer settings

/-- All that a request writes. -/
def frame (settings : CommandSettings) (request : Request) : List UInt8 :=
  (request.pieces settings).flatten

/-- A request that tells how much was written. -/
def isCommand : Request → Bool
  | send _ => true
  | command _ => true
  | respondOk => false
  | respondError => false

/-- What a request answers when all of it is written. -/
def answer (settings : CommandSettings) (request : Request) : Option Nat :=
  if request.isCommand then some (request.frame settings).length else none

/-! ## 2. Writing it -/

/-- Write one piece and flush. -/
def writePiece {ε σ : Type} (w : Writer ε σ) (piece : List UInt8) : EStateM (Halt ε) σ Unit := do
  w.writeFully piece
  w.flush

/-- Carry out a request on a writer. -/
def perform {ε σ : Type} (settings : CommandSettings) (w : Writer ε σ) (request : Request) :
    EStateM (Halt WriteFailure) σ (Option Nat) := do
  (request.pieces settings).forM (writePiece (w.mapError fun _ => ⟨⟩))
  return request.answer settings

/-! ## 3. Records -/

/-- What the log says of a request before anything is written.  Payloads of fifty bytes and
more are told by their length. -/
def record (settings : CommandSettings) (request : Request) : Record :=
  let payload := request.payload settings
  ⟨.debug, "at_master::sender",
    if payload.length < 50 then "Sending command: " ++ Text.showBytes payload
    else "Sending command with long payload (" ++ toString payload.length ++ " bytes)"⟩

end Request

end SerialLink
