/-
# From bytes to handlers

A router cuts the bytes it is given into lines and sends each line to the handler that the
registry names for it.  Bytes come in two ways, handed over (`accept`) or out of a receive
queue (`drain`), and it makes no difference to the lines which way they came.

What comes of the bytes is a `Batch`: the completed lines in order, each with the call it led
to, and whether the queue had lost a byte.

This is the program's `Ingress`.  `take` is its `feed`, `accept` is its `write`, and it borrows
the registry, which is held here.
-/
import SerialLink.Queue.ReceiveQueue
import SerialLink.Command.Registry
import SerialLink.Command.LineBuffer

namespace SerialLink

/-- A completed line and the call it led to. -/
structure Delivery (ω : Type) where
  line : Line
  call : Option (Call ω)
  deriving DecidableEq, Repr

/-- What came of some bytes. -/
structure Batch (ω : Type) where
  /-- The queue had lost a byte. -/
  lost : Bool
  deliveries : List (Delivery ω)
  deriving DecidableEq, Repr

/-- A registry and the line that is being received for it. -/
structure Router (ω : Type) where
  registry : Registry ω
  buffer : LineBuffer
  deriving DecidableEq, Repr

namespace Batch

variable {ω : Type}

/-- How many lines were completed. -/
def lineCount (b : Batch ω) : Nat := b.deliveries.length

/-- The calls that were made, in order. -/
def calls (b : Batch ω) : List (Call ω) := b.deliveries.filterMap Delivery.call

end Batch

namespace Router

variable {ω : Type}

/-- A router with nothing received yet. -/
def attach (registry : Registry ω) (settings : CommandSettings) (limit : Nat) : Router ω :=
  ⟨registry, .empty settings limit⟩

/-! ## 1. Bytes in -/

/-- Take one byte. -/
def take (r : Router ω) (byte : UInt8) : Option (Delivery ω) × Router ω :=
  let (line, buffer) := r.buffer.push byte
  (line.map fun line => ⟨line, r.registry.dispatch line.bytes⟩, { r with buffer := buffer })

/-- Take bytes one after the other. -/
def takeEach (r : Router ω) : List UInt8 → List (Delivery ω) × Router ω
  | [] => ([], r)
  | byte :: rest =>
    let (delivery, r) := r.take byte
    let (others, r) := r.takeEach rest
    (delivery.toList ++ others, r)

/-- Take bytes that were handed over. -/
def accept (r : Router ω) (bytes : List UInt8) : Batch ω × Router ω :=
  let (deliveries, r) := r.takeEach bytes
  (⟨false, deliveries⟩, r)

/-- Take all the bytes of a queue, and its mark of a lost byte. -/
def drain {n : Nat} (r : Router ω) (queue : ReceiveQueue n) :
    Batch ω × Router ω × ReceiveQueue n :=
  let (lost, queue) := queue.takeLost
  let (bytes, queue) := queue.popAll
  let (deliveries, r) := r.takeEach bytes
  (⟨lost, deliveries⟩, r, queue)

/-- How much is held of the line that is being received. -/
def length (r : Router ω) : Nat := r.buffer.held.length

/-! ## 2. Records -/

/-- A record of the router. -/
def record (level : Level) (message : String) : Record := ⟨level, "at_master::ingress", message⟩

/-- What the log says of a router that starts. -/
def startRecord (registry : Registry ω) : Record :=
  record .info ("AT ingress started with " ++ toString registry.entries.length ++ " commands")

/-- What the log says of one line: that it was cut, and where it went. -/
def deliveryRecords (limit : Nat) (d : Delivery ω) : List Record :=
  LineBuffer.records limit d.line ++
    match d.call with
    | none => [record .debug ("Unsolicited line: " ++ Text.showBytes d.line.bytes)]
    | some call => Registry.dispatchRecords d.line.bytes (some call)

/-- What the log says of a batch. -/
def batchRecords (r : Router ω) (batch : Batch ω) : List Record :=
  (if batch.lost then [record .error "Receive queue overflow, bytes were lost"] else []) ++
    batch.deliveries.flatMap (deliveryRecords r.buffer.limit)

end Router

end SerialLink
