/-
# A host and a modem

Two wires between two parties: the host sends on the wire up, where the modem's receiver
listens, and the modem sends on the wire down, where the host's does.  While one party sends,
the other's receiver takes the bytes in; time passes only on the wire that is sent on.

What the host receives goes through its router when it asks for it (`drain`); the modem reads
its bytes raw (`read`).

The program has no type for this.  It is the set-up that its parts are made for, and that its
tests of a whole link build by hand: two `Line`s with a `Receiver` at the end of each, a `Sender`
over a `Transmitter` for either party, and an `Ingress` that drains the `ByteConsumer` of the host.
-/
import SerialLink.Reception.Run
import SerialLink.Command.Router
import SerialLink.Command.Request

namespace SerialLink

/-- One of the two parties. -/
inductive Party where
  | host
  | modem
  deriving DecidableEq, Repr

/-- Both wires, with the receiver at the end of each, and what the parties are set up with. -/
structure Link (n : Nat) (ω : Type) where
  settings : CommandSettings
  hostPeriod : BitPeriod
  modemPeriod : BitPeriod
  /-- The wire to the modem, and the modem's receiver. -/
  up : Station n
  /-- The wire to the host, and the host's receiver. -/
  down : Station n
  router : Router ω

namespace Link

variable {n : Nat} {ω : Type}

/-- Both wires idle and both receivers waiting.  Each party sends and receives with its own
bit. -/
def connect [Inhabited (Fin n)] (clock : UInt32) (settings : CommandSettings)
    (host modem : BitPeriod × StopPolicy) (registry : Registry ω) (limit : Nat) :
    Link n ω where
  settings := settings
  hostPeriod := host.1
  modemPeriod := modem.1
  up := .attach (.fresh clock) modem.1 modem.2 .empty .discard
  down := .attach (.fresh clock) host.1 host.2 .empty .discard
  router := .attach registry settings limit

/-- Carry out a request on a wire with somebody listening at its other end. -/
def sendOn (settings : CommandSettings) (period : BitPeriod) (request : Request) :
    EStateM (Halt WriteFailure) (Station n) (Option Nat) :=
  request.perform settings (Station.transmitter .receiver period).writer

/-- One party carries out a request on its wire. -/
def send (who : Party) (request : Request) :
    EStateM (Halt WriteFailure) (Link n ω) (Option Nat) := fun l =>
  match who with
  | .host =>
    match sendOn l.settings l.hostPeriod request l.up with
    | .ok answer up => .ok answer { l with up := up }
    | .error e up => .error e { l with up := up }
  | .modem =>
    match sendOn l.settings l.modemPeriod request l.down with
    | .ok answer down => .ok answer { l with down := down }
    | .error e down => .error e { l with down := down }

/-- The host puts what it has received through its router. -/
def drain (l : Link n ω) : Batch ω × Link n ω :=
  let (batch, router, queue) := l.router.drain l.down.queue
  (batch, { l with router := router, down := { l.down with queue := queue } })

/-- The modem reads all that it has received. -/
def read (l : Link n ω) : List UInt8 × Link n ω :=
  let (bytes, queue) := l.up.queue.popAll
  (bytes, { l with up := { l.up with queue := queue } })

/-- The modem asks whether a byte was lost, and clears the mark. -/
def takeLost (l : Link n ω) : Bool × Link n ω :=
  let (lost, queue) := l.up.queue.takeLost
  (lost, { l with up := { l.up with queue := queue } })

end Link

end SerialLink
