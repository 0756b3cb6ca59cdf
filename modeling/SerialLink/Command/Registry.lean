/-
# Which handler gets a line

A registry is a list of headers, each with an owner and with the length to which its lines are
cut.  A line goes to the first header that it starts with, in the order of registration, and to
no other; the empty header takes every line.  Entries are never removed, so the place of an
entry in the list is its id for good.

An entry's header always fits the length its lines are cut to, so what a handler gets still
starts with the whole header.

A registry is the program's `AtMaster`, and an entry is an `AtCommand` without its
`ResponseHandler`.  A `Call` is what such a handler is told: the `Matched`, and the line.
-/
import SerialLink.Log
import SerialLink.Text.Quoted

namespace SerialLink

/-- A registered header. -/
structure Entry (ω : Type) where
  header : List UInt8
  /-- Lines are cut to this length for the handler. -/
  maxLength : Nat
  /-- Whoever registered the header. -/
  owner : ω
  header_le : header.length ≤ maxLength
  deriving DecidableEq, Repr

/-- The place of an entry in its registry.  It is given out when the entry is registered. -/
structure CommandId where
  index : Nat
  deriving DecidableEq, Repr

/-- An id in the log. -/
def CommandId.describe (id : CommandId) : String := "CommandId(" ++ toString id.index ++ ")"

/-- One call of a handler: the entry, its owner, and the line as it is handed over. -/
structure Call (ω : Type) where
  id : CommandId
  owner : ω
  line : List UInt8
  deriving DecidableEq, Repr

/-- Why a registration is refused. -/
inductive RegistryError where
  /-- The header is longer than its own lines may be. -/
  | headerTooLong
  /-- Every place is taken. -/
  | full
  deriving DecidableEq, Repr

/-- The words for a refusal. -/
def RegistryError.message : RegistryError → String
  | headerTooLong => "invalid AT registration"
  | full => "AT registry is full"

namespace Entry

variable {ω : Type}

/-- The line starts with the header. -/
def accepts (e : Entry ω) (line : List UInt8) : Bool := e.header.isPrefixOf line

/-- The part of a line that the handler gets. -/
def cut (e : Entry ω) (line : List UInt8) : List UInt8 := line.take e.maxLength

/-- An entry with every field by its name. -/
def describe [ToString ω] (e : Entry ω) : String :=
  "AtCommand \x7b header: " ++ Text.showBytes e.header ++
    ", max_len: " ++ toString e.maxLength ++
    ", owner: " ++ toString e.owner ++ " \x7d"

end Entry

/-- The entries in the order of their registration. -/
structure Registry (ω : Type) where
  /-- How many entries there is room for. -/
  capacity : Nat
  entries : List (Entry ω)
  length_le : entries.length ≤ capacity
  deriving DecidableEq, Repr

namespace Registry

variable {ω : Type}

/-- A registry with no entry. -/
def empty (capacity : Nat) : Registry ω := ⟨capacity, [], Nat.zero_le _⟩

/-- There is no room for another entry. -/
def isFull (r : Registry ω) : Bool := decide (r.entries.length = r.capacity)

/-! ## 1. Registering -/

/-- Add an entry behind the others.  The answer is its id.  A header that does not fit is
refused before the room is looked at. -/
def register (r : Registry ω) (header : List UInt8) (maxLength : Nat) (owner : ω) :
    Except RegistryError (CommandId × Registry ω) :=
  if header_le : header.length ≤ maxLength then
    if room : r.entries.length < r.capacity then
      .ok (⟨r.entries.length⟩,
        { r with
          entries := r.entries ++ [⟨header, maxLength, owner, header_le⟩]
          length_le := by rw [List.length_append]; exact room })
    else
      .error .full
  else
    .error .headerTooLong

/-- The entry with an id, if it has been registered here. -/
def get? (r : Registry ω) (id : CommandId) : Option (Entry ω) := r.entries[id.index]?

/-! ## 2. Dispatch -/

/-- The first entry whose header starts the line, with its place. -/
def find? (r : Registry ω) (line : List UInt8) : Option (Entry ω × Nat) :=
  r.entries.zipIdx.find? fun place => place.1.accepts line

/-- The call that a line leads to, if any. -/
def dispatch (r : Registry ω) (line : List UInt8) : Option (Call ω) :=
  (r.find? line).map fun (entry, index) => ⟨⟨index⟩, entry.owner, entry.cut line⟩

/-! ## 3. Records -/

/-- A record of the registry. -/
def record (level : Level) (message : String) : Record := ⟨level, "at_master::master", message⟩

/-- What the log says of a registration. -/
def registerRecord (header : List UInt8) (maxLength : Nat) :
    Except RegistryError CommandId → Record
  | .error .headerTooLong =>
    record .error ("Header " ++ Text.showBytes header ++ " does not fit in " ++
      toString maxLength ++ " bytes")
  | .error .full => record .error ("AT registry full, dropping " ++ Text.showBytes header)
  | .ok id => record .debug ("Registered " ++ Text.showBytes header ++ " as " ++ id.describe)

/-- What the log says of a dispatched line, which it shows uncut. -/
def dispatchRecords (line : List UInt8) : Option (Call ω) → List Record
  | none => []
  | some call =>
    [record .trace ("Dispatching " ++ Text.showBytes line ++ " to " ++ call.id.describe)]

end Registry

end SerialLink
