/-
# Settings of a command link

How received bytes are cut into lines, and how commands are written: the `Config` that the
program's `LineAssembler`, `Ingress` and `Sender` are built with.
-/

namespace SerialLink

/-- What ends a line, what is skipped, and what goes out with a command. -/
structure CommandSettings where
  /-- The byte that completes a line. -/
  lineEnd : UInt8
  /-- A byte that is skipped wherever it comes, if there is one. -/
  ignored : Option UInt8
  /-- A line end with nothing before it completes no line. -/
  skipEmpty : Bool
  /-- What follows every command. -/
  commandEnd : List UInt8
  /-- The longest command that is written. -/
  maxCommand : Nat
  deriving DecidableEq, Repr

namespace CommandSettings

/-- Lines end with a line feed, carriage returns are skipped, and so are empty lines; commands
end with both and have at most 255 bytes. -/
def standard : CommandSettings := ⟨10, some 13, true, [13, 10], 255⟩

/-- The length of a line buffer of the usual size. -/
def standardLineLimit : Nat := 128

/-- A byte that may be missing. -/
def describeByte? : Option UInt8 → String
  | none => "None"
  | some byte => "Some(" ++ toString byte.toNat ++ ")"

/-- Bytes as numbers in brackets. -/
def describeBytes (bytes : List UInt8) : String :=
  "[" ++ String.intercalate ", " (bytes.map fun byte => toString byte.toNat) ++ "]"

/-- The settings with every field by its name. -/
def describe (s : CommandSettings) : String :=
  "Config \x7b line_term_char: " ++ toString s.lineEnd.toNat ++
    ", ignore_char: " ++ describeByte? s.ignored ++
    ", skip_empty_lines: " ++ (if s.skipEmpty then "true" else "false") ++
    ", command_term: " ++ describeBytes s.commandEnd ++
    ", max_command_len: " ++ toString s.maxCommand ++ " \x7d"

end CommandSettings

end SerialLink
