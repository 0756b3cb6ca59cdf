/-
# Byte strings in the log

Bytes that are UTF-8 are shown as quoted text, and all others as a list of numbers.  Within
the quotes a character that would not show, or that would end the text, is escaped: six of
them by a letter or a sign of their own, the others by their number in hexadecimal.

It is how the program's records show a header or a line, by way of `LossyStr`.
-/
import SerialLink.Text.Unprintable

namespace SerialLink.Text

/-- The digits of a character's number, base 16, without leading zeros. -/
def hexDigits (c : Char) : List Char := Nat.toDigits 16 c.toNat

/-- A character as it stands between quotes. -/
def escape (c : Char) : List Char :=
  match c with
  | '\x00' => ['\\', '0']
  | '\t' => ['\\', 't']
  | '\r' => ['\\', 'r']
  | '\n' => ['\\', 'n']
  | '"' => ['\\', '"']
  | '\\' => ['\\', '\\']
  | c =>
    if isUnprintable c then ['\\', 'u', '\x7b'] ++ hexDigits c ++ ['\x7d']
    else [c]

/-- A text in quotes. -/
def quote (text : List Char) : List Char := '"' :: text.flatMap escape ++ ['"']

/-- Bytes as numbers in brackets. -/
def numbers (bytes : List UInt8) : List Char :=
  '[' :: [',', ' '].intercalate (bytes.map fun b => Nat.toDigits 10 b.toNat) ++ [']']

/-- The text that bytes encode, if they are UTF-8. -/
def decode (bytes : List UInt8) : Option (List Char) :=
  (String.fromUTF8? bytes.toByteArray).map String.toList

/-- Bytes as the log shows them. -/
def showBytes (bytes : List UInt8) : String :=
  match decode bytes with
  | some text => String.ofList (quote text)
  | none => String.ofList (numbers bytes)

end SerialLink.Text
