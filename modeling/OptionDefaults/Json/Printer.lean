import OptionDefaults.Json.Basic
import OptionDefaults.Numeric.Shortest

/-!
# The text of a JSON value

One writer serves both written forms: a `Json.Layout` says what stands before an item and between
a key and its value. `Json.compact` writes no blanks at all; `Json.pretty` puts every item on a
line of its own, indented by two spaces a level, and an empty array or object is closed where it
is opened.
-/

namespace OptionDefaults.Json

/-- A number is positional when its leading digit is at `10 ^ -5` up to `10 ^ 15`. -/
def decimalLayout : DecimalLayout := ⟨-5, 15⟩

/-- A string writes the quote, the backslash and the control characters below the space as escapes,
the latter by a letter where there is one, and every other character as it is. -/
def escaped (c : Char) : List Char :=
  match c with
  | '"' => ['\\', '"']
  | '\\' => ['\\', '\\']
  | '\x08' => ['\\', 'b']
  | '\x0c' => ['\\', 'f']
  | '\n' => ['\\', 'n']
  | '\r' => ['\\', 'r']
  | '\t' => ['\\', 't']
  | c =>
    if c.toNat < 0x20 then
      ['\\', 'u', '0', '0', Nat.digitChar (c.toNat / 16), Nat.digitChar (c.toNat % 16)]
    else [c]

def writeString (s : String) : List Char := '"' :: (s.toList.flatMap escaped ++ ['"'])

def writeNumber : JsonNumber → List Char
  | .integer n => n.write
  | .double x => decimalLayout.write x

/-- What stands before an item, and before a closing bracket, at a depth, and what ends a key. -/
structure Layout where
  separation : Nat → List Char
  colon : List Char

namespace Layout

mutual

/-- The text of a value whose closing bracket stands at `depth`. -/
def write (layout : Layout) (depth : Nat) : Json → List Char
  | .null => ['n', 'u', 'l', 'l']
  | .bool true => ['t', 'r', 'u', 'e']
  | .bool false => ['f', 'a', 'l', 's', 'e']
  | .number n => writeNumber n
  | .string s => writeString s
  | .array [] => ['[', ']']
  | .array (v :: vs) =>
    '[' :: (layout.separation (depth + 1) ++ write layout (depth + 1) v ++
      writeItems layout (depth + 1) vs ++ layout.separation depth ++ [']'])
  | .object [] => ['\x7b', '\x7d']
  | .object ((k, v) :: ms) =>
    '\x7b' :: (layout.separation (depth + 1) ++ writeString k ++ layout.colon ++
      write layout (depth + 1) v ++ writeMembers layout (depth + 1) ms ++
      layout.separation depth ++ ['\x7d'])

/-- The items after the first. -/
def writeItems (layout : Layout) (depth : Nat) : List Json → List Char
  | [] => []
  | v :: vs =>
    ',' :: (layout.separation depth ++ write layout depth v ++ writeItems layout depth vs)

/-- The members after the first. -/
def writeMembers (layout : Layout) (depth : Nat) : List (String × Json) → List Char
  | [] => []
  | (k, v) :: ms =>
    ',' :: (layout.separation depth ++ writeString k ++ layout.colon ++ write layout depth v ++
      writeMembers layout depth ms)

end

/-- No blanks. -/
def dense : Layout := ⟨fun _ => [], [':']⟩

/-- One item a line, two spaces a level, and a space after the colon. -/
def indented : Layout := ⟨fun depth => '\n' :: List.replicate (2 * depth) ' ', [':', ' ']⟩

end Layout

def compact (v : Json) : String := String.ofList (Layout.dense.write 0 v)

def pretty (v : Json) : String := String.ofList (Layout.indented.write 0 v)

end OptionDefaults.Json
