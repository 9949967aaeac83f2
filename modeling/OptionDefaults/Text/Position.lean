import OptionDefaults.Text.Bytes

/-!
# Places in a text

A place is named by the bytes before it: lines count from one, and the column is the number of bytes
since the last line feed. A place may lie inside a character of several bytes.
-/

namespace OptionDefaults.Text

structure Position where
  line : Nat
  column : Nat
deriving DecidableEq, Repr

namespace Position

/-- The place `bytes` bytes after `start`, when `text` follows `start`. -/
def advance (start : Position) : (text : List Char) → (bytes : Nat) → Position
  | _, 0 => start
  | [], _ => start
  | c :: rest, bytes =>
    if bytes < c.utf8Size then { start with column := start.column + bytes }
    else if c = '\n' then advance ⟨start.line + 1, 0⟩ rest (bytes - c.utf8Size)
    else advance ⟨start.line, start.column + c.utf8Size⟩ rest (bytes - c.utf8Size)

/-- The place with `unread` bytes of the text after it. -/
def before (text : List Char) (unread : Nat) : Position :=
  advance ⟨1, 0⟩ text (byteCount text - unread)

/-- The place in words, as error messages end with it. -/
def phrase (p : Position) : String := s!" at line {p.line} column {p.column}"

end Position

end OptionDefaults.Text
