import OptionDefaults.Pattern.Cursor
import OptionDefaults.Pattern.Fault

/-!
# Escapes

A backslash makes a mark stand for itself, and before a letter it names a character, a kind of
characters or an edge. Only ASCII characters that are no letters, no digits and no angle brackets
stand for themselves behind it. A pattern holds no closing brace, so nothing that an opening brace
starts behind an escape can be closed.
-/

namespace OptionDefaults.Pattern

def standsForItself (c : Char) : Bool :=
  c.toNat < 0x80 && !c.isAlphanum && c != '<' && c != '>'

def controlNamed? : Char → Option Char
  | 'a' => some '\x07'
  | 'f' => some '\x0c'
  | 't' => some '\t'
  | 'n' => some '\n'
  | 'r' => some '\r'
  | 'v' => some '\x0b'
  | _ => none

/-- How many hexadecimal digits follow a letter. -/
def hexDigits? : Char → Option Nat
  | 'x' => some 2
  | 'u' => some 4
  | 'U' => some 8
  | _ => none

def hexValue? (c : Char) : Option Nat :=
  if c.isDigit then some (c.toNat - '0'.toNat)
  else if 'a' ≤ c ∧ c ≤ 'f' then some (c.toNat - 'a'.toNat + 10)
  else if 'A' ≤ c ∧ c ≤ 'F' then some (c.toNat - 'A'.toNat + 10)
  else none

def charOfCode? (code : Nat) : Option Char :=
  if code.isValidChar then some (Char.ofNat code) else none

/-- Reads so many hexadecimal digits, most significant first, onto a value. -/
def hexDigits (verbose : Bool) : (count value : Nat) → Cursor → Reading (Nat × Cursor)
  | 0, value, s => .ok (value, s)
  | n + 1, value, s =>
    match s.rest with
    | [] => stop .escapeAtEnd s.here
    | c :: _ =>
      match hexValue? c with
      | some d => hexDigits verbose n (16 * value + d) (s.step verbose)
      | none => stop .hexDigit s.charSpan

/-- Reads a character by its code. The cursor is behind the letter, and the escape starts at
`start`. -/
def hexEscape (verbose : Bool) (start : Place) (count : Nat) (s : Cursor) :
    Reading (Atom × Cursor) :=
  match s.rest with
  | '\x7b' :: _ =>
    let (_, stopped) := (s.step verbose).run verbose fun c => (hexValue? c).isSome
    if stopped.rest.isEmpty then stop .escapeAtEnd ⟨s.place, stopped.place⟩
    else stop .hexDigit stopped.charSpan
  | _ => do
    let (code, behind) ← hexDigits verbose count 0 s
    match charOfCode? code with
    | some c => .ok (.literal ⟨⟨start, behind.place⟩, c, count == 2⟩, behind)
    | none => stop .hexOutOfRange ⟨s.place, behind.place⟩

/-- Reads the one letter that names a property. -/
def propertyEscape (verbose : Bool) (start : Place) (s : Cursor) : Reading (Atom × Cursor) :=
  match s.rest with
  | [] => stop .escapeAtEnd s.here
  | '\x7b' :: _ => stop .escapeAtEnd ((s.run verbose fun _ => true).2).here
  | '\\' :: _ => stop .malformedProperty s.charSpan
  | _ :: _ =>
    let behind := s.step verbose
    .ok (.property ⟨start, behind.place⟩, behind)

/-- Reads what follows the letter of a word edge. Letters in an opened brace would name a special
edge; anything else there is left for a count. -/
def wordEdgeEscape (verbose : Bool) (start : Place) (s : Cursor) : Reading (Atom × Cursor) :=
  let plain : Atom × Cursor := (.wordEdge ⟨start, s.place⟩, s)
  match s.rest with
  | '\x7b' :: _ =>
    let name := s.step verbose
    match name.rest with
    | [] => stop .wordEdgeAtEnd ⟨start, name.place⟩
    | c :: _ =>
      if c.isAlpha || c == '-' then
        let (_, stopped) := name.run verbose fun c => c.isAlpha || c == '-'
        stop .wordEdgeUnclosed ⟨s.place, stopped.place⟩
      else .ok plain
  | _ => .ok plain

/-- Reads an escape; the cursor is at the backslash. -/
def escape (verbose : Bool) (s : Cursor) : Reading (Atom × Cursor) :=
  let letter := s.next
  let behind := letter.next
  let span : Span := ⟨s.place, behind.place⟩
  match letter.rest with
  | [] => stop .escapeAtEnd ⟨s.place, letter.place⟩
  | c :: _ =>
    if c.isDigit then stop .backreference span
    else if standsForItself c then .ok (.literal ⟨span, c, false⟩, behind)
    else if let some count := hexDigits? c then
      let digits := letter.step verbose
      if digits.rest.isEmpty then stop .escapeAtEnd digits.here
      else hexEscape verbose s.place count digits
    else if let some control := controlNamed? c then .ok (.literal ⟨span, control, false⟩, behind)
    else match c with
      | 'p' | 'P' => propertyEscape verbose s.place (letter.step verbose)
      | 'd' | 's' | 'w' => .ok (.shorthand span false, behind)
      | 'D' | 'S' | 'W' => .ok (.shorthand span true, behind)
      | 'A' | 'z' => .ok (.edge span, behind)
      | 'b' => wordEdgeEscape verbose s.place behind
      | 'B' | '<' | '>' => .ok (.wordEdge span, behind)
      | _ => stop .unknownEscape span

end OptionDefaults.Pattern
