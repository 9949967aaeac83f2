import OptionDefaults.Pattern.CharSet

/-!
# Reading patterns

A pattern is read from left to right into its tree, and the first fault ends the reading. Groups
stand between parentheses; what is switched on inside a group ends with it. Of several groups that
are never closed the innermost one is reported.
-/

namespace OptionDefaults.Pattern

/-- What the reading of one part leaves to the next: whether blanks count, and the names of groups
with their places. -/
structure Scope where
  verbose : Bool
  names : List (List Char × Span)

/-- What is read of a group so far, the last part and the last branch first. -/
structure Draft where
  start : Place
  branches : List Node
  branchStart : Place
  parts : List Node

namespace Draft

def begin (place : Place) : Draft := ⟨place, [], place, []⟩

def push (d : Draft) (part : Node) : Draft := { d with parts := part :: d.parts }

/-- The current branch, which ends at a place. -/
def branch (d : Draft) (stop : Place) : Node := .ofParts ⟨d.branchStart, stop⟩ d.parts.reverse

/-- Another branch follows the mark `mark`. -/
def fork (d : Draft) (mark : Span) : Draft :=
  ⟨d.start, d.branch mark.start :: d.branches, mark.stop, []⟩

/-- The node of what is read, which ends at a place. -/
def finish (d : Draft) (stop : Place) : Node :=
  if d.branches.isEmpty then d.branch stop
  else .alternation ⟨d.start, stop⟩ (d.branch stop :: d.branches).reverse

/-- Takes the last part away to repeat it. -/
def takeRepeatable (d : Draft) (mark : Cursor) : Reading (Node × Draft) :=
  match d.parts with
  | part :: parts =>
    if part.isRepeatable then .ok (part, { d with parts })
    else stop .nothingToRepeat mark.here
  | [] => stop .nothingToRepeat mark.here

end Draft

/-! ## Groups -/

abbrev FlagMark := Option Flag × Span

/-- What flags are set to: those behind a negation are off. -/
def flagChanges (on : Bool) : List FlagMark → FlagChanges
  | [] => []
  | (none, _) :: rest => flagChanges false rest
  | (some flag, _) :: rest => (flag, on) :: flagChanges on rest

/-- Reads flags up to a colon or a closing parenthesis. -/
def flagMarks (seen : List FlagMark) : List Char → Place → Reading (List FlagMark × Cursor)
  | [], place => stop .flagAtEnd ⟨place, place⟩
  | c :: rest, place => do
    let span : Span := ⟨place, place.after c⟩
    if c = ':' ∨ c = ')' then
      match seen with
      | (none, negation) :: _ => stop .danglingNegation negation
      | _ => return (seen.reverse, ⟨c :: rest, place⟩)
    else
      let flag := Flag.ofChar? c
      if flag.isNone ∧ c ≠ '-' then stop .unknownFlag span
      else match seen.find? (·.1 == flag) with
        | some (some _, first) => stopRepeated .duplicateFlag span first
        | some (none, first) => stopRepeated .repeatedNegation span first
        | none => flagMarks ((flag, span) :: seen) rest (place.after c)

def isNameChar (first : Bool) (c : Char) : Bool :=
  c == '_' ||
    if first then Text.isAlphabetic c
    else c == '.' || c == '[' || c == ']' || Text.isAlphanumeric c

def groupName (names : List (List Char × Span)) (s : Cursor) :
    Reading (List Char × Span × Cursor) :=
  let name := s.rest.takeWhile (· != '>')
  let behind := s.advance name.length
  let span : Span := ⟨s.place, behind.place⟩
  match name.zipIdx.find? fun (c, i) => !isNameChar (i == 0) c with
  | some (_, i) => stop .malformedName (s.advance i).charSpan
  | none =>
    if behind.rest.isEmpty then stop .nameAtEnd behind.here
    else if name.isEmpty then stop .emptyName s.here
    else match names.find? (·.1 == name) with
      | some (_, first) => stopRepeated .duplicateName span first
      | none => .ok (name, span, behind.next)

inductive Opening where
  | flags (changes : FlagChanges)
  | group (changes : FlagChanges) (names : List (List Char × Span))

/-- Marks of conditions on the text around a match. -/
def lookarounds : List (List Char) := [['?', '='], ['?', '!'], ['?', '<', '='], ['?', '<', '!']]

/-- Reads what an opening parenthesis starts; the cursor is at the parenthesis. -/
def opening (scope : Scope) (s : Cursor) : Reading (Opening × Cursor) := do
  let inner := s.next.skip scope.verbose
  match lookarounds.findSome? inner.past? with
  | some behind => stop .lookaround ⟨s.place, behind.place⟩
  | none =>
    match (inner.past? ['?', 'P', '<']).or (inner.past? ['?', '<']) with
    | some name =>
      let (name, span, behind) ← groupName scope.names name
      return (.group [] ((name, span) :: scope.names), behind)
    | none =>
      match inner.past? ['?'] with
      | none => return (.group [] scope.names, inner)
      | some flags =>
        if flags.rest.isEmpty then stop .groupUnclosed s.charSpan else
        let (marks, behind) ← flagMarks [] flags.rest flags.place
        let changes := flagChanges true marks
        if behind.rest.head? = some ':' then return (.group changes scope.names, behind.next)
        else if marks.isEmpty then stop .nothingToRepeat inner.here
        else return (.flags changes, behind.next)

/-! ## Repetitions -/

/-- Reads a repetition mark with the mark for short matches behind it. -/
def repetition (d : Draft) (s : Cursor) : Reading (Draft × Cursor) := do
  let (part, d) ← d.takeRepeatable s
  let behind := if s.next.rest.head? = some '?' then s.next.next else s.next
  return (d.push (.repeated ⟨part.span.start, behind.place⟩ part), behind)

/-- Counts fit an unsigned 32-bit word. -/
def countBound : Nat := Nat.pow 2 32

/-- Reads a counted repetition, which never ends in a pattern without closing braces: what is found
is only how it fails. -/
def countedRepetition {α : Type} (verbose : Bool) (d : Draft) (s : Cursor) : Reading α := do
  let _ ← d.takeRepeatable s
  let (_, count) := (s.step verbose).run false Text.isBlank
  let (digits, behind) := count.run verbose Char.isDigit
  let (_, rest) := behind.run verbose Text.isBlank
  if rest.rest.isEmpty then stop .countUnclosed ⟨s.place, rest.place⟩
  else if digits.isEmpty then stop .countMissing count.here
  else if Nat.ofDigitChars 10 digits 0 < countBound then stop .countUnclosed ⟨s.place, rest.place⟩
  else stop .countTooLarge ⟨count.place, behind.place⟩

/-! ## Patterns -/

/-- Reads a part that is neither a group nor a repetition. -/
def part (verbose : Bool) (s : Cursor) : Reading (Node × Cursor) :=
  match s.rest with
  | '[' :: _ => charSet verbose s
  | '\\' :: _ => (escape verbose s).map fun (a, s) => (.atom a, s)
  | '.' :: _ => .ok (.atom (.any s.charSpan), s.next)
  | '^' :: _ | '$' :: _ => .ok (.atom (.edge s.charSpan), s.next)
  | c :: _ => .ok (.atom (plainLiteral s c), s.next)
  | [] => .ok (.empty s.here, s)

/-- Reads up to the end of the group or of the text. The number bounds the parts of the group and
of those inside it. -/
def parts : Nat → Scope → Draft → Cursor → Reading (Node × Scope × Cursor)
  | 0, scope, d, s => .ok (d.finish s.place, scope, s)
  | n + 1, scope, d, s => do
    let s := s.skip scope.verbose
    match s.rest with
    | [] | ')' :: _ => return (d.finish s.place, scope, s)
    | '|' :: _ => parts n scope (d.fork s.charSpan) s.next
    | '?' :: _ | '*' :: _ | '+' :: _ =>
      let (d, s) ← repetition d s
      parts n scope d s
    | '\x7b' :: _ => countedRepetition scope.verbose d s
    | '(' :: _ =>
      match ← opening scope s with
      | (.flags changes, behind) =>
        let verbose := (changes.get? .verbose).getD scope.verbose
        parts n { scope with verbose } (d.push (.flags ⟨s.place, behind.place⟩ changes)) behind
      | (.group changes names, inner) =>
        let verbose := (changes.get? .verbose).getD scope.verbose
        let (node, inside, closing) ← parts n ⟨verbose, names⟩ (.begin inner.place) inner
        if closing.rest.isEmpty then stop .groupUnclosed s.charSpan else
        let behind := closing.next
        parts n { scope with names := inside.names }
          (d.push (.group ⟨s.place, behind.place⟩ changes node)) behind
    | _ =>
      let (node, s) ← part scope.verbose s
      parts n scope (d.push node) s

def Node.ofText? (text : List Char) : Reading Node := do
  let s := Cursor.start text
  let (node, _, behind) ← parts (text.length + 1) ⟨false, []⟩ (.begin s.place) s
  if behind.rest.isEmpty then return node
  else stop .groupUnopened behind.charSpan

end OptionDefaults.Pattern
