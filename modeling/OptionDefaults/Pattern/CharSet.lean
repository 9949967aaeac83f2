import OptionDefaults.Pattern.Escape

/-!
# Sets of characters

A set stands between brackets. It lists characters, ranges of characters, named sets and further
sets, and doubled marks take the part in common, the difference or the symmetric difference of what
stands on their two sides. A closing bracket that comes first and hyphens that come first stand for
themselves.
-/

namespace OptionDefaults.Pattern

structure Union where
  span : Span
  items : List CharSet

namespace Union

/-- No members; the place is where the first one may stand. -/
def start (place : Place) : Union := ⟨⟨place, place⟩, []⟩

def push (u : Union) (item : CharSet) : Union :=
  ⟨⟨if u.items.isEmpty then item.span.start else u.span.start, item.span.stop⟩, item :: u.items⟩

/-- The set of the members; a single one is a set by itself. -/
def toSet (u : Union) : CharSet :=
  match u.items with
  | [] => .empty u.span
  | [item] => item
  | items => .union u.span items.reverse

end Union

structure OpenSet where
  span : Span
  negated : Bool
  leading : Union

def setNames : List String :=
  ["alnum", "alpha", "ascii", "blank", "cntrl", "digit", "graph", "lower", "print", "punct",
    "space", "upper", "word", "xdigit"]

/-- A named set, if one stands here. The name is between colons, inside brackets of its own. -/
def namedSet? (s : Cursor) : Option (CharSet × Cursor) := do
  let inner ← s.past? ['[', ':']
  let (negated, name) := match inner.past? ['^'] with
    | some name => (true, name)
    | none => (false, inner)
  let letters := name.rest.takeWhile (· != ':')
  let behind ← (name.advance letters.length).past? [':', ']']
  if String.ofList letters ∈ setNames then
    some (.named ⟨s.place, behind.place⟩ negated, behind)
  else none

def plainLiteral (s : Cursor) (c : Char) : Atom := .literal ⟨s.charSpan, c, false⟩

/-- Reads the hyphens that a set starts with. Such a set must not end with one of them. -/
def leadingHyphens (verbose : Bool) (start : Place) : Nat → Union → Cursor →
    Reading (Union × Cursor)
  | 0, u, s => .ok (u, s)
  | n + 1, u, s =>
    match s.rest with
    | '-' :: _ =>
      let behind := s.step verbose
      if behind.rest.isEmpty then stop .setUnclosed ⟨start, start⟩
      else leadingHyphens verbose start n (u.push (.atom (plainLiteral s '-'))) behind
    | _ => .ok (u, s)

/-- Reads the start of a set; the cursor is at its bracket. -/
def openSet (verbose : Bool) (s : Cursor) : Reading (OpenSet × Cursor) := do
  let unclosed {α : Type} (t : Cursor) : Reading α := stop .setUnclosed ⟨s.place, t.place⟩
  let inner := s.step verbose
  if inner.rest.isEmpty then unclosed inner else
  let negated := inner.rest.head? == some '^'
  let inner := if negated then inner.step verbose else inner
  if inner.rest.isEmpty then unclosed inner else
  let (leading, inner) ←
    leadingHyphens verbose s.place inner.rest.length (.start inner.place) inner
  if leading.items.isEmpty ∧ inner.rest.head? = some ']' then
    let behind := inner.step verbose
    if behind.rest.isEmpty then unclosed behind
    else
      return (⟨⟨s.place, behind.place⟩, negated, leading.push (.atom (plainLiteral inner ']'))⟩,
        behind)
  else return (⟨⟨s.place, inner.place⟩, negated, leading⟩, inner)

/-- Reads a character of a set or what an escape names. -/
def setAtom (verbose : Bool) (s : Cursor) : Reading (Atom × Cursor) :=
  match s.rest with
  | '\\' :: _ => escape verbose s
  | c :: _ => .ok (plainLiteral s c, s.next)
  | [] => stop .setUnclosed s.here

/-- The member that an atom is; edges are none. -/
def Atom.toMember (a : Atom) : Reading CharSet :=
  match a with
  | .literal _ | .property _ | .shorthand _ _ => .ok (.atom a)
  | .any span | .edge span | .wordEdge span => stop .setEscape span

/-- The end of a range that an atom is; only characters are. -/
def Atom.toBound (a : Atom) : Reading Literal :=
  match a with
  | .literal l => .ok l
  | _ => stop .rangeBound a.span

/-- Reads a member of a set that is opened by `opened`. A hyphen makes a range, unless a closing
bracket or another hyphen follows it. -/
def setMember (verbose : Bool) (opened : Span) (s : Cursor) : Reading (CharSet × Cursor) := do
  let (low, s) ← setAtom verbose s
  let s := s.skip verbose
  match s.rest with
  | [] => stop .setUnclosed opened
  | c :: _ =>
    let following := s.peek verbose
    if c ≠ '-' ∨ following = some ']' ∨ following = some '-' then return (← low.toMember, s)
    else
      let s := s.step verbose
      if s.rest.isEmpty then stop .setUnclosed opened else
      let (high, s) ← setAtom verbose s
      let span : Span := ⟨low.span.start, high.span.stop⟩
      let low ← low.toBound
      let high ← high.toBound
      if low.char.toNat ≤ high.char.toNat then return (.range span low high, s)
      else stop .rangeOrder span

structure LeftSide where
  members : CharSet
  kind : SetOperation

/-- The current members, joined with what stands left of them. -/
def joinSides (left : Option LeftSide) (right : CharSet) : CharSet :=
  match left with
  | some ⟨left, kind⟩ => .operation ⟨left.span.start, right.span.stop⟩ kind left right
  | none => right

/-- The operation that a doubled mark asks for, and what is behind the mark. -/
def operation? (s : Cursor) : Option (SetOperation × Cursor) :=
  match s.rest with
  | '&' :: '&' :: _ => some (.common, s.advance 2)
  | '-' :: '-' :: _ => some (.leftOnly, s.advance 2)
  | '~' :: '~' :: _ => some (.oneOnly, s.advance 2)
  | _ => none

/-- Reads the members of a set and its end. The number bounds the members of the set and of those
inside it. -/
def setMembers (verbose : Bool) : Nat → OpenSet → Union → Option LeftSide → Cursor →
    Reading (CharSet × Cursor)
  | 0, opened, _, _, _ => stop .setUnclosed opened.span
  | n + 1, opened, members, left, s => do
    let s := s.skip verbose
    match s.rest with
    | [] => stop .setUnclosed opened.span
    | ']' :: _ =>
      return (.bracket ⟨opened.span.start, s.next.place⟩ opened.negated
        (joinSides left members.toSet), s.next)
    | '[' :: _ =>
      match namedSet? s with
      | some (item, s) => setMembers verbose n opened (members.push item) left s
      | none =>
        let (inner, s) ← openSet verbose s
        let (item, s) ← setMembers verbose n inner inner.leading none s
        setMembers verbose n opened (members.push item) left s
    | _ =>
      match operation? s with
      | some (kind, s) =>
        let left := ⟨joinSides left members.toSet, kind⟩
        setMembers verbose n opened (.start s.place) (some left) s
      | none =>
        let (item, s) ← setMember verbose opened.span s
        setMembers verbose n opened (members.push item) left s

/-- Reads a set; the cursor is at its bracket. -/
def charSet (verbose : Bool) (s : Cursor) : Reading (Node × Cursor) := do
  let (opened, inner) ← openSet verbose s
  match ← setMembers verbose s.rest.length opened opened.leading none inner with
  | (.bracket span negated set, s) => return (.set span negated set, s)
  | (set, s) => return (.set set.span false set, s)

end OptionDefaults.Pattern
