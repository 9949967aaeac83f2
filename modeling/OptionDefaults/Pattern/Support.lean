import OptionDefaults.Pattern.Reader

/-!
# Which patterns are supported

A well-formed pattern is refused if it is nested too deeply, and if the matcher cannot carry it out.
The matcher knows no table of the character standard, so in the usual way of matching, where
characters are those of that standard, it has no properties, no short names for kinds of characters
and no letters without regard to case; it can leave out case only in sets of which it knows that
they hold nothing or everything. In the other way characters are single bytes, and a pattern
must not match bytes that are no text. Edges of words it does not find in the usual way; of all
faults this is told last, and without a place.
-/

namespace OptionDefaults.Pattern

/-! ## Depth -/

namespace CharSet

mutual

/-- The first set that stands deeper than the levels left, if there is one. -/
def tooDeep? (left : Nat) : CharSet → Option Span
  | .bracket span _ inner =>
    match left with
    | 0 => some span
    | left + 1 => inner.tooDeep? left
  | .union span items =>
    match left with
    | 0 => some span
    | left + 1 => anyTooDeep? left items
  | .operation span _ l r =>
    match left with
    | 0 => some span
    | left + 1 => (l.tooDeep? left).or (r.tooDeep? left)
  | .empty _ | .atom _ | .range _ _ _ | .named _ _ => none

def anyTooDeep? (left : Nat) : List CharSet → Option Span
  | [] => none
  | item :: rest => (item.tooDeep? left).or (anyTooDeep? left rest)

end

end CharSet

namespace Node

mutual

/-- The first part that stands deeper than the levels left, if there is one. -/
def tooDeep? (left : Nat) : Node → Option Span
  | .set span _ members =>
    match left with
    | 0 => some span
    | left + 1 => members.tooDeep? left
  | .repeated span node =>
    match left with
    | 0 => some span
    | left + 1 => node.tooDeep? left
  | .group span _ node =>
    match left with
    | 0 => some span
    | left + 1 => node.tooDeep? left
  | .alternation span nodes =>
    match left with
    | 0 => some span
    | left + 1 => anyTooDeep? left nodes
  | .sequence span nodes =>
    match left with
    | 0 => some span
    | left + 1 => anyTooDeep? left nodes
  | .empty _ | .flags _ _ | .atom _ => none

def anyTooDeep? (left : Nat) : List Node → Option Span
  | [] => none
  | node :: rest => (node.tooDeep? left).or (anyTooDeep? left rest)

end

end Node

/-! ## Ways of matching -/

structure Mode where
  ignoreCase : Bool
  unicode : Bool
deriving DecidableEq, Repr

namespace Mode

/-- How a pattern is matched from its start. -/
def usual : Mode := ⟨false, true⟩

def apply (mode : Mode) (changes : FlagChanges) : Mode :=
  ⟨(changes.get? .ignoreCase).getD mode.ignoreCase, (changes.get? .unicode).getD mode.unicode⟩

/-- Whether letters would have to be compared without regard to case. -/
def folds (mode : Mode) : Bool := mode.unicode && mode.ignoreCase

end Mode

/-- A byte of more than seven bits is no text by itself. -/
def Literal.isHighByte (l : Literal) : Bool := l.isByte && 0x7F < l.char.toNat

def Literal.check (mode : Mode) (l : Literal) : Reading Unit :=
  if mode.folds then stop .caseFoldingUnavailable l.span
  else if !mode.unicode && l.isHighByte then stop .invalidBytes l.span
  else .ok ()

/-- A character in a set; a set of bytes has only ASCII characters. -/
def Literal.checkMember (mode : Mode) (l : Literal) : Reading Unit :=
  if mode.unicode then .ok ()
  else if l.isHighByte then stop .invalidBytes l.span
  else if 0x7F < l.char.toNat then stop .unicodeNotAllowed l.span
  else .ok ()

/-- A property, which is one of the character standard. -/
def checkProperty (mode : Mode) (span : Span) : Reading Unit :=
  stop (if mode.unicode then .unknownProperty else .unicodeNotAllowed) span

/-- A short name. All characters but some ASCII ones include bytes that are no text. -/
def checkShorthand (mode : Mode) (span : Span) (negated : Bool) : Reading Unit :=
  if mode.unicode then stop .shorthandUnavailable span
  else if negated then stop .invalidBytes span
  else .ok ()

/-! ## Sets -/

/-- What is known of the characters that a set holds: there are none, there are all, or there are
those that it lists. -/
inductive Extent where
  | nothing
  | everything
  | listed
deriving DecidableEq, Repr

namespace Extent

def complement : Extent → Extent
  | .nothing => .everything
  | .everything => .nothing
  | .listed => .listed

def union : Extent → Extent → Extent
  | .nothing, other => other
  | .everything, .everything => .everything
  | held, .nothing => held
  | _, _ => .listed

def common : Extent → Extent → Extent
  | .nothing, _ => .nothing
  | _, .nothing => .nothing
  | .everything, .everything => .everything
  | _, _ => .listed

def combine (kind : SetOperation) (left right : Extent) : Extent :=
  match kind with
  | .common => left.common right
  | .leftOnly => left.common right.complement
  | .oneOnly => (left.common right.complement).union (right.common left.complement)

/-- What is held with one more range. All characters in one range are listed as well, but they add
nothing where everything is held. -/
def addRange (held : Extent) (low high : Char) : Extent :=
  if held = .everything ∧ low.toNat = 0 ∧ high.toNat = 0x10FFFF then .everything else .listed

end Extent

/-- The end of a set, or of a side of an operation: listed characters may be letters, and a set of
bytes that leaves out some may have bytes that are no text. -/
def closeSet (mode : Mode) (span : Span) (negated : Bool) (inner : Extent) : Reading Extent :=
  if mode.folds && inner = .listed then stop .caseFoldingUnavailable span
  else if !mode.unicode && negated then stop .invalidBytes span
  else .ok (if negated then inner.complement else inner)

namespace CharSet

mutual

/-- Checks a set from left to right and adds it to what is held. -/
def check (mode : Mode) (held : Extent) : CharSet → Reading Extent
  | .empty _ => .ok held
  | .atom (.literal l) => do
    l.checkMember mode
    return .listed
  | .atom (.property span) => do
    checkProperty mode span
    return .listed
  | .atom (.shorthand span negated) => do
    checkShorthand mode span negated
    return .listed
  | .atom _ => .ok held
  | .range _ low high => do
    low.checkMember mode
    high.checkMember mode
    return held.addRange low.char high.char
  | .named span negated => do
    let named ← closeSet mode span negated .listed
    return held.union named
  | .bracket span negated inner => do
    let inner ← closeSet mode span negated (← inner.check mode .nothing)
    return held.union inner
  | .union _ items => checkAll mode held items
  | .operation _ kind left right => do
    let leftSide ← left.check mode .nothing
    let rightSide ← right.check mode .nothing
    let rightSide ← closeSet mode right.span false rightSide
    let leftSide ← closeSet mode left.span false leftSide
    return held.union (Extent.combine kind leftSide rightSide)

def checkAll (mode : Mode) (held : Extent) : List CharSet → Reading Extent
  | [] => .ok held
  | item :: rest => do
    let held ← item.check mode held
    checkAll mode held rest

end

end CharSet

/-! ## Patterns -/

/-- How the next part is matched, and whether an edge of a word is asked for in the usual way. -/
structure Progress where
  mode : Mode
  wordEdge : Bool
deriving DecidableEq, Repr

def Atom.check (progress : Progress) (a : Atom) : Reading Progress :=
  let mode := progress.mode
  match a with
  | .literal l => (l.check mode).map fun _ => progress
  | .any span => if mode.unicode then .ok progress else stop .invalidBytes span
  | .edge _ => .ok progress
  | .wordEdge _ => .ok { progress with wordEdge := progress.wordEdge || mode.unicode }
  | .property span => (checkProperty mode span).map fun _ => progress
  | .shorthand span negated => (checkShorthand mode span negated).map fun _ => progress

namespace Node

mutual

/-- Checks a pattern from left to right. What is switched on holds up to the end of the group. -/
def check (progress : Progress) : Node → Reading Progress
  | .empty _ => .ok progress
  | .flags _ changes => .ok { progress with mode := progress.mode.apply changes }
  | .atom a => a.check progress
  | .set span negated members => do
    let inner ← members.check progress.mode .nothing
    let _ ← closeSet progress.mode span negated inner
    return progress
  | .repeated _ node => node.check progress
  | .group _ changes node => do
    let inner ← node.check { progress with mode := progress.mode.apply changes }
    return { inner with mode := progress.mode }
  | .alternation _ nodes => checkAll progress nodes
  | .sequence _ nodes => checkAll progress nodes

def checkAll (progress : Progress) : List Node → Reading Progress
  | [] => .ok progress
  | node :: rest => do
    let progress ← node.check progress
    checkAll progress rest

end

end Node

/-! ## Refusals -/

inductive Refusal where
  | unfit (fault : Fault)
  | wordEdge
deriving DecidableEq, Repr

/-- The message and the messages of its causes, for a pattern. -/
def Refusal.messages (pattern : List Char) : Refusal → List String
  | .unfit fault => ["error building NFA", "error parsing regex", fault.report pattern]
  | .wordEdge =>
    ["unsupported regex feature for DFAs: cannot build DFAs for regexes with Unicode word " ++
      "boundaries; switch to ASCII word boundaries, or heuristically enable Unicode word " ++
      "boundaries or use a different regex engine"]

/-- Reads and checks a pattern up to the edges of words; what is left at its end says whether it
asks for one. -/
def supported (text : List Char) : Reading Progress := do
  let node ← Node.ofText? text
  match node.tooDeep? maxDepth with
  | some span => stop .nestedTooDeeply span
  | none => node.check ⟨.usual, false⟩

def refusal? (text : List Char) : Option Refusal :=
  match supported text with
  | .error fault => some (.unfit fault)
  | .ok progress => if progress.wordEdge then some .wordEdge else none

end OptionDefaults.Pattern
