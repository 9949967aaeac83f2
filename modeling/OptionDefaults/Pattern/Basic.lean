/-!
# Patterns

A pattern describes texts: characters stand for themselves, and marks join, repeat and group what
stands between them. Patterns are never matched here; all that is asked of one is whether it is well
formed and within what the matcher of the log supports. So the tree of a pattern keeps the parts
that this depends on, each with the place where it is written, and leaves out the rest.
-/

namespace OptionDefaults.Pattern

/-- A place in a pattern. Lines and columns count from one, and columns count characters. -/
structure Place where
  line : Nat
  column : Nat
deriving DecidableEq, Repr

def Place.after (p : Place) (c : Char) : Place :=
  if c = '\n' then ⟨p.line + 1, 1⟩ else ⟨p.line, p.column + 1⟩

structure Span where
  start : Place
  stop : Place
deriving DecidableEq, Repr

namespace Span

def onOneLine (span : Span) : Bool := span.start.line == span.stop.line

def startsBefore (span other : Span) : Bool :=
  span.start.line < other.start.line ||
    (span.start.line == other.start.line && span.start.column < other.start.column)

end Span

inductive Flag where
  | ignoreCase
  | lineEdges
  | anyIncludesFeeds
  | lazyFirst
  | unicode
  | carriageFeeds
  | verbose
deriving DecidableEq, Repr

def Flag.ofChar? : Char → Option Flag
  | 'i' => some .ignoreCase
  | 'm' => some .lineEdges
  | 's' => some .anyIncludesFeeds
  | 'U' => some .lazyFirst
  | 'u' => some .unicode
  | 'R' => some .carriageFeeds
  | 'x' => some .verbose
  | _ => none

abbrev FlagChanges := List (Flag × Bool)

def FlagChanges.get? (changes : FlagChanges) (flag : Flag) : Option Bool :=
  (changes.find? (·.1 == flag)).map Prod.snd

/-- A character that stands for itself. It is written as a byte when two hexadecimal digits name
it. -/
structure Literal where
  span : Span
  char : Char
  isByte : Bool
deriving DecidableEq, Repr

inductive Atom where
  | literal (value : Literal)
  | any (span : Span)
  | edge (span : Span)
  | wordEdge (span : Span)
  | property (span : Span)
  | shorthand (span : Span) (negated : Bool)
deriving DecidableEq, Repr

def Atom.span : Atom → Span
  | .literal l => l.span
  | .any span => span
  | .edge span => span
  | .wordEdge span => span
  | .property span => span
  | .shorthand span _ => span

inductive SetOperation where
  | common
  | leftOnly
  | oneOnly
deriving DecidableEq, Repr

inductive CharSet where
  | empty (span : Span)
  | atom (value : Atom)
  | range (span : Span) (low high : Literal)
  | named (span : Span) (negated : Bool)
  | bracket (span : Span) (negated : Bool) (inner : CharSet)
  | union (span : Span) (items : List CharSet)
  | operation (span : Span) (kind : SetOperation) (left right : CharSet)
deriving Repr

def CharSet.span : CharSet → Span
  | .empty span => span
  | .atom a => a.span
  | .range span _ _ => span
  | .named span _ => span
  | .bracket span _ _ => span
  | .union span _ => span
  | .operation span _ _ _ => span

inductive Node where
  | empty (span : Span)
  | flags (span : Span) (changes : FlagChanges)
  | atom (value : Atom)
  | set (span : Span) (negated : Bool) (members : CharSet)
  | repeated (span : Span) (node : Node)
  | group (span : Span) (changes : FlagChanges) (node : Node)
  | alternation (span : Span) (branches : List Node)
  | sequence (span : Span) (parts : List Node)
deriving Repr

namespace Node

def span : Node → Span
  | .empty span => span
  | .flags span _ => span
  | .atom a => a.span
  | .set span _ _ => span
  | .repeated span _ => span
  | .group span _ _ => span
  | .alternation span _ => span
  | .sequence span _ => span

/-- Whether the part can be repeated: it has to be there and to match something. -/
def isRepeatable : Node → Bool
  | .empty _ => false
  | .flags _ _ => false
  | _ => true

/-- Parts one after the other; a single part is a node by itself. -/
def ofParts (span : Span) : List Node → Node
  | [] => .empty span
  | [part] => part
  | parts => .sequence span parts

end Node

end OptionDefaults.Pattern
