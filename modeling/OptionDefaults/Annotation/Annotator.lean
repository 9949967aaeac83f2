import OptionDefaults.Annotation.Note
import OptionDefaults.Text.Lines

/-!
# Comments in written documents

An annotator hears of every filled option and can put comments into a written document. It goes by
the lines of the indented form: the members of the document stand two blanks in, those of the
nested object four, and the nested object reaches from the line that opens it to the line that
closes it.
-/

namespace OptionDefaults

inductive Annotator where
  | silent
  | commenting (notes : List Note)
deriving DecidableEq, Repr

namespace Annotator

/-- Notes an option with these reasons. -/
def noteReasons (annotator : Annotator) (region : Region) (name : String) (reasons : List Reason) :
    Annotator :=
  match annotator with
  | .silent => .silent
  | .commenting notes => .commenting (notes ++ (Note.ofReasons? region name reasons).toList)

def record (annotator : Annotator) (applied : Applied) : Annotator :=
  annotator.noteReasons applied.descriptor.region applied.descriptor.name applied.reasons

def recordAll (annotator : Annotator) (applied : List Applied) : Annotator :=
  applied.foldl record annotator

def notes : Annotator → List Note
  | .silent => []
  | .commenting notes => notes

/-- The first note of the region for the member that a text starts with. -/
def noteFor (notes : List Note) (region : Region) (text : List Char) : Option Note :=
  notes.find? fun note => note.region = region && note.start.isPrefixOf text

def indent : List Char := [' ', ' ']

/-- How the line starts that opens the nested object. -/
def nestedOpening : List Char := Note.memberStart Document.nestedKey ++ [' ', '\x7b']

/-- Whether the lines after one that opens the nested object lie inside it: an empty object is
closed on its own line. -/
def staysOpen (opening : List Char) : Bool :=
  match opening.reverse with
  | '\x7d' :: _ => false
  | ',' :: '\x7d' :: _ => false
  | _ => true

def comment (depth : Nat) (note : Note) : List Char :=
  (List.replicate depth indent).flatten ++ ['/', '/', ' '] ++ note.text.toList

/-- Looks at a line: whether the next one lies in the nested object, and the comment above this
one. -/
def scanLine (notes : List Note) (inNested : Bool) (line : List Char) : Bool × Option (List Char) :=
  match (indent ++ indent).isPrefixOf? line, indent.isPrefixOf? line with
  | some rest, _ =>
    let note := if inNested && rest.head? == some '"' then noteFor notes .nested rest else none
    (inNested, note.map (comment 2))
  | none, some rest =>
    let next :=
      if nestedOpening.isPrefixOf rest then staysOpen rest
      else if rest.head? == some '\x7d' then false
      else inNested
    let note := if rest.head? == some '"' then noteFor notes .root rest else none
    (next, note.map (comment 1))
  | none, none => (inNested, none)

def annotateLines (notes : List Note) : (inNested : Bool) → List (List Char) → List (List Char)
  | _, [] => []
  | inNested, line :: rest =>
    let (next, comment?) := scanLine notes inNested line
    comment?.toList ++ line :: annotateLines notes next rest

/-- Puts comments into a written document. The last line keeps its line feed or the lack of one. -/
def annotateText (notes : List Note) (text : List Char) : List Char :=
  let written := Text.unlines (annotateLines notes false (Text.lines text))
  if text.getLast? = some '\n' then written else written.dropLast

def annotate (annotator : Annotator) (text : String) : String :=
  match annotator with
  | .silent => text
  | .commenting notes => String.ofList (annotateText notes text.toList)

end Annotator

end OptionDefaults
