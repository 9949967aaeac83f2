import OptionDefaults.Annotation.Annotator

/-!
# Completed documents

The outcome of a successful pass with the annotator that heard it: the document, and its text with
or without comments.
-/

namespace OptionDefaults

structure Completed where
  document : Document
  annotator : Annotator
deriving DecidableEq, Repr

namespace Completed

/-- Resolves a document under an annotator. -/
def ofDocument? (table : Table) (document : Document) (annotator : Annotator) :
    Except MergeError Completed :=
  let pass := table.pass document
  match pass.error? with
  | some e => .error e
  | none => .ok ⟨pass.document, annotator.recordAll pass.applied⟩

def text (c : Completed) (commented : Bool) : String :=
  if commented then c.annotator.annotate c.document.pretty else c.document.pretty

end Completed

end OptionDefaults
