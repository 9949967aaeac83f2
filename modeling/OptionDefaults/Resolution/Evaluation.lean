import OptionDefaults.Policy.Basic

/-!
# The value of a rule on a document

Evaluating a rule gives a candidate for the default, or none, together with the reason: the branch
that was taken and what it was taken on.
-/

namespace OptionDefaults

inductive Reason where
  | literal
  | defined (option : String)
  | notDefined (option : String)
  /-- The option has the value of a pair. -/
  | matched (option : String) (value : Json)
  /-- The option is absent or has the value of none of the pairs. -/
  | otherwise (option : String) (tried : List (Json × Json))
  | noValue (option : String)
deriving DecidableEq, Repr

structure Evaluation where
  candidate : Option Json
  reason : Reason
deriving DecidableEq, Repr

namespace Rule

/-- The first pair whose first value is alike the given one. -/
def matchingPair (pairs : List (Json × Json)) (current : Json) : Option (Json × Json) :=
  pairs.find? fun pair => pair.1.alike current

def evaluate (document : Document) (owner : Region) : Rule → Evaluation
  | .literal v => ⟨some v, .literal⟩
  | .presence option defined notDefined =>
    if document.isDefined .root option then ⟨some defined, .defined option⟩
    else match notDefined with
      | some v => ⟨some v, .notDefined option⟩
      | none => ⟨none, .noValue option⟩
  | .multiValue option pairs otherwise =>
    match (document.get? owner option).bind (matchingPair pairs), otherwise with
    | some (compared, result), _ => ⟨some result, .matched option compared⟩
    | none, some v => ⟨some v, .otherwise option pairs⟩
    | none, none => ⟨none, .noValue option⟩

end Rule

end OptionDefaults
