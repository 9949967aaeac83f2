import OptionDefaults.Resolution.Evaluation
import OptionDefaults.Resolution.Merge
import OptionDefaults.Table.Basic

/-!
# A resolution pass

A pass visits the entries of a table in order and fills every option that has a policy, is not
defined yet and gets a value. A rule sees the defaults that earlier entries filled and never those
of later ones. A pass ends early at an entry whose candidates clash; what was filled before stays.

A pass is kept as the list of its visits and the document it leaves. What was filled, and why the
pass failed, is read off the visits.
-/

namespace OptionDefaults

inductive Visit where
  | noPolicy
  | alreadyDefined
  | noDefault (evaluations : List Evaluation)
  | filled (value : Json) (evaluations : List Evaluation)
  | clash (evaluations : List Evaluation)
deriving DecidableEq, Repr

def Descriptor.evaluate (d : Descriptor) (document : Document) : List Evaluation :=
  d.rules.map (Rule.evaluate document d.region)

def Descriptor.visit (d : Descriptor) (document : Document) : Visit :=
  if d.policy.isNone then .noPolicy
  else if document.isDefined d.region d.name then .alreadyDefined
  else
    let evaluations := d.evaluate document
    match merge (evaluations.map Evaluation.candidate) with
    | .value v => .filled v evaluations
    | .nothing => .noDefault evaluations
    | .clash => .clash evaluations

structure Step where
  key : String
  descriptor : Descriptor
  visit : Visit
deriving DecidableEq, Repr

/-- A filled option with the reasons for its value, one for each rule. -/
structure Applied where
  descriptor : Descriptor
  value : Json
  reasons : List Reason
deriving DecidableEq, Repr

namespace Step

def update (step : Step) (document : Document) : Document :=
  match step.visit with
  | .filled v _ => document.set step.descriptor.region step.descriptor.name v
  | _ => document

def applied? (step : Step) : Option Applied :=
  match step.visit with
  | .filled v evaluations => some ⟨step.descriptor, v, evaluations.map Evaluation.reason⟩
  | _ => none

def error? (step : Step) : Option MergeError :=
  match step.visit with
  | .clash evaluations => some ⟨step.descriptor.name, evaluations.map Evaluation.candidate⟩
  | _ => none

end Step

structure Pass where
  steps : List Step
  document : Document
deriving DecidableEq, Repr

namespace Pass

def applied (pass : Pass) : List Applied := pass.steps.filterMap Step.applied?

def error? (pass : Pass) : Option MergeError := pass.steps.findSome? Step.error?

def run (document : Document) : List (String × Descriptor) → Pass
  | [] => ⟨[], document⟩
  | (key, descriptor) :: rest =>
    let step : Step := ⟨key, descriptor, descriptor.visit document⟩
    if step.error?.isSome then ⟨[step], document⟩
    else
      let pass := run (step.update document) rest
      ⟨step :: pass.steps, pass.document⟩

end Pass

def Table.pass (table : Table) (document : Document) : Pass := Pass.run document table.entries

/-- The document with its defaults filled in. -/
def Table.resolve (table : Table) (document : Document) : Except MergeError Document :=
  let pass := table.pass document
  match pass.error? with
  | some e => .error e
  | none => .ok pass.document

end OptionDefaults
