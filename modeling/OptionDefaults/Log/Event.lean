import OptionDefaults.Resolution.Pass

/-!
# Log events

An event has a level, the name of the part that reports it, a message and named fields. What
loading a table and a resolution pass report is read off the table and off the visits of the pass.
-/

namespace OptionDefaults.Log

inductive Level where
  | error
  | warn
  | info
  | debug
  | trace
deriving DecidableEq, Repr

namespace Level

def name : Level → String
  | .error => "ERROR"
  | .warn => "WARN"
  | .info => "INFO"
  | .debug => "DEBUG"
  | .trace => "TRACE"

/-- Greater for events that matter less. -/
def rank : Level → Nat
  | .error => 1
  | .warn => 2
  | .info => 3
  | .debug => 4
  | .trace => 5

end Level

/-- The value of a field. A key is quoted where a text stands bare. -/
inductive FieldValue where
  | text (value : String)
  | key (value : String)
  | count (value : Nat)
deriving DecidableEq, Repr

structure Event where
  level : Level
  target : String
  message : String
  fields : List (String × FieldValue)
deriving DecidableEq, Repr

def tableTarget : String := "config_defaults::config_descriptor"

def passTarget : String := "config_defaults::config_resolver"

def programTarget : String := "config_defaults"

/-- What loading a table reports: each forward reference and the number of entries. -/
def ofTable (table : Table) : List Event :=
  (Table.forwardReferences table).map (fun reference =>
    ⟨.warn, tableTarget, "condition reads an option defaulted later in the table",
      [("option", .text reference.option), ("depends_on", .text reference.dependsOn)]⟩) ++
  [⟨.debug, tableTarget, "loaded descriptor table", [("descriptors", .count table.size)]⟩]

def ofStep (step : Step) : Event :=
  let option := ("option", FieldValue.text step.descriptor.name)
  match step.visit with
  | .noPolicy => ⟨.trace, passTarget, "no default policy", [("key", .key step.key)]⟩
  | .alreadyDefined => ⟨.trace, passTarget, "already defined", [option]⟩
  | .noDefault _ => ⟨.debug, passTarget, "no applicable default", [option]⟩
  | .filled v _ =>
    ⟨.debug, passTarget, "filled default",
      [option, ("region", .text step.descriptor.region.name), ("value", .text v.compact)]⟩
  | .clash evaluations =>
    let error : MergeError := ⟨step.descriptor.name, evaluations.map Evaluation.candidate⟩
    ⟨.warn, passTarget, "default merge failed", [option, ("error", .text error.message)]⟩

/-- What a pass reports: its visits, and its counts if it reached the end of the table. -/
def ofPass (pass : Pass) : List Event :=
  pass.steps.map ofStep ++
    if pass.error?.isSome then []
    else
      [⟨.debug, passTarget, "resolution pass complete",
        [("filled", .count pass.applied.length), ("descriptors", .count pass.steps.length)]⟩]

end OptionDefaults.Log
