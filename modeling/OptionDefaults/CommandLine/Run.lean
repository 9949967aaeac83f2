import OptionDefaults.Annotation.Completed
import OptionDefaults.CommandLine.Arguments
import OptionDefaults.CommandLine.Source
import OptionDefaults.Document.Reader
import OptionDefaults.Log.Filter
import OptionDefaults.Table.Builtin

/-!
# Runs of the program

A run takes its arguments and what surrounds it (files, standard input, a log filter from outside)
to an exit code and two texts, so that only the reading of files and the printing are left to do
outside. The table is read before the configuration, and the first fault ends the run.
-/

namespace OptionDefaults.CommandLine

structure Surroundings where
  read : String → Except SourceFault ByteArray
  input : Except SourceFault ByteArray
  logFilter : Option String

structure Report where
  exitCode : Nat
  output : String
  log : String
deriving DecidableEq, Repr

inductive Failure where
  | table (error : TableFileError)
  | config (path : String) (fault : SourceFault)
  | input (fault : SourceFault)
  | document (error : Document.Error)
  | merge (error : MergeError)
deriving DecidableEq, Repr

def Failure.message : Failure → String
  | .table error => error.message
  | .config path fault => s!"Failed to read configuration {path}: {fault.message}"
  | .input fault => s!"Failed to read configuration from stdin: {fault.message}"
  | .document error => error.textMessage
  | .merge error => s!"Failed to resolve defaults: {error.message}"

structure Attempt (α : Type) where
  events : List Log.Event
  outcome : Except Failure α

def loadTable (s : Surroundings) (a : Arguments) : Except Failure Table :=
  match a.descriptors with
  | some path => (tableOfFile? s.read path).mapError .table
  | none => .ok Table.builtin

def loadDocument (s : Surroundings) (a : Arguments) : Except Failure Document := do
  let text ← match a.config with
    | some path => ((s.read path).bind decode?).mapError (.config path)
    | none => (s.input.bind decode?).mapError .input
  (Document.ofText? text).mapError .document

def completeDocument (a : Arguments) (table : Table) (document : Document) : Attempt String :=
  let pass := table.pass document
  ⟨Log.ofPass pass,
    ((Completed.ofDocument? table document (.commenting [])).map
      (Completed.text · a.annotate)).mapError .merge⟩

/-- The work of a run: its log and the text that it prints. -/
def attempt (s : Surroundings) (a : Arguments) : Attempt String :=
  match loadTable s a with
  | .error failure => ⟨[], .error failure⟩
  | .ok table =>
    match loadDocument s a with
    | .error failure => ⟨Log.ofTable table, .error failure⟩
    | .ok document =>
      let completion := completeDocument a table document
      ⟨Log.ofTable table ++ completion.events, completion.outcome⟩

def closingEvent : Except Failure String → Log.Event
  | .ok _ => ⟨.info, Log.programTarget, "Configuration completed", []⟩
  | .error failure => ⟨.error, Log.programTarget, s!"Command failed: {failure.message}", []⟩

/-- The lines for the events that the filter lets through. -/
def logLines (filter : Log.Filter) (format : Log.Format) (events : List Log.Event) : String :=
  String.join ((events.filter filter.admits).map fun event => format.line event ++ "\n")

def Attempt.report (attempt : Attempt String) (filter : Log.Filter) (format : Log.Format) :
    Report :=
  let log := logLines filter format (attempt.events ++ [closingEvent attempt.outcome])
  match attempt.outcome with
  | .ok text => ⟨0, text ++ "\n", log⟩
  | .error failure => ⟨1, "", log ++ s!"Error: {failure.message}\n"⟩

def versionText : String := "config-defaults 0.1.0\n"

def helpText : String :=
  let settings : Log.Settings := {}
  "Fill unset compiler options from a descriptor table\n\n" ++
  "Usage: config-defaults [OPTIONS] [CONFIG]\n\n" ++
  "Arguments:\n" ++
  "  [CONFIG]  Configuration document to complete (reads stdin when omitted)\n\n" ++
  "Options:\n" ++
  "  -d, --descriptors <DESCRIPTORS>  Descriptor table as JSON " ++
  "(uses the built-in TypeScript table when omitted)\n" ++
  "  -a, --annotate                   Add a comment above each filled option " ++
  "explaining its default\n" ++
  "      --log-level <LOG_LEVEL>      Log filter, overridden by CONFIG_DEFAULTS_LOG " ++
  s!"[default: {settings.filter}]\n" ++
  s!"      --log-format <LOG_FORMAT>    [default: {settings.format.name}] " ++
  s!"{Parameter.logFormat.choiceText}\n" ++
  "  -h, --help                       Print help\n" ++
  "  -V, --version                    Print version\n"

def Command.run (s : Surroundings) : Command → Report
  | .version => ⟨0, versionText, ""⟩
  | .help => ⟨0, helpText, ""⟩
  | .complete a =>
    let settings : Log.Settings := {}
    match Log.Filter.choose s.logFilter (a.logLevel.getD settings.filter) with
    | .error fault => ⟨1, "", s!"Failed to initialize logging: {fault.message}\n"⟩
    | .ok filter => (attempt s a).report filter (a.logFormat.getD settings.format)

def run (s : Surroundings) (arguments : List String) : Except UsageFault Report :=
  (parse arguments).map (Command.run s)

end OptionDefaults.CommandLine
