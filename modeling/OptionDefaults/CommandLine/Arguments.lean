import OptionDefaults.Log.Line

/-!
# Command-line arguments

Arguments are taken from left to right, and the first fault ends the reading. An option is given
at most once. The value of an option stands behind an equals sign, or is the next argument unless
that one looks like an option; a short option may have its value right behind it, and short
options may be strung together. Two dashes end the options. A request for the version or for help
is answered as soon as it is met.
-/

namespace OptionDefaults.CommandLine

structure Arguments where
  config : Option String := none
  descriptors : Option String := none
  annotate : Bool := false
  logLevel : Option String := none
  logFormat : Option Log.Format := none
deriving DecidableEq, Repr

inductive Command where
  | complete (arguments : Arguments)
  | version
  | help
deriving DecidableEq, Repr

/-- An argument or option as messages show it, with the values that it may have, if only some. -/
structure Parameter where
  shown : String
  choices : List String := []
deriving DecidableEq, Repr

namespace Parameter

def config : Parameter := { shown := "[CONFIG]" }

def descriptors : Parameter := { shown := "--descriptors <DESCRIPTORS>" }

def annotate : Parameter := { shown := "--annotate" }

def logLevel : Parameter := { shown := "--log-level <LOG_LEVEL>" }

def logFormat : Parameter where
  shown := "--log-format <LOG_FORMAT>"
  choices := [Log.Format.text, Log.Format.json].map Log.Format.name

def choiceText (p : Parameter) : String :=
  let choices := ", ".intercalate p.choices
  s!"[possible values: {choices}]"

end Parameter

inductive UsageFault where
  | unexpectedArgument (argument : String)
  | repeated (parameter : Parameter)
  | missingValue (parameter : Parameter)
  | unexpectedValue (parameter : Parameter) (value : String)
  | invalidValue (parameter : Parameter) (value : String)
deriving DecidableEq, Repr

namespace UsageFault

def withChoices (p : Parameter) (sentence : String) : String :=
  if p.choices.isEmpty then sentence else s!"{sentence}\n  {p.choiceText}"

def message : UsageFault → String
  | unexpectedArgument argument => s!"unexpected argument '{argument}' found"
  | repeated p => s!"the argument '{p.shown}' cannot be used multiple times"
  | missingValue p =>
    withChoices p s!"a value is required for '{p.shown}' but none was supplied"
  | unexpectedValue p value =>
    s!"unexpected value '{value}' for '{p.shown}' found; no more were expected"
  | invalidValue p value => withChoices p s!"invalid value '{value}' for '{p.shown}'"

end UsageFault

def nonempty (p : Parameter) (value : String) : Except UsageFault String :=
  if value = "" then .error (.missingValue p) else .ok value

def readFormat (value : String) : Except UsageFault Log.Format :=
  (nonempty .logFormat value).bind fun value =>
    match Log.Format.ofText? false value with
    | some format => .ok format
    | none => .error (.invalidValue .logFormat value)

namespace Arguments

/-- Sets a part that is not set yet. That it is set is said before a fault of the new value. -/
def setOnce {α : Type} (p : Parameter) (old : Option α) (value : Except UsageFault α) :
    Except UsageFault (Option α) :=
  if old.isSome then .error (.repeated p) else value.map some

def setConfig (a : Arguments) (path : String) : Except UsageFault Arguments :=
  if a.config.isSome then .error (.unexpectedArgument path)
  else (nonempty .config path).map fun path => { a with config := some path }

def setDescriptors (a : Arguments) (path : String) : Except UsageFault Arguments :=
  (setOnce .descriptors a.descriptors (nonempty .descriptors path)).map fun descriptors =>
    { a with descriptors }

def setLogLevel (a : Arguments) (value : String) : Except UsageFault Arguments :=
  (setOnce .logLevel a.logLevel (.ok value)).map fun logLevel => { a with logLevel }

def setLogFormat (a : Arguments) (value : String) : Except UsageFault Arguments :=
  (setOnce .logFormat a.logFormat (readFormat value)).map fun logFormat => { a with logFormat }

def setAnnotate (a : Arguments) : Except UsageFault Arguments :=
  if a.annotate then .error (.repeated .annotate) else .ok { a with annotate := true }

end Arguments

inductive Effect where
  | command (command : Command)
  | done (arguments : Arguments)
  | needsValue (parameter : Parameter) (use : String → Except UsageFault Arguments)

/-- The effect of a long option, without the dashes and the value. -/
def longOption (a : Arguments) (name : String) : Except UsageFault Effect :=
  match name with
  | "descriptors" => .ok (.needsValue .descriptors a.setDescriptors)
  | "log-level" => .ok (.needsValue .logLevel a.setLogLevel)
  | "log-format" => .ok (.needsValue .logFormat a.setLogFormat)
  | "annotate" => a.setAnnotate.map .done
  | "version" => .ok (.command .version)
  | "help" => .ok (.command .help)
  | _ => .error (.unexpectedArgument s!"--{name}")

/-- The effect of a long option with a value behind the equals sign. -/
def longOptionWith (a : Arguments) (name value : String) : Except UsageFault Effect :=
  match name with
  | "annotate" | "version" | "help" => .error (.unexpectedValue { shown := s!"--{name}" } value)
  | _ => (longOption a name).bind fun
    | .needsValue _ use => (use value).map .done
    | effect => .ok effect

/-- The effect of the letters behind one dash. -/
def shortOptions (a : Arguments) : List Char → Except UsageFault Effect
  | [] => .ok (.done a)
  | 'a' :: letters => a.setAnnotate.bind fun a => shortOptions a letters
  | 'V' :: _ => .ok (.command .version)
  | 'h' :: _ => .ok (.command .help)
  | ['d'] => .ok (.needsValue .descriptors a.setDescriptors)
  | 'd' :: '=' :: value => (a.setDescriptors (String.ofList value)).map .done
  | 'd' :: value => (a.setDescriptors (String.ofList value)).map .done
  | letter :: _ => .error (.unexpectedArgument (String.ofList ['-', letter]))

/-- Whether an argument is an option and not a value; a lone dash is a value. -/
def isOption (argument : String) : Bool :=
  argument.toList.head? == some '-' && argument != "-"

def optionEffect (a : Arguments) (argument : String) : Except UsageFault Effect :=
  match argument.toList with
  | '-' :: '-' :: rest =>
    let name := String.ofList (rest.takeWhile (· ≠ '='))
    match rest.dropWhile (· ≠ '=') with
    | [] => longOption a name
    | _ :: value => longOptionWith a name (String.ofList value)
  | _ :: letters => shortOptions a letters
  | [] => .ok (.done a)

/-- Arguments that follow two dashes. -/
def paths (a : Arguments) (arguments : List String) : Except UsageFault Command :=
  (arguments.foldlM Arguments.setConfig a).map .complete

/-- The command that arguments give, after those that gave `a`. -/
def parseFrom (a : Arguments) : List String → Except UsageFault Command
  | [] => .ok (.complete a)
  | argument :: rest =>
    if argument = "--" then paths a rest
    else if isOption argument then
      match optionEffect a argument with
      | .error fault => .error fault
      | .ok (.command command) => .ok command
      | .ok (.done a) => parseFrom a rest
      | .ok (.needsValue p use) =>
        match rest with
        | [] => .error (.missingValue p)
        | value :: rest =>
          if isOption value then .error (.missingValue p)
          else match use value with
            | .error fault => .error fault
            | .ok a => parseFrom a rest
    else match a.setConfig argument with
      | .error fault => .error fault
      | .ok a => parseFrom a rest

def parse (arguments : List String) : Except UsageFault Command := parseFrom {} arguments

end OptionDefaults.CommandLine
