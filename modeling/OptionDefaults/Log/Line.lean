import OptionDefaults.Json.Printer
import OptionDefaults.Log.Event
import OptionDefaults.Text.Quoted

/-!
# Log lines

An event is written as a text for people or as one JSON object. In the text form the controls that a
terminal acts on are escaped in the message, and only there.
-/

namespace OptionDefaults.Log

inductive Format where
  | text
  | json
deriving DecidableEq, Repr

namespace Format

def name : Format → String
  | .text => "text"
  | .json => "json"

/-- The format with a name, if wished in letters of either case. -/
def ofText? (foldCase : Bool) (text : String) : Option Format :=
  let folded := if foldCase then String.ofList (text.toList.map Char.toLower) else text
  [Format.text, Format.json].find? (·.name == folded)

end Format

structure Settings where
  filter : String := "warn"
  format : Format := .text
deriving DecidableEq, Repr

/-- The escape, by code, of a control that terminals act on. -/
def terminalSafe (c : Char) : List Char :=
  let n := c.toNat
  if n = 0x07 ∨ n = 0x08 ∨ n = 0x0C ∨ n = 0x1B ∨ n = 0x7F then
    ['\\', 'x', Nat.digitChar (n / 16), Nat.digitChar (n % 16)]
  else if 0x80 ≤ n ∧ n ≤ 0x9F then Text.braced c
  else [c]

def FieldValue.shown : FieldValue → String
  | .text s => s
  | .key s => Text.quoted s
  | .count n => toString n

def FieldValue.toJson : FieldValue → Json
  | .text s => .string s
  | .key s => .string s
  | .count n => .ofNat n

/-- The name of a level in five columns, at the right. -/
def paddedLevel (level : Level) : String :=
  String.ofList (List.replicate (5 - level.name.length) ' ') ++ level.name

def textLine (event : Event) : String :=
  let message := String.ofList (event.message.toList.flatMap terminalSafe)
  let fields := event.fields.map fun (name, value) => s!" {name}={value.shown}"
  s!"{paddedLevel event.level} {event.target}: {message}{String.join fields}"

def jsonLine (event : Event) : String :=
  let fields := event.fields.map fun (name, value) => (name, value.toJson)
  Json.compact (.object [("level", .string event.level.name),
    ("fields", .object (("message", .string event.message) :: fields)),
    ("target", .string event.target)])

def Format.line : Format → Event → String
  | .text => textLine
  | .json => jsonLine

end OptionDefaults.Log
