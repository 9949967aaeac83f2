import OptionDefaults.Log.Event
import OptionDefaults.Log.FieldValue
import OptionDefaults.Text.Bytes
import OptionDefaults.Text.Classes

/-!
# Log filters

A filter is a list of directives separated by commas, of the form `target[span{field}]=threshold`
in which each part may be missing. A directive gives the threshold of a target and of everything
whose name starts with it; without a target it is about everything, with a field only about events
that have it. Spans are not part of this log, so a directive about a span, or about the value of a
field of one, lets nothing through; the value is checked all the same. Without a threshold
everything is let through.

The longest target decides, then the directive with a field, and of equal ones the later. What no
directive speaks of is off, so a filter without directives lets nothing through.
-/

namespace OptionDefaults.Log

abbrev Threshold := Option Level

namespace Threshold

def admits (threshold : Threshold) (level : Level) : Bool :=
  match threshold with
  | some least => level.rank ≤ least.rank
  | none => false

def ofNat? : Nat → Option Threshold
  | 0 => some none
  | 1 => some (some .error)
  | 2 => some (some .warn)
  | 3 => some (some .info)
  | 4 => some (some .debug)
  | 5 => some (some .trace)
  | _ => none

/-- The number that digits write, after an optional plus sign. -/
def number? (text : List Char) : Option Nat :=
  let digits := match text with
    | '+' :: rest => rest
    | rest => rest
  if digits.isEmpty || !digits.all Char.isDigit then none else some (Nat.ofDigitChars 10 digits 0)

/-- The threshold with a name, in letters of either case. -/
def named? (text : List Char) : Option Threshold :=
  match String.ofList (text.map Char.toLower) with
  | "off" => some none
  | "error" => some (some .error)
  | "warn" => some (some .warn)
  | "info" => some (some .info)
  | "debug" => some (some .debug)
  | "trace" => some (some .trace)
  | _ => none

def ofText? (text : List Char) : Option Threshold :=
  ((number? text).bind ofNat?).or (named? text)

end Threshold

inductive FilterFault where
  | badThreshold
  | badField (bad : BadPattern)
  | badDirective
deriving DecidableEq, Repr

/-- The message; a bad threshold is reported by the directive and by the threshold itself. -/
def FilterFault.message : FilterFault → String
  | .badThreshold =>
    let cause := "error parsing level filter: expected one of \"off\", \"error\", \"warn\", " ++
      "\"info\", \"debug\", \"trace\", or a number 0-5"
    cause ++ ": " ++ cause
  | .badField bad => bad.message
  | .badDirective => "invalid filter directive"

inductive Scope where
  | events
  | eventsWith (field : List Char)
  | spans
deriving DecidableEq, Repr

structure Directive where
  target : Option (List Char)
  scope : Scope
  threshold : Threshold
deriving DecidableEq, Repr

namespace Directive

def isStart (c : Char) : Bool :=
  c == '[' || c == '-' || c == ':' || c == '_' || Text.isAlphanumeric c

def trim (text : List Char) : List Char :=
  ((text.dropWhile Text.isBlank).reverse.dropWhile Text.isBlank).reverse

/-- The characters of a directive, each with the number of bytes before it. -/
abbrev Cells := List (Nat × Char)

/-- The cells from the first of some marks on. -/
def toMark (marks : List Char) (cells : Cells) : Cells :=
  cells.dropWhile fun cell => !marks.contains cell.2

def thresholdPart (text : List Char) : Except FilterFault Threshold :=
  if text.isEmpty then .ok (some .trace)
  else match Threshold.ofText? text with
    | some threshold => .ok threshold
    | none => .error .badThreshold

def fieldScope (span field : List Char) : Except FilterFault Scope :=
  if field.isEmpty then .error .badDirective
  else match checkField field with
    | .error bad => .error (.badField bad)
    | .ok () => .ok (if span.isEmpty ∧ '=' ∉ field then .eventsWith field else .spans)

/-- The scope in brackets, which starts behind `start` bytes of the text, and the cells after it. -/
def scopePart (text : List Char) (start : Nat) (cells : Cells) :
    Except FilterFault (Scope × Cells) := do
  match toMark [']', '\x7b'] cells with
  | (_, ']') :: rest => return (.spans, rest)
  | (brace, _) :: rest =>
    match toMark ['\x7d'] rest with
    | (stop, _) :: rest =>
      let scope ← fieldScope (Text.between start brace text) (Text.between (brace + 1) stop text)
      match rest with
      | (_, ']') :: rest => return (scope, rest)
      | _ => .error .badDirective
    | [] => .error .badDirective
  | [] => .error .badDirective

/-- The directive that a text describes. Blanks around it do not count for where its marks stand:
the marks are found, and their places counted in bytes, in the text without those blanks. But the
blanks are not taken away either: the parts are cut at these places out of the whole text, the
threshold up to its end. -/
def ofText? (text : List Char) : Except FilterFault Directive := do
  let trimmed := trim text
  if !(trimmed.head?.any isStart) then .error .badDirective else
  match toMark ['=', '['] (Text.withOffsets 0 trimmed) with
  | [] =>
    match Threshold.ofText? text with
    | some threshold => return ⟨none, .events, threshold⟩
    | none => return ⟨some text, .events, some .trace⟩
  | (mark, sign) :: rest =>
    let target := if mark = 0 then none else some (Text.between 0 mark text)
    if sign = '=' then
      return ⟨target, .events, ← thresholdPart (Text.dropBytes (mark + 1) text)⟩
    else
      let (scope, rest) ← scopePart text (mark + 1) rest
      match rest with
      | [] => return ⟨target, scope, some .trace⟩
      | (equals, '=') :: _ =>
        return ⟨target, scope, ← thresholdPart (Text.dropBytes (equals + 1) text)⟩
      | _ => .error .badDirective

def covers (d : Directive) (event : Event) : Bool :=
  d.target.all (·.isPrefixOf event.target.toList) &&
    match d.scope with
    | .events => true
    | .eventsWith field =>
      let name := String.ofList field
      name == "message" || event.fields.any (·.1 == name)
    | .spans => false

/-- Greater for longer targets, and then for a field. -/
def precision (d : Directive) : Nat :=
  2 * (d.target.map (·.length + 1)).getD 0 + if d.scope = .events then 0 else 1

/-- The name of the field, by which directives of one precision are told apart. -/
def fieldName (d : Directive) : List Char :=
  match d.scope with
  | .eventsWith field => field
  | _ => []

def comesBefore (s t : List Char) : Bool := s.lex t fun a b => Nat.blt a.toNat b.toNat

/-- Whether the directive decides where an earlier one does not. -/
def outranks (d earlier : Directive) : Bool :=
  earlier.precision < d.precision ||
    (earlier.precision == d.precision && !comesBefore d.fieldName earlier.fieldName)

end Directive

structure Filter where
  directives : List Directive
deriving DecidableEq, Repr

namespace Filter

def ofText? (text : String) : Except FilterFault Filter :=
  match (text.splitOn ",").filter (· ≠ "") with
  | [] => .ok ⟨[]⟩
  | pieces => (pieces.mapM fun piece => Directive.ofText? piece.toList).map Filter.mk

/-- The directive that decides about an event. -/
def decisive? (filter : Filter) (event : Event) : Option Directive :=
  (filter.directives.filter (·.covers event)).foldl (fun best d =>
    match best with
    | some e => if d.outranks e then some d else some e
    | none => some d) none

def admits (filter : Filter) (event : Event) : Bool :=
  (filter.decisive? event).any (·.threshold.admits event.level)

/-- The filter in force: one from outside if there is a valid one, else the configured one. -/
def choose (override : Option String) (configured : String) : Except FilterFault Filter :=
  match override.map ofText? with
  | some (.ok filter) => .ok filter
  | _ => ofText? configured

end Filter

end OptionDefaults.Log
