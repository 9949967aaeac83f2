import OptionDefaults.Pattern.Support

/-!
# Values of fields in a filter

A filter can ask for events by the value of a field. What stands for the value is a truth value, a
number, or else a pattern, and a pattern has to be one that can be carried out.
-/

namespace OptionDefaults.Log

/-- The names of numbers that have no digits. -/
def numberNames : List String := ["inf", "infinity", "nan"]

def withoutSign : List Char → List Char
  | '+' :: rest => rest
  | '-' :: rest => rest
  | text => text

/-- Whether a text is an exponent with its mark, or nothing. -/
def isExponent : List Char → Bool
  | [] => true
  | c :: rest =>
    let digits := withoutSign rest
    (c == 'e' || c == 'E') && !digits.isEmpty && digits.all Char.isDigit

/-- Whether a text is a number: a name, or digits with at most one point among them and an exponent,
behind a sign or none. -/
def isNumber (text : List Char) : Bool :=
  let text := withoutSign text
  let whole := text.takeWhile Char.isDigit
  let (fraction, rest) := match text.dropWhile Char.isDigit with
    | '.' :: rest => (rest.takeWhile Char.isDigit, rest.dropWhile Char.isDigit)
    | rest => ([], rest)
  String.ofList (text.map Char.toLower) ∈ numberNames ||
    ((!whole.isEmpty || !fraction.isEmpty) && isExponent rest)

/-- What stands for the value of a field: what is behind the first equals sign, up to a second
one. -/
def fieldValue? (field : List Char) : Option (List Char) :=
  match field.dropWhile (· != '=') with
  | [] => none
  | _ :: rest => some (rest.takeWhile (· != '='))

structure BadPattern where
  pattern : List Char
  refusal : Pattern.Refusal
deriving DecidableEq, Repr

/-- Its message, which is told by the filter and by the pattern itself, and the causes. -/
def BadPattern.message (bad : BadPattern) : String :=
  let messages := bad.refusal.messages bad.pattern
  ": ".intercalate ("invalid field filter" :: messages.take 1 ++ messages)

def checkField (field : List Char) : Except BadPattern Unit :=
  match fieldValue? field with
  | none => .ok ()
  | some value =>
    if String.ofList value ∈ ["true", "false"] || isNumber value then .ok ()
    else match Pattern.refusal? value with
      | some refusal => .error ⟨value, refusal⟩
      | none => .ok ()

end OptionDefaults.Log
