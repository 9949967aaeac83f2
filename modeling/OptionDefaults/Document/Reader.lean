import OptionDefaults.Document.Basic
import OptionDefaults.Json.Reader

/-!
# Reading documents

A document is read from a value or from a text. In a text the nested object is looked at as soon as
the top object is read, before what may follow it.
-/

namespace OptionDefaults.Document

inductive Error where
  | text (fault : Json.Located Json.ObjectFault)
  | notAnObject (found : Json.Outline)
  | nested (fault : Fault)
deriving DecidableEq, Repr

def Fault.message : Fault → String
  | .nestedNotAnObject found => s!"`{nestedKey}` must be an object, found {found.compact}"

def Error.message : Error → String
  | .text fault => fault.fault.message ++ fault.position.phrase
  | .notAnObject found => Json.Mismatch.message ⟨found, "a map"⟩
  | .nested fault => fault.message

/-- The message for a document that came as a text. -/
def Error.textMessage (e : Error) : String :=
  s!"Invalid JSON: expected an object with an optional `{nestedKey}` object: {e.message}"

def ofJson? : Json → Except Error Document
  | .object members => (ofMembers? (.ofList members)).mapError .nested
  | found => .error (.notAnObject found.outline)

def ofText? (text : String) : Except Error Document :=
  let cs := text.toList
  match Json.Reader.topObject cs with
  | .error stop => .error (.text (stop.locate cs))
  | .ok (members, rest) =>
    match ofMembers? members with
    | .error fault => .error (.nested fault)
    | .ok document =>
      match Json.Reader.finish rest with
      | .error stop => .error (.text ((stop.map .malformed).locate cs))
      | .ok () => .ok document

end OptionDefaults.Document
