import OptionDefaults.Json.Reader
import OptionDefaults.Table.Basic

/-!
# Reading tables

A table text is an object of descriptors. Entries are checked one after the other, each for its
shape, its name, the reserved key and an earlier entry for the same option, and the first fault
found is reported; so in every table that is read each option is described once.
-/

namespace OptionDefaults.Table

inductive Fault where
  | descriptor (key : String) (fault : Descriptor.Fault)
  | emptyName (key : String)
  | reservedName (key : String)
  | duplicate (region : Region) (name : String)
deriving DecidableEq, Repr

def Fault.message : Fault → String
  | .descriptor key fault => s!"Invalid descriptor for option `{key}`: {fault.message}"
  | .emptyName key => s!"Descriptor `{key}` has an empty name"
  | .reservedName key =>
    s!"Descriptor `{key}` cannot target the reserved root key `{Document.nestedKey}`"
  | .duplicate region name => s!"Duplicate (region, name): ({region.name}, {name})"

/-- The descriptor of an entry that follows entries for the options `seen`. -/
def entryOfJson? (seen : List (Region × String)) (key : String) (v : Json) :
    Except Fault Descriptor := do
  let d ← (Descriptor.ofJson? v).mapError (.descriptor key)
  if d.name = "" then .error (.emptyName key)
  else if d.region = .root ∧ d.name = Document.nestedKey then .error (.reservedName key)
  else if (d.region, d.name) ∈ seen then .error (.duplicate d.region d.name)
  else .ok d

/-- The entries that follow entries for the options `seen`. -/
def entriesOfJson? (seen : List (Region × String)) :
    List (String × Json) → Except Fault (List (String × Descriptor))
  | [] => .ok []
  | (key, v) :: rest => do
    let d ← entryOfJson? seen key v
    let entries ← entriesOfJson? ((d.region, d.name) :: seen) rest
    return (key, d) :: entries

def ofMembers? (members : OrderedMap Json) : Except Fault Table :=
  (entriesOfJson? [] members.entries).map .ofList

inductive Error where
  | text (fault : Json.Located Json.ObjectFault)
  | entry (fault : Fault)
deriving DecidableEq, Repr

def Error.message : Error → String
  | .text fault =>
    "Invalid JSON: expected an object mapping option keys to descriptors: " ++
      fault.fault.message ++ fault.position.phrase
  | .entry fault => fault.message

/-- The table that a text describes. The text is read to its end before any entry is checked. -/
def ofText? (text : String) : Except Error Table :=
  let cs := text.toList
  let object : Except (Json.Stop Json.ObjectFault) (OrderedMap Json) := do
    let (members, rest) ← Json.Reader.topObject cs
    (Json.Reader.finish rest).mapError (Json.Stop.map .malformed)
    return members
  match object with
  | .error stop => .error (.text (stop.locate cs))
  | .ok members => (ofMembers? members).mapError .entry

end OptionDefaults.Table
