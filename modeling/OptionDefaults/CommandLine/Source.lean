import OptionDefaults.Table.Reader

/-!
# Sources of text

A source gives bytes or a reason why it cannot be read; its text is the bytes read as UTF-8. A
`Folder` is a set of named files and empty folders kept as data, in which paths are looked up the
way a file system does it: part by part, where a dot stays and two dots go back to the folder that
encloses.
-/

namespace OptionDefaults.CommandLine

inductive SourceFault where
  | notFound
  | notAFolder
  | isAFolder
  | nameTooLong
  | zeroInName
  | notUtf8
  | other (reason : String)
deriving DecidableEq, Repr

def SourceFault.message : SourceFault → String
  | .notFound => "No such file or directory (os error 2)"
  | .notAFolder => "Not a directory (os error 20)"
  | .isAFolder => "Is a directory (os error 21)"
  | .nameTooLong => "File name too long (os error 36)"
  | .zeroInName => "file name contained an unexpected NUL byte"
  | .notUtf8 => "stream did not contain valid UTF-8"
  | .other reason => reason

def decode? (bytes : ByteArray) : Except SourceFault String :=
  match String.fromUTF8? bytes with
  | some text => .ok text
  | none => .error .notUtf8

inductive Folder.Item where
  | file (bytes : ByteArray)
  | emptyFolder

structure Folder where
  items : List (String × Folder.Item)

namespace Folder

inductive Place where
  | outside
  | top
  | inside
  | file (bytes : ByteArray)

/-- The longest name of an item and the longest path, in bytes. -/
def maxName : Nat := 255

def maxPath : Nat := 4095

/-- Follows a name. Nothing is known outside the folder. -/
def enter (folder : Folder) (place : Place) (name : String) : Except SourceFault Place :=
  if name.utf8ByteSize > maxName then .error .nameTooLong
  else match place with
    | .top =>
      match folder.items.lookup name with
      | some (.file bytes) => .ok (.file bytes)
      | some .emptyFolder => .ok .inside
      | none => .error .notFound
    | _ => .error .notFound

/-- Follows one part of a path. An empty part, as at a final slash, is like a dot. -/
def step (folder : Folder) (place : Place) (part : String) : Except SourceFault Place :=
  match place with
  | .file _ => .error .notAFolder
  | _ =>
    if part = "" ∨ part = "." then .ok place
    else if part = ".." then
      match place with
      | .inside => .ok .top
      | _ => .ok .outside
    else folder.enter place part

def read (folder : Folder) (path : String) : Except SourceFault ByteArray :=
  let start : Place := if path.toList.head? = some '/' then .outside else .top
  if path.toList.contains '\x00' then .error .zeroInName
  else if path = "" then .error .notFound
  else if path.utf8ByteSize > maxPath then .error .nameTooLong
  else ((path.splitOn "/").foldlM folder.step start).bind fun
    | .file bytes => .ok bytes
    | _ => .error .isAFolder

end Folder

inductive TableFileError where
  | unreadable (path : String) (fault : SourceFault)
  | invalid (path : String) (error : Table.Error)
deriving DecidableEq, Repr

def TableFileError.message : TableFileError → String
  | .unreadable path fault => s!"Failed to read descriptor table {path}: {fault.message}"
  | .invalid path error => s!"Failed to load descriptor table {path}: {error.message}"

def tableOfFile? (read : String → Except SourceFault ByteArray) (path : String) :
    Except TableFileError Table := do
  let text ← ((read path).bind decode?).mapError (.unreadable path)
  (Table.ofText? text).mapError (.invalid path)

end OptionDefaults.CommandLine
