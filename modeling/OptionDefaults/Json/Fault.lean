import OptionDefaults.Json.Printer
import OptionDefaults.Text.Position
import OptionDefaults.Text.Quoted

/-!
# What can be wrong with a JSON text

`SyntaxFault` names the ways in which a text is no JSON text, `Mismatch` a value of another kind
than the one that is asked for. Both are causes; their wording is in one function each.
-/

namespace OptionDefaults.Json

inductive SyntaxFault where
  | valueAtEnd
  | arrayAtEnd
  | objectAtEnd
  | stringAtEnd
  | notAValue
  | misspeltKeyword
  | missingColon
  | missingArraySeparator
  | missingObjectSeparator
  | keyNotAString
  | trailingComma
  | trailingCharacters
  | malformedNumber
  | numberOutOfRange
  | controlInString
  | malformedEscape
  | loneSurrogate
  | unfinishedSurrogatePair
  | nestedTooDeeply
deriving DecidableEq, Repr

def SyntaxFault.message : SyntaxFault → String
  | .valueAtEnd => "EOF while parsing a value"
  | .arrayAtEnd => "EOF while parsing a list"
  | .objectAtEnd => "EOF while parsing an object"
  | .stringAtEnd => "EOF while parsing a string"
  | .notAValue => "expected value"
  | .misspeltKeyword => "expected ident"
  | .missingColon => "expected `:`"
  | .missingArraySeparator => "expected `,` or `]`"
  | .missingObjectSeparator => "expected `,` or `\x7d`"
  | .keyNotAString => "key must be a string"
  | .trailingComma => "trailing comma"
  | .trailingCharacters => "trailing characters"
  | .malformedNumber => "invalid number"
  | .numberOutOfRange => "number out of range"
  | .controlInString => "control character (\\u0000-\\u001F) found while parsing a string"
  | .malformedEscape => "invalid escape"
  | .loneSurrogate => "lone leading surrogate in hex escape"
  | .unfinishedSurrogatePair => "unexpected end of hex escape"
  | .nestedTooDeeply => "recursion limit exceeded"

/-- What a message about its kind tells of a value: a scalar itself, and of the rest the kind
only. -/
inductive Outline where
  | null
  | bool (value : Bool)
  | number (value : JsonNumber)
  | string (value : String)
  | array
  | object
deriving DecidableEq, Repr

def outline : Json → Outline
  | .null => .null
  | .bool b => .bool b
  | .number n => .number n
  | .string s => .string s
  | .array _ => .array
  | .object _ => .object

def Outline.phrase : Outline → String
  | .null => "null"
  | .bool b => s!"boolean `{b}`"
  | .number (.integer n) => s!"integer `{String.ofList n.write}`"
  | .number (.double x) => s!"floating point `{String.ofList (decimalLayout.write x)}`"
  | .string s => s!"string {Text.quoted s}"
  | .array => "sequence"
  | .object => "map"

structure Mismatch where
  found : Outline
  expected : String
deriving DecidableEq, Repr

def Mismatch.message (m : Mismatch) : String :=
  s!"invalid type: {m.found.phrase}, expected {m.expected}"

end OptionDefaults.Json
