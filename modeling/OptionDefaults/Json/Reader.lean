import OptionDefaults.Json.Fault
import OptionDefaults.Numeric.Decimal
import OptionDefaults.OrderedMap

/-!
# Reading JSON texts

A reader takes the text that is left and gives a value with the text after it, or stops with a
fault and the number of bytes after the place of the fault. That place is just after what was
read, or one byte further when the fault is in the next byte and that byte is looked at but not
read.

Blanks are the space, the tab, the line feed and the carriage return. At most `maxDepth` brackets
may be open at once. Of members with one key the last value counts, at the place of the first.
-/

namespace OptionDefaults.Json

/-- A fault and the number of bytes after the place where it shows. -/
structure Stop (φ : Type) where
  fault : φ
  unread : Nat
deriving DecidableEq, Repr

def Stop.map {φ ψ : Type} (f : φ → ψ) (stop : Stop φ) : Stop ψ := ⟨f stop.fault, stop.unread⟩

/-- A value and the text after it. -/
abbrev Reading (α : Type) := Except (Stop SyntaxFault) (α × List Char)

inductive ObjectFault where
  | malformed (fault : SyntaxFault)
  | notAnObject (found : Outline)
deriving DecidableEq, Repr

namespace Reader

def stopAtEnd {α : Type} (fault : SyntaxFault) : Except (Stop SyntaxFault) α :=
  .error ⟨fault, 0⟩

/-- Stops after `read` more bytes of the text that is left. -/
def stopAfter {α : Type} (read : Nat) (fault : SyntaxFault) (left : List Char) :
    Except (Stop SyntaxFault) α :=
  .error ⟨fault, Text.byteCount left - read⟩

/-- Brackets that may be open at once. -/
def maxDepth : Nat := 127

def isBlank (c : Char) : Bool := c == ' ' || c == '\t' || c == '\n' || c == '\r'

def skipBlanks (text : List Char) : List Char := text.dropWhile isBlank

/-! ## Keywords -/

def keyword (value : Json) : (rest : List Char) → (text : List Char) → Reading Json
  | [], text => .ok (value, text)
  | _ :: _, [] => stopAtEnd .valueAtEnd
  | e :: es, c :: text =>
    if c = e then keyword value es text else stopAfter 1 .misspeltKeyword (c :: text)

/-! ## Numbers -/

def digitValue (c : Char) : Nat := c.toNat - '0'.toNat

/-- The digits that a text starts with, and the text after them. -/
def digits (text : List Char) : List Nat × List Char :=
  ((text.takeWhile Char.isDigit).map digitValue, text.dropWhile Char.isDigit)

/-- Digits accumulate up to the largest unsigned 64-bit word. -/
def significandBound : Nat := Nat.pow 2 64

/-- Exponents accumulate up to the largest signed 32-bit word. -/
def exponentBound : Nat := Nat.pow 2 31

def finishDouble (negative : Bool) (significand : Nat) (exponent : Int) (text : List Char) :
    Reading JsonNumber :=
  match Binary64.ofDecimal negative significand exponent with
  | some x => .ok (.double x, text)
  | none => stopAfter 0 .numberOutOfRange text

/-- Reads what follows `e`. An exponent past its bound gives zero, unless it makes the number too
large, which shows at the digit that passes the bound. -/
def exponentPart (negative : Bool) (significand : Nat) (exponent : Int) (text : List Char) :
    Reading JsonNumber :=
  let (negativeExponent, text) := match text with
    | '-' :: rest => (true, rest)
    | '+' :: rest => (false, rest)
    | rest => (false, rest)
  match digits text with
  | ([], []) => stopAtEnd .valueAtEnd
  | ([], c :: rest) => stopAfter 1 .malformedNumber (c :: rest)
  | (ds, rest) =>
    match Binary64.appendDigits exponentBound 0 ds with
    | (n, []) =>
      let shifted := if negativeExponent then exponent - n else exponent + n
      finishDouble negative significand shifted rest
    | (_, _ :: more) =>
      if significand ≠ 0 ∧ negativeExponent = false then
        .error ⟨.numberOutOfRange, more.length + Text.byteCount rest⟩
      else .ok (.double (.zero negative), rest)

/-- Reads what follows the digits of a number that has a fraction or digits left out. -/
def scalePart (negative : Bool) (significand : Nat) (exponent : Int) (text : List Char) :
    Reading JsonNumber :=
  match text with
  | 'e' :: rest => exponentPart negative significand exponent rest
  | 'E' :: rest => exponentPart negative significand exponent rest
  | rest => finishDouble negative significand exponent rest

/-- Reads what follows the point. Digits left out of a fraction do not change the exponent. -/
def fractionPart (negative : Bool) (significand : Nat) (exponent : Int) (text : List Char) :
    Reading JsonNumber :=
  match digits text with
  | ([], []) => stopAtEnd .valueAtEnd
  | ([], c :: rest) => stopAfter 1 .malformedNumber (c :: rest)
  | (ds, rest) =>
    let (significand, leftOut) := Binary64.appendDigits significandBound significand ds
    scalePart negative significand (exponent - (ds.length - leftOut.length : Nat)) rest

/-- A number without fraction and exponent: an integer if it is in range, and not a negative zero.
-/
def wholeNumber (negative : Bool) (significand : Nat) (text : List Char) : Reading JsonNumber :=
  if negative ∧ significand = 0 then .ok (.double (.zero true), text) else
    match ExactInteger.ofInt? (if negative then -(significand : Int) else significand) with
    | some n => .ok (.integer n, text)
    | none => finishDouble negative significand 0 text

/-- Reads what follows the whole digits. Each digit left out there is a power of ten. -/
def afterWhole (negative : Bool) (ds : List Nat) (text : List Char) : Reading JsonNumber :=
  let (significand, leftOut) := Binary64.appendDigits significandBound 0 ds
  match text with
  | '.' :: rest => fractionPart negative significand leftOut.length rest
  | 'e' :: rest => exponentPart negative significand leftOut.length rest
  | 'E' :: rest => exponentPart negative significand leftOut.length rest
  | rest =>
    if leftOut.isEmpty then wholeNumber negative significand rest
    else finishDouble negative significand leftOut.length rest

/-- Reads an unsigned number; a leading zero stands alone before the point. -/
def magnitude (negative : Bool) (text : List Char) : Reading JsonNumber :=
  match text with
  | [] => stopAtEnd .valueAtEnd
  | '0' :: rest =>
    match rest with
    | c :: _ =>
      if c.isDigit then stopAfter 1 .malformedNumber rest else afterWhole negative [0] rest
    | [] => afterWhole negative [0] rest
  | c :: rest =>
    if c.isDigit then
      let (ds, rest) := digits (c :: rest)
      afterWhole negative ds rest
    else stopAfter 1 .malformedNumber (c :: rest)

def number (text : List Char) : Reading JsonNumber :=
  match text with
  | '-' :: rest => magnitude true rest
  | rest => magnitude false rest

/-! ## Strings -/

def hexValue (c : Char) : Option Nat :=
  if c.isDigit then some (c.toNat - '0'.toNat)
  else if 'a' ≤ c ∧ c ≤ 'f' then some (c.toNat - 'a'.toNat + 10)
  else if 'A' ≤ c ∧ c ≤ 'F' then some (c.toNat - 'A'.toNat + 10)
  else none

/-- The number that four hexadecimal digits write. -/
def fourHex (a b c d : Char) : Option Nat := do
  let a ← hexValue a
  let b ← hexValue b
  let c ← hexValue c
  let d ← hexValue d
  return ((a * 16 + b) * 16 + c) * 16 + d

/-- The character that a letter after a backslash stands for. -/
def shortEscape (c : Char) : Option Char :=
  match c with
  | '"' => some '"'
  | '\\' => some '\\'
  | '/' => some '/'
  | 'b' => some '\x08'
  | 'f' => some '\x0c'
  | 'n' => some '\n'
  | 'r' => some '\r'
  | 't' => some '\t'
  | _ => none

def isLeading (unit : Nat) : Bool := 0xD800 ≤ unit && unit < 0xDC00

def isTrailing (unit : Nat) : Bool := 0xDC00 ≤ unit && unit < 0xE000

def pairedChar (leading trailing : Nat) : Char :=
  Char.ofNat (0x10000 + (leading - 0xD800) * 0x400 + (trailing - 0xDC00))

def consChar (c : Char) : Reading (List Char) → Reading (List Char) :=
  Except.map fun (cs, rest) => (c :: cs, rest)

/-- Stops in an escape by code whose four bytes are no hexadecimal digits, or are not all there. -/
def stopInHex {α : Type} (text : List Char) : Except (Stop SyntaxFault) α :=
  if Text.byteCount text < 4 then stopAtEnd .stringAtEnd else stopAfter 4 .malformedEscape text

/-- Reads a string from after its opening quote to after its closing one. -/
def stringBody : List Char → Reading (List Char)
  | [] => stopAtEnd .stringAtEnd
  | '"' :: rest => .ok ([], rest)
  | '\\' :: [] => stopAtEnd .stringAtEnd
  | '\\' :: 'u' :: a :: b :: c :: d :: rest =>
    match fourHex a b c d with
    | none => stopInHex (a :: b :: c :: d :: rest)
    | some unit =>
      if isTrailing unit then stopAfter 0 .loneSurrogate rest
      else if isLeading unit then
        match rest with
        | [] => stopAtEnd .stringAtEnd
        | '\\' :: [] => stopAtEnd .stringAtEnd
        | '\\' :: 'u' :: e :: f :: g :: h :: rest =>
          match fourHex e f g h with
          | none => stopInHex (e :: f :: g :: h :: rest)
          | some second =>
            if isTrailing second then consChar (pairedChar unit second) (stringBody rest)
            else stopAfter 0 .loneSurrogate rest
        | '\\' :: 'u' :: rest => stopInHex rest
        | '\\' :: rest => stopAfter 1 .unfinishedSurrogatePair rest
        | rest => stopAfter 1 .unfinishedSurrogatePair rest
      else consChar (Char.ofNat unit) (stringBody rest)
  | '\\' :: 'u' :: rest => stopInHex rest
  | '\\' :: c :: rest =>
    match shortEscape c with
    | some d => consChar d (stringBody rest)
    | none => stopAfter 1 .malformedEscape (c :: rest)
  | c :: rest =>
    if c.toNat < 0x20 then stopAfter 1 .controlInString (c :: rest)
    else consChar c (stringBody rest)

def string (text : List Char) : Reading String :=
  (stringBody text).map fun (cs, rest) => (String.ofList cs, rest)

/-! ## Arrays and objects -/

/-- Reads the items of an array and its closing bracket, given a reader of one item. Each item takes
at least one character, so the length of the text bounds their number. -/
def items (item : List Char → Reading Json) : (bound : Nat) → List Char → Reading (List Json)
  | 0, _ => stopAtEnd .arrayAtEnd
  | bound + 1, text =>
    (item text).bind fun (v, rest) =>
      match skipBlanks rest with
      | [] => stopAtEnd .arrayAtEnd
      | ']' :: rest => .ok ([v], rest)
      | ',' :: rest =>
        match skipBlanks rest with
        | ']' :: rest => stopAfter 1 .trailingComma (']' :: rest)
        | rest => (items item bound rest).map fun (vs, rest) => (v :: vs, rest)
      | rest => stopAfter 1 .missingArraySeparator rest

def arrayBody (item : List Char → Reading Json) (text : List Char) : Reading (List Json) :=
  match skipBlanks text with
  | [] => stopAtEnd .arrayAtEnd
  | ']' :: rest => .ok ([], rest)
  | rest => items item rest.length rest

/-- Reads a key after its opening quote, the colon and the value. -/
def member (item : List Char → Reading Json) (text : List Char) : Reading (String × Json) :=
  (string text).bind fun (key, rest) =>
    match skipBlanks rest with
    | [] => stopAtEnd .objectAtEnd
    | ':' :: rest => (item rest).map fun (v, rest) => ((key, v), rest)
    | rest => stopAfter 1 .missingColon rest

/-- Reads the members of an object from after the opening quote of the first key, and the closing
brace. -/
def members (item : List Char → Reading Json) :
    (bound : Nat) → List Char → Reading (List (String × Json))
  | 0, _ => stopAtEnd .objectAtEnd
  | bound + 1, text =>
    (member item text).bind fun (m, rest) =>
      match skipBlanks rest with
      | [] => stopAtEnd .objectAtEnd
      | '\x7d' :: rest => .ok ([m], rest)
      | ',' :: rest =>
        match skipBlanks rest with
        | [] => stopAtEnd .valueAtEnd
        | '"' :: rest => (members item bound rest).map fun (ms, rest) => (m :: ms, rest)
        | '\x7d' :: rest => stopAfter 1 .trailingComma ('\x7d' :: rest)
        | rest => stopAfter 1 .keyNotAString rest
      | rest => stopAfter 1 .missingObjectSeparator rest

def objectBody (item : List Char → Reading Json) (text : List Char) : Reading (OrderedMap Json) :=
  match skipBlanks text with
  | [] => stopAtEnd .objectAtEnd
  | '\x7d' :: rest => .ok (.empty, rest)
  | '"' :: rest => (members item (rest.length + 1) rest).map fun (ms, rest) => (.ofList ms, rest)
  | rest => stopAfter 1 .keyNotAString rest

/-! ## Values -/

/-- Reads a value that opens at most `room` brackets inside each other. -/
def value : (room : Nat) → List Char → Reading Json
  | room, text =>
    match skipBlanks text with
    | [] => stopAtEnd .valueAtEnd
    | 'n' :: rest => keyword .null ['u', 'l', 'l'] rest
    | 't' :: rest => keyword (.bool true) ['r', 'u', 'e'] rest
    | 'f' :: rest => keyword (.bool false) ['a', 'l', 's', 'e'] rest
    | '"' :: rest => (string rest).map fun (s, rest) => (.string s, rest)
    | '[' :: rest =>
      match room with
      | 0 => stopAfter 1 .nestedTooDeeply ('[' :: rest)
      | room + 1 => (arrayBody (value room) rest).map fun (vs, rest) => (.array vs, rest)
    | '\x7b' :: rest =>
      match room with
      | 0 => stopAfter 1 .nestedTooDeeply ('\x7b' :: rest)
      | room + 1 => (objectBody (value room) rest).map fun (m, rest) => (.object m.entries, rest)
    | c :: rest =>
      if c = '-' ∨ c.isDigit then (number (c :: rest)).map fun (n, rest) => (.number n, rest)
      else stopAfter 1 .notAValue (c :: rest)

/-- Only blanks may follow the value. -/
def finish (text : List Char) : Except (Stop SyntaxFault) Unit :=
  match skipBlanks text with
  | [] => .ok ()
  | rest => stopAfter 1 .trailingCharacters rest

/-- Reads an object from the start of a text. A scalar there is read to its end before it is
refused, and of an array nothing is read. -/
def topObject (text : List Char) : Except (Stop ObjectFault) (OrderedMap Json × List Char) :=
  match skipBlanks text with
  | '\x7b' :: rest =>
    (objectBody (value (maxDepth - 1)) rest).mapError (Stop.map .malformed)
  | '[' :: rest => .error ⟨.notAnObject .array, Text.byteCount ('[' :: rest)⟩
  | rest =>
    match value maxDepth rest with
    | .ok (v, rest) => .error ⟨.notAnObject v.outline, Text.byteCount rest⟩
    | .error stop => .error (stop.map .malformed)

end Reader

def ObjectFault.message : ObjectFault → String
  | .malformed fault => fault.message
  | .notAnObject found => Mismatch.message ⟨found, "a map"⟩

structure Located (φ : Type) where
  fault : φ
  position : Text.Position
deriving DecidableEq, Repr

def Stop.locate {φ : Type} (text : List Char) (stop : Stop φ) : Located φ :=
  ⟨stop.fault, .before text stop.unread⟩

def ofText? (text : String) : Except (Located SyntaxFault) Json :=
  let cs := text.toList
  let whole : Except (Stop SyntaxFault) Json :=
    (Reader.value Reader.maxDepth cs).bind fun (v, rest) => (Reader.finish rest).map fun _ => v
  whole.mapError (Stop.locate cs)

end OptionDefaults.Json
