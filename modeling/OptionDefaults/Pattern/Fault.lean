import OptionDefaults.Pattern.Basic
import OptionDefaults.Text.Lines

/-!
# What can be wrong with a pattern

A fault has a cause and the stretch of the pattern where it shows; a repeated thing has a second
stretch, where it stood first. The report of a fault shows the pattern with marks under these
stretches. Patterns of several lines are shown with line numbers between two rulers, and a stretch
over several lines is told in words.
-/

namespace OptionDefaults.Pattern

inductive Cause where
  | setUnclosed
  | setEscape
  | rangeOrder
  | rangeBound
  | countUnclosed
  | countMissing
  | countTooLarge
  | nothingToRepeat
  | escapeAtEnd
  | unknownEscape
  | hexDigit
  | hexOutOfRange
  | malformedProperty
  | wordEdgeAtEnd
  | wordEdgeUnclosed
  | backreference
  | lookaround
  | groupUnclosed
  | groupUnopened
  | nameAtEnd
  | emptyName
  | malformedName
  | duplicateName
  | flagAtEnd
  | unknownFlag
  | duplicateFlag
  | repeatedNegation
  | danglingNegation
  | nestedTooDeeply
  | unicodeNotAllowed
  | invalidBytes
  | unknownProperty
  | shorthandUnavailable
  | caseFoldingUnavailable
deriving DecidableEq, Repr

/-- Brackets, groups, repetitions and lists may be nested this deep. -/
def maxDepth : Nat := 250

def Cause.message : Cause → String
  | .setUnclosed => "unclosed character class"
  | .setEscape => "invalid escape sequence found in character class"
  | .rangeOrder => "invalid character class range, the start must be <= the end"
  | .rangeBound => "invalid range boundary, must be a literal"
  | .countUnclosed => "unclosed counted repetition"
  | .countMissing => "repetition quantifier expects a valid decimal"
  | .countTooLarge => "decimal literal invalid"
  | .nothingToRepeat => "repetition operator missing expression"
  | .escapeAtEnd => "incomplete escape sequence, reached end of pattern prematurely"
  | .unknownEscape => "unrecognized escape sequence"
  | .hexDigit => "invalid hexadecimal digit"
  | .hexOutOfRange => "hexadecimal literal is not a Unicode scalar value"
  | .malformedProperty => "invalid Unicode character class"
  | .wordEdgeAtEnd =>
    "found either the beginning of a special word boundary or a bounded repetition on a \\b " ++
      "with an opening brace, but no closing brace"
  | .wordEdgeUnclosed =>
    "special word boundary assertion is either unclosed or contains an invalid character"
  | .backreference => "backreferences are not supported"
  | .lookaround => "look-around, including look-ahead and look-behind, is not supported"
  | .groupUnclosed => "unclosed group"
  | .groupUnopened => "unopened group"
  | .nameAtEnd => "unclosed capture group name"
  | .emptyName => "empty capture group name"
  | .malformedName => "invalid capture group character"
  | .duplicateName => "duplicate capture group name"
  | .flagAtEnd => "expected flag but got end of regex"
  | .unknownFlag => "unrecognized flag"
  | .duplicateFlag => "duplicate flag"
  | .repeatedNegation => "flag negation operator repeated"
  | .danglingNegation => "dangling flag negation operator"
  | .nestedTooDeeply =>
    s!"exceed the maximum number of nested parentheses/brackets ({maxDepth})"
  | .unicodeNotAllowed => "Unicode not allowed here"
  | .invalidBytes => "pattern can match invalid UTF-8"
  | .unknownProperty => "Unicode property not found"
  | .shorthandUnavailable =>
    "Unicode-aware Perl class not found (make sure the unicode-perl feature is enabled)"
  | .caseFoldingUnavailable =>
    "Unicode-aware case insensitivity matching is not available " ++
      "(make sure the unicode-case feature is enabled)"

structure Fault where
  cause : Cause
  span : Span
  first : Option Span
deriving DecidableEq, Repr

namespace Fault

/-- The stretches to be marked, from left to right. -/
def spans (fault : Fault) : List Span :=
  match fault.first with
  | none => [fault.span]
  | some first =>
    if fault.span.startsBefore first then [fault.span, first] else [first, fault.span]

/-- Marks under stretches of one line, `column` characters of which are passed. An empty stretch
has one mark. -/
def marks (column : Nat) : List Span → List Char
  | [] => []
  | span :: rest =>
    let gap := span.start.column - 1 - column
    let width := span.stop.column - span.start.column
    let width := if width = 0 then 1 else width
    List.replicate gap ' ' ++ List.replicate width '^' ++ marks (column + gap + width) rest

/-- A line of the pattern behind its label, and the marks under it. -/
def markedLine (label : List Char) (line : List Char) (spans : List Span) : List (List Char) :=
  if spans.isEmpty then [label ++ line]
  else [label ++ line, List.replicate label.length ' ' ++ marks 0 spans]

def lineLabel (width number : Nat) : List Char :=
  let digits := Nat.toDigits 10 number
  List.replicate (width - digits.length) ' ' ++ digits ++ [':', ' ']

/-- A stretch over several lines in words. -/
def stretchNote (span : Span) : String :=
  s!"on line {span.start.line} (column {span.start.column}) through " ++
    s!"line {span.stop.line} (column {span.stop.column - 1})"

/-- The lines of the pattern with the marks of the fault. Numbers are shown from two lines on, and
behind a last line feed there is one more line, which counts but is not shown. -/
def picture (fault : Fault) (pattern : List Char) : List (List Char) :=
  let lines := Text.lines pattern
  let count := lines.length + if pattern.getLast? = some '\n' then 1 else 0
  let width := (Nat.toDigits 10 count).length
  let marked := fault.spans.filter Span.onOneLine
  lines.zipIdx.flatMap fun (line, i) =>
    markedLine (if count ≤ 1 then List.replicate 4 ' ' else lineLabel width (i + 1)) line
      (marked.filter (·.start.line == i + 1))

/-- The report of the fault, which ends with the message of its cause. -/
def report (fault : Fault) (pattern : List Char) : String :=
  let picture := (fault.picture pattern).map String.ofList
  let ruler := String.ofList (List.replicate 79 '~')
  let notes := (fault.spans.filter (!·.onOneLine)).map stretchNote
  let body := if '\n' ∈ pattern then ruler :: picture ++ ruler :: notes else picture
  "\n".intercalate ("regex parse error:" :: body ++ ["error: " ++ fault.cause.message])

end Fault

abbrev Reading (α : Type) := Except Fault α

def stop {α : Type} (cause : Cause) (span : Span) : Reading α := .error ⟨cause, span, none⟩

/-- Stops with a fault about something that stood at `first` before. -/
def stopRepeated {α : Type} (cause : Cause) (span first : Span) : Reading α :=
  .error ⟨cause, span, some first⟩

end OptionDefaults.Pattern
