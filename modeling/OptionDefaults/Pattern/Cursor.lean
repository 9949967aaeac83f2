import OptionDefaults.Pattern.Basic
import OptionDefaults.Text.Classes

/-!
# Moving through a pattern

A cursor is the text that is left with the place where it starts. In a verbose pattern blanks and
comments, which go from a hash to the end of the line, are passed over between the marks.
-/

namespace OptionDefaults.Pattern

structure Cursor where
  rest : List Char
  place : Place
deriving DecidableEq, Repr

namespace Cursor

def start (text : List Char) : Cursor := ⟨text, ⟨1, 1⟩⟩

def next (s : Cursor) : Cursor :=
  match s.rest with
  | [] => s
  | c :: rest => ⟨rest, s.place.after c⟩

def advance : Nat → Cursor → Cursor
  | 0, s => s
  | n + 1, s => advance n s.next

/-- The empty stretch at the cursor. -/
def here (s : Cursor) : Span := ⟨s.place, s.place⟩

/-- The stretch of the next character. -/
def charSpan (s : Cursor) : Span := ⟨s.place, s.next.place⟩

/-- The cursor behind blanks and comments. -/
def skipFrom (inComment : Bool) : List Char → Place → Cursor
  | [], place => ⟨[], place⟩
  | c :: rest, place =>
    if inComment then skipFrom (c != '\n') rest (place.after c)
    else if Text.isBlank c then skipFrom false rest (place.after c)
    else if c = '#' then skipFrom true rest (place.after c)
    else ⟨c :: rest, place⟩

/-- The cursor at the next character that counts. -/
def skip (verbose : Bool) (s : Cursor) : Cursor :=
  if verbose then skipFrom false s.rest s.place else s

/-- The cursor at the character that counts after the next one. -/
def step (verbose : Bool) (s : Cursor) : Cursor := s.next.skip verbose

/-- The characters that have a property, read step by step, and the cursor behind them. -/
def takeWhile (verbose : Bool) (p : Char → Bool) : Nat → Cursor → List Char × Cursor
  | 0, s => ([], s)
  | n + 1, s =>
    match s.rest with
    | [] => ([], s)
    | c :: _ =>
      if p c then
        let (more, s) := takeWhile verbose p n (s.step verbose)
        (c :: more, s)
      else ([], s)

/-- The longest run of characters with a property. -/
def run (verbose : Bool) (p : Char → Bool) (s : Cursor) : List Char × Cursor :=
  takeWhile verbose p s.rest.length s

/-- The cursor behind a text that stands here. -/
def past? (text : List Char) (s : Cursor) : Option Cursor :=
  if text.isPrefixOf s.rest then some (s.advance text.length) else none

/-- The character after the next one. In a verbose pattern blanks before it do not count, and
neither does the hash of a comment that starts there. -/
def peek (verbose : Bool) (s : Cursor) : Option Char :=
  let after := s.next.rest
  if verbose then
    let text := match after.dropWhile Text.isBlank with
      | '#' :: comment => comment.dropWhile Text.isBlank
      | text => text
    text.head?.or after.head?
  else after.head?

end Cursor

end OptionDefaults.Pattern
