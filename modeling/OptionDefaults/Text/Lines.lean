/-!
# Lines of a text

A line ends at a line feed, and a carriage return directly before that line feed belongs to the line
end. Text after the last line feed is a line of its own, exactly as it stands; an empty text has no
lines.
-/

namespace OptionDefaults.Text

/-- The lines of a text without their ends. -/
def lines : List Char → List (List Char)
  | [] => []
  | '\n' :: rest => [] :: lines rest
  | '\r' :: '\n' :: rest => [] :: lines rest
  | c :: rest =>
    match lines rest with
    | [] => [[c]]
    | line :: more => (c :: line) :: more

def unlines (ls : List (List Char)) : List Char := ls.flatMap (· ++ ['\n'])

/-- A line without a line feed and without a carriage return at its end is read back as it is. -/
theorem lines_append_newline {line rest : List Char} (feed : '\n' ∉ line)
    (carriage : line.getLast? ≠ some '\r') :
    lines (line ++ '\n' :: rest) = line :: lines rest := by
  induction line with
  | nil => simp [lines]
  | cons c cs ih =>
    have hc : c ≠ '\n' := fun h => feed (by simp [h])
    have hcs : '\n' ∉ cs := fun h => feed (by simp [h])
    cases cs with
    | nil =>
      have hr : c ≠ '\r' := fun h => carriage (by simp [h])
      simp [lines, hr]
    | cons d ds =>
      have hd : d ≠ '\n' := fun h => hcs (by simp [h])
      have hlast : (d :: ds).getLast? ≠ some '\r' := by simpa using carriage
      have h := ih hcs hlast
      simp only [List.cons_append] at h ⊢
      rw [lines]
      · rw [h]
      · exact hc
      · intro r _ h'
        exact hd (List.cons.inj h').1

end OptionDefaults.Text
