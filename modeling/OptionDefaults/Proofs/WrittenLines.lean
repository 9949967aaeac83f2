import OptionDefaults.Proofs.Scalars
import OptionDefaults.Text.Lines

/-!
# The lines of the indented form

The indented form of a value is cut into lines by recursion on the value. The first line goes on with
what stands before the value; of the others, those no deeper than the value itself start with a
closing bracket, and none has a control character in it.
-/

namespace OptionDefaults

namespace Json

/-! ## Characters -/

/-- No control characters. -/
def Shown (cs : List Char) : Prop := ∀ c ∈ cs, 0x20 ≤ c.toNat

@[simp] theorem shown_nil : Shown [] := by simp [Shown]

@[simp] theorem shown_cons {c : Char} {cs : List Char} :
    Shown (c :: cs) ↔ 0x20 ≤ c.toNat ∧ Shown cs := by
  simp [Shown]

@[simp] theorem shown_append {cs ds : List Char} : Shown (cs ++ ds) ↔ Shown cs ∧ Shown ds := by
  simp only [Shown, List.mem_append, or_imp, forall_and]

theorem Shown.not_mem {cs : List Char} (h : Shown cs) {c : Char} (hc : c.toNat < 0x20) :
    c ∉ cs := by
  intro hmem
  have := h c hmem
  omega

theorem shown_escaped (c : Char) : Shown (escaped c) := by
  have hdigit : ∀ n < 16, 0x20 ≤ (Nat.digitChar n).toNat := by decide
  unfold escaped
  split
  iterate 7 simp
  split
  next hc => simp [hdigit (c.toNat / 16) (by omega), hdigit (c.toNat % 16) (by omega)]
  next hc => simpa using hc

theorem shown_writeString (s : String) : Shown (writeString s) := by
  have hbody : Shown (s.toList.flatMap escaped) := by
    intro c hc
    obtain ⟨d, -, hd⟩ := List.mem_flatMap.mp hc
    exact shown_escaped d c hd
  simpa [writeString] using hbody

/-- The characters that numbers are written with. -/
def IsNumeral (c : Char) : Prop := c.isDigit = true ∨ c = '-' ∨ c = '+' ∨ c = '.' ∨ c = 'e'
deriving Decidable

theorem isNumeral_of_mem_toDigits {n : Nat} {c : Char} (h : c ∈ Nat.toDigits 10 n) : IsNumeral c :=
  .inl (Nat.isDigit_of_mem_toDigits (by decide) (by decide) h)

theorem isNumeral_zero : IsNumeral '0' := .inl rfl

theorem isNumeral_of_mem_plain {ds : List Char} (hds : ∀ c ∈ ds, IsNumeral c) {leading : Int}
    {c : Char} (h : c ∈ DecimalLayout.plain ds leading) : IsNumeral c := by
  have hpoint : IsNumeral '.' := by simp [IsNumeral]
  have hzeros : ∀ {n : Nat}, c ∈ List.replicate n '0' → IsNumeral c := by
    intro n hc
    exact List.eq_of_mem_replicate hc ▸ isNumeral_zero
  unfold DecimalLayout.plain at h
  simp only at h
  split at h
  · simp only [List.mem_cons, List.mem_append] at h
    rcases h with rfl | rfl | h | h
    · exact isNumeral_zero
    · exact hpoint
    · exact hzeros h
    · exact hds c h
  · simp only [List.mem_cons, List.mem_append] at h
    rcases h with (h | h) | rfl | h
    · exact hds c (List.mem_of_mem_take h)
    · exact hzeros h
    · exact hpoint
    · split at h
      · exact List.mem_singleton.mp h ▸ isNumeral_zero
      · exact hds c (List.mem_of_mem_drop h)

theorem isNumeral_of_mem_scientific {ds : List Char} (hds : ∀ c ∈ ds, IsNumeral c) {leading : Int}
    {c : Char} (h : c ∈ DecimalLayout.scientific ds leading) : IsNumeral c := by
  unfold DecimalLayout.scientific at h
  simp only [List.mem_append, List.mem_cons] at h
  rcases h with (h | h) | rfl | rfl | h
  · exact hds c (List.mem_of_mem_take h)
  · split at h
    · cases h
    · rcases List.mem_cons.mp h with rfl | h
      · simp [IsNumeral]
      · exact hds c (List.mem_of_mem_drop h)
  · simp [IsNumeral]
  · split <;> simp [IsNumeral]
  · exact isNumeral_of_mem_toDigits h

theorem isNumeral_of_mem_writeDouble {layout : DecimalLayout} {x : Binary64} {c : Char}
    (h : c ∈ layout.write x) : IsNumeral c := by
  have hsign : c ∈ (if x.negative then ['-'] else []) → IsNumeral c := by
    intro hc
    split at hc
    · simp [IsNumeral, List.mem_singleton.mp hc]
    · cases hc
  have htrimmed : ∀ d ∈ DecimalLayout.trimZeros (Nat.toDigits 10 x.shortest.digits),
      IsNumeral d := by
    intro d hd
    have hd := List.dropWhile_sublist (· == '0') |>.mem (List.mem_reverse.mp hd)
    exact isNumeral_of_mem_toDigits (List.mem_reverse.mp hd)
  unfold DecimalLayout.write at h
  simp only at h
  split at h
  · rcases List.mem_append.mp h with h | h
    · exact hsign h
    · simp only [List.mem_cons, List.not_mem_nil, or_false] at h
      rcases h with rfl | rfl | rfl <;> simp [IsNumeral]
  · rcases List.mem_append.mp h with h | h
    · exact hsign h
    · split at h
      · exact isNumeral_of_mem_plain htrimmed h
      · exact isNumeral_of_mem_scientific htrimmed h

theorem isNumeral_of_mem_writeNumber {n : JsonNumber} {c : Char} (h : c ∈ writeNumber n) :
    IsNumeral c := by
  cases n with
  | double x => exact isNumeral_of_mem_writeDouble h
  | integer n =>
    simp only [writeNumber, ExactInteger.write] at h
    split at h
    · rcases List.mem_cons.mp h with rfl | h
      · simp [IsNumeral]
      · exact isNumeral_of_mem_toDigits h
    · exact isNumeral_of_mem_toDigits h

theorem writeNumber_ne_nil (n : JsonNumber) : writeNumber n ≠ [] := by
  cases n with
  | integer n =>
    obtain ⟨c, cs, h, -⟩ := exists_writeInteger_eq_cons n
    simp [writeNumber, h]
  | double x =>
    have hplain : ∀ ds leading, DecimalLayout.plain ds leading ≠ [] := by
      intro ds leading
      unfold DecimalLayout.plain
      split <;> simp
    have hscientific : ∀ ds leading, DecimalLayout.scientific ds leading ≠ [] := by
      simp [DecimalLayout.scientific]
    unfold writeNumber DecimalLayout.write
    simp only
    split
    · simp
    · refine List.append_ne_nil_of_right_ne_nil _ ?_
      split
      · exact hplain _ _
      · exact hscientific _ _

theorem shown_writeNumber (n : JsonNumber) : Shown (writeNumber n) := by
  intro c hc
  rcases isNumeral_of_mem_writeNumber hc with h | rfl | rfl | rfl | rfl
  · have hzero : '0'.toNat = 0x30 := rfl
    have hrange := Char.isDigit_iff_toNat.mp h
    omega
  all_goals decide

/-! ## Lines -/

namespace Layout

def margin (depth : Nat) : List Char := List.replicate (2 * depth) ' '

/-- What stands behind an item before the rest of the items. -/
def comma {α : Type} : List α → List Char
  | [] => []
  | _ :: _ => [',']

@[simp] theorem comma_nil {α : Type} : comma ([] : List α) = [] := rfl

@[simp] theorem comma_cons {α : Type} (x : α) (rest : List α) : comma (x :: rest) = [','] := rfl

/-- The blanks, the key and the colon before the value of a member. -/
def memberHead (depth : Nat) (key : String) : List Char :=
  margin depth ++ writeString key ++ [':', ' ']

mutual

/-- The lines of a value with something before and behind it. -/
def lines (before : List Char) (depth : Nat) (after : List Char) : Json → List (List Char)
  | .array (v :: vs) =>
    (before ++ ['[']) :: (lines (margin (depth + 1)) (depth + 1) (comma vs) v ++
      itemLines (depth + 1) vs ++ [margin depth ++ ']' :: after])
  | .object ((k, v) :: ms) =>
    (before ++ ['\x7b']) :: (lines (memberHead (depth + 1) k) (depth + 1) (comma ms) v ++
      memberLines (depth + 1) ms ++ [margin depth ++ '\x7d' :: after])
  | v => [before ++ indented.write depth v ++ after]

def itemLines (depth : Nat) : List Json → List (List Char)
  | [] => []
  | v :: vs => lines (margin depth) depth (comma vs) v ++ itemLines depth vs

def memberLines (depth : Nat) : List (String × Json) → List (List Char)
  | [] => []
  | (k, v) :: ms =>
    lines (memberHead depth k) depth (comma ms) v ++ memberLines depth ms

end

/-- Every line behind a line feed. -/
def feeds (ls : List (List Char)) : List Char := ls.flatMap ('\n' :: ·)

@[simp] theorem feeds_cons (l : List Char) (ls : List (List Char)) :
    feeds (l :: ls) = '\n' :: (l ++ feeds ls) := by
  simp [feeds]

@[simp] theorem feeds_append (ls ms : List (List Char)) : feeds (ls ++ ms) = feeds ls ++ feeds ms := by
  simp [feeds]

@[simp] theorem feeds_nil : feeds [] = [] := rfl

-- The items after the first bring their own line feeds, but the comma before them ends the line
-- above, so the induction over items speaks of the comma and the lines together.
mutual

theorem feeds_lines (before : List Char) (depth : Nat) (after : List Char) :
    ∀ v : Json, feeds (lines before depth after v) =
      '\n' :: (before ++ (indented.write depth v ++ after))
  | .array (v :: vs) => by
    have hv := feeds_lines (margin (depth + 1)) (depth + 1) (comma vs) v
    have hvs := comma_append_feeds_itemLines (depth + 1) vs
    simp only [lines, feeds_cons, feeds_append, feeds_nil, hv, write, ← hvs]
    simp [indented, margin]
  | .object ((k, v) :: ms) => by
    have hv := feeds_lines (memberHead (depth + 1) k) (depth + 1) (comma ms) v
    have hms := comma_append_feeds_memberLines (depth + 1) ms
    simp only [lines, feeds_cons, feeds_append, feeds_nil, hv, write, ← hms]
    simp [indented, memberHead, margin]
  | .array [] | .object [] | .null | .bool _ | .number _ | .string _ => by
    simp [lines]

theorem comma_append_feeds_itemLines (depth : Nat) :
    ∀ vs : List Json, comma vs ++ feeds (itemLines depth vs) = indented.writeItems depth vs
  | [] => rfl
  | v :: vs => by
    have hv := feeds_lines (margin depth) depth (comma vs) v
    have hvs := comma_append_feeds_itemLines depth vs
    simp only [comma_cons, itemLines, feeds_append, hv, writeItems, ← hvs]
    simp [indented, margin]

theorem comma_append_feeds_memberLines (depth : Nat) :
    ∀ ms : List (String × Json),
      comma ms ++ feeds (memberLines depth ms) = indented.writeMembers depth ms
  | [] => rfl
  | (k, v) :: ms => by
    have hv := feeds_lines (memberHead depth k) depth (comma ms) v
    have hms := comma_append_feeds_memberLines depth ms
    simp only [comma_cons, memberLines, feeds_append, hv, writeMembers, ← hms]
    simp [indented, memberHead, margin]

end

/-! ## How lines start -/

/-- A line of a value at some depth that is not the first one. -/
structure Inner (depth : Nat) (line : List Char) : Prop where
  shown : Shown line
  start : ∃ d c rest, line = margin d ++ c :: rest ∧ c ≠ ' ' ∧ c ≠ '/' ∧
    (depth < d ∨ d = depth ∧ (c = ']' ∨ c = '\x7d'))

theorem Inner.of_deeper {depth : Nat} {line : List Char} (h : Inner (depth + 1) line) :
    Inner depth line := by
  obtain ⟨hshown, d, c, rest, hline, hblank, hslash, hd⟩ := h
  exact ⟨hshown, d, c, rest, hline, hblank, hslash, .inl (by omega)⟩

theorem eq_blank_of_mem_margin {depth : Nat} {c : Char} (h : c ∈ margin depth) : c = ' ' :=
  List.eq_of_mem_replicate h

theorem shown_margin (depth : Nat) : Shown (margin depth) := by
  intro c hc
  rw [eq_blank_of_mem_margin hc]
  decide

theorem shown_comma {α : Type} (rest : List α) : Shown (comma rest) := by
  cases rest <;> simp

theorem inner_closing (depth : Nat) {c : Char} (hc : c = ']' ∨ c = '\x7d') {after : List Char}
    (hafter : Shown after) : Inner depth (margin depth ++ c :: after) where
  shown := by
    rw [shown_append, shown_cons]
    refine ⟨shown_margin depth, ?_, hafter⟩
    rcases hc with rfl | rfl <;> decide
  start := by
    refine ⟨depth, c, after, rfl, ?_, ?_, .inr ⟨rfl, hc⟩⟩
    all_goals rcases hc with rfl | rfl <;> decide

/-- The first line goes on with what stands before the value, and the others are inner ones. -/
def Opens (before : List Char) (depth : Nat) (ls : List (List Char)) : Prop :=
  ∃ c rest more, ls = (before ++ c :: rest) :: more ∧ c ≠ ' ' ∧ c ≠ '/' ∧ Shown (c :: rest) ∧
    ∀ line ∈ more, Inner depth line

theorem Opens.inner {depth : Nat} {ls : List (List Char)}
    (h : Opens (margin (depth + 1)) (depth + 1) ls) : ∀ line ∈ ls, Inner depth line := by
  obtain ⟨c, rest, more, rfl, hblank, hslash, hshown, hmore⟩ := h
  intro line hline
  rcases List.mem_cons.mp hline with rfl | hline
  · refine ⟨?_, depth + 1, c, rest, rfl, hblank, hslash, .inl (by omega)⟩
    exact shown_append.mpr ⟨shown_margin _, hshown⟩
  · exact (hmore line hline).of_deeper

theorem Opens.inner_of_key {depth : Nat} {k : String} {ls : List (List Char)}
    (h : Opens (memberHead (depth + 1) k) (depth + 1) ls) :
    ∀ line ∈ ls, Inner depth line := by
  obtain ⟨c, rest, more, rfl, -, -, hshown, hmore⟩ := h
  have hkey : memberHead (depth + 1) k ++ c :: rest =
      margin (depth + 1) ++ '"' :: (k.toList.flatMap escaped ++ '"' :: ':' :: ' ' :: c :: rest) := by
    simp [memberHead, writeString]
  refine Opens.inner ⟨'"', _, more, congrArg (· :: more) hkey, by decide, by decide, ?_, hmore⟩
  have hk := shown_writeString k
  simp only [writeString, shown_cons, shown_append] at hk hshown ⊢
  simp [hk, hshown]

theorem Opens.single {before after : List Char} {depth : Nat} {c : Char} {rest : List Char}
    (hblank : c ≠ ' ') (hslash : c ≠ '/') (hshown : Shown (c :: rest)) (hafter : Shown after) :
    Opens before depth [before ++ c :: rest ++ after] := by
  refine ⟨c, rest ++ after, [], by simp, hblank, hslash, ?_, by simp⟩
  rw [← List.cons_append, shown_append]
  exact ⟨hshown, hafter⟩

-- What is known of the first line of a value is what stands before it; on its way up into an array
-- or object the line is one of the inner lines there.
mutual

theorem opens_lines (before : List Char) (depth : Nat) {after : List Char} (hafter : Shown after) :
    ∀ v : Json, Opens before depth (lines before depth after v)
  | .array (v :: vs) => by
    refine ⟨'[', [], _, rfl, by decide, by decide, by simp, ?_⟩
    intro line hline
    simp only [List.mem_append, List.mem_singleton] at hline
    rcases hline with (hline | hline) | rfl
    · exact (opens_lines _ _ (shown_comma vs) v).inner line hline
    · exact inner_itemLines depth vs line hline
    · exact inner_closing depth (.inl rfl) hafter
  | .object ((k, v) :: ms) => by
    refine ⟨'\x7b', [], _, rfl, by decide, by decide, by simp, ?_⟩
    intro line hline
    simp only [List.mem_append, List.mem_singleton] at hline
    rcases hline with (hline | hline) | rfl
    · exact (opens_lines _ _ (shown_comma ms) v).inner_of_key line hline
    · exact inner_memberLines depth ms line hline
    · exact inner_closing depth (.inr rfl) hafter
  | .array [] => Opens.single (by decide) (by decide) (by simp) hafter
  | .object [] => Opens.single (by decide) (by decide) (by simp) hafter
  | .null => Opens.single (by decide) (by decide) (by simp) hafter
  | .bool true => Opens.single (by decide) (by decide) (by simp) hafter
  | .bool false => Opens.single (by decide) (by decide) (by simp) hafter
  | .string s => Opens.single (by decide) (by decide) (shown_writeString s) hafter
  | .number n => by
    obtain ⟨c, rest, hn⟩ := List.exists_cons_of_ne_nil (writeNumber_ne_nil n)
    have hnumeral : IsNumeral c := isNumeral_of_mem_writeNumber (n := n) (by simp [hn])
    have hshown := shown_writeNumber n
    rw [hn] at hshown
    change Opens before depth [before ++ writeNumber n ++ after]
    rw [hn]
    refine Opens.single ?_ ?_ hshown hafter
    all_goals
      rintro rfl
      exact absurd hnumeral (by decide)

theorem inner_itemLines (depth : Nat) :
    ∀ vs : List Json, ∀ line ∈ itemLines (depth + 1) vs, Inner depth line
  | [], line, hline => by cases hline
  | v :: vs, line, hline => by
    rcases List.mem_append.mp hline with hline | hline
    · exact (opens_lines _ _ (shown_comma vs) v).inner line hline
    · exact inner_itemLines depth vs line hline

theorem inner_memberLines (depth : Nat) :
    ∀ ms : List (String × Json), ∀ line ∈ memberLines (depth + 1) ms, Inner depth line
  | [], line, hline => by cases hline
  | (k, v) :: ms, line, hline => by
    rcases List.mem_append.mp hline with hline | hline
    · exact (opens_lines _ _ (shown_comma ms) v).inner_of_key line hline
    · exact inner_memberLines depth ms line hline

end

/-- Every line has something on it and no control character. -/
def Written (line : List Char) : Prop := line ≠ [] ∧ Shown line

theorem Inner.written {depth : Nat} {line : List Char} (h : Inner depth line) : Written line := by
  obtain ⟨d, c, rest, rfl, -⟩ := h.start
  exact ⟨List.append_ne_nil_of_right_ne_nil _ (List.cons_ne_nil c rest), h.shown⟩

theorem lines_ne_nil (before : List Char) (depth : Nat) (after : List Char) (v : Json) :
    lines before depth after v ≠ [] := by
  unfold lines
  split <;> exact List.cons_ne_nil _ _

theorem written_lines (v : Json) : ∀ line ∈ lines [] 0 [] v, Written line := by
  obtain ⟨c, rest, more, hlines, -, -, hshown, hmore⟩ := opens_lines [] 0 shown_nil v
  rw [hlines]
  intro line hline
  rcases List.mem_cons.mp hline with rfl | hline
  · exact ⟨List.cons_ne_nil c rest, hshown⟩
  · exact (hmore line hline).written

end Layout

end Json

/-! ## Texts of lines -/

namespace Text

open Json.Layout (Written)

def ofLines (ls : List (List Char)) : List Char := ['\n'].intercalate ls

@[simp] theorem ofLines_singleton (l : List Char) : ofLines [l] = l :=
  List.intercalate_singleton

theorem ofLines_cons_cons (l m : List Char) (ls : List (List Char)) :
    ofLines (l :: m :: ls) = l ++ '\n' :: ofLines (m :: ls) := by
  rw [ofLines, List.intercalate_cons_cons, List.append_assoc]
  rfl

theorem unlines_eq_ofLines {ls : List (List Char)} (h : ls ≠ []) :
    unlines ls = ofLines ls ++ ['\n'] := by
  induction ls with
  | nil => exact absurd rfl h
  | cons l ls ih =>
    cases ls with
    | nil => simp [unlines]
    | cons m ls =>
      have ih := ih (List.cons_ne_nil m ls)
      rw [unlines] at ih ⊢
      rw [List.flatMap_cons, ih, ofLines_cons_cons]
      simp

theorem feeds_eq_ofLines {ls : List (List Char)} (h : ls ≠ []) :
    Json.Layout.feeds ls = '\n' :: ofLines ls := by
  induction ls with
  | nil => exact absurd rfl h
  | cons l ls ih =>
    cases ls with
    | nil => simp
    | cons m ls =>
      rw [Json.Layout.feeds_cons, ih (List.cons_ne_nil m ls), ofLines_cons_cons]

theorem lines_of_written {line : List Char} (h : Written line) : lines line = [line] := by
  obtain ⟨hne, hshown⟩ := h
  induction line with
  | nil => exact absurd rfl hne
  | cons c cs ih =>
    have hfeed : c ≠ '\n' := by
      rintro rfl
      exact hshown.not_mem (by decide) (.head cs)
    cases cs with
    | nil => simp [lines]
    | cons d ds =>
      have hd : d ≠ '\n' := by
        rintro rfl
        exact hshown.not_mem (by decide) (.tail c (.head ds))
      have ih := ih (List.cons_ne_nil d ds) (Json.shown_cons.mp hshown).2
      rw [lines]
      · rw [ih]
      · exact hfeed
      · intro rest _ h
        exact hd (List.cons.inj h).1

theorem lines_ofLines {ls : List (List Char)} (h : ∀ l ∈ ls, Written l) : lines (ofLines ls) = ls := by
  induction ls with
  | nil => rfl
  | cons l ls ih =>
    have hl := h l (.head ls)
    cases ls with
    | nil => rw [ofLines_singleton, lines_of_written hl]
    | cons m ls =>
      have hcarriage : l.getLast? ≠ some '\r' := by
        intro hlast
        exact hl.2.not_mem (by decide) (List.mem_of_getLast? hlast)
      rw [ofLines_cons_cons, lines_append_newline (hl.2.not_mem (by decide)) hcarriage,
        ih fun k hk => h k (.tail l hk)]

theorem getLast?_ofLines {ls : List (List Char)} (h : ∀ l ∈ ls, Written l) :
    (ofLines ls).getLast? ≠ some '\n' := by
  induction ls with
  | nil => exact nofun
  | cons l ls ih =>
    have hl := h l (.head ls)
    cases ls with
    | nil =>
      intro hlast
      rw [ofLines_singleton] at hlast
      exact hl.2.not_mem (by decide) (List.mem_of_getLast? hlast)
    | cons m ls =>
      have hm := h m (.tail l (.head ls))
      have hne : ofLines (m :: ls) ≠ [] := by
        cases ls with
        | nil => simpa using hm.1
        | cons n ls => simp [ofLines_cons_cons]
      have hlast : (l ++ '\n' :: ofLines (m :: ls)).getLast? = (ofLines (m :: ls)).getLast? := by
        rw [List.append_cons, List.getLast?_append, List.getLast?_eq_some_getLast hne]
        rfl
      rw [ofLines_cons_cons, hlast]
      exact ih fun k hk => h k (.tail l hk)

end Text

theorem Json.toList_pretty (v : Json) :
    v.pretty.toList = Text.ofLines (Json.Layout.lines [] 0 [] v) := by
  have hfeeds := Json.Layout.feeds_lines [] 0 [] v
  rw [Text.feeds_eq_ofLines (Json.Layout.lines_ne_nil [] 0 [] v)] at hfeeds
  simpa [Json.pretty] using (List.cons.inj hfeeds).2.symm

/-- Cut at the line feeds, the indented form falls into its lines. -/
theorem Json.splitOn_pretty (v : Json) :
    v.pretty.toList.splitOn '\n' = Json.Layout.lines [] 0 [] v := by
  have hfeed : ∀ line ∈ Json.Layout.lines [] 0 [] v, '\n' ∉ line := fun line hline =>
    (Json.Layout.written_lines v line hline).2.not_mem (by decide)
  rw [Json.toList_pretty]
  exact List.splitOn_intercalate '\n' hfeed (Json.Layout.lines_ne_nil [] 0 [] v)

end OptionDefaults
