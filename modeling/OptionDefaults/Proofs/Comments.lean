import OptionDefaults.Annotation.Completed
import OptionDefaults.Document.Reader
import OptionDefaults.Proofs.Passes
import OptionDefaults.Proofs.WrittenLines
import OptionDefaults.Table.Reader

/-!
# Comments taken out again

A comment is put in as a line of its own, and no line of a written document looks like one. So the
written document is what is left without the comment lines, as long as every comment keeps to its
line. The name of an option goes into a comment as it stands, and one with a line feed in it breaks
the comment in two.
-/

namespace OptionDefaults

/-! ## Sentences on one line -/

theorem feed_not_mem_intercalate {sep : String} {parts : List String} (hsep : '\n' ∉ sep.toList)
    (h : ∀ part ∈ parts, '\n' ∉ part.toList) : '\n' ∉ (sep.intercalate parts).toList := by
  induction parts with
  | nil => simp
  | cons part parts ih =>
    have hpart := h part (.head parts)
    have ih := ih fun p hp => h p (.tail part hp)
    cases parts with
    | nil => simpa using hpart
    | cons next parts =>
      rw [String.intercalate_cons_cons]
      simp only [String.toList_append, List.mem_append, not_or]
      exact ⟨⟨hpart, hsep⟩, ih⟩

namespace Json.Layout

@[simp] theorem separation_dense (depth : Nat) : dense.separation depth = [] := rfl

@[simp] theorem colon_dense : dense.colon = [':'] := rfl

mutual

theorem shown_write_dense (depth : Nat) : ∀ v : Json, Shown (dense.write depth v)
  | .null => by simp [write]
  | .bool true => by simp [write]
  | .bool false => by simp [write]
  | .number n => shown_writeNumber n
  | .string s => shown_writeString s
  | .array [] => by simp [write]
  | .object [] => by simp [write]
  | .array (v :: vs) => by
    have hv := shown_write_dense (depth + 1) v
    have hvs := shown_writeItems_dense (depth + 1) vs
    simp [write, hv, hvs]
  | .object ((k, v) :: ms) => by
    have hv := shown_write_dense (depth + 1) v
    have hms := shown_writeMembers_dense (depth + 1) ms
    simp [write, shown_writeString, hv, hms]

theorem shown_writeItems_dense (depth : Nat) :
    ∀ vs : List Json, Shown (dense.writeItems depth vs)
  | [] => by simp [writeItems]
  | v :: vs => by
    have hv := shown_write_dense depth v
    have hvs := shown_writeItems_dense depth vs
    simp [writeItems, hv, hvs]

theorem shown_writeMembers_dense (depth : Nat) :
    ∀ ms : List (String × Json), Shown (dense.writeMembers depth ms)
  | [] => by simp [writeMembers]
  | (k, v) :: ms => by
    have hv := shown_write_dense depth v
    have hms := shown_writeMembers_dense depth ms
    simp [writeMembers, shown_writeString, hv, hms]

end

end Json.Layout

theorem Json.feed_not_mem_compact (v : Json) : '\n' ∉ v.compact.toList := by
  rw [Json.compact, String.toList_ofList]
  exact (Json.Layout.shown_write_dense 0 v).not_mem (by decide)

open Json.Layout (lines margin)

/-- The option that the reason speaks of. -/
def Reason.option? : Reason → Option String
  | .literal => none
  | .defined option | .notDefined option | .matched option _ | .otherwise option _
  | .noValue option => some option

theorem Rule.option?_evaluate (D : Document) (owner : Region) (rule : Rule) :
    (rule.evaluate D owner).reason.option? = (rule.reads owner).map Prod.fst := by
  cases rule with
  | literal v => rfl
  | presence option defined notDefined =>
    simp only [Rule.evaluate, Rule.reads]
    split
    · rfl
    · split <;> rfl
  | multiValue option pairs otherwise =>
    simp only [Rule.evaluate, Rule.reads]
    split <;> rfl

theorem Reason.feed_not_mem_sentence {reason : Reason} {sentence : String}
    (h : reason.sentence? = some sentence) (ho : ∀ o ∈ reason.option?, '\n' ∉ o.toList) :
    '\n' ∉ sentence.toList := by
  cases reason with
  | literal =>
    cases h
    decide
  | noValue option => cases h
  | defined option | notDefined option =>
    have hoption := ho option rfl
    cases h
    simp [toString, hoption]
  | matched option value =>
    have hoption := ho option rfl
    have hvalue := value.feed_not_mem_compact
    cases h
    simp [toString, hoption, hvalue]
  | otherwise option tried =>
    have hoption := ho option rfl
    have htried : '\n' ∉ (String.intercalate ", " (tried.map fun pair => pair.1.compact)).toList := by
      refine feed_not_mem_intercalate (by decide) fun part hpart => ?_
      obtain ⟨pair, -, rfl⟩ := List.mem_map.mp hpart
      exact pair.1.feed_not_mem_compact
    cases h
    simp only [toString, String.toList_append, List.mem_append, not_or]
    exact ⟨⟨⟨⟨by decide, hoption⟩, by decide⟩, htried⟩, by decide⟩

/-- The names of the options that the rules look at have no line feed in them. -/
def Table.NamesOnOneLine (T : Table) : Prop :=
  ∀ d ∈ T.values, ∀ rule ∈ d.rules, ∀ place ∈ rule.reads d.region, '\n' ∉ place.1.toList

theorem Table.NamesOnOneLine.feed_not_mem_text {T : Table} (hT : T.NamesOnOneLine) {D : Document}
    {a : Applied} (ha : a ∈ (T.pass D).applied) {note : Note} (hn : Note.ofApplied? a = some note) :
    '\n' ∉ note.text.toList := by
  obtain ⟨hd, S, -, hreasons⟩ := Pass.exists_evaluate_of_mem_applied ha
  have hsentence : ∀ sentence ∈ a.reasons.filterMap Reason.sentence?, '\n' ∉ sentence.toList := by
    intro sentence hsentence
    obtain ⟨reason, hreason, hsentence⟩ := List.mem_filterMap.mp hsentence
    refine Reason.feed_not_mem_sentence hsentence fun option hoption => ?_
    rw [hreasons] at hreason
    obtain ⟨evaluation, hevaluation, rfl⟩ := List.mem_map.mp hreason
    obtain ⟨rule, hrule, rfl⟩ := List.mem_map.mp hevaluation
    rw [Rule.option?_evaluate] at hoption
    obtain ⟨place, hplace, rfl⟩ := Option.map_eq_some_iff.mp hoption
    exact hT _ hd rule hrule place hplace
  unfold Note.ofApplied? Note.ofReasons? at hn
  split at hn
  next => cases hn
  next =>
    cases hn
    exact feed_not_mem_intercalate (by decide) hsentence

namespace Annotator

theorem recordAll_commenting (notes : List Note) (heard : List Applied) :
    (commenting notes).recordAll heard = .commenting (notes ++ heard.filterMap Note.ofApplied?) := by
  induction heard generalizing notes with
  | nil => simp [recordAll]
  | cons a heard ih =>
    have hrecord : (commenting notes).record a =
        .commenting (notes ++ (Note.ofApplied? a).toList) := rfl
    have ih := ih (notes ++ (Note.ofApplied? a).toList)
    simp only [recordAll] at ih ⊢
    rw [List.foldl_cons, hrecord, ih]
    cases h : Note.ofApplied? a <;> simp [h]

variable {notes : List Note}

theorem exists_note_of_scanLine {inNested next : Bool} {line above : List Char}
    (h : scanLine notes inNested line = (next, some above)) :
    ∃ depth, ∃ note ∈ notes, above = comment depth note := by
  have hfound : ∀ {region text depth}, (noteFor notes region text).map (comment depth) = some above →
      ∃ depth, ∃ note ∈ notes, above = comment depth note := by
    intro region text depth hmap
    obtain ⟨note, hnote, rfl⟩ := Option.map_eq_some_iff.mp hmap
    exact ⟨depth, note, List.mem_of_find?_eq_some hnote, rfl⟩
  unfold scanLine at h
  split at h
  · have habove := (Prod.mk.inj h).2
    split at habove
    · exact hfound habove
    · cases habove
  · have habove := (Prod.mk.inj h).2
    split at habove
    · exact hfound habove
    · cases habove
  · cases h

theorem mem_annotateLines {inNested : Bool} {ls : List (List Char)} {line : List Char}
    (h : line ∈ annotateLines notes inNested ls) :
    line ∈ ls ∨ ∃ depth, ∃ note ∈ notes, line = comment depth note := by
  induction ls generalizing inNested with
  | nil => cases h
  | cons l ls ih =>
    rw [annotateLines] at h
    rcases hscan : scanLine notes inNested l with ⟨next, above?⟩
    rw [hscan] at h
    rcases List.mem_append.mp h with habove | h
    · cases above? with
      | none => cases habove
      | some above =>
        obtain rfl := List.mem_singleton.mp habove
        exact .inr (exists_note_of_scanLine hscan)
    · rcases List.mem_cons.mp h with rfl | h
      · exact .inl (.head ls)
      · exact (ih h).imp_left (.tail l)

theorem annotateLines_ne_nil {inNested : Bool} {ls : List (List Char)} (h : ls ≠ []) :
    annotateLines notes inNested ls ≠ [] := by
  cases ls with
  | nil => exact absurd rfl h
  | cons l ls => simp [annotateLines]

theorem toList_annotate_pretty (v : Json) :
    ((commenting notes).annotate v.pretty).toList =
      Text.ofLines (annotateLines notes false (lines [] 0 [] v)) := by
  have hwritten := Json.Layout.written_lines v
  have hne := @annotateLines_ne_nil notes false _ (Json.Layout.lines_ne_nil [] 0 [] v)
  rw [annotate, String.toList_ofList, annotateText, Json.toList_pretty,
    if_neg (Text.getLast?_ofLines hwritten), Text.lines_ofLines hwritten,
    Text.unlines_eq_ofLines hne, List.dropLast_concat]

theorem indent_eq_margin (depth : Nat) : (List.replicate depth indent).flatten = margin depth := by
  have hindent : indent = List.replicate 2 ' ' := rfl
  rw [hindent, List.flatten_replicate_replicate, Nat.mul_comm, margin]

theorem comment_eq (depth : Nat) (note : Note) :
    comment depth note = margin depth ++ '/' :: '/' :: ' ' :: note.text.toList := by
  simp [comment, indent_eq_margin]

theorem feed_not_mem_comment (depth : Nat) {note : Note} (h : '\n' ∉ note.text.toList) :
    '\n' ∉ comment depth note := by
  have hmargin := (Json.Layout.shown_margin depth).not_mem (c := '\n') (by decide)
  simp [comment_eq, hmargin, h]

/-- Cut at the line feeds, an annotated text falls into lines and comments if no comment does. -/
theorem splitOn_annotate_pretty (hnotes : ∀ note ∈ notes, '\n' ∉ note.text.toList) (v : Json) :
    ((commenting notes).annotate v.pretty).toList.splitOn '\n' =
      annotateLines notes false (lines [] 0 [] v) := by
  have hfeed : ∀ line ∈ annotateLines notes false (lines [] 0 [] v), '\n' ∉ line := by
    intro line hline
    rcases mem_annotateLines hline with hline | ⟨depth, note, hnote, rfl⟩
    · exact (Json.Layout.written_lines v line hline).2.not_mem (by decide)
    · exact feed_not_mem_comment depth (hnotes note hnote)
  rw [toList_annotate_pretty]
  exact List.splitOn_intercalate '\n' hfeed
    (annotateLines_ne_nil (Json.Layout.lines_ne_nil [] 0 [] v))

end Annotator

/-! ## Comment lines -/

/-- The first characters other than blanks are two slashes. -/
def isComment (line : List Char) : Bool :=
  ['/', '/'].isPrefixOf (line.dropWhile (· == ' '))

/-- The text without its comment lines. -/
def withoutComments (text : String) : String :=
  String.ofList (Text.ofLines ((text.toList.splitOn '\n').filter (!isComment ·)))

theorem isComment_margin (depth : Nat) (text : List Char) :
    isComment (margin depth ++ text) = isComment text := by
  have hblank : ∀ c ∈ margin depth, (c == ' ') = true := fun c hc =>
    beq_iff_eq.mpr (Json.Layout.eq_blank_of_mem_margin hc)
  rw [isComment, List.dropWhile_append_of_pos hblank, isComment]

theorem isComment_cons {c : Char} (hblank : c ≠ ' ') (hslash : c ≠ '/') (text : List Char) :
    isComment (c :: text) = false := by
  simp [isComment, List.isPrefixOf, hblank, hslash.symm]

theorem isComment_of_mem_lines {v : Json} {line : List Char}
    (h : line ∈ lines [] 0 [] v) : isComment line = false := by
  obtain ⟨c, rest, more, hlines, hblank, hslash, -, hmore⟩ :=
    Json.Layout.opens_lines [] 0 Json.shown_nil v
  rw [hlines] at h
  rcases List.mem_cons.mp h with rfl | h
  · exact isComment_cons hblank hslash rest
  · obtain ⟨d, c, rest, rfl, hblank, hslash, -⟩ := (hmore line h).start
    rw [isComment_margin, isComment_cons hblank hslash]

namespace Annotator

variable {notes : List Note}

theorem isComment_comment (depth : Nat) (note : Note) : isComment (comment depth note) = true := by
  rw [comment_eq, isComment_margin]
  simp [isComment]

/-- Lines that are not comments are left when the comments are taken out again. -/
theorem filter_annotateLines {inNested : Bool} {ls : List (List Char)}
    (h : ∀ l ∈ ls, isComment l = false) :
    (annotateLines notes inNested ls).filter (!isComment ·) = ls := by
  induction ls generalizing inNested with
  | nil => rfl
  | cons l ls ih =>
    have hl := h l (.head ls)
    have ih := @ih (scanLine notes inNested l).1 fun m hm => h m (.tail l hm)
    rw [annotateLines]
    rcases hscan : scanLine notes inNested l with ⟨next, above?⟩
    rw [hscan] at ih
    have habove : above?.toList.filter (!isComment ·) = [] := by
      cases above? with
      | none => rfl
      | some above =>
        obtain ⟨depth, note, -, rfl⟩ := exists_note_of_scanLine hscan
        simp [isComment_comment]
    simp only [List.filter_append, habove, List.filter_cons, hl, ih]
    rfl

end Annotator

namespace Completed

theorem ofDocument?_eq_ok_iff {T : Table} {D : Document} {annotator : Annotator} {c : Completed} :
    ofDocument? T D annotator = .ok c ↔ (T.pass D).error? = none ∧
      c = ⟨(T.pass D).document, annotator.recordAll (T.pass D).applied⟩ := by
  unfold ofDocument?
  simp only
  split
  next e he => simp [he]
  next he => simp [he, eq_comm]

/-- The plain text is the commented one without its comment lines, unless a rule looks at an option
whose name has a line feed in it. -/
theorem withoutComments_text {T : Table} {D : Document} {c : Completed}
    (h : ofDocument? T D (.commenting []) = .ok c) (hT : T.NamesOnOneLine) :
    withoutComments (c.text true) = c.text false := by
  obtain ⟨-, rfl⟩ := ofDocument?_eq_ok_iff.mp h
  have hnotes : ∀ note ∈ (T.pass D).applied.filterMap Note.ofApplied?, '\n' ∉ note.text.toList := by
    intro note hnote
    obtain ⟨a, ha, hnote⟩ := List.mem_filterMap.mp hnote
    exact hT.feed_not_mem_text ha hnote
  have hlines := Annotator.splitOn_annotate_pretty hnotes (T.pass D).document.toJson
  simp only [text, Annotator.recordAll_commenting, List.nil_append, if_true, Bool.false_eq_true,
    if_false]
  rw [withoutComments, Document.pretty, hlines,
    Annotator.filter_annotateLines fun line hline => isComment_of_mem_lines hline,
    ← Json.toList_pretty, String.ofList_toList]

/-- The text of a table whose one rule asks for an option, and the table. -/
def presenceText (option : String) : String :=
  "\x7b\"x\": \x7b\"name\": \"x\", \"default\": \x7b\"option\": \"" ++ option ++
    "\", \"conditions\": \x7b\"defined\": true, \"notDefined\": false\x7d\x7d\x7d\x7d"

def presenceTable (option : String) : Table :=
  ⟨[("x", ⟨"x", .nested, some (.single (.presence option (.bool true) (some (.bool false))))⟩)],
    List.nodup_cons.mpr ⟨List.not_mem_nil, .nil⟩⟩

theorem ofText?_presenceText : Table.ofText? (presenceText "y") = .ok (presenceTable "y") := by rfl

theorem namesOnOneLine_presenceTable : (presenceTable "y").NamesOnOneLine := by
  unfold Table.NamesOnOneLine
  decide

theorem withoutComments_text_of_plainName :
    ∃ T D c, Table.ofText? (presenceText "y") = .ok T ∧ Document.ofText? "\x7b\x7d" = .ok D ∧
      ofDocument? T D (.commenting []) = .ok c ∧ T.NamesOnOneLine ∧
      c.text true = "\x7b\n  \"compilerOptions\": \x7b\n    // Default because `y` is not defined.\n" ++
        "    \"x\": false\n  \x7d\n\x7d" ∧
      withoutComments (c.text true) = c.text false := by
  have hD : Document.ofText? "\x7b\x7d" = .ok .empty := by rfl
  have hpass : ((presenceTable "y").pass .empty).error? = none := by rfl
  have hc : ofDocument? (presenceTable "y") .empty (.commenting []) = .ok _ :=
    ofDocument?_eq_ok_iff.mpr ⟨hpass, rfl⟩
  have hnames := namesOnOneLine_presenceTable
  exact ⟨_, _, _, ofText?_presenceText, hD, hc, hnames, by rfl, withoutComments_text hc hnames⟩

/-- What stands behind the line feed in the name is left over. -/
theorem withoutComments_text_of_brokenName :
    ∃ T D c, Table.ofText? (presenceText "y\\nz") = .ok T ∧ Document.ofText? "\x7b\x7d" = .ok D ∧
      ofDocument? T D (.commenting []) = .ok c ∧ withoutComments (c.text true) ≠ c.text false := by
  have hT : Table.ofText? (presenceText "y\\nz") = .ok (presenceTable "y\nz") := by rfl
  have hD : Document.ofText? "\x7b\x7d" = .ok .empty := by rfl
  have hpass : ((presenceTable "y\nz").pass .empty).error? = none := by rfl
  refine ⟨_, _, _, hT, hD, ofDocument?_eq_ok_iff.mpr ⟨hpass, rfl⟩, ?_⟩
  intro h
  have hleft := congrArg String.toList h
  revert hleft
  decide +kernel

end Completed

end OptionDefaults
