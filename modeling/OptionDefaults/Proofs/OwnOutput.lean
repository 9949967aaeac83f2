import OptionDefaults.CommandLine.Run
import OptionDefaults.Proofs.Comments
import OptionDefaults.Proofs.DocumentText
import OptionDefaults.Proofs.Idempotence

/-!
# Runs on the program's own output

What a run prints is read back as the document that the run was left with. A table without forward
references has nothing more to fill in there, so a second run of the table prints the same text, and
as nothing is reported there is nothing to comment on either.
-/

namespace OptionDefaults

/-! ## Texts without notes -/

namespace Annotator

theorem scanLine_of_no_notes (inNested : Bool) (line : List Char) :
    (scanLine [] inNested line).2 = none := by
  have hnote (region : Region) (text : List Char) : noteFor [] region text = none := rfl
  unfold scanLine
  split <;> simp [hnote]

theorem annotateLines_of_no_notes (inNested : Bool) (lines : List (List Char)) :
    annotateLines [] inNested lines = lines := by
  induction lines generalizing inNested with
  | nil => rfl
  | cons line lines ih =>
    simp only [annotateLines, scanLine_of_no_notes, ih]
    rfl

/-- The annotator takes a written text apart into lines and puts it together again. -/
theorem annotate_pretty_of_no_notes (v : Json) : (commenting []).annotate v.pretty = v.pretty := by
  apply String.toList_inj.mp
  rw [toList_annotate_pretty, annotateLines_of_no_notes, Json.toList_pretty]

end Annotator

/-! ## The built-in table -/

theorem Policy.fits_of_results {policy : Policy} {room : Nat}
    (h : ∀ rule ∈ policy.rules, ∀ v ∈ rule.results, v.Readable room) : policy.Fits (room + 1) := by
  cases policy with
  | single rule => exact fun v hv => (h rule (.head _) v hv).mono (Nat.le_succ _)
  | merged rules => exact ⟨room, rfl, h⟩

/-- A string, a truth value, or an array of strings. -/
def Json.isPlain : Json → Bool
  | .bool _ => true
  | .string _ => true
  | .array vs => vs.all fun
    | .string _ => true
    | _ => false
  | _ => false

theorem Json.readable_of_isPlain {v : Json} (h : v.isPlain = true) : v.Readable 1 := by
  cases v with
  | bool b => exact .bool 1 b
  | string s => exact .string 1 s
  | array vs =>
    refine .array fun w hw => ?_
    have hstring := List.all_eq_true.mp h w hw
    cases w with
    | string s => exact .string 0 s
    | _ => cases hstring
  | _ => cases h

theorem Table.builtin_isPlain :
    ∀ e ∈ builtin.entries, ∀ rule ∈ e.2.rules, ∀ v ∈ rule.results, v.isPlain = true := by
  decide

theorem Table.builtin_fits : builtin.Fits where
  reserved := by decide
  policies := by
    intro e he policy hpolicy
    have hrules : e.2.rules = policy.rules := by rw [Descriptor.rules, hpolicy]
    refine Policy.fits_of_results fun rule hrule v hv => ?_
    have hplain := builtin_isPlain e he rule (hrules ▸ hrule) v hv
    exact (Json.readable_of_isPlain hplain).mono (by decide)

/-! ## Completing again -/

namespace Completed

variable {T : Table} {D : Document}

theorem text_of_no_notes (D : Document) (commented : Bool) :
    (⟨D, .commenting []⟩ : Completed).text commented = D.pretty := by
  cases commented with
  | false => rfl
  | true => exact Annotator.annotate_pretty_of_no_notes D.toJson

/-- What a pass left is completed as it is, and nothing is noted. -/
theorem ofDocument?_again (hT : T.forwardReferences = []) (hD : (T.pass D).error? = none) :
    ofDocument? T (T.pass D).document (.commenting []) =
      .ok ⟨(T.pass D).document, .commenting []⟩ := by
  rw [Table.forwardReferences_eq] at hT
  obtain ⟨happlied, herror⟩ :
      (T.pass (T.pass D).document).applied = [] ∧
        (T.pass (T.pass D).document).error? = (T.pass D).error? := Pass.run_again hT
  have hdocument : (T.pass (T.pass D).document).document = (T.pass D).document :=
    Pass.document_run_of_applied_eq_nil happlied
  refine ofDocument?_eq_ok_iff.mpr ⟨herror.trans hD, ?_⟩
  rw [hdocument, happlied]
  rfl

/-- The text of a completed document is read back as the document, also with a line feed behind it.
-/
theorem ofText?_pretty (hT : T.Fits) (hD : D.WellFormed) {t : String}
    (ht : t = (T.pass D).document.pretty ∨ t = (T.pass D).document.pretty ++ "\n") :
    Document.ofText? t = .ok (T.pass D).document := by
  have hwell := hD.run hT.reserved hT.policies
  rcases ht with rfl | rfl
  · exact hwell.ofText?_write Json.Layout.indented_blank
  · have hfeed : ∀ c ∈ ['\n'], Json.Reader.isBlank c = true := by
      intro c hc
      rw [List.mem_singleton.mp hc]
      rfl
    have hread := hwell.ofText?_write_append Json.Layout.indented_blank hfeed
    rwa [String.ofList_append] at hread

end Completed

/-! ## Runs -/

namespace CommandLine

variable {s s' : Surroundings} {a a' : Arguments} {T : Table} {D : Document} {t : String}

def configText? (s : Surroundings) (a : Arguments) : Except SourceFault String :=
  match a.config with
  | some path => (s.read path).bind decode?
  | none => s.input.bind decode?

/-- No number in the texts that the arguments ask for is a double. -/
structure AsksForIntegers (s : Surroundings) (a : Arguments) : Prop where
  table : ∀ path ∈ a.descriptors, ∀ text, (s.read path).bind decode? = .ok text →
    Json.IntegersOnly text
  config : ∀ text, configText? s a = .ok text → Json.IntegersOnly text

theorem mapError_bind_eq_ok_iff {ε φ ψ α β : Type} {f : ε → ψ} {g : φ → ψ} {x : Except ε α}
    {y : α → Except φ β} {b : β} :
    ((x.mapError f).bind fun a => (y a).mapError g) = .ok b ↔ ∃ a, x = .ok a ∧ y a = .ok b := by
  simp only [bind_eq_ok_iff, mapError_eq_ok_iff]

theorem loadDocument_eq_ok_iff :
    loadDocument s a = .ok D ↔
      ∃ text, configText? s a = .ok text ∧ Document.ofText? text = .ok D := by
  -- Where the text is from makes a difference to failures only.
  obtain ⟨failure, hload⟩ : ∃ failure, loadDocument s a =
      ((configText? s a).mapError failure).bind fun text =>
        (Document.ofText? text).mapError .document := by
    unfold loadDocument configText?
    cases a.config with
    | none => exact ⟨_, rfl⟩
    | some path => exact ⟨_, rfl⟩
  rw [hload, mapError_bind_eq_ok_iff]

theorem loadTable_eq_ok_iff {path : String} (hpath : a.descriptors = some path) :
    loadTable s a = .ok T ↔
      ∃ text, (s.read path).bind decode? = .ok text ∧ Table.ofText? text = .ok T := by
  have hload : loadTable s a = (tableOfFile? s.read path).mapError .table := by
    rw [loadTable, hpath]
  rw [hload, mapError_eq_ok_iff]
  exact mapError_bind_eq_ok_iff

theorem outcome_attempt_eq_ok_iff (hT : loadTable s a = .ok T) :
    (attempt s a).outcome = .ok t ↔
      ∃ D c, loadDocument s a = .ok D ∧ Completed.ofDocument? T D (.commenting []) = .ok c ∧
        c.text a.annotate = t := by
  unfold attempt
  rw [hT]
  constructor
  · intro h
    cases hD : loadDocument s a with
    | error failure =>
      rw [hD] at h
      cases h
    | ok D =>
      rw [hD] at h
      obtain ⟨c, hc, ht⟩ :=
        map_eq_ok_iff.mp (mapError_eq_ok_iff.mp h)
      exact ⟨D, c, rfl, hc, ht⟩
  · rintro ⟨D, c, hD, hc, rfl⟩
    rw [hD]
    change (completeDocument a T D).outcome = .ok (c.text a.annotate)
    rw [completeDocument, hc]
    rfl

theorem fits_of_loadTable (hT : loadTable s a = .ok T) (hi : AsksForIntegers s a) : T.Fits := by
  cases hpath : a.descriptors with
  | none =>
    rw [loadTable, hpath] at hT
    cases hT
    exact Table.builtin_fits
  | some path =>
    obtain ⟨text, htext, hread⟩ := (loadTable_eq_ok_iff hpath).mp hT
    exact Table.fits_of_ofText? hread (hi.table path hpath text htext)

/-- A run over the text that a run of the same table printed prints the same text, whether comments
are asked for or not, and also when the text is ended by a line feed. -/
theorem attempt_on_own_output (hT : loadTable s a = .ok T) (hforward : T.forwardReferences = [])
    (hi : AsksForIntegers s a) (hplain : a.annotate = false) (ht : (attempt s a).outcome = .ok t)
    (hT' : loadTable s' a' = .ok T)
    (hagain : configText? s' a' = .ok t ∨ configText? s' a' = .ok (t ++ "\n")) :
    (attempt s' a').outcome = .ok t := by
  obtain ⟨D, c, hload, hc, htext⟩ := (outcome_attempt_eq_ok_iff hT).mp ht
  obtain ⟨hpass, rfl⟩ := Completed.ofDocument?_eq_ok_iff.mp hc
  obtain ⟨text, hconfig, hread⟩ := loadDocument_eq_ok_iff.mp hload
  rw [hplain] at htext
  obtain rfl : (T.pass D).document.pretty = t := htext
  have hfits := fits_of_loadTable hT hi
  have hD : D.WellFormed := Document.wellFormed_of_ofText? hread (hi.config text hconfig)
  have hload' : loadDocument s' a' = .ok (T.pass D).document := by
    rw [loadDocument_eq_ok_iff]
    rcases hagain with hagain | hagain
    · exact ⟨_, hagain, Completed.ofText?_pretty hfits hD (.inl rfl)⟩
    · exact ⟨_, hagain, Completed.ofText?_pretty hfits hD (.inr rfl)⟩
  exact (outcome_attempt_eq_ok_iff hT').mpr
    ⟨_, _, hload', Completed.ofDocument?_again hforward hpass, Completed.text_of_no_notes _ _⟩

theorem decode?_toUTF8 (text : String) : decode? text.toUTF8 = .ok text := by
  have hread : String.fromUTF8? text.toUTF8 = some text := by
    rw [String.fromUTF8?, String.toUTF8_eq_toByteArray, dif_pos text.isValidUTF8]
    rfl
  rw [decode?, hread]

/-- Surroundings with one text in every file and one on standard input. -/
def Surroundings.ofTexts (file input : String) : Surroundings :=
  ⟨fun _ => .ok file.toUTF8, .ok input.toUTF8, none⟩

variable {file input path : String}

theorem loadTable_ofTexts (ha : a.descriptors = some path) (hT : Table.ofText? file = .ok T) :
    loadTable (.ofTexts file input) a = .ok T :=
  (loadTable_eq_ok_iff ha).mpr ⟨file, decode?_toUTF8 file, hT⟩

theorem configText?_ofTexts (ha : a.config = none) :
    configText? (.ofTexts file input) a = .ok input := by
  rw [configText?, ha]
  exact decode?_toUTF8 input

theorem asksForIntegers_ofTexts (ha : a.config = none) (hfile : Json.IntegersOnly file)
    (hinput : Json.IntegersOnly input) : AsksForIntegers (.ofTexts file input) a where
  table := by
    intro path _ text htext
    cases (decode?_toUTF8 file).symm.trans htext
    exact hfile
  config := by
    intro text htext
    cases (configText?_ofTexts ha).symm.trans htext
    exact hinput

/-- A configuration with a negative number, and what a run with a table for `x` prints for it. -/
def negativeFile : String := "\x7b\"files\": [-1]\x7d"

def negativeFileCompleted : String :=
  "\x7b\n  \"compilerOptions\": \x7b\n    \"x\": false\n  \x7d,\n" ++
    "  \"files\": [\n    -1\n  ]\n\x7d"

theorem integersOnly_presenceText : Json.IntegersOnly (Completed.presenceText "y") := by
  have htop : Json.Reader.topObject (Completed.presenceText "y").toList = .ok
      (⟨[("x", .object [("name", .string "x"), ("default", .object [("option", .string "y"),
        ("conditions", .object [("defined", .bool true), ("notDefined", .bool false)])])])],
        by decide⟩, []) := by rfl
  have hconditions :
      (Json.object [("defined", .bool true), ("notDefined", .bool false)]).Integral :=
    .object (by simpa using ⟨.bool true, .bool false⟩)
  have hdefault : (Json.object [("option", .string "y"), ("conditions",
      .object [("defined", .bool true), ("notDefined", .bool false)])]).Integral :=
    .object (by simpa using ⟨.string "y", hconditions⟩)
  refine Json.integersOnly_of_topObject htop ?_
  simpa using Json.Integral.object (by simpa using ⟨.string "x", hdefault⟩)

theorem integersOnly_negativeFile : Json.IntegersOnly negativeFile := by
  have htop : Json.Reader.topObject negativeFile.toList = .ok
      (⟨[("files", .array [.number (.integer ⟨-1, by decide⟩)])], by decide⟩, []) := by rfl
  refine Json.integersOnly_of_topObject htop ?_
  simpa using Json.Integral.array (by simpa using .integer _)

theorem negativeFileCompleted_again :
    let table := Completed.presenceTable "y"
    let a : Arguments := { descriptors := some "table.json" }
    let s := Surroundings.ofTexts (Completed.presenceText "y") negativeFile
    let a' : Arguments := { a with annotate := true }
    let s' := Surroundings.ofTexts (Completed.presenceText "y") (negativeFileCompleted ++ "\n")
    loadTable s a = .ok table ∧ table.forwardReferences = [] ∧ AsksForIntegers s a ∧
      (attempt s a).outcome = .ok negativeFileCompleted ∧ loadTable s' a' = .ok table ∧
      configText? s' a' = .ok (negativeFileCompleted ++ "\n") ∧
      (attempt s' a').outcome = .ok negativeFileCompleted := by
  intro table a s a' s'
  have hT : loadTable s a = .ok table := loadTable_ofTexts rfl Completed.ofText?_presenceText
  have hforward : table.forwardReferences = [] := by decide
  have hi : AsksForIntegers s a :=
    asksForIntegers_ofTexts rfl integersOnly_presenceText integersOnly_negativeFile
  have hread : Document.ofText? negativeFile =
      .ok ⟨⟨[("files", .array [.number (.integer ⟨-1, by decide⟩)])], by decide⟩, ∅, 0⟩ := by rfl
  have hload : loadDocument s a = .ok _ :=
    loadDocument_eq_ok_iff.mpr ⟨_, configText?_ofTexts rfl, hread⟩
  have ht : (attempt s a).outcome = .ok negativeFileCompleted :=
    (outcome_attempt_eq_ok_iff hT).mpr
      ⟨_, _, hload, Completed.ofDocument?_eq_ok_iff.mpr ⟨by rfl, rfl⟩, by rfl⟩
  have hT' : loadTable s' a' = .ok table := loadTable_ofTexts rfl Completed.ofText?_presenceText
  have hagain : configText? s' a' = .ok (negativeFileCompleted ++ "\n") := configText?_ofTexts rfl
  exact ⟨hT, hforward, hi, ht, hT', hagain,
    attempt_on_own_output hT hforward hi rfl ht hT' (.inr hagain)⟩

end CommandLine

end OptionDefaults
