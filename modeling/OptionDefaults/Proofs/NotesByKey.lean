import OptionDefaults.Proofs.CommentPlaces

/-!
# Notes found by their keys

A note is looked up by comparing texts: the quoted name and a colon with the start of a line. No
escaped key goes on where another one ends, since a quote inside a key is written behind a backslash.
So the text of a member starts like that exactly when the names agree, and the note that is found is
the first one taken for an option of this name in the region.
-/

namespace OptionDefaults

/-! ## Texts of members -/

namespace Json.Layout

/-- The text of a member from the quote before its key on. -/
def memberText (layout : Layout) (depth : Nat) (m : String × Json) : List Char :=
  writeString m.1 ++ layout.colon ++ layout.write depth m.2

theorem writeMembers_cons (layout : Layout) (depth : Nat) (m : String × Json)
    (ms : List (String × Json)) :
    layout.writeMembers depth (m :: ms) =
      ',' :: layout.separation depth ++ layout.memberText depth m ++ layout.writeMembers depth ms := by
  simp [writeMembers, memberText]

theorem memberText_append_writeMembers (layout : Layout) (depth : Nat) (m : String × Json)
    (ms : List (String × Json)) :
    layout.memberText depth m ++ layout.writeMembers depth ms =
      (',' :: layout.separation depth).intercalate ((m :: ms).map (layout.memberText depth)) := by
  induction ms generalizing m with
  | nil => simp [writeMembers]
  | cons n ms ih =>
    rw [writeMembers_cons, List.append_assoc, ih n, List.map_cons, List.map_cons, List.map_cons,
      List.intercalate_cons_cons]
    simp

/-- An object is written as the texts of its members, with a comma and a separation in between. -/
theorem write_object_cons (layout : Layout) (depth : Nat) (m : String × Json)
    (ms : List (String × Json)) :
    layout.write depth (.object (m :: ms)) =
      '\x7b' :: (layout.separation (depth + 1) ++
        (',' :: layout.separation (depth + 1)).intercalate
          ((m :: ms).map (layout.memberText (depth + 1))) ++
        layout.separation depth ++ ['\x7d']) := by
  rw [← memberText_append_writeMembers]
  simp [write, memberText]

theorem memberText_append (depth : Nat) (m : String × Json) (rest : List Char) :
    indented.memberText depth m ++ rest =
      writeString m.1 ++ ':' :: ' ' :: (indented.write depth m.2 ++ rest) := by
  simp [memberText, indented]

def firstLine (text : List Char) : List Char := text.takeWhile (· != '\n')

theorem firstLine_memberText (depth : Nat) (m : String × Json) (rest : List Char) :
    firstLine (indented.memberText depth m ++ rest) =
      writeString m.1 ++ ':' :: ' ' :: firstLine (indented.write depth m.2 ++ rest) := by
  have hkey : ∀ c ∈ writeString m.1, (c != '\n') = true := by
    intro c hc
    have hfeed := (shown_writeString m.1).not_mem (c := '\n') (by decide)
    exact bne_iff_ne.mpr fun heq => hfeed (heq ▸ hc)
  rw [memberText_append, firstLine, List.takeWhile_append_of_pos hkey]
  rfl

end Json.Layout

/-! ## Lookup -/

open Json.Layout (indented firstLine)

/-- The text of a member starts like a note exactly if the note is on an option of this name. -/
theorem Note.start_prefix_memberText_iff {a : Applied} {note : Note} (h : ofApplied? a = some note)
    (depth : Nat) (m : String × Json) (rest : List Char) :
    note.start <+: indented.memberText depth m ++ rest ↔ m.1 = a.descriptor.name := by
  rw [(of_ofApplied?_eq_some h).2, Json.Layout.memberText_append, ← List.isPrefixOf_iff_prefix,
    memberStart_isPrefixOf, decide_eq_true_iff, eq_comm]

namespace Annotator

/-- The note that is found for a member is the first one on an option of its name in the region. -/
theorem noteFor_firstLine_eq_some_iff {heard : List Applied} {region : Region} {depth : Nat}
    {m : String × Json} {rest : List Char} {note : Note} :
    noteFor (heard.filterMap Note.ofApplied?) region
        (firstLine (indented.memberText depth m ++ rest)) = some note ↔
      ∃ before a after, heard = before ++ a :: after ∧
        (a.place = (region, m.1) ∧ Note.ofApplied? a = some note) ∧
        ∀ b ∈ before, b.place = (region, m.1) → Note.ofApplied? b = none := by
  rw [Json.Layout.firstLine_memberText, noteFor_heard, List.findSome?_eq_some_iff]
  simp only [Option.ite_none_right_eq_some, ite_eq_right_iff]

/-- A note attaches to no other option than its own. An object is written as the texts of its members;
such a text starts like the note that is taken on an option exactly if its key is the option's name;
and for the line of a member the first note of the region on an option of this name is found. -/
theorem notes_attach_by_name :
    (∀ (depth : Nat) (m : String × Json) (ms : List (String × Json)),
      indented.write depth (.object (m :: ms)) =
        '\x7b' :: (indented.separation (depth + 1) ++
          (',' :: indented.separation (depth + 1)).intercalate
            ((m :: ms).map (indented.memberText (depth + 1))) ++
          indented.separation depth ++ ['\x7d'])) ∧
    (∀ (notes : List Note) (a : Applied),
      (∃ reason ∈ a.reasons, ∃ sentence, reason.sentence? = some sentence) →
        ∃ note, ((commenting notes).record a).notes = notes ++ [note] ∧
          ∀ (key : String) (v : Json) (depth : Nat) (rest : List Char),
            note.start <+: indented.memberText depth (key, v) ++ rest ↔ key = a.descriptor.name) ∧
    (∀ (heard : List Applied) (region : Region) (key : String) (v : Json) (depth : Nat)
      (rest : List Char) (note : Note),
      noteFor ((commenting []).recordAll heard).notes region
          (firstLine (indented.memberText depth (key, v) ++ rest)) = some note ↔
        ∃ before a after, heard = before ++ a :: after ∧
          (a.place = (region, key) ∧ Note.ofApplied? a = some note) ∧
          ∀ b ∈ before, b.place = (region, key) → Note.ofApplied? b = none) := by
  refine ⟨Json.Layout.write_object_cons indented, ?_, ?_⟩
  · intro notes a hreasons
    obtain ⟨note, hnote⟩ := Note.exists_ofApplied?_iff.mpr hreasons
    have hnotes : ((commenting notes).record a).notes = notes ++ (Note.ofApplied? a).toList := rfl
    rw [hnote] at hnotes
    refine ⟨note, hnotes, ?_⟩
    intro key v depth rest
    exact Note.start_prefix_memberText_iff hnote depth (key, v) rest
  · intro heard region key v depth rest note
    rw [recordAll_commenting]
    exact noteFor_firstLine_eq_some_iff

/-- Options of one name, among them one of the other region and one that has nothing to explain,
behind an option whose name goes on like the line of a member. -/
def lookalikes : List Applied :=
  [⟨⟨"a\": \"b", .nested, none⟩, .null, [.literal]⟩,
    ⟨⟨"a", .root, none⟩, .null, [.literal]⟩,
    ⟨⟨"a", .nested, none⟩, .null, [.noValue "b"]⟩,
    ⟨⟨"a", .nested, none⟩, .null, [.noValue "b", .defined "c"]⟩,
    ⟨⟨"a", .nested, none⟩, .null, [.literal]⟩]

theorem notes_of_lookalikes :
    (∃ a note, lookalikes.head? = some a ∧
      (∃ reason ∈ a.reasons, ∃ sentence, reason.sentence? = some sentence) ∧
      ((commenting []).record a).notes = [note] ∧
      note.start <+: indented.memberText 2 ("a\": \"b", .null) ++ [','] ∧
      ¬note.start <+: indented.memberText 2 ("a", .string "b") ++ [',']) ∧
    firstLine (indented.memberText 2 ("a", .array [.string "b"]) ++ [',']) = "\"a\": [".toList ∧
    noteFor ((commenting []).recordAll lookalikes).notes .nested
        (firstLine (indented.memberText 2 ("a", .array [.string "b"]) ++ [','])) =
      some ⟨.nested, Note.memberStart "a", "Default because `c` is defined."⟩ := by
  obtain ⟨-, hstart, hfound⟩ := notes_attach_by_name
  have hreasons : ∃ reason ∈ [Reason.literal], ∃ sentence, reason.sentence? = some sentence :=
    ⟨.literal, .head _, _, rfl⟩
  obtain ⟨note, hnote, hiff⟩ := hstart [] ⟨⟨"a\": \"b", .nested, none⟩, .null, [.literal]⟩ hreasons
  have hother : ¬note.start <+: indented.memberText 2 ("a", .string "b") ++ [','] := by
    rw [hiff]
    decide
  have hbefore : ∀ b ∈ lookalikes.take 3, b.place = (.nested, "a") → Note.ofApplied? b = none := by
    decide
  refine ⟨⟨_, note, rfl, hreasons, hnote, (hiff _ _ _ _).mpr rfl, hother⟩, by decide, ?_⟩
  exact (hfound _ _ _ _ _ _ _).mpr
    ⟨lookalikes.take 3, _, lookalikes.drop 4, rfl, ⟨rfl, rfl⟩, hbefore⟩

end Annotator

end OptionDefaults
