import OptionDefaults.Proofs.Additions
import OptionDefaults.Proofs.Comments
import OptionDefaults.Proofs.FilledValues

/-!
# Where comments stand

The scanner knows of the structure of a written document only what the indentation and one flag tell
it. That is enough: it finds exactly the lines on which the members of the two regions start, and puts
the first note on a member above its line. So after a pass exactly the options that it filled carry a
comment.
-/

namespace OptionDefaults

open Json (writeString)
open Json.Layout (lines margin comma memberHead memberLines Opens Inner)

/-! ## Lines with their members -/

/-- A line of a written document, and the member of a region that starts on it. -/
structure MarkedLine where
  text : List Char
  member? : Option (Region × String)
deriving DecidableEq, Repr

namespace MarkedLine

/-- The first line of a member is marked. -/
def ofMember (region : Region) (key : String) : List (List Char) → List MarkedLine
  | [] => []
  | line :: more => ⟨line, some (region, key)⟩ :: more.map fun line => ⟨line, none⟩

/-- The line behind what there is to say about its member, as a comment of the same indentation. -/
def commented (saying : Region × String → Option String) (line : MarkedLine) : List (List Char) :=
  let said := line.member?.bind saying
  let above := said.map fun words => line.text.takeWhile (· == ' ') ++ ['/', '/', ' '] ++ words.toList
  above.toList ++ [line.text]

@[simp] theorem map_text_ofMember (region : Region) (key : String) (ls : List (List Char)) :
    (ofMember region key ls).map text = ls := by
  cases ls <;> simp [ofMember, Function.comp_def]

end MarkedLine

open MarkedLine (ofMember)

/-- The lines of members of a region, the last of which stands before `after`. -/
def regionLines (region : Region) (depth : Nat) (after : List Char) :
    List (String × Json) → List MarkedLine
  | [] => []
  | (key, v) :: ms =>
    let behind := if ms.isEmpty then after else [',']
    ofMember region key (lines (memberHead depth key) depth behind v) ++
      regionLines region depth after ms

namespace Document

def nestedLines (options : List (String × Json)) (after : List Char) : List MarkedLine :=
  let opening := memberHead 1 nestedKey ++ ['\x7b']
  let place : Option (Region × String) := some (.root, nestedKey)
  match options with
  | [] => [⟨opening ++ '\x7d' :: after, place⟩]
  | options => ⟨opening, place⟩ :: (regionLines .nested 2 [] options ++
      [⟨margin 1 ++ '\x7d' :: after, none⟩])

/-- The lines of a written document, marked where a member of one of the regions starts. -/
def markedLines (D : Document) : List MarkedLine :=
  let before := D.root.entries.take D.nestedAt
  let after := D.root.entries.drop D.nestedAt
  ⟨['\x7b'], none⟩ :: (regionLines .root 1 [','] before ++
    nestedLines D.nested.entries (comma after) ++ regionLines .root 1 [] after ++
      [⟨['\x7d'], none⟩])

end Document

theorem map_text_regionLines (region : Region) (depth : Nat) (ms : List (String × Json)) :
    (regionLines region depth [] ms).map MarkedLine.text = memberLines depth ms := by
  induction ms with
  | nil => rfl
  | cons m ms ih =>
    have hcomma : (if ms.isEmpty then [] else [',']) = comma ms := by cases ms <;> rfl
    simp only [regionLines, List.map_append, MarkedLine.map_text_ofMember, ih, hcomma]
    rfl

theorem memberLines_append_cons (region : Region) (depth : Nat) (ms : List (String × Json))
    (n : String × Json) (ns : List (String × Json)) :
    memberLines depth (ms ++ n :: ns) =
      (regionLines region depth [','] ms).map MarkedLine.text ++ memberLines depth (n :: ns) := by
  induction ms with
  | nil => rfl
  | cons m ms ih =>
    have hcomma : comma (ms ++ n :: ns) = [','] := by cases ms <;> rfl
    rw [List.cons_append, memberLines, ih, hcomma]
    simp only [regionLines, List.map_append, MarkedLine.map_text_ofMember, ite_self,
      List.append_assoc]

theorem Document.map_text_nestedLines (options : List (String × Json)) (after : List Char) :
    (nestedLines options after).map MarkedLine.text =
      lines (memberHead 1 nestedKey) 1 after (.object options) := by
  cases options with
  | nil => simp [nestedLines, lines, Json.Layout.write]
  | cons m ms =>
    have hmembers := map_text_regionLines .nested 2 (m :: ms)
    simp only [nestedLines, List.map_cons, List.map_append, hmembers]
    rfl

theorem Document.map_text_markedLines (D : Document) :
    D.markedLines.map MarkedLine.text = D.pretty.toList.splitOn '\n' := by
  have hmembers := memberLines_append_cons .root 1 (D.root.entries.take D.nestedAt)
    (nestedKey, .object D.nested.entries) (D.root.entries.drop D.nestedAt)
  have hlines : ∀ ms ≠ [], lines [] 0 [] (.object ms) = ['\x7b'] :: (memberLines 1 ms ++ [['\x7d']]) := by
    intro ms hms
    cases ms with
    | nil => exact absurd rfl hms
    | cons m ms => rfl
  rw [pretty, Json.splitOn_pretty, toJson, members, hlines _ (by simp), hmembers]
  simp only [markedLines, List.map_cons, List.map_append, map_text_nestedLines,
    map_text_regionLines, memberLines, List.append_assoc]
  rfl

/-! ## Scanning a line -/

namespace Note

theorem of_ofApplied?_eq_some {a : Applied} {note : Note} (h : ofApplied? a = some note) :
    note.region = a.descriptor.region ∧ note.start = memberStart a.descriptor.name := by
  unfold ofApplied? ofReasons? at h
  split at h
  · cases h
  · cases h
    exact ⟨rfl, rfl⟩

theorem exists_ofApplied?_iff {a : Applied} :
    (∃ note, ofApplied? a = some note) ↔
      ∃ reason ∈ a.reasons, ∃ sentence, reason.sentence? = some sentence := by
  have hsentences : (∃ reason ∈ a.reasons, ∃ sentence, reason.sentence? = some sentence) ↔
      a.reasons.filterMap Reason.sentence? ≠ [] := by
    simp [List.filterMap_eq_nil_iff, ← Option.ne_none_iff_exists']
  rw [hsentences]
  unfold ofApplied? ofReasons?
  split
  next hnone => simp [hnone]
  next hsome => exact iff_of_true ⟨_, rfl⟩ hsome

theorem memberStart_isPrefixOf {name key : String} {rest : List Char} :
    (memberStart name).isPrefixOf (writeString key ++ ':' :: rest) = decide (name = key) := by
  rw [Bool.eq_iff_iff, List.isPrefixOf_iff_prefix, decide_eq_true_iff]
  constructor
  · rintro ⟨more, h⟩
    rw [memberStart, List.append_assoc] at h
    exact (Json.writeString_append_inj.mp h).1
  · rintro rfl
    exact ⟨rest, by simp [memberStart]⟩

end Note

namespace Annotator

/-- What the first note on a member says. -/
def firstSaying (heard : List Applied) (place : Region × String) : Option String :=
  heard.findSome? fun a =>
    if a.place = place then (Note.ofApplied? a).map Note.text else none

variable {notes : List Note} {inNested : Bool}

/-- The scanner finds the first note on a member by how its line starts. -/
theorem noteFor_heard (heard : List Applied) (region : Region) (key : String) (rest : List Char) :
    noteFor (heard.filterMap Note.ofApplied?) region (writeString key ++ ':' :: rest) =
      heard.findSome? fun a => if a.place = (region, key) then Note.ofApplied? a else none := by
  induction heard with
  | nil => rfl
  | cons a heard ih =>
    rw [List.findSome?_cons]
    cases hnote : Note.ofApplied? a with
    | none =>
      rw [List.filterMap_cons_none hnote, ih]
      simp
    | some note =>
      obtain ⟨hregion, hstart⟩ := Note.of_ofApplied?_eq_some hnote
      have hfound : (note.region = region && note.start.isPrefixOf (writeString key ++ ':' :: rest)) =
          decide (a.place = (region, key)) := by
        have hplace : a.place = (region, key) ↔
            a.descriptor.region = region ∧ a.descriptor.name = key := Prod.mk.injEq .. ▸ Iff.rfl
        rw [hregion, hstart, Note.memberStart_isPrefixOf, ← Bool.decide_and]
        exact decide_eq_decide.mpr hplace.symm
      rw [List.filterMap_cons_some hnote, noteFor, List.find?_cons, hfound]
      by_cases hplace : a.place = (region, key)
      · simp [hplace]
      · simp only [hplace, decide_false, if_false]
        exact ih

theorem map_text_noteFor (heard : List Applied) (region : Region) (key : String)
    (rest : List Char) :
    (noteFor (heard.filterMap Note.ofApplied?) region (writeString key ++ ':' :: rest)).map
      Note.text = firstSaying heard (region, key) := by
  rw [noteFor_heard, List.map_findSome?, firstSaying]
  congr 1
  funext a
  rw [Function.comp_apply, apply_ite (Option.map Note.text), Option.map_none]

theorem isPrefixOf?_cons_of_ne {a c : Char} (h : c ≠ a) (as text : List Char) :
    (a :: as).isPrefixOf? (c :: text) = none :=
  if_neg (by simpa using h.symm)

theorem scanLine_outer {c : Char} (hc : c ≠ ' ') (text : List Char) :
    scanLine notes inNested (c :: text) = (inNested, none) := by
  have hnested : (indent ++ indent).isPrefixOf? (c :: text) = none :=
    isPrefixOf?_cons_of_ne hc _ text
  have hroot : indent.isPrefixOf? (c :: text) = none := isPrefixOf?_cons_of_ne hc _ text
  simp only [scanLine, hnested, hroot]

theorem scanLine_shallow {c : Char} (hc : c ≠ ' ') (text : List Char) :
    scanLine notes inNested (margin 1 ++ c :: text) =
      (if nestedOpening.isPrefixOf (c :: text) then staysOpen (c :: text)
        else if c = '\x7d' then false else inNested,
        (if c = '"' then noteFor notes .root (c :: text) else none).map (comment 1)) := by
  have hnested : (indent ++ indent).isPrefixOf? (margin 1 ++ c :: text) = none :=
    isPrefixOf?_cons_of_ne hc _ text
  have hroot : indent.isPrefixOf? (margin 1 ++ c :: text) = some (c :: text) := rfl
  simp [scanLine, hnested, hroot]

theorem scanLine_deep (text : List Char) :
    scanLine notes inNested (margin 2 ++ text) =
      (inNested, (if inNested && text.head? == some '"' then noteFor notes .nested text
        else none).map (comment 2)) := by
  have hnested : (indent ++ indent).isPrefixOf? (margin 2 ++ text) = some text := rfl
  simp [scanLine, hnested]

theorem margin_add (d e : Nat) : margin (d + e) = margin d ++ margin e := by
  rw [margin, margin, margin, Nat.mul_add, List.replicate_append_replicate]

theorem scanLine_of_inner_root {line : List Char} (h : Inner 1 line) :
    scanLine notes false line = (false, none) := by
  obtain ⟨d, c, rest, rfl, hblank, -, hd⟩ := h.start
  rcases hd with hd | ⟨rfl, hc⟩
  · obtain ⟨e, rfl⟩ : ∃ e, d = 2 + e := ⟨d - 2, by omega⟩
    rw [margin_add, List.append_assoc, scanLine_deep]
    rfl
  · have hopening : nestedOpening.isPrefixOf (c :: rest) = false := by
      rcases hc with rfl | rfl <;> rfl
    have hquote : c ≠ '"' := by
      rcases hc with rfl | rfl <;> decide
    rw [scanLine_shallow hblank, hopening]
    simp [hquote]

theorem scanLine_of_inner_nested {line : List Char} (h : Inner 2 line) :
    scanLine notes true line = (true, none) := by
  obtain ⟨d, c, rest, rfl, hblank, -, hd⟩ := h.start
  have hquote : ∃ text, margin d ++ c :: rest = margin 2 ++ text ∧ text.head? ≠ some '"' := by
    rcases hd with hd | ⟨rfl, hc⟩
    · obtain ⟨e, rfl⟩ : ∃ e, d = 2 + 1 + e := ⟨d - 3, by omega⟩
      rw [margin_add, margin_add, List.append_assoc, List.append_assoc]
      exact ⟨_, rfl, by simp [margin]⟩
    · refine ⟨_, rfl, ?_⟩
      rcases hc with rfl | rfl <;> simp
  obtain ⟨text, htext, hquote⟩ := hquote
  rw [htext, scanLine_deep]
  simp [hquote]

theorem memberHead_append (depth : Nat) (key : String) (rest : List Char) :
    memberHead depth key ++ rest = margin depth ++ (writeString key ++ ':' :: ' ' :: rest) := by
  simp [memberHead]

theorem scanLine_nested (key : String) (rest : List Char) :
    scanLine notes true (memberHead 2 key ++ rest) =
      (true, (noteFor notes .nested (writeString key ++ ':' :: ' ' :: rest)).map (comment 2)) := by
  rw [memberHead_append, scanLine_deep]
  simp [Json.writeString]

theorem nestedOpening_isPrefixOf {key : String} {c : Char} {rest : List Char} :
    nestedOpening.isPrefixOf (writeString key ++ ':' :: ' ' :: c :: rest) =
      decide (key = Document.nestedKey ∧ c = '\x7b') := by
  rw [Bool.eq_iff_iff, List.isPrefixOf_iff_prefix, decide_eq_true_iff]
  constructor
  · rintro ⟨more, h⟩
    simp only [nestedOpening, Note.memberStart, List.append_assoc] at h
    obtain ⟨hkey, hrest⟩ := Json.writeString_append_inj.mp h
    simp only [List.cons_append, List.nil_append, List.cons.injEq] at hrest
    exact ⟨hkey.symm, hrest.2.2.1.symm⟩
  · rintro ⟨rfl, rfl⟩
    exact ⟨rest, by simp [nestedOpening, Note.memberStart]⟩

theorem scanLine_root (key : String) (c : Char) (rest : List Char) :
    scanLine notes false (memberHead 1 key ++ c :: rest) =
      (if key = Document.nestedKey ∧ c = '\x7b' then
        staysOpen (writeString key ++ ':' :: ' ' :: c :: rest) else false,
        (noteFor notes .root (writeString key ++ ':' :: ' ' :: c :: rest)).map (comment 1)) := by
  have hopening := @nestedOpening_isPrefixOf key c rest
  rw [Json.writeString_append] at hopening
  rw [memberHead_append, Json.writeString_append, scanLine_shallow (by decide), hopening]
  simp

/-! ## Scanning a document -/

/-- Scanning these lines puts above them what there is to say of their members, and leads from one
state of the flag to the other. -/
def Scans (heard : List Applied) (inNested : Bool) (ls : List MarkedLine) (after : Bool) : Prop :=
  ∀ rest, annotateLines (heard.filterMap Note.ofApplied?) inNested
      (ls.map MarkedLine.text ++ rest) =
    ls.flatMap (MarkedLine.commented (firstSaying heard)) ++
      annotateLines (heard.filterMap Note.ofApplied?) after rest

variable {heard : List Applied} {before between after : Bool}

theorem Scans.nil : Scans heard before [] before := fun _ => rfl

theorem Scans.append {ls more : List MarkedLine} (h : Scans heard before ls between)
    (hmore : Scans heard between more after) : Scans heard before (ls ++ more) after := by
  intro rest
  rw [List.map_append, List.append_assoc, h, hmore, List.flatMap_append, List.append_assoc]

theorem Scans.cons {line : MarkedLine} {ls : List MarkedLine} (h : Scans heard before [line] between)
    (hls : Scans heard between ls after) : Scans heard before (line :: ls) after :=
  h.append hls

theorem scans_quiet {line : List Char}
    (h : scanLine (heard.filterMap Note.ofApplied?) before line = (after, none)) :
    Scans heard before [⟨line, none⟩] after := by
  intro rest
  simp [annotateLines, h, MarkedLine.commented]

theorem scans_member {region : Region} {depth : Nat} {key : String} {rest : List Char}
    (h : scanLine (heard.filterMap Note.ofApplied?) before (memberHead depth key ++ rest) =
      (after, (noteFor (heard.filterMap Note.ofApplied?) region
        (writeString key ++ ':' :: ' ' :: rest)).map (comment depth))) :
    Scans heard before [⟨memberHead depth key ++ rest, some (region, key)⟩] after := by
  have hblank : ∀ c ∈ margin depth, (c == ' ') = true := fun c hc =>
    beq_iff_eq.mpr (Json.Layout.eq_blank_of_mem_margin hc)
  have hindentation : (memberHead depth key ++ rest).takeWhile (· == ' ') = margin depth := by
    rw [memberHead_append, Json.writeString_append, List.takeWhile_append_of_pos hblank]
    simp
  have hsaid := map_text_noteFor heard region key (' ' :: rest)
  intro more
  simp only [List.map_cons, List.map_nil, List.cons_append, List.nil_append, annotateLines, h,
    List.flatMap_cons, List.flatMap_nil, List.append_nil, MarkedLine.commented, hindentation,
    Option.bind_some, ← hsaid, Option.map_map, List.append_assoc]
  congr 3
  funext note
  simp [comment_eq]

theorem scans_inner {ls : List (List Char)}
    (h : ∀ line ∈ ls, scanLine (heard.filterMap Note.ofApplied?) before line = (before, none)) :
    Scans heard before (ls.map fun line => ⟨line, none⟩) before := by
  induction ls with
  | nil => exact .nil
  | cons line ls ih =>
    exact .cons (scans_quiet (h line (.head ls))) (ih fun l hl => h l (.tail line hl))

theorem scans_nestedMember (key : String) (v : Json) {behind : List Char}
    (hbehind : Json.Shown behind) :
    Scans heard true (ofMember .nested key (lines (memberHead 2 key) 2 behind v)) true := by
  obtain ⟨c, rest, more, hlines, -, -, -, hmore⟩ :=
    Json.Layout.opens_lines (memberHead 2 key) 2 hbehind v
  rw [hlines]
  exact .cons (scans_member (scanLine_nested key (c :: rest)))
    (scans_inner fun line hline => scanLine_of_inner_nested (hmore line hline))

theorem scans_rootMember {key : String} (hkey : key ≠ Document.nestedKey) (v : Json)
    {behind : List Char} (hbehind : Json.Shown behind) :
    Scans heard false (ofMember .root key (lines (memberHead 1 key) 1 behind v)) false := by
  obtain ⟨c, rest, more, hlines, -, -, -, hmore⟩ :=
    Json.Layout.opens_lines (memberHead 1 key) 1 hbehind v
  have hline := @scanLine_root (heard.filterMap Note.ofApplied?) key c rest
  rw [if_neg fun h => hkey h.1] at hline
  rw [hlines]
  exact .cons (scans_member hline)
    (scans_inner fun line hline => scanLine_of_inner_root (hmore line hline))

theorem scans_regionLines {region : Region} {depth : Nat} {inside : Bool} {behind : List Char}
    {ms : List (String × Json)} (hbehind : Json.Shown behind)
    (h : ∀ m ∈ ms, ∀ next, Json.Shown next →
      Scans heard inside (ofMember region m.1 (lines (memberHead depth m.1) depth next m.2)) inside) :
    Scans heard inside (regionLines region depth behind ms) inside := by
  induction ms with
  | nil => exact .nil
  | cons m ms ih =>
    have hnext : Json.Shown (if ms.isEmpty then behind else [',']) := by
      split
      · exact hbehind
      · simp
    exact (h m (.head ms) _ hnext).append (ih fun n hn => h n (.tail m hn))

theorem staysOpen_of_opened (text : List Char) :
    staysOpen (text ++ [':', ' ', '\x7b']) = true := by
  simp [staysOpen]

theorem staysOpen_of_closed {α : Type} (text : List Char) (rest : List α) :
    staysOpen (text ++ ':' :: ' ' :: '\x7b' :: '\x7d' :: comma rest) = false := by
  cases rest <;> simp [staysOpen]

theorem scans_nestedLines {α : Type} (options : List (String × Json)) (rest : List α) :
    Scans heard false (Document.nestedLines options (comma rest)) false := by
  have hopening := @scanLine_root (heard.filterMap Note.ofApplied?) Document.nestedKey '\x7b'
  simp only [true_and, if_true] at hopening
  cases options with
  | nil =>
    have hline := hopening ('\x7d' :: comma rest)
    rw [staysOpen_of_closed] at hline
    simpa [Document.nestedLines] using scans_member hline
  | cons m ms =>
    have hline := hopening []
    rw [staysOpen_of_opened] at hline
    have hmembers : Scans heard true (regionLines .nested 2 [] (m :: ms)) true :=
      scans_regionLines Json.shown_nil fun n _ next hnext => scans_nestedMember n.1 n.2 hnext
    have hclosing : Scans heard true [⟨margin 1 ++ '\x7d' :: comma rest, none⟩] false := by
      refine scans_quiet ?_
      rw [scanLine_shallow (by decide)]
      simp [nestedOpening, Note.memberStart, Json.writeString]
    exact .cons (scans_member hline) (hmembers.append hclosing)

/-- The scanner passes through a whole document and ends outside. -/
theorem scans_markedLines {D : Document} (h : Document.nestedKey ∉ D.root.keys) :
    Scans heard false D.markedLines false := by
  have hroot : ∀ m ∈ D.root.entries, ∀ next, Json.Shown next →
      Scans heard false (ofMember .root m.1 (lines (memberHead 1 m.1) 1 next m.2)) false := by
    intro m hm next hnext
    refine scans_rootMember ?_ m.2 hnext
    rintro hkey
    exact h (hkey ▸ List.mem_map_of_mem hm)
  have hfirst : Scans heard false (regionLines .root 1 [','] (D.root.entries.take D.nestedAt)) false :=
    scans_regionLines (by simp) fun m hm => hroot m (List.mem_of_mem_take hm)
  have hlast : Scans heard false (regionLines .root 1 [] (D.root.entries.drop D.nestedAt)) false :=
    scans_regionLines Json.shown_nil fun m hm => hroot m (List.mem_of_mem_drop hm)
  have hbracket : ∀ c ≠ ' ', Scans heard false [⟨[c], none⟩] false := fun c hc =>
    scans_quiet (scanLine_outer hc [])
  have hnested := @scans_nestedLines heard _ D.nested.entries (D.root.entries.drop D.nestedAt)
  exact .cons (hbracket _ (by decide))
    (((hfirst.append hnested).append hlast).append (hbracket _ (by decide)))

end Annotator

/-! ## Marked members -/

theorem member?_ofMember (region : Region) (key : String) {ls : List (List Char)} (h : ls ≠ []) :
    (ofMember region key ls).filterMap MarkedLine.member? = [(region, key)] := by
  cases ls with
  | nil => exact absurd rfl h
  | cons line more =>
    have hmore : (more.map fun line => MarkedLine.mk line none).filterMap MarkedLine.member? = [] :=
      List.filterMap_eq_nil_iff.mpr (by simp)
    rw [ofMember, List.filterMap_cons, hmore]

theorem member?_regionLines (region : Region) (depth : Nat) (after : List Char)
    (ms : List (String × Json)) :
    (regionLines region depth after ms).filterMap MarkedLine.member? =
      ms.map fun m => (region, m.1) := by
  induction ms with
  | nil => rfl
  | cons m ms ih =>
    rw [regionLines, List.filterMap_append, ih,
      member?_ofMember region m.1 (Json.Layout.lines_ne_nil _ _ _ _)]
    rfl

namespace Document

theorem member?_nestedLines (options : List (String × Json)) (after : List Char) :
    (nestedLines options after).filterMap MarkedLine.member? =
      (.root, nestedKey) :: options.map fun m => (.nested, m.1) := by
  cases options with
  | nil => rfl
  | cons m ms => simp [nestedLines, member?_regionLines]

/-- Every member of the document and of the nested object is marked once. -/
theorem perm_marked (D : Document) :
    (D.markedLines.filterMap MarkedLine.member?).Perm
      ((D.members.map Prod.fst).map (Prod.mk .root) ++ D.nested.keys.map (Prod.mk .nested)) := by
  have hnested : D.nested.keys.map (Prod.mk Region.nested) =
      D.nested.entries.map fun m => (.nested, m.1) := by
    simp [OrderedMap.keys]
  simp only [markedLines, List.filterMap_cons, List.filterMap_append, member?_regionLines,
    member?_nestedLines, hnested, members, List.map_append, List.map_cons, List.map_map,
    Function.comp_def, List.filterMap_nil, List.append_nil, List.append_assoc, List.cons_append]
  exact .append_left _ (.cons _ List.perm_append_comm)

theorem mem_marked {D : Document} {region : Region} {name : String} :
    (region, name) ∈ D.markedLines.filterMap MarkedLine.member? ↔
      region = .root ∧ name = nestedKey ∨ name ∈ (D.options region).keys := by
  have hroot : name ∈ D.members.map Prod.fst ↔ name = nestedKey ∨ name ∈ D.root.keys := by
    rw [OrderedMap.keys, ← List.take_append_drop D.nestedAt D.root.entries, members]
    simp only [List.map_append, List.map_cons, List.mem_append, List.mem_cons]
    grind
  rw [D.perm_marked.mem_iff, List.mem_append, List.mem_map, List.mem_map]
  cases region with
  | root => simpa [options] using hroot
  | nested => simp [options]

theorem nodup_marked {D : Document} (h : nestedKey ∉ D.root.keys) :
    (D.markedLines.filterMap MarkedLine.member?).Nodup := by
  have hmap : ∀ (region : Region) {names : List String}, names.Nodup →
      (names.map (Prod.mk region)).Nodup := by
    intro region names hnames
    refine List.pairwise_map.mpr (hnames.imp ?_)
    intro a b hne heq
    exact hne (Prod.mk.inj heq).2
  rw [D.perm_marked.nodup_iff, List.nodup_append]
  refine ⟨?_, ?_, ?_⟩
  · exact hmap .root (nodup_map_fst_members h)
  · exact hmap .nested D.nested.distinct
  · intro p hp q hq
    obtain ⟨name, -, rfl⟩ := List.mem_map.mp hp
    obtain ⟨other, -, rfl⟩ := List.mem_map.mp hq
    simp

end Document

/-! ## Comments after passes -/

theorem Rule.exists_sentence {rule : Rule} {D : Document} {owner : Region} {v : Json}
    (h : (rule.evaluate D owner).candidate = some v) :
    ∃ sentence, (rule.evaluate D owner).reason.sentence? = some sentence := by
  cases rule with
  | literal w => exact ⟨_, rfl⟩
  | presence option defined notDefined =>
    rw [evaluate_presence] at h ⊢
    split at h
    next hdefined =>
      rw [if_pos hdefined]
      exact ⟨_, rfl⟩
    next hdefined =>
      obtain rfl : notDefined = some v := h
      rw [if_neg hdefined]
      exact ⟨_, rfl⟩
  | multiValue option pairs otherwise =>
    cases hm : (D.get? owner option).bind (matchingPair pairs) with
    | some pair =>
      rw [evaluate_of_match hm]
      exact ⟨_, rfl⟩
    | none =>
      rw [evaluate_of_no_match hm] at h ⊢
      obtain rfl : otherwise = some v := h
      exact ⟨_, rfl⟩

theorem Note.exists_ofApplied? {D : Document} {es : List (String × Descriptor)} {a : Applied}
    (h : a ∈ (Pass.run D es).applied) : ∃ note, ofApplied? a = some note := by
  obtain ⟨-, S, hmerged, hreasons⟩ := Pass.exists_evaluate_of_mem_applied h
  obtain ⟨w, hw⟩ := exists_mem_of_merge_eq_value hmerged
  obtain ⟨evaluation, he, hcandidate⟩ := List.mem_map.mp hw
  obtain ⟨rule, hrule, rfl⟩ := List.mem_map.mp he
  obtain ⟨sentence, hsentence⟩ := Rule.exists_sentence hcandidate
  refine exists_ofApplied?_iff.mpr ⟨_, ?_, sentence, hsentence⟩
  rw [hreasons]
  exact List.mem_map_of_mem he

namespace Annotator

/-- A fresh annotator after it heard passes of tables over documents. -/
def afterPasses (passes : List (Table × Document)) : Annotator :=
  passes.foldl (fun annotator p => annotator.recordAll (p.1.pass p.2).applied) (.commenting [])

def heardIn (passes : List (Table × Document)) : List Applied :=
  passes.flatMap fun p => (p.1.pass p.2).applied

theorem afterPasses_eq (passes : List (Table × Document)) :
    afterPasses passes = .commenting ((heardIn passes).filterMap Note.ofApplied?) := by
  have hfold : ∀ notes : List Note,
      passes.foldl (fun annotator p => recordAll annotator (p.1.pass p.2).applied)
        (commenting notes) = commenting (notes ++ (heardIn passes).filterMap Note.ofApplied?) := by
    induction passes with
    | nil => simp [heardIn]
    | cons p passes ih =>
      intro notes
      rw [List.foldl_cons, recordAll_commenting, ih]
      simp [heardIn]
  exact hfold []

/-- What the annotator makes of a written document: each comment directly above the line of its
member. -/
theorem splitOn_annotate_afterPasses {passes : List (Table × Document)}
    (hpasses : ∀ p ∈ passes, p.1.NamesOnOneLine) {D : Document}
    (hD : Document.nestedKey ∉ D.root.keys) :
    ((afterPasses passes).annotate D.pretty).toList.splitOn '\n' =
      D.markedLines.flatMap (MarkedLine.commented (firstSaying (heardIn passes))) := by
  have hnotes : ∀ note ∈ (heardIn passes).filterMap Note.ofApplied?, '\n' ∉ note.text.toList := by
    intro note hnote
    obtain ⟨a, ha, hnote⟩ := List.mem_filterMap.mp hnote
    obtain ⟨p, hp, ha⟩ := List.mem_flatMap.mp ha
    exact (hpasses p hp).feed_not_mem_text ha hnote
  have hscans := @scans_markedLines (heardIn passes) D hD []
  have hlines := D.map_text_markedLines
  rw [Document.pretty, Json.splitOn_pretty] at hlines
  rw [afterPasses_eq, Document.pretty, splitOn_annotate_pretty hnotes, ← hlines]
  simpa [annotateLines] using hscans

theorem isSome_firstSaying_iff {T : Table} {D : Document} {place : Region × String} :
    (firstSaying (T.pass D).applied place).isSome ↔ place ∈ (T.pass D).applied.map Applied.place := by
  rw [firstSaying, List.findSome?_isSome_iff, List.mem_map]
  constructor
  · rintro ⟨a, ha, hsome⟩
    split at hsome
    next hplace => exact ⟨a, ha, hplace⟩
    next => cases hsome
  · rintro ⟨a, ha, hplace⟩
    obtain ⟨note, hnote⟩ := Note.exists_ofApplied? ha
    exact ⟨a, ha, by simp [hplace, hnote]⟩

end Annotator

/-- A pass puts no root option under the key of the nested object if no entry stands for one. -/
theorem Pass.nestedKey_not_mem_run {es : List (String × Descriptor)}
    (hes : ∀ e ∈ es, ¬(e.2.region = .root ∧ e.2.name = Document.nestedKey)) {D : Document}
    (hD : Document.nestedKey ∉ D.root.keys) :
    Document.nestedKey ∉ (Pass.run D es).document.root.keys := by
  intro hmem
  rcases (@Pass.mem_keys_run D es .root _).mp hmem with hmem | hmem
  · exact hD hmem
  · obtain ⟨a, ha, hplace⟩ := List.mem_map.mp hmem
    have hd := (Pass.applied_sublist D es).subset (List.mem_map_of_mem ha)
    obtain ⟨e, he, hed⟩ := List.mem_map.mp hd
    obtain ⟨hregion, hname⟩ := Prod.mk.inj hplace
    exact hes e he ⟨hed ▸ hregion, hed ▸ hname⟩

theorem Table.nestedKey_not_mem_pass {text : String} {T : Table} (hT : Table.ofText? text = .ok T)
    {D : Document} (hD : Document.nestedKey ∉ D.root.keys) :
    Document.nestedKey ∉ (T.pass D).document.root.keys :=
  Pass.nestedKey_not_mem_run (Table.not_reserved_of_ofText? hT) hD

/-- After a pass the marked members that have a comment are the options that the pass filled. -/
theorem Table.perm_commented {T : Table} {D : Document}
    (h : Document.nestedKey ∉ (T.pass D).document.root.keys) :
    (((T.pass D).document.markedLines.filterMap MarkedLine.member?).filter fun m =>
      (Annotator.firstSaying (T.pass D).applied m).isSome).Perm
        ((T.pass D).applied.map Applied.place) := by
  refine (List.perm_ext_iff_of_nodup ((Document.nodup_marked h).sublist List.filter_sublist)
    (Pass.nodup_place_applied D T.entries)).mpr ?_
  rintro ⟨region, name⟩
  rw [List.mem_filter, Annotator.isSome_firstSaying_iff, Document.mem_marked]
  constructor
  · exact fun hboth => hboth.2
  · intro hmem
    exact ⟨.inr (Pass.mem_keys_run.mpr (.inr hmem)), hmem⟩

namespace Annotator

/-- The comments of an annotator that heard passes stand each directly above the line of its member,
and nothing else is changed. After one successful pass every filled option has one, and nothing else
has. -/
theorem comments_stand_above_their_members :
    (∀ (passes : List (Table × Document)) (D : Document), (∀ p ∈ passes, p.1.NamesOnOneLine) →
      Document.nestedKey ∉ D.root.keys →
        D.pretty.toList.splitOn '\n' = D.markedLines.map MarkedLine.text ∧
        ((afterPasses passes).annotate D.pretty).toList.splitOn '\n' =
          D.markedLines.flatMap (MarkedLine.commented (firstSaying (heardIn passes)))) ∧
    (∀ (text : String) (T : Table) (D : Document) (c : Completed), Table.ofText? text = .ok T →
      T.NamesOnOneLine → Document.nestedKey ∉ D.root.keys →
      Completed.ofDocument? T D (.commenting []) = .ok c →
        let saying := firstSaying (T.pass D).applied
        (c.text true).toList.splitOn '\n' =
          c.document.markedLines.flatMap (MarkedLine.commented saying) ∧
        ((c.document.markedLines.filterMap MarkedLine.member?).filter fun m =>
          (saying m).isSome).Perm ((T.pass D).applied.map Applied.place)) := by
  constructor
  · intro passes D hpasses hD
    exact ⟨D.map_text_markedLines.symm, splitOn_annotate_afterPasses hpasses hD⟩
  · intro text T D c hT hnames hD hc
    obtain ⟨-, rfl⟩ := Completed.ofDocument?_eq_ok_iff.mp hc
    have hroot := Table.nestedKey_not_mem_pass hT hD
    have hpasses : ∀ p ∈ [(T, D)], p.1.NamesOnOneLine := by simpa using hnames
    have hheard : heardIn [(T, D)] = (T.pass D).applied := List.append_nil _
    have hlines := splitOn_annotate_afterPasses hpasses hroot
    rw [hheard] at hlines
    exact ⟨hlines, Table.perm_commented hroot⟩

/-- A document with a root option, and in it a member, of the name that the table has for a nested
option. -/
def sameNames : String := "\x7b\"x\": \x7b\"x\": [\"x\"]\x7d\x7d"

theorem comments_in_sameNames :
    ∃ T D c, Table.ofText? (Completed.presenceText "y") = .ok T ∧
      Document.ofText? sameNames = .ok D ∧ Completed.ofDocument? T D (.commenting []) = .ok c ∧
      T.NamesOnOneLine ∧ Document.nestedKey ∉ D.root.keys ∧
      (T.pass D).applied.map Applied.place = [(.nested, "x")] ∧
      (let passes := [(T, D), (T, c.document)]
      ((afterPasses passes).annotate D.pretty).toList.splitOn '\n' =
        D.markedLines.flatMap (MarkedLine.commented (firstSaying (heardIn passes)))) ∧
      (c.text true).toList.splitOn '\n' =
        c.document.markedLines.flatMap (MarkedLine.commented (firstSaying (T.pass D).applied)) ∧
      ((c.document.markedLines.filterMap MarkedLine.member?).filter fun m =>
        (firstSaying (T.pass D).applied m).isSome).Perm [(.nested, "x")] := by
  have hT := Completed.ofText?_presenceText
  have hnames := Completed.namesOnOneLine_presenceTable
  have hD : Document.ofText? sameNames =
      .ok ⟨⟨[("x", .object [("x", .array [.string "x"])])], by decide⟩, ∅, 0⟩ := by rfl
  generalize hdocument : (⟨⟨[("x", .object [("x", .array [.string "x"])])], by decide⟩, ∅, 0⟩ :
    Document) = D at hD
  have hreserved : Document.nestedKey ∉ D.root.keys := by
    subst hdocument
    decide
  have hplaces : ((Completed.presenceTable "y").pass D).applied.map Applied.place =
      [(.nested, "x")] := by
    subst hdocument
    rfl
  have hpass : ((Completed.presenceTable "y").pass D).error? = none := by
    subst hdocument
    rfl
  have hc : Completed.ofDocument? (Completed.presenceTable "y") D (.commenting []) = .ok _ :=
    Completed.ofDocument?_eq_ok_iff.mpr ⟨hpass, rfl⟩
  obtain ⟨hall, hone⟩ := comments_stand_above_their_members
  obtain ⟨hlines, hperm⟩ := hone _ _ _ _ hT hnames hreserved hc
  rw [hplaces] at hperm
  exact ⟨_, D, _, hT, hD, hc, hnames, hreserved, hplaces,
    (hall _ D (by simpa using hnames) hreserved).2, hlines, hperm⟩

end Annotator

end OptionDefaults
