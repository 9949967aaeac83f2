import OptionDefaults.Proofs.Scalars

/-!
# Values read back

A value whose numbers are integers, whose objects have distinct keys and whose brackets nest no
deeper than the reader has room for is read back from either written form, up to what follows it.
-/

namespace OptionDefaults.Json

/-- Integers only, distinct keys, and at most `room` brackets inside each other. -/
inductive Readable : (room : Nat) → Json → Prop
  | null (room : Nat) : Readable room .null
  | bool (room : Nat) (b : Bool) : Readable room (.bool b)
  | integer (room : Nat) (n : ExactInteger) : Readable room (.number (.integer n))
  | string (room : Nat) (s : String) : Readable room (.string s)
  | array {room : Nat} {vs : List Json} : (∀ v ∈ vs, Readable room v) →
      Readable (room + 1) (.array vs)
  | object {room : Nat} {ms : List (String × Json)} : (ms.map Prod.fst).Nodup →
      (∀ m ∈ ms, Readable room m.2) → Readable (room + 1) (.object ms)

theorem Readable.mono {room more : Nat} {v : Json} (h : v.Readable room) (hle : room ≤ more) :
    v.Readable more := by
  induction h generalizing more with
  | null => exact .null more
  | bool _ b => exact .bool more b
  | integer _ n => exact .integer more n
  | string _ s => exact .string more s
  | array _ ih =>
    obtain ⟨more, rfl⟩ : ∃ n, more = n + 1 := ⟨more - 1, by omega⟩
    exact .array fun v hv => ih v hv (by omega)
  | object hkeys _ ih =>
    obtain ⟨more, rfl⟩ : ∃ n, more = n + 1 := ⟨more - 1, by omega⟩
    exact .object hkeys fun m hm => ih m hm (by omega)

namespace Reader

theorem isBlank_iff {c : Char} :
    isBlank c = true ↔ c = ' ' ∨ c = '\t' ∨ c = '\n' ∨ c = '\r' := by
  simp [isBlank, or_assoc]

theorem isBlank_of_isDigit {c : Char} (h : c.isDigit = true) : isBlank c = false := by
  rw [Bool.eq_false_iff, ne_eq, isBlank_iff]
  rintro (rfl | rfl | rfl | rfl) <;> cases h

theorem skipBlanks_gap {gap : List Char} (h : ∀ c ∈ gap, isBlank c = true) {c : Char}
    (hc : isBlank c = false) (rest : List Char) : skipBlanks (gap ++ c :: rest) = c :: rest := by
  rw [skipBlanks, List.dropWhile_append_of_pos h]
  simp [hc]

theorem skipBlanks_of_blank {gap : List Char} (h : ∀ c ∈ gap, isBlank c = true) :
    skipBlanks gap = [] := by
  have hall : (gap ++ []).dropWhile isBlank = [] := List.dropWhile_append_of_pos h
  rwa [List.append_nil] at hall

/-- What goes on after a value cannot go on with a number. -/
theorem endsNumber_gap {gap : List Char} (h : ∀ c ∈ gap, isBlank c = true) {c : Char}
    (hc : c = ',' ∨ c = ']' ∨ c = '\x7d') (rest : List Char) : EndsNumber (gap ++ c :: rest) := by
  cases gap with
  | nil => rcases hc with rfl | rfl | rfl <;> exact endsNumber_cons rest (by decide)
  | cons b gap =>
    have hb := isBlank_iff.mp (h b (.head gap))
    rcases hb with rfl | rfl | rfl | rfl <;> exact endsNumber_cons _ (by decide)

end Reader

/-! ## Layouts -/

namespace Layout

structure Blank (layout : Layout) : Prop where
  separation : ∀ depth, ∀ c ∈ layout.separation depth, Reader.isBlank c = true
  colon : ∃ gap, layout.colon = ':' :: gap ∧ ∀ c ∈ gap, Reader.isBlank c = true

theorem dense_blank : dense.Blank where
  separation := by simp [dense]
  colon := ⟨[], rfl, by simp⟩

theorem indented_blank : indented.Blank where
  separation := by
    intro depth c hc
    rcases List.mem_cons.mp hc with rfl | hc
    · rfl
    · rw [List.eq_of_mem_replicate hc]
      rfl
  colon := ⟨[' '], rfl, by simp [Reader.isBlank]⟩

theorem length_le_length_writeItems (layout : Layout) (depth : Nat) (vs : List Json) :
    vs.length ≤ (writeItems layout depth vs).length := by
  induction vs with
  | nil => exact Nat.zero_le _
  | cons v vs ih =>
    simp only [writeItems, List.length_cons, List.length_append]
    omega

theorem length_le_length_writeMembers (layout : Layout) (depth : Nat)
    (ms : List (String × Json)) : ms.length ≤ (writeMembers layout depth ms).length := by
  induction ms with
  | nil => exact Nat.zero_le _
  | cons m ms ih =>
    simp only [writeMembers, List.length_cons, List.length_append]
    omega

theorem exists_write_eq_cons (layout : Layout) (depth : Nat) {room : Nat} {v : Json}
    (h : v.Readable room) :
    ∃ c cs, layout.write depth v = c :: cs ∧ Reader.isBlank c = false ∧ c ≠ ']' := by
  cases h with
  | null => exact ⟨'n', _, rfl, by decide, by decide⟩
  | bool _ b => cases b <;> exact ⟨_, _, rfl, by decide, by decide⟩
  | string _ s => exact ⟨'"', _, rfl, by decide, by decide⟩
  | @array _ vs _ => cases vs <;> exact ⟨'[', _, rfl, by decide, by decide⟩
  | @object _ ms _ _ =>
    rcases ms with _ | ⟨⟨k, w⟩, ms⟩ <;> exact ⟨'\x7b', _, rfl, by decide, by decide⟩
  | integer _ n =>
    obtain ⟨c, cs, hwrite, hc⟩ := exists_writeInteger_eq_cons n
    refine ⟨c, cs, hwrite, ?_, ?_⟩
    · rcases hc with rfl | hc
      · rfl
      · exact Reader.isBlank_of_isDigit hc
    · rintro rfl
      rcases hc with hc | hc <;> cases hc

end Layout

/-! ## Reading what was written -/

namespace Reader

variable {layout : Layout} {room depth : Nat} {gap rest : List Char}

/-- Values for this room are read back behind blanks, up to what follows. -/
def ReadsBack (layout : Layout) (room : Nat) : Prop :=
  ∀ v : Json, v.Readable room → ∀ (depth : Nat) (gap rest : List Char),
    (∀ c ∈ gap, isBlank c = true) → EndsNumber rest →
      value room (gap ++ (layout.write depth v ++ rest)) = .ok (v, rest)

theorem skipBlanks_write (layout : Layout) (depth : Nat) {v : Json} (h : v.Readable room)
    (hgap : ∀ c ∈ gap, isBlank c = true) (rest : List Char) :
    skipBlanks (gap ++ (layout.write depth v ++ rest)) = layout.write depth v ++ rest := by
  obtain ⟨c, cs, hstart, hblank, -⟩ := Layout.exists_write_eq_cons layout depth h
  rw [hstart]
  exact skipBlanks_gap hgap hblank _

theorem items_write (hl : layout.Blank) (hread : ReadsBack layout room) (depth : Nat)
    {vs : List Json} {v : Json} {bound : Nat} (hvs : ∀ w ∈ v :: vs, w.Readable room)
    (hbound : vs.length < bound) (hgap : ∀ c ∈ gap, isBlank c = true) (rest : List Char) :
    items (value room) bound
        (layout.write depth v ++ (layout.writeItems depth vs ++ (gap ++ ']' :: rest))) =
      .ok (v :: vs, rest) := by
  induction vs generalizing v bound with
  | nil =>
    obtain ⟨bound, rfl⟩ : ∃ n, bound = n + 1 := ⟨bound - 1, by omega⟩
    have hv := hread v (hvs v (.head _)) depth [] (gap ++ ']' :: rest) (by simp)
      (endsNumber_gap hgap (by simp) rest)
    have hclose : skipBlanks (gap ++ ']' :: rest) = ']' :: rest := skipBlanks_gap hgap rfl rest
    rw [List.nil_append] at hv
    simp only [items, Layout.writeItems, List.nil_append, hv, Except.bind, hclose]
  | cons w vs ih =>
    obtain ⟨bound, rfl⟩ : ∃ n, bound = n + 1 := ⟨bound - 1, by omega⟩
    have hw : w.Readable room := hvs w (.tail _ (.head _))
    have hlength : vs.length < bound := by simpa using hbound
    have htail := ih (v := w) (fun u hu => hvs u (.tail _ hu)) hlength
    have hskip := skipBlanks_write layout depth hw (hl.separation depth)
      (layout.writeItems depth vs ++ (gap ++ ']' :: rest))
    obtain ⟨c, cs, hstart, -, hclosing⟩ := Layout.exists_write_eq_cons layout depth hw
    rw [hstart, List.cons_append] at hskip htail
    have hv := hread v (hvs v (.head _)) depth []
      (',' :: (layout.separation depth ++ (c :: (cs ++
        (layout.writeItems depth vs ++ (gap ++ ']' :: rest)))))) (by simp)
      (endsNumber_cons _ (by decide))
    rw [List.nil_append] at hv
    have hcomma : ∀ text, skipBlanks (',' :: text) = ',' :: text := fun _ => rfl
    simp only [items, Layout.writeItems, hstart, List.cons_append, List.append_assoc, hv,
      Except.bind, hcomma, hskip, Except.map]
    split
    · exact absurd (List.cons.inj ‹_›).1 hclosing
    · rw [htail]

theorem members_write (hl : layout.Blank) (hread : ReadsBack layout room)
    {ms : List (String × Json)} {k : String} {v : Json} {bound : Nat}
    (hv : v.Readable room) (hms : ∀ m ∈ ms, m.2.Readable room) (hbound : ms.length < bound)
    (hgap : ∀ c ∈ gap, isBlank c = true) :
    members (value room) bound
        (k.toList.flatMap escaped ++ '"' :: (layout.colon ++ (layout.write depth v ++
          (layout.writeMembers depth ms ++ (gap ++ '\x7d' :: rest))))) =
      .ok ((k, v) :: ms, rest) := by
  obtain ⟨space, hcolon, hspace⟩ := hl.colon
  -- One member, whatever follows it.
  have hmember : ∀ (k : String) (v : Json) (rest : List Char), v.Readable room → EndsNumber rest →
      member (value room) (k.toList.flatMap escaped ++ '"' :: (layout.colon ++
        (layout.write depth v ++ rest))) = .ok ((k, v), rest) := by
    intro k v rest hv hrest
    have hread := hread v hv depth space rest hspace hrest
    have hskip : ∀ text, skipBlanks (':' :: text) = ':' :: text := fun _ => rfl
    simp only [member, string_write, Except.bind, hcolon, List.cons_append, hskip, hread,
      Except.map]
  induction ms generalizing k v bound with
  | nil =>
    obtain ⟨bound, rfl⟩ : ∃ n, bound = n + 1 := ⟨bound - 1, by omega⟩
    have hone := hmember k v (gap ++ '\x7d' :: rest) hv (endsNumber_gap hgap (by simp) rest)
    have hclose : skipBlanks (gap ++ '\x7d' :: rest) = '\x7d' :: rest :=
      skipBlanks_gap hgap rfl rest
    simp only [members, Layout.writeMembers, List.nil_append, hone, Except.bind, hclose]
  | cons m ms ih =>
    obtain ⟨l, w⟩ := m
    obtain ⟨bound, rfl⟩ : ∃ n, bound = n + 1 := ⟨bound - 1, by omega⟩
    have hlength : ms.length < bound := by simpa using hbound
    have htail := ih (k := l) (v := w) (hms (l, w) (.head _)) (fun m hm => hms m (.tail _ hm))
      hlength
    have hcomma : ∀ text, skipBlanks (',' :: text) = ',' :: text := fun _ => rfl
    have hquote := fun text => skipBlanks_gap (hl.separation depth) (c := '"') rfl text
    have hone := fun text => hmember k v (',' :: text) hv (endsNumber_cons text (by decide))
    simp only [members, Layout.writeMembers, List.cons_append, List.append_assoc, writeString_append,
      hone, Except.bind, hcomma, hquote, htail, Except.map]

theorem arrayBody_write (hl : layout.Blank) (hread : ReadsBack layout room) {vs : List Json}
    (hvs : ∀ v ∈ vs, v.Readable room) (depth : Nat) (rest : List Char) :
    ∃ body, layout.write depth (.array vs) ++ rest = '[' :: body ∧
      arrayBody (value room) body = .ok (vs, rest) := by
  cases vs with
  | nil => exact ⟨']' :: rest, rfl, rfl⟩
  | cons v vs =>
    refine ⟨layout.separation (depth + 1) ++ (layout.write (depth + 1) v ++
      (layout.writeItems (depth + 1) vs ++ (layout.separation depth ++ ']' :: rest))),
      by simp [Layout.write], ?_⟩
    have hskip := skipBlanks_write layout (depth + 1) (hvs v (.head _))
      (hl.separation (depth + 1))
      (layout.writeItems (depth + 1) vs ++ (layout.separation depth ++ ']' :: rest))
    have hlength : vs.length < (layout.write (depth + 1) v ++ (layout.writeItems (depth + 1) vs ++
        (layout.separation depth ++ ']' :: rest))).length := by
      have hle := Layout.length_le_length_writeItems layout (depth + 1) vs
      simp only [List.length_append, List.length_cons]
      omega
    have hitems := items_write hl hread (depth + 1) hvs hlength (hl.separation depth) rest
    obtain ⟨c, cs, hstart, -, hclosing⟩ :=
      Layout.exists_write_eq_cons layout (depth + 1) (hvs v (.head _))
    rw [arrayBody, hskip]
    rw [hstart, List.cons_append] at hitems ⊢
    split
    · rename_i heq
      cases heq
    · exact absurd (List.cons.inj ‹_›).1 hclosing
    · exact hitems

theorem objectBody_write (hl : layout.Blank) (hread : ReadsBack layout room)
    {ms : List (String × Json)} (hms : ∀ m ∈ ms, m.2.Readable room) (depth : Nat)
    (rest : List Char) :
    ∃ body, layout.write depth (.object ms) ++ rest = '\x7b' :: body ∧
      objectBody (value room) body = .ok (.ofList ms, rest) := by
  rcases ms with _ | ⟨⟨k, v⟩, ms⟩
  · exact ⟨'\x7d' :: rest, rfl, rfl⟩
  · have hquote := fun text => skipBlanks_gap (hl.separation (depth + 1)) (c := '"') rfl text
    refine ⟨_, by rw [Layout.write, List.cons_append], ?_⟩
    simp only [objectBody, List.append_assoc, List.cons_append, List.nil_append,
      writeString_append, hquote]
    rw [members_write hl hread (hms (k, v) (.head _)) (fun m hm => hms m (.tail _ hm)) ?_
      (hl.separation depth)]
    · rfl
    · have hlength := Layout.length_le_length_writeMembers layout (depth + 1) ms
      simp only [List.length_append, List.length_cons]
      omega

theorem value_of_number {c : Char} {cs : List Char} (hc : c = '-' ∨ c.isDigit = true)
    {text : List Char} (h : skipBlanks text = c :: cs) (room : Nat) :
    value room text = (number (c :: cs)).map fun (n, rest) => (.number n, rest) := by
  unfold value
  rw [h]
  split
  next heq => cases heq
  -- No digit and no minus sign starts any other value.
  iterate 6
    next heq =>
      obtain ⟨rfl, -⟩ := List.cons.inj heq
      rcases hc with hc | hc <;> cases hc
  next heq =>
    obtain ⟨rfl, rfl⟩ := List.cons.inj heq
    exact if_pos hc

theorem readsBack (hl : layout.Blank) (room : Nat) : ReadsBack layout room := by
  intro v hv depth gap rest hgap hrest
  cases hv with
  | null =>
    have hskip := skipBlanks_gap hgap (c := 'n') rfl ('u' :: 'l' :: 'l' :: rest)
    simp only [value, Layout.write, List.cons_append, List.nil_append, hskip, keyword, if_true]
  | bool _ b =>
    cases b with
    | true =>
      have hskip := skipBlanks_gap hgap (c := 't') rfl ('r' :: 'u' :: 'e' :: rest)
      simp only [value, Layout.write, List.cons_append, List.nil_append, hskip, keyword, if_true]
    | false =>
      have hskip := skipBlanks_gap hgap (c := 'f') rfl ('a' :: 'l' :: 's' :: 'e' :: rest)
      simp only [value, Layout.write, List.cons_append, List.nil_append, hskip, keyword, if_true]
  | integer _ n =>
    obtain ⟨c, cs, hwrite, hc⟩ := exists_writeInteger_eq_cons n
    have hblank : isBlank c = false := by
      rcases hc with rfl | hc
      · rfl
      · exact isBlank_of_isDigit hc
    have hskip := skipBlanks_gap hgap hblank (cs ++ rest)
    have hnumber := number_write n hrest
    rw [hwrite, List.cons_append] at hnumber
    rw [Layout.write, writeNumber, hwrite, List.cons_append, value_of_number hc hskip, hnumber]
    rfl
  | string _ s =>
    have hskip := skipBlanks_gap hgap (c := '"') rfl (s.toList.flatMap escaped ++ '"' :: rest)
    simp only [value, Layout.write, writeString_append, hskip, string_write, Except.map]
  | @array room vs hvs =>
    obtain ⟨body, hwrite, hbody⟩ := arrayBody_write hl (readsBack hl room) hvs depth rest
    have hskip := skipBlanks_gap hgap (c := '[') rfl body
    simp only [value, hwrite, hskip, hbody, Except.map]
  | @object room ms hkeys hms =>
    obtain ⟨body, hwrite, hbody⟩ := objectBody_write hl (readsBack hl room) hms depth rest
    have hskip := skipBlanks_gap hgap (c := '\x7b') rfl body
    simp only [value, hwrite, hskip, hbody, Except.map, OrderedMap.entries_ofList hkeys]
termination_by room

end Reader

end OptionDefaults.Json
