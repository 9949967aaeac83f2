import OptionDefaults.Proofs.AcceptedValues
import OptionDefaults.Proofs.Merging
import OptionDefaults.Proofs.TableEntries

/-!
# Values that a table fills in

The values that the rules of a table can give stand in the text of the table, below the object of
descriptors and the descriptor itself. A list of rules is one bracket more around its arrays, and
merging puts one bracket around their items again. So no default has more brackets inside each other
than two less than the text may open at once, which is the room that the nested options have.
-/

namespace OptionDefaults

theorem Json.readable_of_mem_items {v w : Json} {room : Nat} (hv : v.Readable room)
    (hw : w ∈ v.items) : w.Readable room := by
  cases hv with
  | array hitems => exact (hitems w hw).mono (by omega)
  | _ => cases hw

namespace Rule

/-- The values that the rule can give. -/
def results : Rule → List Json
  | .literal v => [v]
  | .presence _ defined notDefined => defined :: notDefined.toList
  | .multiValue _ pairs otherwise => pairs.map Prod.snd ++ otherwise.toList

theorem mem_results_of_evaluate {rule : Rule} {D : Document} {owner : Region} {v : Json}
    (h : (rule.evaluate D owner).candidate = some v) : v ∈ rule.results := by
  cases rule with
  | literal w =>
    cases h
    exact .head _
  | presence option defined notDefined =>
    rw [evaluate_presence] at h
    split at h
    · cases h
      exact .head _
    · exact .tail _ (Option.mem_toList.mpr h)
  | multiValue option pairs otherwise =>
    cases hm : (D.get? owner option).bind (matchingPair pairs) with
    | some pair =>
      obtain ⟨current, -, hpair⟩ := Option.bind_eq_some_iff.mp hm
      rw [evaluate_of_match hm] at h
      cases h
      exact List.mem_append_left _ (List.mem_map_of_mem (List.mem_of_find?_eq_some hpair))
    | none =>
      rw [evaluate_of_no_match hm] at h
      exact List.mem_append_right _ (Option.mem_toList.mpr h)

/-- The rule gives nothing but values for this room. -/
def Fits (rule : Rule) (room : Nat) : Prop := ∀ v ∈ rule.results, v.Readable room

theorem Conditional.readable {option : String} {conditions : List (String × Json)} {v : Json}
    {room : Nat} (h : Conditional option conditions v) (hv : v.Readable room) :
    ∀ c ∈ conditions, c.2.Readable room := by
  have hconditions : ∃ inner, room = inner + 1 ∧ (Json.object conditions).Readable inner := by
    cases h <;> cases hv with
    | object _ hmembers => exact ⟨_, rfl, hmembers ("conditions", _) (by simp)⟩
  obtain ⟨inner, rfl, hconditions⟩ := hconditions
  cases hconditions with
  | object _ hinner => exact fun c hc => (hinner c hc).mono (by omega)

/-- What a rule gives needs no more room than the rule. -/
theorem fits_of_form {v : Json} {room : Nat} {rule : Rule} (h : Form v rule)
    (hv : v.Readable room) : rule.Fits room := by
  intro w hw
  cases h with
  | literal _ =>
    rw [List.mem_singleton.mp hw]
    exact hv
  | presence hc hdefined =>
    have hroom := hc.readable hv
    rcases List.mem_cons.mp hw with rfl | hw
    · exact hroom _ (Json.mem_of_member? hdefined)
    · exact hroom _ (Json.mem_of_member? (Option.mem_toList.mp hw))
  | multiValue hc _ hvalues =>
    have hroom := hc.readable hv
    rcases List.mem_append.mp hw with hw | hw
    · obtain ⟨pair, hpair, rfl⟩ := List.mem_map.mp hw
      cases hroom _ (Json.mem_of_member? hvalues) with
      | array hpairs =>
        cases hpairs _ (List.mem_map_of_mem hpair) with
        | array hvalues => exact (hvalues pair.2 (by simp)).mono (by omega)
    · exact hroom _ (Json.mem_of_member? (Option.mem_toList.mp hw))

end Rule

namespace Policy

/-- The rules of a list have one bracket less to open than a single rule. -/
def Fits : Policy → Nat → Prop
  | .single rule, room => rule.Fits room
  | .merged rules, room => ∃ inner, room = inner + 1 ∧ ∀ rule ∈ rules, rule.Fits inner

theorem fits_of_form {v : Json} {room : Nat} {policy : Policy} (h : Form v policy)
    (hv : v.Readable room) : policy.Fits room := by
  cases h with
  | single _ hrule => exact Rule.fits_of_form hrule hv
  | @merged items rules _ hrules =>
    cases hv with
    | @array inner _ hitems =>
      refine ⟨inner, rfl, fun rule hrule => ?_⟩
      obtain ⟨item, hitem, hform⟩ := exists_mem_of_forall₂ hrules hrule
      exact Rule.fits_of_form hform (hitems item hitem)

end Policy

namespace Descriptor

/-- The policy gives nothing but values for this room. -/
def Fits (d : Descriptor) (room : Nat) : Prop := ∀ policy ∈ d.policy, policy.Fits room

theorem readable_of_merged {d : Descriptor} {D : Document} {room : Nat} {v : Json}
    (hd : d.Fits room) (h : d.merged D = .value v) : v.Readable room := by
  unfold merged evaluate rules at h
  cases hp : d.policy with
  | none =>
    rw [hp] at h
    cases h
  | some policy =>
    have hfits := hd policy hp
    rw [hp] at h
    cases policy with
    | single rule =>
      cases hc : (rule.evaluate D d.region).candidate with
      | none => simp [Policy.rules, hc, merge] at h
      | some w =>
        simp only [Policy.rules, List.map_cons, List.map_nil, hc, merge, Merged.value.injEq] at h
        subst h
        exact hfits w (Rule.mem_results_of_evaluate hc)
    | merged rules =>
      obtain ⟨inner, rfl, hinner⟩ := hfits
      have hcandidate : ∀ w, some w ∈
          (rules.map (Rule.evaluate D d.region)).map Evaluation.candidate → w.Readable inner := by
        intro w hw
        obtain ⟨evaluation, he, hcandidate⟩ := List.mem_map.mp hw
        obtain ⟨rule, hr, rfl⟩ := List.mem_map.mp he
        exact hinner rule hr w (Rule.mem_results_of_evaluate hcandidate)
      rcases merge_eq_value h with hone | ⟨items, rfl, hitems⟩
      · exact (hcandidate v (hone ▸ .head _)).mono (by omega)
      · refine .array fun w hw => ?_
        obtain ⟨piece, hpiece, hw⟩ := hitems w hw
        exact Json.readable_of_mem_items (hcandidate piece hpiece) hw

/-! ## Descriptors and tables that were read -/

/-- The policy of a descriptor stands one bracket further in than the descriptor. -/
theorem fits_of_form {v : Json} {d : Descriptor} {room : Nat} (h : Form v d)
    (hv : v.Readable (room + 1)) : d.Fits room := by
  intro policy hpolicy
  obtain ⟨w, hform, ⟨members, rfl, hw⟩ | ⟨items, rfl, hw⟩⟩ := h.exists_policy hpolicy
  · cases hv with
    | object _ hmembers => exact Policy.fits_of_form hform (hmembers _ (Json.mem_of_member? hw))
  · cases hv with
    | array hitems => exact Policy.fits_of_form hform (hitems w (List.mem_of_getElem? hw))

end Descriptor

namespace Table

/-- No entry is for the key of the nested object, and every default has room in that object. -/
structure Fits (T : Table) : Prop where
  reserved : ∀ e ∈ T.entries, ¬(e.2.region = .root ∧ e.2.name = Document.nestedKey)
  policies : ∀ e ∈ T.entries, e.2.Fits (Json.Reader.maxDepth - 2)

theorem ofText?_of_topObject {text : String} {members : OrderedMap Json} {rest : List Char}
    (htop : Json.Reader.topObject text.toList = .ok (members, rest))
    (hfinish : Json.Reader.finish rest = .ok ()) :
    ofText? text = (ofMembers? members).mapError .entry := by
  have hrest : (Json.Reader.finish rest).mapError (Json.Stop.map Json.ObjectFault.malformed) =
      .ok () := mapError_eq_ok_iff.mpr hfinish
  simp only [ofText?, htop, bind, Except.bind, hrest]
  rfl

/-- A text is an object to its end, or refused before any entry is looked at. -/
theorem topObject_or_text_fault (text : String) :
    (∃ members rest, Json.Reader.topObject text.toList = .ok (members, rest) ∧
      Json.Reader.finish rest = .ok ()) ∨ ∃ fault, ofText? text = .error (.text fault) := by
  unfold ofText?
  simp only
  split
  · exact .inr ⟨_, rfl⟩
  next members hobject =>
    obtain ⟨⟨m, rest⟩, htop, hobject⟩ := bind_eq_ok_iff.mp hobject
    obtain ⟨⟨⟩, hfinish, -⟩ := bind_eq_ok_iff.mp hobject
    exact .inl ⟨m, rest, htop, mapError_eq_ok_iff.mp hfinish⟩

theorem exists_members_of_ofText? {text : String} {T : Table} (h : ofText? text = .ok T) :
    ∃ members rest, Json.Reader.topObject text.toList = .ok (members, rest) ∧
      ofMembers? members = .ok T := by
  rcases topObject_or_text_fault text with ⟨members, rest, htop, hfinish⟩ | ⟨fault, hfault⟩
  · rw [ofText?_of_topObject htop hfinish] at h
    exact ⟨members, rest, htop, mapError_eq_ok_iff.mp h⟩
  · rw [hfault] at h
    cases h

theorem exists_describes_of_ofText? {text : String} {T : Table} (h : ofText? text = .ok T) :
    ∃ members rest, Json.Reader.topObject text.toList = .ok (members, rest) ∧
      Describes members.entries T.entries := by
  obtain ⟨members, rest, htop, hmembers⟩ := exists_members_of_ofText? h
  have hkeys : ∀ m ∈ members.entries, m.2.DistinctKeys := fun m hm =>
    (Json.Reader.bounded_of_topObject htop hm).distinctKeys
  exact ⟨members, rest, htop, (ofMembers?_eq_ok_iff hkeys).mp hmembers⟩

theorem not_reserved_of_ofText? {text : String} {T : Table} (h : ofText? text = .ok T) :
    ∀ e ∈ T.entries, ¬(e.2.region = .root ∧ e.2.name = Document.nestedKey) := by
  obtain ⟨members, rest, -, hdescribes⟩ := exists_describes_of_ofText? h
  exact fun e he hplace => hdescribes.unreserved e he (Prod.ext hplace.1 hplace.2)

/-- What a table text holds has room for two brackets less than the text. -/
theorem fits_of_ofText? {text : String} {T : Table} (h : ofText? text = .ok T)
    (hi : Json.IntegersOnly text) : T.Fits := by
  obtain ⟨members, rest, htop, hdescribes⟩ := exists_describes_of_ofText? h
  constructor
  case reserved => exact not_reserved_of_ofText? h
  case policies =>
    intro e he
    obtain ⟨m, hm, -, hform⟩ := exists_mem_of_forall₂ hdescribes.forms he
    have hv := Json.Reader.readable_of_topObject htop hm (hi members rest htop m hm)
    exact Descriptor.fits_of_form hform hv

end Table

end OptionDefaults
