import OptionDefaults.Policy.WireForm
import OptionDefaults.Proofs.Outcomes

/-!
# Values that are policies

An object is a condition by its members alone: exactly a string `option` and an object `conditions`,
in either order. Every other value stands for itself, so only a condition can be malformed, and a
list of rules by its first malformed item or by having none. What is accepted is written again as a
value that is read as the same policy.
-/

namespace OptionDefaults

namespace Rule

inductive Conditional (option : String) (conditions : List (String × Json)) : Json → Prop
  | optionFirst : Conditional option conditions
      (.object [("option", .string option), ("conditions", .object conditions)])
  | conditionsFirst : Conditional option conditions
      (.object [("conditions", .object conditions), ("option", .string option)])

def pairJson (pair : Json × Json) : Json := .array [pair.1, pair.2]

/-- The value is a form of the rule. A condition with `defined` asks for presence, whatever else it
has, and one without it compares values. -/
inductive Form : Json → Rule → Prop
  | literal {v : Json} : (∀ option conditions, ¬Conditional option conditions v) →
      Form v (.literal v)
  | presence {v defined : Json} {option : String} {conditions : List (String × Json)} :
      Conditional option conditions v → Json.member? "defined" conditions = some defined →
      Form v (.presence option defined (Json.member? "notDefined" conditions))
  | multiValue {v : Json} {option : String} {conditions : List (String × Json)}
      {pairs : List (Json × Json)} :
      Conditional option conditions v → Json.member? "defined" conditions = none →
      Json.member? "values" conditions = some (.array (pairs.map pairJson)) →
      Form v (.multiValue option pairs (Json.member? "otherwise" conditions))

inductive MalformedPair (option : String) : Json → PolicyFault → Prop
  | notAnArray {found : Json} : found.isArray = false →
      MalformedPair option found (.pairNotAnArray option found)
  | length {items : List Json} : items.length ≠ 2 →
      MalformedPair option (.array items) (.pairLength option items.length)

inductive Malformed : Json → PolicyFault → Prop
  | noBranch {v : Json} {option : String} {conditions : List (String × Json)} :
      Conditional option conditions v → Json.member? "defined" conditions = none →
      Json.member? "values" conditions = none → Malformed v (.noBranch option)
  | notAnArray {v found : Json} {option : String} {conditions : List (String × Json)} :
      Conditional option conditions v → Json.member? "defined" conditions = none →
      Json.member? "values" conditions = some found → found.isArray = false →
      Malformed v (.pairsNotAnArray option found)
  | badPair {v bad : Json} {option : String} {conditions : List (String × Json)}
      {before after : List Json} {fault : PolicyFault} :
      Conditional option conditions v → Json.member? "defined" conditions = none →
      Json.member? "values" conditions = some (.array (before ++ bad :: after)) →
      (∀ item ∈ before, ∃ pair, item = pairJson pair) → MalformedPair option bad fault →
      Malformed v fault

variable {v : Json} {rule : Rule} {option : String} {conditions : List (String × Json)}
variable {fault : PolicyFault}

theorem Conditional.ofJson?_eq (h : Conditional option conditions v) :
    ofJson? v = ofConditions? option conditions := by
  cases h <;> rfl

theorem exists_conditional_of_isConditional {members : List (String × Json)}
    (h : isConditional members = true) :
    ∃ option conditions, Conditional option conditions (.object members) := by
  simp only [isConditional, Bool.and_eq_true, beq_iff_eq, Option.any_eq_true] at h
  obtain ⟨⟨hlength, o, ho, hstring⟩, c, hc, hobject⟩ := h
  -- Two keys are there and only two members, so that no key is repeated and there is no other.
  obtain ⟨m, n, rfl⟩ := List.length_eq_two.mp hlength
  obtain ⟨option, rfl⟩ : ∃ option, o = .string option := by
    cases o <;> first | exact ⟨_, rfl⟩ | cases hstring
  obtain ⟨conditions, rfl⟩ : ∃ conditions, c = .object conditions := by
    cases c <;> first | exact ⟨_, rfl⟩ | cases hobject
  have hm := Json.mem_of_member? ho
  have hn := Json.mem_of_member? hc
  simp only [List.mem_cons, List.not_mem_nil, or_false] at hm hn
  refine ⟨option, conditions, ?_⟩
  rcases hm with rfl | rfl
  · obtain rfl := hn.resolve_left (by simp)
    exact .optionFirst
  · obtain rfl := hn.resolve_right (by simp)
    exact .conditionsFirst

theorem ofJson?_of_not_conditional
    (h : ∀ option conditions, ¬Conditional option conditions v) : ofJson? v = .ok (.literal v) := by
  cases v with
  | object members =>
    have hnot : ¬isConditional members = true := by
      intro hc
      obtain ⟨option, conditions, hv⟩ := exists_conditional_of_isConditional hc
      exact h option conditions hv
    rw [ofJson?, if_neg hnot]
  | _ => rfl

theorem pairOfJson?_eq_ok_iff {pair : Json × Json} :
    pairOfJson? option v = .ok pair ↔ v = pairJson pair := by
  obtain ⟨compared, result⟩ := pair
  constructor
  · intro h
    unfold pairOfJson? at h
    split at h <;> cases h
    rfl
  · rintro rfl
    rfl

theorem pairOfJson?_eq_error_iff :
    pairOfJson? option v = .error fault ↔ MalformedPair option v fault := by
  constructor
  · intro h
    unfold pairOfJson? at h
    split at h <;> cases h
    next items hitems =>
      refine .length fun hlength => ?_
      obtain ⟨compared, result, rfl⟩ := List.length_eq_two.mp hlength
      exact hitems compared result rfl
    next hpair hitems =>
      refine .notAnArray ?_
      cases v with
      | array items => exact absurd rfl (hitems items)
      | _ => rfl
  · intro h
    cases h with
    | notAnArray hfound => cases v <;> first | rfl | cases hfound
    | @length items hlength =>
      unfold pairOfJson?
      split
      next hitems =>
        cases hitems
        exact absurd rfl hlength
      next hitems =>
        cases hitems
        rfl
      next hnot => exact absurd rfl (hnot items)

theorem forall₂_pairJson_iff {items : List Json} {pairs : List (Json × Json)} :
    List.Forall₂ (fun item pair => item = pairJson pair) items pairs ↔
      items = pairs.map pairJson := by
  rw [← List.forall₂_map_right_iff, List.forall₂_eq_eq_eq]

theorem mapM_pairOfJson?_eq_ok_iff {items : List Json} {pairs : List (Json × Json)} :
    items.mapM (pairOfJson? option) = .ok pairs ↔ items = pairs.map pairJson := by
  rw [mapM_eq_ok_iff]
  simp only [pairOfJson?_eq_ok_iff, forall₂_pairJson_iff]

theorem Malformed.ne_notConditional (h : Malformed v fault) : fault ≠ .notConditional := by
  rintro rfl
  cases h with
  | badPair _ _ _ _ hbad => cases hbad

theorem ofConditions?_of_defined {defined : Json}
    (hdefined : Json.member? "defined" conditions = some defined) :
    ofConditions? option conditions =
      .ok (.presence option defined (Json.member? "notDefined" conditions)) := by
  rw [ofConditions?, hdefined]

theorem ofConditions?_of_values {items : List Json}
    (hdefined : Json.member? "defined" conditions = none)
    (hvalues : Json.member? "values" conditions = some (.array items)) :
    ofConditions? option conditions = (items.mapM (pairOfJson? option)).map fun pairs =>
      .multiValue option pairs (Json.member? "otherwise" conditions) := by
  rw [ofConditions?, hdefined, hvalues]

theorem ofJson?_of_form (h : Form v rule) : ofJson? v = .ok rule := by
  cases h with
  | literal hnot => exact ofJson?_of_not_conditional hnot
  | presence hc hdefined => rw [hc.ofJson?_eq, ofConditions?_of_defined hdefined]
  | multiValue hc hdefined hvalues =>
    rw [hc.ofJson?_eq, ofConditions?_of_values hdefined hvalues, mapM_pairOfJson?_eq_ok_iff.mpr rfl]
    rfl

theorem ofJson?_of_malformed (h : Malformed v fault) : ofJson? v = .error fault := by
  cases h with
  | noBranch hc hdefined hvalues => rw [hc.ofJson?_eq, ofConditions?, hdefined, hvalues]
  | @notAnArray found _ _ hc hdefined hvalues hfound =>
    rw [hc.ofJson?_eq, ofConditions?, hdefined, hvalues]
    cases found <;> first | rfl | cases hfound
  | @badPair bad option _ before after _ hc hdefined hvalues hbefore hbad =>
    have hitems : (before ++ bad :: after).mapM (pairOfJson? option) = .error fault := by
      refine mapM_eq_error_iff.mpr ⟨before, bad, after, rfl, ?_, pairOfJson?_eq_error_iff.mpr hbad⟩
      intro item hitem
      obtain ⟨pair, hpair⟩ := hbefore item hitem
      exact ⟨pair, pairOfJson?_eq_ok_iff.mpr hpair⟩
    rw [hc.ofJson?_eq, ofConditions?_of_values hdefined hvalues, hitems]
    rfl

theorem form_or_malformed (v : Json) : (∃ rule, Form v rule) ∨ ∃ fault, Malformed v fault := by
  by_cases hnot : ∀ option conditions, ¬Conditional option conditions v
  · exact .inl ⟨_, .literal hnot⟩
  · simp only [not_forall, not_not] at hnot
    obtain ⟨option, conditions, hc⟩ := hnot
    cases hdefined : Json.member? "defined" conditions with
    | some defined => exact .inl ⟨_, .presence hc hdefined⟩
    | none =>
      cases hvalues : Json.member? "values" conditions with
      | none => exact .inr ⟨_, .noBranch hc hdefined hvalues⟩
      | some found =>
        cases found with
        | array items =>
          cases hitems : items.mapM (pairOfJson? option) with
          | ok pairs =>
            rw [mapM_pairOfJson?_eq_ok_iff.mp hitems] at hvalues
            exact .inl ⟨_, .multiValue hc hdefined hvalues⟩
          | error fault =>
            obtain ⟨before, bad, after, rfl, hbefore, hbad⟩ := mapM_eq_error_iff.mp hitems
            have hpairs : ∀ item ∈ before, ∃ pair, item = pairJson pair := fun item hitem =>
              (hbefore item hitem).imp fun _ => pairOfJson?_eq_ok_iff.mp
            have hfault := pairOfJson?_eq_error_iff.mp hbad
            exact .inr ⟨fault, .badPair hc hdefined hvalues hpairs hfault⟩
        | _ => exact .inr ⟨_, .notAnArray hc hdefined hvalues rfl⟩

theorem ofJson?_iff (v : Json) : (∀ rule, ofJson? v = .ok rule ↔ Form v rule) ∧
    ∀ fault, ofJson? v = .error fault ↔ Malformed v fault :=
  outcome_iff (fun _ => ofJson?_of_form) (fun _ => ofJson?_of_malformed) (form_or_malformed v)

/-! ## Written rules -/

theorem conditional_conditionalJson (option : String) (conditions : List (String × Json)) :
    Conditional option conditions (conditionalJson option conditions) :=
  .optionFirst

/-- A branch that may be left out is found behind another one. -/
theorem member?_branch {key other : String} (h : key ≠ other) (v : Json) (branch : Option Json) :
    Json.member? key ((other, v) :: (branch.map (key, ·)).toList) = branch := by
  rw [Json.member?, OrderedMap.lookup_cons_ite, if_neg h]
  cases branch <;> simp

theorem isArray_toJson (h : Form v rule) (hv : v.isArray = false) :
    rule.toJson.isArray = false := by
  cases h with
  | literal => exact hv
  | presence => rfl
  | multiValue => rfl

theorem Form.toJson (h : Form v rule) : Form rule.toJson rule := by
  cases h with
  | literal hnot => exact .literal hnot
  | @presence defined option conditions hc hdefined =>
    generalize Json.member? "notDefined" conditions = notDefined
    have hform := Form.presence (conditional_conditionalJson option
      (("defined", defined) :: (notDefined.map ("notDefined", ·)).toList)) rfl
    rw [member?_branch (by decide)] at hform
    exact hform
  | @multiValue option conditions pairs hc hdefined hvalues =>
    generalize Json.member? "otherwise" conditions = otherwise
    have hform := Form.multiValue (conditional_conditionalJson option
      (("values", .array (pairs.map pairJson)) :: (otherwise.map ("otherwise", ·)).toList))
      (by cases otherwise <;> rfl) rfl
    rw [member?_branch (by decide)] at hform
    exact hform

theorem forall₂_form_toJson {items : List Json} {rules : List Rule}
    (h : List.Forall₂ Form items rules) : List.Forall₂ Form (rules.map Rule.toJson) rules := by
  induction h with
  | nil => exact .nil
  | cons hrule _ ih => exact .cons hrule.toJson ih

/-! ## Acceptable values -/

/-- The values that are rules: those that are no conditions, and of the conditions those with
`defined` and those with an array of pairs as `values`. -/
def Acceptable (v : Json) : Prop :=
  (∀ option conditions, ¬Conditional option conditions v) ∨
    ∃ option conditions, Conditional option conditions v ∧
      ((Json.member? "defined" conditions).isSome = true ∨
        ∃ items, Json.member? "values" conditions = some (.array items) ∧
          ∀ item ∈ items, ∃ compared result, item = .array [compared, result])

theorem exists_form_iff : (∃ rule, Form v rule) ↔ Acceptable v := by
  constructor
  · rintro ⟨rule, h⟩
    cases h with
    | literal hnot => exact .inl hnot
    | presence hc hdefined => exact .inr ⟨_, _, hc, .inl (Option.isSome_of_eq_some hdefined)⟩
    | multiValue hc hdefined hvalues =>
      refine .inr ⟨_, _, hc, .inr ⟨_, hvalues, ?_⟩⟩
      intro item hitem
      obtain ⟨pair, -, rfl⟩ := List.mem_map.mp hitem
      exact ⟨pair.1, pair.2, rfl⟩
  · rintro (hnot | ⟨option, conditions, hc, hbranch⟩)
    · exact ⟨_, .literal hnot⟩
    · cases hdefined : Json.member? "defined" conditions with
      | some defined => exact ⟨_, .presence hc hdefined⟩
      | none =>
        obtain ⟨items, hvalues, hitems⟩ := hbranch.resolve_left (by simp [hdefined])
        have hpair : ∀ item ∈ items, ∃ pair, item = pairJson pair := fun item hitem => by
          obtain ⟨compared, result, hitem⟩ := hitems item hitem
          exact ⟨(compared, result), hitem⟩
        obtain ⟨pairs, hpairs⟩ := exists_forall₂_iff.mpr hpair
        rw [forall₂_pairJson_iff.mp hpairs] at hvalues
        exact ⟨_, .multiValue hc hdefined hvalues⟩

theorem exists_ofJson?_iff : (∃ rule, ofJson? v = .ok rule) ↔ Acceptable v := by
  simp only [(ofJson?_iff v).1, exists_form_iff]

end Rule

namespace Policy

inductive Form : Json → Policy → Prop
  | single {v : Json} {rule : Rule} : v.isArray = false → Rule.Form v rule → Form v (.single rule)
  | merged {items : List Json} {rules : List Rule} : items ≠ [] →
      List.Forall₂ Rule.Form items rules → Form (.array items) (.merged rules)

/-- The value is no form of a policy: a malformed rule, or a list of rules that is empty or has a
first malformed item. -/
inductive Malformed : Json → PolicyFault → Prop
  | noRules : Malformed (.array []) .noRules
  | single {v : Json} {fault : PolicyFault} : v.isArray = false → Rule.Malformed v fault →
      Malformed v fault
  | badItem {before after : List Json} {bad : Json} {fault : PolicyFault} :
      (∀ item ∈ before, Rule.Acceptable item) → Rule.Malformed bad fault →
      Malformed (.array (before ++ bad :: after)) fault

def Acceptable (v : Json) : Prop :=
  (v.isArray = false ∧ Rule.Acceptable v) ∨
    ∃ items, v = .array items ∧ items ≠ [] ∧ ∀ item ∈ items, Rule.Acceptable item

variable {v : Json} {policy : Policy} {fault : PolicyFault}

theorem ofJson?_of_not_isArray (h : v.isArray = false) :
    ofJson? v = (Rule.ofJson? v).map .single := by
  cases v <;> first | rfl | cases h

theorem ofJson?_array {items : List Json} (h : items ≠ []) :
    ofJson? (.array items) = (items.mapM Rule.ofJson?).map .merged := by
  cases items with
  | nil => exact absurd rfl h
  | cons item items => rfl

theorem ofJson?_of_form (h : Form v policy) : ofJson? v = .ok policy := by
  cases h with
  | single hv hrule => rw [ofJson?_of_not_isArray hv, Rule.ofJson?_of_form hrule, Except.map]
  | merged hne hrules =>
    have hread := mapM_eq_ok_iff.mpr (hrules.imp fun _ _ => Rule.ofJson?_of_form)
    rw [ofJson?_array hne, hread, Except.map]

theorem ofJson?_of_malformed (h : Malformed v fault) : ofJson? v = .error fault := by
  cases h with
  | noRules => rfl
  | single hv hbad => rw [ofJson?_of_not_isArray hv, Rule.ofJson?_of_malformed hbad, Except.map]
  | @badItem before after bad _ hbefore hbad =>
    have hread : (before ++ bad :: after).mapM Rule.ofJson? = .error fault :=
      mapM_eq_error_iff.mpr ⟨before, bad, after, rfl,
        fun item hitem => Rule.exists_ofJson?_iff.mpr (hbefore item hitem),
        Rule.ofJson?_of_malformed hbad⟩
    rw [ofJson?_array (by simp), hread, Except.map]

theorem form_or_malformed (v : Json) :
    (∃ policy, Form v policy) ∨ ∃ fault, Malformed v fault := by
  cases harray : v.isArray with
  | false =>
    rcases Rule.form_or_malformed v with ⟨rule, hrule⟩ | ⟨fault, hbad⟩
    · exact .inl ⟨_, .single harray hrule⟩
    · exact .inr ⟨fault, .single harray hbad⟩
  | true =>
    obtain ⟨items, rfl⟩ : ∃ items, v = .array items := by
      cases v <;> first | exact ⟨_, rfl⟩ | cases harray
    by_cases hne : items = []
    · subst hne
      exact .inr ⟨_, .noRules⟩
    · cases hread : items.mapM Rule.ofJson? with
      | ok rules =>
        have hrules := (mapM_eq_ok_iff.mp hread).imp fun v rule => ((Rule.ofJson?_iff v).1 rule).mp
        exact .inl ⟨_, .merged hne hrules⟩
      | error fault =>
        obtain ⟨before, bad, after, rfl, hbefore, hbad⟩ := mapM_eq_error_iff.mp hread
        have hitems : ∀ item ∈ before, Rule.Acceptable item := fun item hitem =>
          Rule.exists_ofJson?_iff.mp (hbefore item hitem)
        exact .inr ⟨fault, .badItem hitems (((Rule.ofJson?_iff bad).2 fault).mp hbad)⟩

/-- Reading a value gives the policy of which it is a form, or the fault with which it is malformed.
-/
theorem ofJson?_iff (v : Json) : (∀ policy, ofJson? v = .ok policy ↔ Form v policy) ∧
    ∀ fault, ofJson? v = .error fault ↔ Malformed v fault :=
  outcome_iff (fun _ => ofJson?_of_form) (fun _ => ofJson?_of_malformed) (form_or_malformed v)

theorem exists_form_iff : (∃ policy, Form v policy) ↔ Acceptable v := by
  constructor
  · rintro ⟨policy, h⟩
    cases h with
    | single hv hrule => exact .inl ⟨hv, Rule.exists_form_iff.mp ⟨_, hrule⟩⟩
    | @merged items rules hne hrules =>
      have hitems := exists_forall₂_iff.mp ⟨rules, hrules⟩
      exact .inr ⟨items, rfl, hne, fun item hitem => Rule.exists_form_iff.mp (hitems item hitem)⟩
  · rintro (⟨hv, hrule⟩ | ⟨items, rfl, hne, hitems⟩)
    · obtain ⟨rule, hrule⟩ := Rule.exists_form_iff.mpr hrule
      exact ⟨_, .single hv hrule⟩
    · obtain ⟨rules, hrules⟩ := exists_forall₂_iff.mpr fun item hitem =>
        Rule.exists_form_iff.mpr (hitems item hitem)
      exact ⟨_, .merged hne hrules⟩

theorem Form.rules_ne_nil (h : Form v policy) : policy.rules ≠ [] := by
  cases h with
  | single => exact List.cons_ne_nil _ _
  | merged hne hrules =>
    rintro rfl
    cases hrules
    exact hne rfl

theorem Form.toJson (h : Form v policy) : Form policy.toJson policy := by
  cases h with
  | single hv hrule => exact .single (Rule.isArray_toJson hrule hv) hrule.toJson
  | @merged items rules hne hrules =>
    refine .merged ?_ (Rule.forall₂_form_toJson hrules)
    cases hrules with
    | nil => exact absurd rfl hne
    | cons => exact List.cons_ne_nil _ _

end Policy

/-! ## Messages -/

namespace PolicyFault

theorem exists_start_of_message {fault : PolicyFault} (h : fault ≠ .notConditional) :
    ∃ start ∈ [noRules.message, "conditions on `", "`values` for `", "value pair for `"],
      start.toList <+: fault.message.toList := by
  cases fault with
  | notConditional => exact absurd rfl h
  | noRules => exact ⟨_, .head _, List.prefix_rfl⟩
  | _ =>
    unfold message
    simp only [toString, String.toList_append, List.append_assoc]
    refine ⟨_, ?_, List.prefix_append _ _⟩
    decide

theorem eq_notConditional_of_message {fault : PolicyFault}
    (h : fault.message = notConditional.message) : fault = .notConditional := by
  by_contra hne
  obtain ⟨start, hstart, hprefix⟩ := exists_start_of_message hne
  rw [h] at hprefix
  revert start
  decide

end PolicyFault

namespace Policy

theorem Malformed.ne_notConditional {v : Json} {fault : PolicyFault} (h : Malformed v fault) :
    fault ≠ .notConditional := by
  cases h with
  | noRules => exact PolicyFault.noConfusion
  | single _ hbad => exact hbad.ne_notConditional
  | badItem _ hbad => exact hbad.ne_notConditional

/-- What is read as a policy. The values that are accepted are those of the grammar, with the policy
of which they are a form, and all others are refused with the fault of the rule, or of the first
malformed rule of a list. The fault of an object that is no condition is never the answer. What was
read is written as a value that is read as the same policy. -/
theorem ofJson?_accepts_written_forms :
    (∀ v, (∃ policy, ofJson? v = .ok policy) ↔ Acceptable v) ∧
    (∀ v policy, ofJson? v = .ok policy ↔ Form v policy) ∧
    (∀ v fault, ofJson? v = .error fault ↔ Malformed v fault) ∧
    (∀ v fault, ofJson? v = .error fault →
      fault.message ≠ "condition needs a string `option` and a `conditions` object") ∧
    ∀ v policy, ofJson? v = .ok policy → ofJson? policy.toJson = .ok policy := by
  refine ⟨fun v => ?_, fun v => (ofJson?_iff v).1, fun v => (ofJson?_iff v).2, ?_, ?_⟩
  · simp only [(ofJson?_iff v).1, exists_form_iff]
  · intro v fault h hmessage
    have hbad := ((ofJson?_iff v).2 fault).mp h
    exact hbad.ne_notConditional (PolicyFault.eq_notConditional_of_message hmessage)
  · intro v policy h
    have hform := ((ofJson?_iff v).1 policy).mp h
    exact ofJson?_of_form hform.toJson

/-- A literal that is nearly a condition, and a condition whose branches are `null`. -/
def nearAndNull : Json :=
  .array [.object [("option", .string "files")],
    .object [("conditions", .object [("values", .null), ("defined", .null), ("notDefined", .null)]),
      ("option", .string "files")]]

/-- The second rule has neither branch, and the third one no array of pairs. -/
def withoutBranch : Json :=
  .array [.null, Rule.conditionalJson "x" [("otherwise", .null)],
    Rule.conditionalJson "y" [("values", .null)]]

theorem nearAndNull_written_again :
    let policy : Policy :=
      .merged [.literal (.object [("option", .string "files")]),
        .presence "files" .null (some .null)]
    ofJson? nearAndNull = .ok policy ∧ Acceptable nearAndNull ∧ ofJson? policy.toJson = .ok policy ∧
      ofJson? withoutBranch = .error (.noBranch "x") ∧ ¬Acceptable withoutBranch ∧
      (PolicyFault.noBranch "x").message ≠
        "condition needs a string `option` and a `conditions` object" := by
  intro policy
  have hgood : ofJson? nearAndNull = .ok policy := by rfl
  have hbad : ofJson? withoutBranch = .error (.noBranch "x") := by rfl
  obtain ⟨hacceptable, -, -, hmessage, hagain⟩ := ofJson?_accepts_written_forms
  refine ⟨hgood, (hacceptable _).mp ⟨policy, hgood⟩, hagain _ policy hgood, hbad, ?_,
    hmessage _ _ hbad⟩
  rw [← hacceptable, hbad]
  simp

end Policy

end OptionDefaults
