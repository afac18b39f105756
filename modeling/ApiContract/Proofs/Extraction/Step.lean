import ApiContract.Proofs.Extraction.Walk

namespace ApiContract.Extraction

/-- What a rule puts in the place of a schema. The schema of a response leaves its description and
whether it may be null. -/
def written (place : Place) (old : Schema) (name : String) : Schema :=
  if place.route = [] then
    { Schema.referTo name with description := old.description, nullable := old.nullable }
  else .referTo name

/-- Everything that a rule can do to a document, and its answer. -/
inductive Applies (d : Document) (rule : Rule) : Document → Except Fault Outcome → Prop
  | lost {fault : Fault} : slotOf d rule = .error fault → Applies d rule d (.error fault)
  | alreadyReferenced {place : Place} {s : Schema} :
      slotOf d rule = .ok place → d.schemaAt? place = some s →
      s.referenceName = some rule.definition → Applies d rule d (.ok .alreadyReferenced)
  | conflict {place : Place} {s existing : Schema} :
      slotOf d rule = .ok place → d.schemaAt? place = some s →
      s.referenceName ≠ some rule.definition →
      d.definitions.find? rule.definition = some existing →
      canonicalText existing ≠ canonicalText s →
      Applies d rule d
        (.error (.conflict rule.definition (canonicalText existing) (canonicalText s)))
  | reused {place : Place} {s existing : Schema} :
      slotOf d rule = .ok place → d.schemaAt? place = some s →
      s.referenceName ≠ some rule.definition →
      d.definitions.find? rule.definition = some existing →
      canonicalText existing = canonicalText s →
      Applies d rule (d.put place (written place s rule.definition)) (.ok .reused)
  | inserted {place : Place} {s : Schema} :
      slotOf d rule = .ok place → d.schemaAt? place = some s →
      s.referenceName ≠ some rule.definition →
      d.definitions.find? rule.definition = none →
      Applies d rule ((d.put place (written place s rule.definition)).define rule.definition s)
        (.ok .inserted)

variable {d d' : Document} {rule : Rule} {o : Origin} {root s t : Schema} {slot : Slot}
  {place : Place} {name : String} {result : Except Fault Outcome}

theorem replaced_eq (hr : d.rootSchema? (o.root rule) = some root)
    (hs : root.at? slot.route = some s) (hk : slot.kind = .root ↔ slot.route = []) :
    o.setSchema d rule (slot.replace root (.referTo name)) =
      d.put ⟨o.root rule, slot.route⟩ (written ⟨o.root rule, slot.route⟩ s name) := by
  have ha : slot.adapt root (.referTo name) = written ⟨o.root rule, slot.route⟩ s name := by
    by_cases hn : slot.route = []
    · rw [hn] at hs
      cases hs
      simp [Slot.adapt, written, hk.mpr hn, hn]
    · have hk : slot.kind ≠ .root := fun he => hn (hk.mp he)
      simp only [Slot.adapt, written, hn]
      split <;> simp_all
  rw [setSchema_eq, Slot.replace, ha, Document.put_of_rootSchema? hr]

theorem applies_factor (hslot : slotOf d rule = .ok ⟨o.root rule, slot.route⟩)
    (hr : d.rootSchema? (o.root rule) = some root) (hs : root.at? slot.route = some s)
    (hk : slot.kind = .root ↔ slot.route = []) :
    Applies d rule (factor d rule o root slot s).1 (factor d rule o root slot s).2 := by
  have hat : d.schemaAt? ⟨o.root rule, slot.route⟩ = some s := by
    simp [Document.schemaAt?, hr, hs]
  unfold factor
  rw [replaced_eq hr hs hk]
  split
  · exact .alreadyReferenced hslot hat ‹_›
  · rename_i hne
    cases he : d.definitions.find? rule.definition with
    | none => exact .inserted hslot hat hne he
    | some existing =>
      by_cases ht : canonicalText existing = canonicalText s
      · simpa [ht] using Applies.reused hslot hat hne he ht
      · simpa [ht] using Applies.conflict hslot hat hne he ht

theorem applies (d : Document) (rule : Rule) :
    Applies d rule (applyRule d rule).document (applyRule d rule).result := by
  rcases hw : walk d rule (splitSteps rule.property) (stations d (splitSteps rule.property))
    ⟨none, 0⟩ with ⟨log, found⟩
  cases found with
  | error fault =>
    have hslot : slotOf d rule = .error fault := by simp [slotOf, slotFrom, hw]
    simpa [applyRule, hw] using Applies.lost hslot
  | ok o =>
    cases hr : o.schema d rule with
    | error fault =>
      have hslot : slotOf d rule = .error fault := by simp [slotOf, slotFrom, hw, hr]
      simpa [applyRule, hw, hr] using Applies.lost hslot
    | ok root =>
      cases hl : locate root ((splitSteps rule.property).drop o.offset) with
      | error cause =>
        have hslot : slotOf d rule = .error (.property rule cause) := by
          simp [slotOf, slotFrom, hw, hr, hl]
        simpa [applyRule, hw, hr, hl] using Applies.lost hslot
      | ok slot =>
        have hslot : slotOf d rule = .ok ⟨o.root rule, slot.route⟩ := by
          simp [slotOf, slotFrom, hw, hr, hl]
        obtain ⟨s, hs⟩ := located_of_locateFrom hl
        have hat : root.at? slot.route = some s := hs.at? rfl
        have hk := (hs.kind (by simp)).1
        simpa [applyRule, hw, hr, hl, Slot.schema?, hat] using
          applies_factor hslot (schema_eq_ok.mp hr) hat hk

/-- A rule can do one thing only. -/
theorem Applies.unique {d'' : Document} {result' : Except Fault Outcome}
    (h : Applies d rule d' result) (h' : Applies d rule d'' result') :
    d' = d'' ∧ result = result' := by
  cases h with
  | lost hslot => cases h' <;> simp_all
  | alreadyReferenced hslot hs hname => cases h' <;> simp_all
  | conflict hslot hs hne he ht => cases h' <;> simp_all
  | reused hslot hs hne he ht => cases h' <;> simp_all
  | inserted hslot hs hne hn => cases h' <;> simp_all

theorem Applies.applyRule_eq (h : Applies d rule d' result) :
    (applyRule d rule).document = d' ∧ (applyRule d rule).result = result :=
  (applies d rule).unique h

theorem Applies.exists_slot {outcome : Outcome} (h : Applies d rule d' (.ok outcome)) :
    ∃ place, slotOf d rule = .ok place := by
  cases h with
  | alreadyReferenced hslot | reused hslot | inserted hslot => exact ⟨_, hslot⟩

theorem referenceName_referTo (name : String) :
    (Schema.referTo name).referenceName = some name := by
  have hne : definitionsRoot ++ name ≠ "" := by
    intro he
    have hl := congrArg String.length he
    simp [definitionsRoot, String.length_append] at hl
  simp [Schema.referenceName, Schema.referTo, ApiContract.referenceName, hne, withoutStart,
    Text.dropStart?_append]

theorem referenceName_written (place : Place) (old : Schema) (name : String) :
    (written place old name).referenceName = some name := by
  unfold written
  split <;> exact referenceName_referTo name

/-- What is written is a reference that holds no other schema. -/
theorem every_written {P : Schema → Prop} (h : P (written place s name)) :
    (written place s name).Every P := by
  have hp : (written place s name).properties = [] := by unfold written; split <;> rfl
  have hi : (written place s name).items = none := by unfold written; split <;> rfl
  intro t ht
  cases ht with
  | self => exact h
  | property hm => simp [hp] at hm
  | items he => simp [hi] at he
  | tuple he => simp [hi] at he

theorem Applies.every {P : Schema → Prop} (hP : Shallow P) (h : Applies d rule d' result)
    (hd : d.Every P) (hw : ∀ place s, P (written place s rule.definition)) : d'.Every P := by
  cases h with
  | lost | alreadyReferenced | conflict => exact hd
  | reused _ hs => exact hd.put hP hs (every_written (hw _ _))
  | inserted _ hs =>
    exact Document.Every.define (hd.put hP hs (every_written (hw _ _))) (hd.at? hs) _

theorem Applies.bare (h : Applies d rule d' result) (hd : d.Every Schema.Bare) :
    d'.Every Schema.Bare := by
  refine h.every Schema.shallow_bare hd fun place s => Or.inr ?_
  unfold written
  split <;> rfl

/-- No root goes, and none comes but the definition that is inserted. -/
theorem Applies.rootSchema?_eq_none (h : Applies d rule d' result) (root : Root) :
    d'.rootSchema? root = none ↔
      d.rootSchema? root = none ∧
        ¬ (result = .ok .inserted ∧ root = .definition rule.definition) := by
  cases h with
  | lost | alreadyReferenced | conflict => simp
  | reused _ hs => simpa using Document.rootSchema?_put_eq_none hs _
  | inserted _ hs =>
    rw [Document.rootSchema?_define]
    split <;> simp_all [Document.rootSchema?_put_eq_none hs]

theorem Applies.find?_isSome (h : Applies d rule d' result)
    (hn : (d.definitions.find? name).isSome) : (d'.definitions.find? name).isSome := by
  have hnone := h.rootSchema?_eq_none (.definition name)
  simp only [Document.rootSchema?] at hnone
  rw [Option.isSome_iff_ne_none, Ne, hnone]
  exact fun h => Option.isSome_iff_ne_none.mp hn h.1

/-- The answers of the rules, up to the first that fails. -/
def answers (d : Document) : List Rule → List (Except Fault Outcome)
  | [] => []
  | rule :: rest =>
    match (applyRule d rule).result with
    | .error fault => [.error fault]
    | .ok outcome => .ok outcome :: answers (applyRule d rule).document rest

/-- What every one of some rules keeps, the list of them keeps, wherever it stops. -/
theorem applyRules_keeps_of_mem {P : Document → Prop} {rules : List Rule}
    (hstep : ∀ rule ∈ rules, ∀ d d' result, Applies d rule d' result → P d → P d') (hd : P d) :
    P (applyRules d rules).document := by
  induction rules generalizing d with
  | nil => exact hd
  | cons rule rest ih =>
    obtain ⟨hrule, hrest⟩ := List.forall_mem_cons.mp hstep
    have hone := hrule d _ _ (applies d rule) hd
    rw [applyRules]
    split
    · exact hone
    · exact ih hrest hone

theorem applyRules_keeps {P : Document → Prop}
    (hstep : ∀ d rule d' result, Applies d rule d' result → P d → P d') (hd : P d)
    (rules : List Rule) : P (applyRules d rules).document :=
  applyRules_keeps_of_mem (fun rule _ d d' result => hstep d rule d' result) hd

theorem extract_document (d : Document) (rules : List Rule) :
    (extract d rules).document = (applyRules d rules).document := by
  simp only [extract]
  split <;> rfl

theorem extract_result (d : Document) (rules : List Rule) :
    (extract d rules).result = (applyRules d rules).result := by
  simp only [extract]
  split <;> rfl

end ApiContract.Extraction
