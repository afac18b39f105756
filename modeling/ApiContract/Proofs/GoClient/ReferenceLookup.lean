import ApiContract.Proofs.Extraction.Step
import ApiContract.Proofs.GoClient.Acceptance

namespace ApiContract.GoClient

open Extraction Naming

/-- By a reference to a name, both the walk of a rule and the type of a value come to the entry that
is stored under this name, or neither comes to one. -/
structure Agreed (d : Document) (name : String) : Prop where
  found : ∀ s, d.definitions.find? name = some s →
    (∀ rule offset, Origin.schema ⟨some name, offset⟩ d rule = .ok s) ∧
    d.definition name = .ok (name, s) ∧
    ∀ draft, definitionType d name draft = (.ok (.named (camelCase name)), draft)
  missing : d.definitions.find? name = none →
    (∀ rule offset, Origin.schema ⟨some name, offset⟩ d rule =
      .error (.property rule (.unknownDefinition name))) ∧
    ∃ other, d.definition name = .error (.unknownDefinition other) ∧
      ∀ draft, definitionType d name draft =
        (.error ⟨[], .unresolved (.unknownDefinition other)⟩, draft)

variable {d : Document} {s t : Schema} {name step : String} {rest : List String}

/-- Both go by the name that a schema refers to, if it refers to one. -/
theorem reference_read (h : s.referenceName = some name) :
    hop? s (step :: rest) = some ⟨name, 0⟩ ∧ s.kind = .reference name :=
  ⟨hopFrom_reference h, Schema.kind_eq_reference_iff.mpr h⟩

theorem withoutStart_ne (h : definitionsRoot.toList <+: name.toList) :
    withoutStart definitionsRoot name ≠ name := by
  obtain ⟨tail, htail⟩ := h
  have hname : withoutStart definitionsRoot name = String.ofList tail := by
    rw [withoutStart, ← htail, Text.dropStart?_append]
  intro hsame
  have hlength := congrArg List.length htail
  rw [← hsame, hname, String.toList_ofList, List.length_append] at hlength
  have hroot : definitionsRoot.toList.length = 14 := by decide
  omega

theorem rule_found (hs : d.definitions.find? name = some s) (rule : Rule) (offset : Nat) :
    Origin.schema ⟨some name, offset⟩ d rule = .ok s := by
  simp [Origin.schema, hs]

theorem rule_missing (hs : d.definitions.find? name = none) (rule : Rule) (offset : Nat) :
    Origin.schema ⟨some name, offset⟩ d rule =
      .error (.property rule (.unknownDefinition name)) := by
  simp [Origin.schema, hs]

/-- A client takes the start of a path off the name, if it is there. -/
theorem definition_found (hs : d.definitions.find? (withoutStart definitionsRoot name) = some s) :
    d.definition name = .ok (withoutStart definitionsRoot name, s) := by
  simp [Document.definition, hs]

theorem definition_missing
    (hs : d.definitions.find? (withoutStart definitionsRoot name) = none) :
    d.definition name = .error (.unknownDefinition (withoutStart definitionsRoot name)) := by
  simp [Document.definition, hs]

theorem definitionType_found {other : String} (h : d.definition name = .ok (other, s))
    (draft : Draft) : definitionType d name draft = (.ok (.named (camelCase other)), draft) := by
  rw [definitionType, h]
  rfl

theorem definitionType_missing {cause : ResolveFault} (h : d.definition name = .error cause)
    (draft : Draft) :
    definitionType d name draft = (.error ⟨[], .unresolved cause⟩, draft) := by
  rw [definitionType, h]
  rfl

theorem agreed_of_not_prefix (h : ¬ definitionsRoot.toList <+: name.toList) : Agreed d name := by
  have hname := withoutStart_of_not_prefix h
  constructor
  case found =>
    intro s hs
    have hrest : d.definitions.find? (withoutStart definitionsRoot name) = some s := by
      rwa [hname]
    have hclient := definition_found hrest
    rw [hname] at hclient
    exact ⟨rule_found hs, hclient, definitionType_found hclient⟩
  case missing =>
    intro hs
    have hrest : d.definitions.find? (withoutStart definitionsRoot name) = none := by
      rwa [hname]
    have hclient := definition_missing hrest
    exact ⟨rule_missing hs, _, hclient, definitionType_missing hclient⟩

theorem agreed_of_missing (hs : d.definitions.find? name = none)
    (hrest : d.definitions.find? (withoutStart definitionsRoot name) = none) : Agreed d name := by
  constructor
  case found =>
    intro s hfound
    rw [hs] at hfound
    cases hfound
  case missing =>
    have hclient := definition_missing hrest
    exact fun hs => ⟨rule_missing hs, _, hclient, definitionType_missing hclient⟩

/-- Of a name that begins like a path a client finds another entry than the one under the name. -/
theorem Agreed.missing_of_prefix (h : Agreed d name)
    (hpath : definitionsRoot.toList <+: name.toList) :
    d.definitions.find? name = none ∧
      d.definitions.find? (withoutStart definitionsRoot name) = none := by
  have hnone : d.definitions.find? name = none := by
    cases hs : d.definitions.find? name with
    | none => rfl
    | some s =>
      have hclient := (h.found s hs).2.1
      cases hrest : d.definitions.find? (withoutStart definitionsRoot name) with
      | none =>
        rw [definition_missing hrest] at hclient
        cases hclient
      | some t =>
        rw [definition_found hrest] at hclient
        exact absurd (Prod.mk.inj (Except.ok.inj hclient)).1 (withoutStart_ne hpath)
  refine ⟨hnone, ?_⟩
  cases hrest : d.definitions.find? (withoutStart definitionsRoot name) with
  | none => rfl
  | some t =>
    obtain ⟨-, other, hclient, -⟩ := h.missing hnone
    rw [definition_found hrest] at hclient
    cases hclient

/-- A reference that is written for a name is read back as the name, rules and clients both go by
the name that a schema refers to, and a rule finds exactly what is stored under it. Both find the
same entry or neither finds one, exactly unless the name begins like the path of a reference and a
definition has this name or what follows the beginning. -/
theorem references_looked_up (d : Document) :
    (∀ name, (Schema.referTo name).referenceName = some name) ∧
    (∀ s name, s.referenceName = some name → ∀ step rest,
      hop? s (step :: rest) = some ⟨name, 0⟩ ∧ s.kind = .reference name) ∧
    (∀ name rule offset, (Origin.schema ⟨some name, offset⟩ d rule).toOption =
      d.definitions.find? name) ∧
    ∀ name, Agreed d name ↔ (definitionsRoot.toList <+: name.toList →
      d.definitions.find? name = none ∧
        d.definitions.find? (withoutStart definitionsRoot name) = none) := by
  refine ⟨referenceName_referTo, fun _ _ h _ _ => reference_read h, ?_, ?_⟩
  · intro name rule offset
    cases hs : d.definitions.find? name with
    | none => rw [rule_missing hs]; rfl
    | some s => rw [rule_found hs]; rfl
  · intro name
    refine ⟨Agreed.missing_of_prefix, fun h => ?_⟩
    by_cases hpath : definitionsRoot.toList <+: name.toList
    · obtain ⟨hs, hrest⟩ := h hpath
      exact agreed_of_missing hs hrest
    · exact agreed_of_not_prefix hpath

namespace Cabinet

def text : Schema := { types := some (.single .string) }

def object : Schema := { types := some (.single .object) }

/-- A definition has the name of another one behind the beginning of a path. -/
def document : Document :=
  { swagger := "2.0"
    definitions := [("#/definitions/X", object), ("A", .referTo "#/definitions/X"), ("X", text)] }

end Cabinet

open Cabinet in
theorem cabinet_looked_up : (Schema.referTo "X").kind = .reference "X" ∧
    Agreed document "X" ∧ Agreed document "#/definitions/Y" := by
  obtain ⟨hwritten, hread, -, hagreed⟩ := references_looked_up document
  refine ⟨(hread _ "X" (hwritten "X") "" []).2, (hagreed "X").mpr ?_,
    (hagreed "#/definitions/Y").mpr ?_⟩
  · intro hpath
    exact absurd hpath (by decide)
  · exact fun _ => ⟨by decide, by decide⟩

open Cabinet in
/-- A rule that comes by the reference goes on in the object, and a client takes the text for it. -/
theorem cabinet_looked_up_twice :
    (Schema.referTo "#/definitions/X").referenceName = some "#/definitions/X" ∧
    (∀ rule offset, Origin.schema ⟨some "#/definitions/X", offset⟩ document rule = .ok object) ∧
    document.definition "#/definitions/X" = .ok ("X", text) ∧
    ¬ Agreed document "#/definitions/X" := by
  refine ⟨referenceName_referTo _, rule_found rfl, rfl, fun h => ?_⟩
  have hnone := (h.missing_of_prefix (by decide)).1
  exact absurd hnone (by decide)

end ApiContract.GoClient
