import ApiContract.Proofs.GoClient.Declarations

namespace ApiContract.GoClient

def Draft.warnings (draft : Draft) : List LogLine := draft.log.filter (·.level = .warn)

open Emit Naming

namespace Emit

variable {α β : Type} {m : Emit α} {f : α → Emit β} {a : α} {first lines : List LogLine}
  {possible : Prop} {added : Members Declaration}

/-- If the step succeeds it has told these warnings, among other lines. -/
def Warns (m : Emit α) (lines : List LogLine) : Prop :=
  ∀ draft a draft', m draft = (.ok a, draft') → draft'.warnings = draft.warnings ++ lines

theorem Warns.bind (hm : Warns m first) (hf : ∀ a, Yields m a → Warns (f a) lines) :
    Warns (m >>= f) (first ++ lines) := by
  intro draft b draft' h
  obtain ⟨a, next, ha, hb⟩ := eq_ok_of_bind h
  rw [hf a ⟨draft, next, ha⟩ next b draft' hb, hm draft a next ha, List.append_assoc]

/-- What follows a step without warnings tells them all. -/
theorem Warns.then (hm : Warns m []) (hf : ∀ a, Yields m a → Warns (f a) lines) :
    Warns (m >>= f) lines :=
  hm.bind hf

/-- What follows the last warnings tells none. -/
theorem Warns.last (hm : Warns m lines) (hf : ∀ a, Yields m a → Warns (f a) []) :
    Warns (m >>= f) lines := by
  rw [← List.append_nil lines]
  exact hm.bind hf

theorem ImportsOnly.warns (h : ImportsOnly m) : Warns m [] := by
  intro draft a draft' hm
  rw [Draft.warnings, (h draft a draft' hm).2, List.append_nil]
  rfl

/-- Declarations are told of without a warning. -/
theorem Declares.warns (h : Declares m possible a added) : Warns m [] := by
  intro draft b draft' hm
  obtain ⟨-, rfl⟩ := h.eq_of_ok hm
  have hnone : (added.names.map declared).filter (·.level = .warn) = [] := by
    simp [declared]
  rw [Draft.warnings, Draft.adding, List.filter_append, hnone]
  rfl

theorem warns_tell (lines : List LogLine) :
    Warns (tell lines) (lines.filter (·.level = .warn)) := by
  intro draft a draft' h
  cases h
  rw [Draft.warnings, List.filter_append]
  rfl

theorem warns_tell_of_warn (h : ∀ l ∈ lines, l.level = .warn) : Warns (tell lines) lines := by
  have hfilter : lines.filter (·.level = .warn) = lines :=
    List.filter_eq_self.mpr (by simpa using h)
  have htell := warns_tell lines
  rwa [hfilter] at htell

end Emit

theorem warns_emitBody (d : Document) (operation : String) (body : Option Parameter) :
    Warns (emitBody d operation body) [] := by
  cases body with
  | none => exact (importsOnly_pure _).warns
  | some p =>
    apply ((declares_bodyType d operation p).within _).warns.then
    intro _ _
    apply (importsOnly_addImport _).warns.then
    intro _ _
    exact (importsOnly_pure _).warns

/-- The warnings of an operation: of parameters that its template leaves out, and of responses. -/
theorem warns_emitOperation (d : Document) (path : String) (method : Method) (item : PathItem)
    (op : Operation) {parameters : List Parameter} {inputs : Inputs}
    (hp : d.operationParameters item op = .ok parameters)
    (hi : sortInputs {} parameters = .ok inputs) :
    Warns (emitOperation d path method item op)
      ((PathTemplate.interpolate path (inputs.path.map Parameter.name)).unplaced.map
        (unplacedWarning method path) ++ op.statusCodeLog) := by
  have hunplaced : ∀ names : List String,
      ∀ l ∈ names.map (unplacedWarning method path), l.level = .warn := by
    intro names
    simp [unplacedWarning]
  have hcodes : ∀ l ∈ op.statusCodeLog, l.level = .warn := by
    intro l hl
    obtain ⟨key, -, rfl⟩ := List.mem_map.mp hl
    rfl
  apply (warns_tell _).then
  intro _ _
  apply (importsOnly_ofResolved _).warns.then
  intro found hfound
  obtain rfl : parameters = found := Except.ok.inj (hp.symm.trans (yields_ofResolved hfound))
  apply (importsOnly_sortInputs parameters).warns.then
  rintro sorted ⟨_, _, hsorted⟩
  obtain rfl : inputs = sorted := Except.ok.inj (hi.symm.trans (congrArg Prod.fst hsorted))
  apply (importsOnly_addImports _).warns.then
  intro _ _
  apply (warns_tell_of_warn (hunplaced _)).bind
  intro _ _
  apply (importsOnly_emitUrl _ _).warns.then
  intro _ _
  apply (warns_emitBody d _ inputs.body).then
  intro _ _
  apply (importsOnly_emitQuery _).warns.then
  intro _ _
  apply (warns_tell_of_warn hcodes).last
  intro _ _
  apply (declares_emitResponses d _ _ _).warns.then
  intro _ _
  exact (declares_declare _ _).warns

end ApiContract.GoClient
