import ApiContract.Proofs.GoClient.Rewording

namespace ApiContract.GoClient

namespace Emit

variable {α β : Type} {m m' : Emit α} {f f' : α → Emit β}

/-- From drafts with one file the steps come to one result and leave one file. What is told on the
way may differ. -/
def Alike (m m' : Emit α) : Prop :=
  ∀ draft draft', draft.file = draft'.file →
    (m draft).1 = (m' draft').1 ∧ (m draft).2.file = (m' draft').2.file

/-- Steps are alike if one does what the other does, in the same words. -/
theorem alike_iff_mirrors : Alike m m' ↔ Mirrors id id m m' := by
  have hid : ∀ x : Except Fault α, x.map id = x := fun x => by cases x <;> rfl
  constructor
  · intro h draft draft' hfile
    rw [File.map_id] at hfile ⊢
    obtain ⟨hresult, hfile⟩ := h draft draft' hfile.symm
    exact ⟨by rw [hid, hresult], hfile.symm⟩
  · intro h draft draft' hfile
    obtain ⟨hresult, hfile⟩ := h draft draft' (by rw [File.map_id, hfile])
    rw [hid] at hresult
    rw [File.map_id] at hfile
    exact ⟨hresult.symm, hfile.symm⟩

theorem Alike.bind (hm : Alike m m') (hf : ∀ a, Alike (f a) (f' a)) :
    Alike (m >>= f) (m' >>= f') :=
  alike_iff_mirrors.mpr <|
    (alike_iff_mirrors.mp hm).bind fun a => alike_iff_mirrors.mp (hf a)

theorem Alike.within (hm : Alike m m') (layer : Layer) :
    Alike (within layer m) (within layer m') :=
  alike_iff_mirrors.mpr ((alike_iff_mirrors.mp hm).within layer)

theorem alike_pure (a : α) : Alike (Pure.pure a) (Pure.pure a) := fun _ _ h => ⟨rfl, h⟩

theorem alike_tell (lines lines' : List LogLine) : Alike (tell lines) (tell lines') :=
  fun _ _ h => ⟨rfl, h⟩

/-- What a result that is given away says does not depend on the draft. -/
theorem alike_constant (r : Except Fault α) :
    Alike (fun draft => (r, draft)) (fun draft => (r, draft)) :=
  fun _ _ h => ⟨rfl, h⟩

theorem alike_addImports (paths : List String) : Alike (addImports paths) (addImports paths) :=
  alike_iff_mirrors.mpr (mirrors_addImports paths)

theorem alike_declare (name : String) (declaration : Declaration) :
    Alike (declare name declaration) (declare name declaration) :=
  alike_iff_mirrors.mpr (mirrors_declare rfl)

theorem alike_ofResolved (r : Except ResolveFault α) : Alike (ofResolved r) (ofResolved r) := by
  cases r with
  | ok a => exact alike_pure a
  | error fault => exact fun _ _ h => ⟨rfl, h⟩

end Emit

open Emit

variable {d d' : Document}

theorem alike_emitUrl (parameters : List Parameter) (pieces : List Piece) :
    Alike (emitUrl parameters pieces) (emitUrl parameters pieces) :=
  alike_iff_mirrors.mpr (mirrors_emitUrl parameters pieces)

theorem alike_emitQuery (parameters : List Parameter) :
    Alike (emitQuery parameters) (emitQuery parameters) :=
  alike_iff_mirrors.mpr (mirrors_emitQuery parameters)

/-- What is found by a reference is found in the same words. -/
theorem definition_reworded (hd : ∀ reference, d.definition reference = d'.definition reference)
    (reference : String) :
    d'.definition reference = (d.definition reference).map fun p => (p.1, id p.2) := by
  rw [hd]
  cases d'.definition reference <;> rfl

variable (hd : ∀ reference, d.definition reference = d'.definition reference)

include hd

theorem alike_emitNamed (name : String) (s : Schema) :
    Alike (emitNamed d name s) (emitNamed d' name s) :=
  alike_iff_mirrors.mpr (mirrors_emitNamed (definition_reworded hd) .refl name s)

theorem alike_emitBody (operation : String) (body : Option Parameter) :
    Alike (emitBody d operation body) (emitBody d' operation body) := by
  apply alike_iff_mirrors.mpr
  apply mirrors_emitBody (definition_reworded hd) .refl
  cases body with
  | none => exact .none
  | some p => exact .some ⟨rfl, by simp⟩

theorem alike_emitResponses (operation : String) (successes : Nat)
    (responses : List (Nat × Response)) :
    Alike (emitResponses d operation successes responses)
      (emitResponses d' operation successes responses) := by
  apply alike_iff_mirrors.mpr
  apply mirrors_emitResponses (definition_reworded hd) .refl
  exact List.forall₂_same.mpr fun q _ => ⟨rfl, by simp⟩

end ApiContract.GoClient
