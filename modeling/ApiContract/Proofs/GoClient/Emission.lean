import ApiContract.GoClient.Client

namespace ApiContract.GoClient

namespace Emit

variable {α β : Type} {m : Emit α} {f : α → Emit β} {a : α} {b : β} {draft draft' : Draft}
  {layer : Layer} {cause : Cause}

/-- A step can succeed with a result: on some draft it does. -/
def Yields (m : Emit α) (a : α) : Prop := ∃ draft draft', m draft = (.ok a, draft')

/-- On every draft a step succeeds, or fails because a name is taken. -/
def Accepts (m : Emit α) : Prop :=
  ∀ draft fault, (m draft).1 = .error fault → ∃ name, fault.cause = .declaredTwice name

theorem bind_apply (m : Emit α) (f : α → Emit β) (draft : Draft) :
    (m >>= f) draft =
      match m draft with
      | (.ok a, draft) => f a draft
      | (.error fault, draft) => (.error fault, draft) :=
  rfl

theorem eq_ok_of_bind (h : (m >>= f) draft = (.ok b, draft')) :
    ∃ a next, m draft = (.ok a, next) ∧ f a next = (.ok b, draft') := by
  rw [bind_apply] at h
  split at h
  · rename_i a next hm
    exact ⟨a, next, hm, h⟩
  · cases h

theorem eq_ok_of_within (h : within layer m draft = (.ok a, draft')) :
    m draft = (.ok a, draft') := by
  unfold within at h
  split at h
  · rename_i next hm
    cases h
    exact hm
  · cases h

theorem exists_draft (h : (m draft).1 = .ok a) : ∃ draft', m draft = (.ok a, draft') :=
  ⟨_, Prod.ext h rfl⟩

theorem yields_of_bind (h : Yields (m >>= f) b) : ∃ a, Yields m a ∧ Yields (f a) b := by
  obtain ⟨draft, draft', h⟩ := h
  obtain ⟨a, next, hm, hf⟩ := eq_ok_of_bind h
  exact ⟨a, ⟨draft, next, hm⟩, ⟨next, draft', hf⟩⟩

theorem yields_of_within (h : Yields (within layer m) a) : Yields m a := by
  obtain ⟨draft, draft', h⟩ := h
  exact ⟨draft, draft', eq_ok_of_within h⟩

theorem not_yields_fail : ¬ Yields (fail cause) a := by
  rintro ⟨draft, draft', h⟩
  cases h

theorem yields_ofResolved {r : Except ResolveFault α} (h : Yields (ofResolved r) a) :
    r = .ok a := by
  cases r with
  | error fault => exact absurd h not_yields_fail
  | ok other =>
    obtain ⟨draft, draft', h⟩ := h
    cases h
    rfl

theorem accepts_pure (a : α) : Accepts (pure a) := nofun

theorem Accepts.bind (hm : Accepts m) (hf : ∀ a, Yields m a → Accepts (f a)) :
    Accepts (m >>= f) := by
  intro draft fault h
  rw [bind_apply] at h
  split at h
  · rename_i a next heq
    exact hf a ⟨draft, next, heq⟩ next fault h
  · rename_i next heq
    cases h
    exact hm draft fault (by rw [heq])

/-- The step after one whose result does not matter. -/
theorem Accepts.then (hm : Accepts m) (hf : ∀ a, Accepts (f a)) : Accepts (m >>= f) :=
  hm.bind fun a _ => hf a

theorem Accepts.within (hm : Accepts m) (layer : Layer) : Accepts (within layer m) := by
  intro draft fault h
  unfold Emit.within at h
  split at h
  · cases h
  · rename_i other next heq
    cases h
    exact hm draft other (by rw [heq])

theorem accepts_tell (lines : List LogLine) : Accepts (tell lines) := nofun

theorem accepts_addImport (path : String) : Accepts (addImport path) := nofun

theorem accepts_addImports (paths : List String) : Accepts (addImports paths) := by
  induction paths with
  | nil => exact accepts_pure ()
  | cons path rest ih => exact (accepts_addImport path).then fun _ => ih

theorem accepts_requireFree (name : String) : Accepts (requireFree name) := by
  intro draft fault h
  unfold requireFree at h
  split at h
  · cases h
    exact ⟨name, rfl⟩
  · cases h

theorem accepts_declare (name : String) (declaration : Declaration) :
    Accepts (declare name declaration) := by
  intro draft fault h
  unfold declare File.push at h
  by_cases ht : draft.file.declares name
  · simp only [ht, if_true] at h
    cases h
    exact ⟨name, rfl⟩
  · simp only [ht] at h
    cases h

theorem accepts_ofResolved {r : Except ResolveFault α} (h : r = .ok a) :
    Accepts (ofResolved r) := by
  subst h
  exact accepts_pure a

end Emit

end ApiContract.GoClient
