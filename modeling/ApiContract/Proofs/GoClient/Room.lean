import ApiContract.Proofs.GoClient.Additions

namespace ApiContract.GoClient

namespace Draft

/-- The draft with declarations at the end of its file, each of them told. -/
def adding (draft : Draft) (added : Members Declaration) : Draft :=
  { file := { draft.file with declarations := draft.file.declarations ++ added }
    log := draft.log ++ added.names.map declared }

theorem declarations_adding (draft : Draft) (added : Members Declaration) :
    (draft.adding added).file.declarations = draft.file.declarations ++ added :=
  rfl

@[simp] theorem adding_nil (draft : Draft) : draft.adding [] = draft := by
  simp [adding, Members.names]

theorem adding_append (draft : Draft) (first second : Members Declaration) :
    draft.adding (first ++ second) = (draft.adding first).adding second := by
  simp [adding, Members.names]

end Draft

namespace Emit

variable {α β : Type} {m : Emit α} {f : α → Emit β} {a : α} {b : β} {draft draft' : Draft}
  {possible further : Prop} {first second added inner : Members Declaration} {name : String}

/-- The step succeeds if it is possible and there is room for its declarations, and then it gives
the result and adds them. Otherwise it fails, and if it is possible only because a name is taken. -/
structure Declares (m : Emit α) (possible : Prop) (a : α) (added : Members Declaration) : Prop where
  succeeds : ∀ draft, possible → draft.file.HasRoom added → m draft = (.ok a, draft.adding added)
  sound : ∀ draft b draft', m draft = (.ok b, draft') → possible ∧ draft.file.HasRoom added
  accepts : possible → Accepts m

theorem Declares.eq_of_ok {result : α} (h : Declares m possible a added)
    (hm : m draft = (.ok result, draft')) : result = a ∧ draft' = draft.adding added := by
  obtain ⟨hp, hr⟩ := h.sound draft result draft' hm
  rw [h.succeeds draft hp hr] at hm
  cases hm
  exact ⟨rfl, rfl⟩

theorem Declares.possible_of_yields {result : α} (h : Declares m possible a added)
    (hm : Yields m result) : possible := by
  obtain ⟨draft, draft', hm⟩ := hm
  exact (h.sound draft result draft' hm).1

theorem Declares.fails_iff (h : Declares m possible a added) (draft : Draft) :
    (∃ fault, (m draft).1 = .error fault) ↔ ¬ possible ∨ ¬ draft.file.HasRoom added := by
  rw [← Classical.not_and_iff_not_or_not]
  constructor
  · rintro ⟨fault, hm⟩ ⟨hp, hr⟩
    rw [h.succeeds draft hp hr] at hm
    cases hm
  · intro hn
    cases hm : (m draft).1 with
    | error fault => exact ⟨fault, rfl⟩
    | ok b => exact absurd (h.sound draft b _ (Prod.ext hm rfl)) hn

theorem Declares.ensures (h : Declares m possible a added) :
    Ensures m fun result more => possible ∧ result = a ∧ more = added := by
  intro draft result draft' hm
  obtain ⟨hp, hr⟩ := h.sound draft result draft' hm
  obtain ⟨rfl, rfl⟩ := h.eq_of_ok hm
  exact ⟨added, ⟨draft.declarations_adding added, hr⟩, hp, rfl, rfl⟩

theorem Declares.congr (h : Declares m possible a added) (hp : possible ↔ further) :
    Declares m further a added := by
  rwa [← propext hp]

theorem declares_pure (a : α) : Declares (pure a) True a [] := by
  constructor
  case succeeds =>
    intro draft _ _
    rw [draft.adding_nil]
    rfl
  case sound => exact fun draft _ _ _ => ⟨trivial, draft.file.hasRoom_nil⟩
  case accepts => exact fun _ => accepts_pure a

/-- What never succeeds would declare anything. -/
theorem declares_fail (cause : Cause) (a : α) (added : Members Declaration) :
    Declares (fail cause) False a added := by
  constructor
  case succeeds | accepts => simp
  case sound =>
    intro draft b draft' h
    cases h

theorem declares_declare (name : String) (declaration : Declaration) :
    Declares (declare name declaration) True () [(name, declaration)] := by
  have hfree : ∀ draft : Draft, draft.file.declares name = true ↔ name ∈ draft.file.names :=
    fun draft => List.contains_iff_mem
  constructor
  case succeeds =>
    intro draft _ hr
    rw [File.hasRoom_singleton, ← hfree] at hr
    unfold declare File.push
    rw [if_neg hr]
    rfl
  case sound =>
    intro draft b draft' h
    refine ⟨trivial, File.hasRoom_singleton.mpr fun hm => ?_⟩
    unfold declare File.push at h
    rw [if_pos ((hfree draft).mpr hm)] at h
    cases h
  case accepts => exact fun _ => accepts_declare name declaration

theorem Declares.within (h : Declares m possible a added) (layer : Layer) :
    Declares (within layer m) possible a added := by
  constructor
  case succeeds =>
    intro draft hp hr
    unfold Emit.within
    rw [h.succeeds draft hp hr]
  case sound => exact fun draft b draft' hm => h.sound draft b draft' (eq_ok_of_within hm)
  case accepts => exact fun hp => (h.accepts hp).within layer

theorem Declares.bind (hm : Declares m possible a first) (hf : Declares (f a) further b second) :
    Declares (m >>= f) (possible ∧ further) b (first ++ second) := by
  constructor
  case succeeds =>
    rintro draft ⟨hp, hq⟩ hr
    obtain ⟨hfirst, hsecond⟩ := (File.hasRoom_append (draft.declarations_adding first)).mp hr
    rw [bind_apply, hm.succeeds draft hp hfirst, draft.adding_append]
    exact hf.succeeds _ hq hsecond
  case sound =>
    intro draft c draft' h
    obtain ⟨x, next, hx, hc⟩ := eq_ok_of_bind h
    obtain ⟨hp, hfirst⟩ := hm.sound draft x next hx
    obtain ⟨rfl, rfl⟩ := hm.eq_of_ok hx
    obtain ⟨hq, hsecond⟩ := hf.sound _ c draft' hc
    have hroom := (File.hasRoom_append (draft.declarations_adding first)).mpr ⟨hfirst, hsecond⟩
    exact ⟨⟨hp, hq⟩, hroom⟩
  case accepts =>
    rintro ⟨hp, hq⟩
    apply (hm.accepts hp).bind
    rintro x ⟨draft, draft', hx⟩
    obtain ⟨rfl, -⟩ := hm.eq_of_ok hx
    exact hf.accepts hq

/-- What follows declares nothing and cannot fail. -/
theorem Declares.result (hm : Declares m possible a added) (hf : Declares (f a) True b []) :
    Declares (m >>= f) possible b added := by
  have h := hm.bind hf
  rw [List.append_nil] at h
  exact h.congr (iff_of_eq (and_true possible))

/-- To ask early whether a name is free changes nothing for a step that declares it in the end. -/
theorem Declares.afterCheck {next : Unit → Emit α} {declaration : Declaration}
    (h : Declares (next ()) possible a (added ++ [(name, declaration)])) :
    Declares (requireFree name >>= next) possible a (added ++ [(name, declaration)]) := by
  have hfree : ∀ draft : Draft, draft.file.HasRoom (added ++ [(name, declaration)]) →
      requireFree name draft = (.ok (), draft) := by
    rintro draft ⟨-, hnew⟩
    have hn : name ∉ draft.file.names := hnew name (by simp [Members.names])
    unfold requireFree
    rw [File.declares, if_neg (by simpa using hn)]
  constructor
  case succeeds =>
    intro draft hp hr
    rw [bind_apply, hfree draft hr]
    exact h.succeeds draft hp hr
  case sound =>
    intro draft b draft' hm
    obtain ⟨⟨⟩, same, hs, hm⟩ := eq_ok_of_bind hm
    have hsame : same = draft := by
      unfold requireFree at hs
      split at hs
      · cases hs
      · cases hs
        rfl
    exact h.sound draft b draft' (hsame ▸ hm)
  case accepts => exact fun hp => (accepts_requireFree name).then fun _ => h.accepts hp

end Emit

end ApiContract.GoClient
