import ApiContract.Proofs.GoClient.Emission

namespace ApiContract.GoClient

namespace File

/-- The names of the declarations are free in the file, and no two of them are the same. -/
def HasRoom (f : File Declaration) (added : Members Declaration) : Prop :=
  added.names.Nodup ∧ ∀ n ∈ added.names, n ∉ f.names

/-- The second file is the first one with declarations added at its end, under names that were
free. -/
structure Extends (before after : File Declaration) (added : Members Declaration) : Prop where
  declarations : after.declarations = before.declarations ++ added
  room : before.HasRoom added

variable {f g h : File Declaration} {first second : Members Declaration} {name : String}
  {declaration : Declaration}

theorem names_of_declarations (h : g.declarations = f.declarations ++ first) :
    g.names = f.names ++ first.names := by
  rw [names, h, Members.names, List.map_append]
  rfl

theorem hasRoom_nil (f : File Declaration) : f.HasRoom [] :=
  ⟨List.nodup_nil, nofun⟩

theorem hasRoom_singleton : f.HasRoom [(name, declaration)] ↔ name ∉ f.names := by
  simp [HasRoom, Members.names]

/-- There is room for declarations if there is for some of them and then for the others. -/
theorem hasRoom_append (h : g.declarations = f.declarations ++ first) :
    f.HasRoom (first ++ second) ↔ f.HasRoom first ∧ g.HasRoom second := by
  have hnames : (first ++ second).names = first.names ++ second.names := List.map_append
  unfold HasRoom
  rw [hnames, names_of_declarations h, List.nodup_append, List.forall_mem_append]
  constructor
  · rintro ⟨⟨hfirst, hsecond, hne⟩, hf, hs⟩
    refine ⟨⟨hfirst, hf⟩, hsecond, fun n hn hm => ?_⟩
    rcases List.mem_append.mp hm with hm | hm
    · exact hs n hn hm
    · exact hne n hm n hn rfl
  · rintro ⟨⟨hfirst, hf⟩, hsecond, hs⟩
    refine ⟨⟨hfirst, hsecond, ?_⟩, hf, fun n hn hm => hs n hn (List.mem_append_left _ hm)⟩
    rintro n hn _ hm rfl
    exact hs n hm (List.mem_append_right _ hn)

theorem Extends.of_declarations (h : g.declarations = f.declarations) : f.Extends g [] :=
  ⟨by simp [h], f.hasRoom_nil⟩

theorem Extends.trans (hf : f.Extends g first) (hg : g.Extends h second) :
    f.Extends h (first ++ second) := by
  refine ⟨?_, (hasRoom_append hf.declarations).mpr ⟨hf.room, hg.room⟩⟩
  rw [hg.declarations, hf.declarations, List.append_assoc]

/-- If no two declarations had one name, no two have. -/
theorem Extends.distinct (h : f.Extends g first) (hn : f.names.Nodup) : g.names.Nodup := by
  rw [names_of_declarations h.declarations, List.nodup_append]
  exact ⟨hn, h.room.1, fun _ hf n hadded he => h.room.2 n hadded (he ▸ hf)⟩

theorem extends_push (h : f.push name declaration = .ok g) :
    f.Extends g [(name, declaration)] := by
  unfold push at h
  split at h
  · cases h
  · rename_i hfree
    cases h
    refine ⟨rfl, hasRoom_singleton.mpr fun hm => hfree ?_⟩
    simpa [declares] using hm

end File

namespace Emit

variable {α β : Type} {m : Emit α} {f : α → Emit β} {P Q : α → Members Declaration → Prop}
  {R : β → Members Declaration → Prop} {a : α} {name : String}

/-- If the step succeeds it has added imports and nothing else. -/
def ImportsOnly (m : Emit α) : Prop :=
  ∀ draft a draft', m draft = (.ok a, draft') →
    draft'.file.declarations = draft.file.declarations ∧ draft'.log = draft.log

theorem importsOnly_pure (a : α) : ImportsOnly (pure a) := by
  intro draft b draft' h
  cases h
  exact ⟨rfl, rfl⟩

theorem importsOnly_fail (cause : Cause) : ImportsOnly (fail cause : Emit α) := by
  intro draft a draft' h
  cases h

theorem ImportsOnly.bind (hm : ImportsOnly m) (hf : ∀ a, ImportsOnly (f a)) :
    ImportsOnly (m >>= f) := by
  intro draft b draft' h
  obtain ⟨a, next, hfirst, hsecond⟩ := eq_ok_of_bind h
  obtain ⟨hfile, hlog⟩ := hm draft a next hfirst
  obtain ⟨hfile', hlog'⟩ := hf a next b draft' hsecond
  exact ⟨hfile'.trans hfile, hlog'.trans hlog⟩

theorem ImportsOnly.within (h : ImportsOnly m) (layer : Layer) : ImportsOnly (within layer m) :=
  fun draft a draft' hm => h draft a draft' (eq_ok_of_within hm)

theorem importsOnly_addImport (path : String) : ImportsOnly (addImport path) := by
  intro draft a draft' h
  cases h
  exact ⟨rfl, rfl⟩

theorem importsOnly_addImports (paths : List String) : ImportsOnly (addImports paths) := by
  induction paths with
  | nil => exact importsOnly_pure ()
  | cons path rest ih => exact (importsOnly_addImport path).bind fun _ => ih

theorem importsOnly_ofResolved (r : Except ResolveFault α) : ImportsOnly (ofResolved r) := by
  cases r with
  | ok a => exact importsOnly_pure a
  | error fault => exact importsOnly_fail _

/-- If the step succeeds it has declared nothing. -/
def Quiet (m : Emit α) : Prop :=
  ∀ draft a draft', m draft = (.ok a, draft') →
    draft'.file.declarations = draft.file.declarations

theorem ImportsOnly.quiet (h : ImportsOnly m) : Quiet m :=
  fun draft a draft' hm => (h draft a draft' hm).1

theorem quiet_tell (lines : List LogLine) : Quiet (tell lines) := by
  intro draft a draft' h
  cases h
  rfl

/-- Whenever the step succeeds it has added declarations to the file, and of its result and these
declarations the statement holds. -/
def Ensures (m : Emit α) (post : α → Members Declaration → Prop) : Prop :=
  ∀ draft a draft', m draft = (.ok a, draft') →
    ∃ added, draft.file.Extends draft'.file added ∧ post a added

theorem Ensures.mono (h : Ensures m P) (hpq : ∀ a added, P a added → Q a added) :
    Ensures m Q := by
  intro draft a draft' hm
  obtain ⟨added, hfile, hp⟩ := h draft a draft' hm
  exact ⟨added, hfile, hpq a added hp⟩

theorem Quiet.ensures (h : Quiet m) (hp : ∀ a, Yields m a → P a []) : Ensures m P := by
  intro draft a draft' hm
  exact ⟨[], .of_declarations (h draft a draft' hm), hp a ⟨draft, draft', hm⟩⟩

theorem Ensures.bind (hm : Ensures m P)
    (hf : ∀ a first, P a first → Ensures (f a) fun b second => R b (first ++ second)) :
    Ensures (m >>= f) R := by
  intro draft b draft' h
  obtain ⟨a, next, ha, hb⟩ := eq_ok_of_bind h
  obtain ⟨first, hfirst, hp⟩ := hm draft a next ha
  obtain ⟨second, hsecond, hr⟩ := hf a first hp next b draft' hb
  exact ⟨first ++ second, hfirst.trans hsecond, hr⟩

/-- What follows a step that declares nothing declares everything. -/
theorem Quiet.then (hm : Quiet m) (hf : ∀ a, Yields m a → Ensures (f a) R) :
    Ensures (m >>= f) R := by
  have hfirst : Ensures m fun a added => added = [] ∧ Yields m a :=
    hm.ensures fun _ ha => ⟨rfl, ha⟩
  apply hfirst.bind
  rintro a first ⟨rfl, ha⟩
  exact hf a ha

theorem ensures_pure (h : P a []) : Ensures (pure a) P := by
  intro draft b draft' hm
  cases hm
  exact ⟨[], .of_declarations rfl, h⟩

theorem Ensures.within (h : Ensures m P) (layer : Layer) : Ensures (within layer m) P :=
  fun draft a draft' hm => h draft a draft' (eq_ok_of_within hm)

theorem ensures_declare {post : Unit → Members Declaration → Prop} {declaration : Declaration}
    (h : post () [(name, declaration)]) : Ensures (declare name declaration) post := by
  intro draft a draft' hm
  unfold declare at hm
  split at hm
  · rename_i file hpush
    cases hm
    exact ⟨_, File.extends_push hpush, h⟩
  · cases hm

end Emit

end ApiContract.GoClient
