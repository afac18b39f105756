import ApiContract.Document.Writing
import ApiContract.Proofs.Source.FieldOf

namespace ApiContract.Source

variable {α : Type} {r : RecordReader α} {access : Access} {n : Nat}

/-- The laws of one field within a record. -/
structure FieldOf.Within (r : RecordReader α) (extra : α → Members Json)
    (keep : α → String → Json → α) (again : α → α) (f : FieldOf α) : Prop where
  set_eq : ∀ a v, r.set a f.name v = do return f.put a (← f.read v) := by intros; rfl
  extra_put : ∀ a x, extra (f.put a x) = extra a := by intros; rfl
  get_keep : ∀ a name j, f.get (keep a name j) = f.get a := by intros; rfl
  get_start : f.get r.start = f.initial := by rfl
  /-- A field that may be missing is then written as it is filled in. -/
  filled : f.name ∉ r.required → f.write f.initial = f.filled := by intros; rfl
  get_again : ∀ a, f.get (again a) = f.again (f.get a) := by intros; rfl

/-- The fields of a record and its other members, and the laws that keep them apart. -/
structure RecordReader.Layout (r : RecordReader α) where
  fields : List (FieldOf α)
  extra : α → Members Json
  keep : α → String → Json → α
  write : α → Json
  again : α → α
  known : r.known = fields.map (·.name)
  nodup : r.known.Nodup
  within : ∀ f ∈ fields, f.Within r extra keep again
  get_put_of_ne : ∀ f ∈ fields, ∀ g ∈ fields, f.name ≠ g.name → ∀ a x, g.get (f.put a x) = g.get a
  keep_eq : r.keep = some keep
  extra_keep : ∀ a name j, extra (keep a name j) = (extra a).insert name j
  extra_start : extra r.start = []
  extra_again : ∀ a, extra (again a) = extra a
  required : ∀ name ∈ r.required, ∃ f ∈ fields, f.name = name ∧ ∀ x, f.write x ≠ none
  write_eq : ∀ a, write a =
    .object ((fields.flatMap fun f => present f.name id (f.member a)) ++ extra a)
  ext : ∀ a b, (∀ f ∈ fields, f.get a = f.get b) → extra a = extra b → a = b

namespace RecordReader.Layout

variable {L : r.Layout} {d d' : Draft α} {done : Members Json} {a : α} {f g : FieldOf α}
  {name : String} {v : Source} {ms : List (MemberName × Source)}

theorem eq_of_mem {l : List (FieldOf α)} (h : (l.map (·.name)).Nodup) (hf : f ∈ l) (hg : g ∈ l)
    (he : f.name = g.name) : f = g := by
  induction l with
  | nil => cases hf
  | cons k l ih =>
    obtain ⟨hk, hl⟩ := List.nodup_cons.mp h
    rcases List.mem_cons.mp hf with rfl | hfl <;> rcases List.mem_cons.mp hg with rfl | hgl
    · rfl
    · exact absurd (List.mem_map.mpr ⟨g, hgl, he.symm⟩) hk
    · exact absurd (List.mem_map.mpr ⟨f, hfl, he⟩) hk
    · exact ih hl hfl hgl

theorem mem_known (L : r.Layout) (hf : f ∈ L.fields) : f.name ∈ r.known :=
  L.known ▸ List.mem_map_of_mem hf

/-- What has been read into a record, and the members it was read from. -/
structure Follows (L : r.Layout) (d : Draft α) (done : Members Json) : Prop where
  nodup : done.names.Nodup
  given : ∀ f ∈ L.fields, f.name ∈ d.given → ∃ j, done.find? f.name = some j ∧
    (∀ w, f.member d.value = some w → Carried f.shape j w) ∧
    (f.member d.value = none → j ∈ f.blank)
  absent : ∀ f ∈ L.fields, f.name ∉ d.given →
    done.find? f.name = none ∧ f.get d.value = f.initial
  restores : ∀ f ∈ L.fields, f.Restores (f.get d.value)
  unknown : ∀ name, name ∉ r.known → (L.extra d.value).find? name = done.find? name
  extra_nodup : (L.extra d.value).names.Nodup
  extra_unknown : ∀ p ∈ L.extra d.value, p.1 ∉ r.known
  extra_kept : ∀ p ∈ L.extra d.value, (ofJson p.2).kept = .ok p.2

theorem follows_start (L : r.Layout) : Follows L ⟨r.start, []⟩ [] where
  nodup := by simp [Members.names]
  given f hf h := by cases h
  absent f hf _ := ⟨rfl, (L.within f hf).get_start⟩
  restores f hf := by
    rw [(L.within f hf).get_start]
    exact f.restores_initial
  unknown name _ := by rw [L.extra_start]
  extra_nodup := by simp [L.extra_start, Members.names]
  extra_unknown := by simp [L.extra_start]
  extra_kept := by simp [L.extra_start]

theorem Follows.setField (h : Follows L d done) (hf : f ∈ L.fields) (hn : f.Faithful n)
    (hv : Plain n v) (hgiven : f.name ∉ d.given) {x : f.Content} (hx : f.read v = .ok x) :
    ∃ j, v.kept = .ok j ∧
      Follows L ⟨f.put d.value x, f.name :: d.given⟩ (done.insert f.name j) := by
  obtain ⟨j, hj, hcarried, hblank⟩ := hn.carried v x hv hx
  have hself : ∀ g ∈ L.fields, g.name = f.name → g = f := fun g hg he =>
    eq_of_mem (L.known ▸ L.nodup) hg hf he
  have hget : ∀ g ∈ L.fields, g.name ≠ f.name → g.get (f.put d.value x) = g.get d.value :=
    fun g hg he => L.get_put_of_ne f hf g hg (Ne.symm he) d.value x
  refine ⟨j, hj, ?_⟩
  constructor
  case nodup => exact Members.nodup_names_insert h.nodup _ _
  case given =>
    intro g hg hgiven
    by_cases he : g.name = f.name
    · obtain rfl := hself g hg he
      refine ⟨j, Members.find?_insert_self _ _ _, ?_⟩
      rw [FieldOf.member, g.get_put]
      exact ⟨hcarried, hblank⟩
    · rw [Members.find?_insert_of_ne _ _ (Ne.symm he), FieldOf.member, hget g hg he]
      exact h.given g hg ((List.mem_cons.mp hgiven).resolve_left he)
  case absent =>
    intro g hg hgiven
    have he : g.name ≠ f.name := fun he => hgiven (he ▸ List.mem_cons_self)
    rw [Members.find?_insert_of_ne _ _ (Ne.symm he), hget g hg he]
    exact h.absent g hg fun hg => hgiven (List.mem_cons_of_mem _ hg)
  case restores =>
    intro g hg
    by_cases he : g.name = f.name
    · obtain rfl := hself g hg he
      rw [g.get_put]
      exact hn.restores v x hv hx
    · rw [hget g hg he]
      exact h.restores g hg
  case unknown =>
    intro name hname
    have he : f.name ≠ name := fun he => hname (he ▸ L.mem_known hf)
    rw [(L.within f hf).extra_put, Members.find?_insert_of_ne _ _ he]
    exact h.unknown name hname
  all_goals rw [(L.within f hf).extra_put]
  · exact h.extra_nodup
  · exact h.extra_unknown
  · exact h.extra_kept

theorem Follows.keepMember (h : Follows L d done) (hv : Plain n v) (hname : name ∉ r.known)
    {j : Json} (hj : v.kept = .ok j) :
    Follows L { d with value := L.keep d.value name j } (done.insert name j) := by
  have hne : ∀ f ∈ L.fields, name ≠ f.name := fun f hf he => hname (he ▸ L.mem_known hf)
  constructor
  case nodup => exact Members.nodup_names_insert h.nodup _ _
  case given =>
    intro f hf hgiven
    rw [Members.find?_insert_of_ne _ _ (hne f hf), FieldOf.member, (L.within f hf).get_keep]
    exact h.given f hf hgiven
  case absent =>
    intro f hf hgiven
    rw [Members.find?_insert_of_ne _ _ (hne f hf), (L.within f hf).get_keep]
    exact h.absent f hf hgiven
  case restores =>
    intro f hf
    rw [(L.within f hf).get_keep]
    exact h.restores f hf
  case unknown =>
    intro other hother
    rw [L.extra_keep, Members.find?_insert, Members.find?_insert, h.unknown other hother]
  all_goals rw [L.extra_keep]
  · exact Members.nodup_names_insert h.extra_nodup _ _
  · intro p hp
    rcases Members.mem_of_mem_insert hp with hp | rfl
    · exact h.extra_unknown p hp
    · exact hname
  · intro p hp
    rcases Members.mem_of_mem_insert hp with hp | rfl
    · exact h.extra_kept p hp
    · exact (hv.kept_ofJson hj).2

theorem Follows.readField (h : Follows L d done) (hs : ∀ f ∈ L.fields, f.Faithful n)
    (hv : Plain n v) (hr : r.readField access d name v = .ok d') :
    ∃ j, v.kept = .ok j ∧ Follows L d' (done.insert name j) := by
  unfold RecordReader.readField at hr
  split at hr
  · rename_i hknown
    rw [L.known] at hknown
    obtain ⟨f, hf, rfl⟩ := List.mem_map.mp hknown
    split at hr
    · cases hr
    · rename_i hgiven
      obtain ⟨value, hvalue, hr⟩ := ok_of_bind hr
      cases hr
      replace hvalue := ok_of_inMember hvalue
      rw [(L.within f hf).set_eq] at hvalue
      obtain ⟨x, hx, hvalue⟩ := ok_of_bind hvalue
      cases hvalue
      exact h.setField hf (hs f hf) hv hgiven hx
  · rename_i hknown
    rw [L.keep_eq] at hr
    obtain ⟨j, hj, hr⟩ := ok_of_bind hr
    cases hr
    exact ⟨j, hj, h.keepMember hv hknown hj⟩

theorem Follows.readFields (h : Follows L d done) (hs : ∀ f ∈ L.fields, f.Faithful n)
    (names : ∀ p ∈ ms, ∃ s, p.1 = .text s) (values : ∀ p ∈ ms, Plain n p.2)
    (hr : r.readFields access ms d = .ok d') :
    ∃ js, keptMembers ms done = .ok js ∧ Follows L d' js := by
  induction ms generalizing d done with
  | nil =>
    cases hr
    exact ⟨done, rfl, h⟩
  | cons p ms ih =>
    rw [List.forall_mem_cons] at names values
    obtain ⟨k, v⟩ := p
    obtain ⟨s, rfl : k = .text s⟩ := names.1
    obtain ⟨name, hname, hr⟩ := ok_of_bind hr
    obtain rfl : s = name := by simpa [memberText] using hname
    obtain ⟨one, hone, hr⟩ := ok_of_bind hr
    obtain ⟨j, hj : v.kept = .ok j, h⟩ := h.readField hs values.1 hone
    obtain ⟨js, hjs, h⟩ := ih h names.2 values.2 hr
    refine ⟨js, ?_, h⟩
    rw [keptMembers, hj]
    exact hjs

/-- The members that are written for some of the fields. -/
def membersOf (a : α) (l : List (FieldOf α)) : Members Json :=
  l.flatMap fun f => present f.name id (f.member a)

theorem mem_names_membersOf {l : List (FieldOf α)} :
    name ∈ (membersOf a l).names ↔ ∃ f ∈ l, f.name = name ∧ f.member a ≠ none := by
  induction l with
  | nil => simp [membersOf, Members.names]
  | cons f l ih =>
    rw [membersOf, List.flatMap_cons, Members.names, List.map_append, List.mem_append]
    rw [membersOf, Members.names] at ih
    rw [ih]
    cases hm : f.member a <;> simp [present, hm, eq_comm]

theorem nodup_names_membersOf {l : List (FieldOf α)} (h : (l.map (·.name)).Nodup) :
    (membersOf a l).names.Nodup := by
  induction l with
  | nil => simp [membersOf, Members.names]
  | cons f l ih =>
    obtain ⟨hf, hl⟩ := List.nodup_cons.mp h
    have hnot : f.name ∉ (membersOf a l).names := fun hm => by
      obtain ⟨g, hg, he, -⟩ := mem_names_membersOf.mp hm
      exact hf (List.mem_map.mpr ⟨g, hg, he⟩)
    rw [membersOf, List.flatMap_cons]
    cases f.member a with
    | none => exact ih hl
    | some w => exact List.nodup_cons.mpr ⟨hnot, ih hl⟩

theorem find?_membersOf {l : List (FieldOf α)} (h : (l.map (·.name)).Nodup) (hf : f ∈ l) :
    (membersOf a l).find? f.name = f.member a := by
  cases hm : f.member a with
  | none =>
    rw [Members.find?_eq_none_iff, mem_names_membersOf]
    rintro ⟨g, hg, he, hne⟩
    obtain rfl := eq_of_mem h hg hf he
    exact hne hm
  | some w =>
    have hmem : (f.name, w) ∈ membersOf a l :=
      List.mem_flatMap.mpr ⟨f, hf, by simp [hm, present]⟩
    exact Members.find?_of_mem (nodup_names_membersOf h) hmem

/-- Everything that is written for a record. -/
def written (L : r.Layout) (a : α) : Members Json := membersOf a L.fields ++ L.extra a

theorem find?_written_unknown (hname : name ∉ r.known) :
    (L.written a).find? name = (L.extra a).find? name := by
  have hnone : (membersOf a L.fields).find? name = none := by
    rw [Members.find?_eq_none_iff, mem_names_membersOf]
    rintro ⟨f, hf, rfl, -⟩
    exact hname (L.mem_known hf)
  rw [written, Members.find?_append, hnone, Option.none_or]

theorem Follows.find?_written (h : Follows L d done) (hf : f ∈ L.fields) :
    (L.written d.value).find? f.name = f.member d.value := by
  have hnone : (L.extra d.value).find? f.name = none := by
    rw [Members.find?_eq_none_iff, Members.names]
    intro hm
    obtain ⟨p, hp, he⟩ := List.mem_map.mp hm
    exact h.extra_unknown p hp (he ▸ L.mem_known hf)
  rw [written, Members.find?_append, hnone, Option.or_none, find?_membersOf (L.known ▸ L.nodup) hf]

theorem Follows.nodup_written (h : Follows L d done) : (L.written d.value).names.Nodup := by
  rw [written, Members.names, List.map_append]
  refine List.nodup_append.mpr
    ⟨nodup_names_membersOf (L.known ▸ L.nodup), h.extra_nodup, fun name hm other ho he => ?_⟩
  subst he
  obtain ⟨f, hf, rfl, -⟩ := mem_names_membersOf.mp hm
  obtain ⟨p, hp, he⟩ := List.mem_map.mp ho
  exact h.extra_unknown p hp (he ▸ L.mem_known hf)

theorem Follows.carried (h : Follows L d done) {part : Shape}
    (hpart : part.fields = some (L.fields.map (·.toField)))
    (hrequired : ∀ name ∈ r.required, name ∈ d.given) :
    Carried part (.object done) (L.write d.value) := by
  rw [L.write_eq]
  refine .record hpart h.nodup h.nodup_written ?unknown ?missing ?left ?given
  case unknown =>
    intro name hname
    have hknown : name ∉ r.known := by
      rw [L.known]
      simpa using hname
    exact (find?_written_unknown hknown).trans (h.unknown name hknown)
  all_goals
    intro field hfield
    obtain ⟨f, hf, rfl⟩ := List.mem_map.mp hfield
  case missing =>
    intro hnone
    have hgiven : f.name ∉ d.given := fun hgiven => by
      obtain ⟨j, hj, -⟩ := h.given f hf hgiven
      rw [hj] at hnone
      cases hnone
    refine (h.find?_written hf).trans ?_
    rw [FieldOf.member, (h.absent f hf hgiven).2]
    exact (L.within f hf).filled fun hr => hgiven (hrequired _ hr)
  all_goals
    intro v
  case left =>
    intro hv hnone
    have hgiven : f.name ∈ d.given := Decidable.byContradiction fun hgiven => by
      rw [(h.absent f hf hgiven).1] at hv
      cases hv
    obtain ⟨j, hj, -, hblank⟩ := h.given f hf hgiven
    cases hv.symm.trans hj
    exact hblank ((h.find?_written hf).symm.trans hnone)
  case given =>
    intro w hv hw
    have hgiven : f.name ∈ d.given := Decidable.byContradiction fun hgiven => by
      rw [(h.absent f hf hgiven).1] at hv
      cases hv
    obtain ⟨j, hj, hcarried, -⟩ := h.given f hf hgiven
    cases hv.symm.trans hj
    exact hcarried w ((h.find?_written hf).symm.trans hw)

/-- A record that is read again: the fields in `todo` are still to come. -/
structure Restoring (L : r.Layout) (a : α) (todo : List (FieldOf α)) (d : Draft α) : Prop where
  pending : ∀ f ∈ todo, f.name ∉ d.given ∧ f.get d.value = f.initial
  done : ∀ f ∈ L.fields, f.name ∉ todo.map (·.name) → f.get d.value = f.again (f.get a)
  given : ∀ f ∈ L.fields, f.name ∉ todo.map (·.name) → f.member a ≠ none → f.name ∈ d.given
  extra : L.extra d.value = []

theorem restoring_start (L : r.Layout) (a : α) : Restoring L a L.fields ⟨r.start, []⟩ where
  pending f hf := ⟨List.not_mem_nil, (L.within f hf).get_start⟩
  done _ hf hn := absurd (List.mem_map_of_mem hf) hn
  given _ hf hn := absurd (List.mem_map_of_mem hf) hn
  extra := L.extra_start

theorem Restoring.omit {todo : List (FieldOf α)} (h : Restoring L a (f :: todo) d)
    (hf : f ∈ L.fields) (hr : f.Restores (f.get a)) (hm : f.member a = none) :
    Restoring L a todo d where
  pending g hg := h.pending g (List.mem_cons_of_mem _ hg)
  done g hg hn := by
    by_cases he : g.name = f.name
    · obtain rfl := eq_of_mem (L.known ▸ L.nodup) hg hf he
      rw [(h.pending g List.mem_cons_self).2, hr.2 hm]
    · exact h.done g hg (by simp [he, hn])
  given g hg hn hne := by
    by_cases he : g.name = f.name
    · obtain rfl := eq_of_mem (L.known ▸ L.nodup) hg hf he
      exact absurd hm hne
    · exact h.given g hg (by simp [he, hn]) hne
  extra := h.extra

theorem Restoring.put {todo : List (FieldOf α)} (h : Restoring L a (f :: todo) d)
    (hf : f ∈ L.fields) (htodo : ∀ g ∈ todo, g ∈ L.fields)
    (hnodup : ((f :: todo).map (·.name)).Nodup) :
    Restoring L a todo ⟨f.put d.value (f.again (f.get a)), f.name :: d.given⟩ where
  pending g hg := by
    have hne : f.name ≠ g.name := fun he =>
      (List.nodup_cons.mp hnodup).1 (List.mem_map.mpr ⟨g, hg, he.symm⟩)
    obtain ⟨hgiven, hget⟩ := h.pending g (List.mem_cons_of_mem _ hg)
    refine ⟨by simp [Ne.symm hne, hgiven], ?_⟩
    rw [L.get_put_of_ne f hf g (htodo g hg) hne, hget]
  done g hg hn := by
    by_cases he : g.name = f.name
    · obtain rfl := eq_of_mem (L.known ▸ L.nodup) hg hf he
      rw [g.get_put]
    · rw [L.get_put_of_ne f hf g hg (Ne.symm he)]
      exact h.done g hg (by simp [he, hn])
  given g hg hn hne := by
    by_cases he : g.name = f.name
    · rw [he]
      exact List.mem_cons_self
    · exact List.mem_cons_of_mem _ (h.given g hg (by simp [he, hn]) hne)
  extra := by
    rw [(L.within f hf).extra_put]
    exact h.extra

theorem Restoring.readFields {todo : List (FieldOf α)} {rest : List (MemberName × Source)}
    (h : Restoring L a todo d) (hr : ∀ f ∈ L.fields, f.Restores (f.get a))
    (htodo : ∀ f ∈ todo, f ∈ L.fields) (hnodup : (todo.map (·.name)).Nodup) :
    ∃ d', r.readFields access (ofMembers (membersOf a todo) ++ rest) d =
      r.readFields access rest d' ∧ Restoring L a [] d' := by
  induction todo generalizing d with
  | nil => exact ⟨d, rfl, h⟩
  | cons f todo ih =>
    rw [List.forall_mem_cons] at htodo
    rw [membersOf, List.flatMap_cons]
    cases hm : f.member a with
    | none => exact ih (h.omit htodo.1 (hr f htodo.1) hm) htodo.2 (List.nodup_cons.mp hnodup).2
    | some w =>
      obtain ⟨d', hd', h'⟩ := ih (h.put htodo.1 htodo.2 hnodup) htodo.2
        (List.nodup_cons.mp hnodup).2
      refine ⟨d', Eq.trans ?_ hd', h'⟩
      have hset : r.set d.value f.name (ofJson w) =
          .ok (f.put d.value (f.again (f.get a))) := by
        rw [(L.within f htodo.1).set_eq, (hr f htodo.1).1 w hm]
        rfl
      exact readFields_cons
        (readField_known (L.mem_known htodo.1) (h.pending f List.mem_cons_self).1 hset)

/-- The members that are no fields are put aside again one after the other. -/
theorem readFields_extra (L : r.Layout) (ns : Members Json) (d : Draft α)
    (hnodup : (L.extra d.value ++ ns).names.Nodup) (hunknown : ∀ p ∈ ns, p.1 ∉ r.known)
    (hkept : ∀ p ∈ ns, (ofJson p.2).kept = .ok p.2) :
    ∃ d', r.readFields access (ofMembers ns) d = .ok d' ∧ d'.given = d.given ∧
      L.extra d'.value = L.extra d.value ++ ns ∧
      ∀ f ∈ L.fields, f.get d'.value = f.get d.value := by
  induction ns generalizing d with
  | nil => exact ⟨d, rfl, rfl, (List.append_nil _).symm, fun f _ => rfl⟩
  | cons p ns ih =>
    obtain ⟨k, w⟩ := p
    rw [List.forall_mem_cons] at hunknown hkept
    have hnew : (L.extra d.value).find? k = none := by
      rw [Members.find?_eq_none_iff]
      intro hk
      rw [Members.names, List.map_append] at hnodup
      exact (List.nodup_append.mp hnodup).2.2 k hk k List.mem_cons_self rfl
    have hextra : L.extra (L.keep d.value k w) = L.extra d.value ++ [(k, w)] := by
      rw [L.extra_keep, Members.insert_of_find?_none hnew]
    obtain ⟨d', hd', hgiven, hextra', hget⟩ := ih { d with value := L.keep d.value k w }
      (by simpa [hextra] using hnodup) hunknown.2 hkept.2
    refine ⟨d', ?_, hgiven, ?_, fun f hf => ?_⟩
    · rw [ofMembers, readFields_cons (readField_unknown hunknown.1 L.keep_eq hkept.1)]
      exact hd'
    · rw [hextra', hextra, List.append_assoc]
      rfl
    · rw [hget f hf, (L.within f hf).get_keep]

theorem finish_eq (h : ∀ name ∈ r.required, name ∈ d.given) : r.finish d = .ok d.value := by
  have hnone : r.required.find? (· ∉ d.given) = none := by
    rw [List.find?_eq_none]
    intro name hname
    simpa using h name hname
  rw [RecordReader.finish, hnone]

theorem read_record (h : r.readFields access ms ⟨r.start, []⟩ = .ok d) :
    r.read access (.record ms none) = r.finish d := by
  change (r.readFields access ms ⟨r.start, []⟩ >>= fun d => r.finish d) = _
  rw [h]
  rfl

/-- What is written for a record that was read is read again. -/
theorem Follows.read_again (h : Follows L d done) :
    r.read access (ofJson (L.write d.value)) = .ok (L.again d.value) := by
  obtain ⟨d₁, hd₁, h₁⟩ : ∃ d₁, r.readFields access (ofMembers (membersOf d.value L.fields) ++
      ofMembers (L.extra d.value)) ⟨r.start, []⟩ =
        r.readFields access (ofMembers (L.extra d.value)) d₁ ∧ Restoring L d.value [] d₁ :=
    (restoring_start L d.value).readFields h.restores (fun f hf => hf) (L.known ▸ L.nodup)
  obtain ⟨d₂, hd₂, hgiven, hextra, hget⟩ : ∃ d₂,
      r.readFields access (ofMembers (L.extra d.value)) d₁ = .ok d₂ ∧ d₂.given = d₁.given ∧
        L.extra d₂.value = L.extra d₁.value ++ L.extra d.value ∧
        ∀ f ∈ L.fields, f.get d₂.value = f.get d₁.value :=
    readFields_extra L _ d₁ (by rw [h₁.extra]; exact h.extra_nodup) h.extra_unknown h.extra_kept
  have hvalue : d₂.value = L.again d.value := by
    refine L.ext _ _ (fun f hf => ?_) ?_
    · rw [hget f hf, h₁.done f hf List.not_mem_nil, (L.within f hf).get_again]
    · rw [hextra, h₁.extra, L.extra_again]
      rfl
  have hfinish : r.finish d₂ = .ok d₂.value := finish_eq fun name hname => by
    obtain ⟨f, hf, rfl, hne⟩ := L.required name hname
    rw [hgiven]
    exact h₁.given f hf List.not_mem_nil (hne _)
  rw [L.write_eq, ofJson, ofMembers_append, ← hvalue, ← hfinish]
  exact read_record (hd₁.trans hd₂)

theorem required_of_finish (h : r.finish d = .ok a) : ∀ name ∈ r.required, name ∈ d.given := by
  unfold RecordReader.finish at h
  split at h
  · cases h
  · rename_i hnone
    intro name hname
    simpa using List.find?_eq_none.mp hnone name hname

/-- A plain value that is read as a record is one, and the reader has followed its members. -/
theorem follows_of_read (L : r.Layout) (hs : ∀ m, n = m + 1 → ∀ f ∈ L.fields, f.Faithful m)
    (hv : Plain n v) (h : r.read access v = .ok a) :
    ∃ d js, v.kept = .ok (.object js) ∧ Follows L d js ∧ a = d.value ∧
      ∀ name ∈ r.required, name ∈ d.given := by
  unfold RecordReader.read at h
  rw [hv.untagged] at h
  split at h
  · rename_i ms fault
    obtain ⟨d, hd, h⟩ := ok_of_bind h
    cases fault with
    | some fault => cases h
    | none =>
      obtain ⟨m, rfl, names, values⟩ := hv.members
      obtain ⟨js, hjs, hfollows⟩ := (follows_start L).readFields (hs m rfl) names values hd
      exact ⟨d, js, kept_record hjs, hfollows, eq_of_finish h, required_of_finish h⟩
  · rw [hv.not_isEmpty] at h
    exact absurd h mistyped_ne_ok

/-- A record whose fields are read and written faithfully is so itself. -/
theorem faithful (L : r.Layout) {part : Shape}
    (hpart : part.fields = some (L.fields.map (·.toField)))
    (hs : ∀ m, n = m + 1 → ∀ f ∈ L.fields, f.Faithful m) :
    Faithful n part (r.read access) L.write L.again where
  carried v a hv h := by
    obtain ⟨d, js, hkept, hfollows, rfl, hrequired⟩ := L.follows_of_read hs hv h
    exact ⟨_, hkept, hfollows.carried hpart hrequired⟩
  again v a hv h := by
    obtain ⟨d, js, -, hfollows, rfl, -⟩ := L.follows_of_read hs hv h
    exact hfollows.read_again

end RecordReader.Layout

end ApiContract.Source
