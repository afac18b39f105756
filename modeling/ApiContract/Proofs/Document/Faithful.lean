import ApiContract.Proofs.Schema.Layout

namespace ApiContract

open Source

variable {n : Nat} {access : Access} {v : Source} {ms : List (MemberName × Source)}
  {name path : String}

theorem Parameter.faithful_fields (ha : access ≠ .yaml) :
    ∀ f ∈ (layout ha).fields, f.Faithful n := by
  simp only [layout, List.forall_mem_cons]
  exact ⟨FieldOf.faithful_always faithful_text, FieldOf.faithful_always (faithful_choice ha),
    FieldOf.faithful_optional faithful_text nofun, FieldOf.faithful_always faithful_flag,
    FieldOf.faithful_optional (Schema.faithful_typeName ha) nofun,
    FieldOf.faithful_optional faithful_text nofun,
    FieldOf.faithful_optional (Schema.faithful ha) Schema.json_ne_null, List.forall_mem_nil _⟩

theorem Parameter.faithful (ha : access ≠ .yaml) :
    Faithful n .parameter (read access) json id :=
  (layout ha).faithful rfl fun _ _ => faithful_fields ha

theorem filterM_eq {α : Type} {l : List α} {f : α → Except DecodeFault Bool} {g : α → Bool}
    (h : ∀ a ∈ l, f a = .ok (g a)) : l.filterM f = .ok (l.filter g) := by
  suffices ∀ acc, l.filterAuxM f acc = .ok ((l.filter g).reverse ++ acc) by
    rw [List.filterM, this]
    simp [bind, Except.bind, pure, Except.pure]
  induction l with
  | nil => exact fun acc => rfl
  | cons a l ih =>
    rw [List.forall_mem_cons] at h
    intro acc
    rw [List.filterAuxM, h.1]
    cases hg : g a <;> simp [bind, Except.bind, ih h.2, hg, cond]

/-- A name that no further member has keeps what it has. -/
theorem find?_of_readMembers_of_forall_ne {α : Type} {read : Source → Except DecodeFault α}
    {done out : Members α} (hne : ∀ p ∈ ms, p.1 ≠ .text name)
    (names : ∀ p ∈ ms, ∃ s, p.1 = .text s)
    (h : readMembers access read ms done = .ok out) : out.find? name = done.find? name := by
  induction ms generalizing done with
  | nil =>
    cases h
    rfl
  | cons p ms ih =>
    rw [List.forall_mem_cons] at hne names
    obtain ⟨k, v⟩ := p
    obtain ⟨s, rfl : k = .text s⟩ := names.1
    obtain ⟨other, hother, h⟩ := ok_of_bind h
    obtain rfl : s = other := by simpa [memberText] using hother
    obtain ⟨a, -, h⟩ := ok_of_bind h
    have hs : s ≠ name := fun hs => hne.1 (hs ▸ rfl)
    rw [ih hne.2 names.2 h, Members.find?_insert_of_ne _ _ hs]

/-- A name that one member has stands for what that member is read as. -/
theorem find?_of_readMembers {α : Type} {read : Source → Except DecodeFault α}
    {done out : Members α} (names : ∀ p ∈ ms, ∃ s, p.1 = .text s)
    (hone : ms.filter (fun p => p.1 = .text name) = [(.text name, v)])
    (h : readMembers access read ms done = .ok out) :
    ∃ a, read v = .ok a ∧ out.find? name = some a := by
  induction ms generalizing done with
  | nil => cases hone
  | cons p ms ih =>
    rw [List.forall_mem_cons] at names
    obtain ⟨k, w⟩ := p
    obtain ⟨s, rfl : k = .text s⟩ := names.1
    obtain ⟨other, hother, h⟩ := ok_of_bind h
    obtain rfl : s = other := by simpa [memberText] using hother
    obtain ⟨a, ha, hrest⟩ := ok_of_bind h
    rw [List.filter_cons] at hone
    split at hone
    · rename_i hs
      obtain rfl : s = name := by simpa using hs
      obtain ⟨he, hnone⟩ := List.cons.inj hone
      cases he
      refine ⟨a, ok_of_inMember ha, ?_⟩
      rw [find?_of_readMembers_of_forall_ne (by simpa using hnone) names.2 hrest,
        Members.find?_insert_self]
    · exact ih names.2 hone hrest

namespace ParameterEntry

theorem exists_of_referencePath (hv : Plain n v) (h : referencePath v = .ok path) :
    ∃ ms fault, v = .record ms fault ∧
      ms.filter (fun p => p.1 = .text "$ref") = [(.text "$ref", .string path)] := by
  unfold referencePath at h
  split at h
  · rename_i ms fault
    have hfilter : ms.filterM (fun p => namesReference p.1) =
        .ok (ms.filter fun p => p.1 = .text "$ref") :=
      filterM_eq fun p hp => by
        obtain ⟨s, hs⟩ := hv.name hp
        simp [hs, namesReference, placeName?, memberText, bind, Except.bind, pure, Except.pure]
    obtain ⟨paths, hpaths, h⟩ := ok_of_bind h
    cases hfilter.symm.trans hpaths
    split at h
    · cases h
    · rename_i k w hone
      have hmem : (k, w) ∈ ms.filter fun p => p.1 = .text "$ref" := hone ▸ List.mem_cons_self
      obtain ⟨hmem, hk⟩ := List.mem_filter.mp hmem
      obtain rfl : k = .text "$ref" := by simpa using hk
      refine ⟨ms, fault, rfl, hone.trans ?_⟩
      have hw := hv.value hmem
      cases hw <;> cases h
      rfl
    · cases h
  · exact absurd h mistyped_ne_ok

theorem filter_ofMembers {ns : Members Json} (h : ns.names.Nodup) :
    (ofMembers ns).filter (fun p => p.1 = .text name) =
      match ns.find? name with
      | some w => [(.text name, ofJson w)]
      | none => [] := by
  induction ns with
  | nil => rfl
  | cons p ns ih =>
    obtain ⟨k, w⟩ := p
    obtain ⟨hk, hns⟩ := List.nodup_cons.mp h
    rw [ofMembers, List.filter_cons, ih hns, Members.find?_cons]
    by_cases he : k = name
    · have hnone : Members.find? ns name = none := Members.find?_eq_none_iff.mpr (he ▸ hk)
      simp [he, hnone]
    · simp [he]

theorem referencePath_ofJson {ns : Members Json} (h : ns.names.Nodup) :
    referencePath (ofJson (.object ns)) =
      match ns.find? "$ref" with
      | some w => Source.text .aside (ofJson w)
      | none => .error (.missing "$ref") := by
  have hfilter : (ofMembers ns).filterM (fun p => namesReference p.1) =
      .ok ((ofMembers ns).filter fun p => p.1 = .text "$ref") :=
    filterM_eq fun p hp => by
      rw [ofMembers_eq_map] at hp
      obtain ⟨q, -, rfl⟩ := List.mem_map.mp hp
      simp [namesReference, placeName?, memberText, bind, Except.bind, pure, Except.pure]
  rw [ofJson, referencePath]
  refine (congrArg (· >>= _) hfilter).trans ?_
  rw [filter_ofMembers h]
  cases ns.find? "$ref" <;> rfl

/-- What is written for an inline parameter refers to something where it keeps a text that does. -/
theorem referencePath_json {p : Parameter} (hv : Plain n v) (h : Parameter.read .aside v = .ok p) :
    referencePath (ofJson p.json) =
      match p.extra.find? "$ref" with
      | some w => Source.text .aside (ofJson w)
      | none => .error (.missing "$ref") := by
  obtain ⟨d, js, -, hfollows, rfl, -⟩ := (Parameter.layout aside_ne_yaml).follows_of_read
    (fun _ _ => Parameter.faithful_fields aside_ne_yaml) hv h
  have hjson : d.value.json = .object ((Parameter.layout aside_ne_yaml).written d.value) :=
    (Parameter.layout aside_ne_yaml).write_eq d.value
  have hfind : ((Parameter.layout aside_ne_yaml).written d.value).find? "$ref" =
      d.value.extra.find? "$ref" :=
    RecordReader.Layout.find?_written_unknown (by simp [Parameter.reader])
  rw [hjson, referencePath_ofJson hfollows.nodup_written, hfind]

theorem faithful : Faithful n .entry read json reread where
  carried v entry hv h := by
    have hfault := fault?_of_tryAside h
    replace h := ok_of_tryAside h
    split at h
    · rename_i path hpath
      cases h
      obtain ⟨ms, fault, rfl, hone⟩ := exists_of_referencePath hv hpath
      obtain ⟨j, hj⟩ := hv.exists_kept hfault
      refine ⟨j, hj, ?_⟩
      rw [kept] at hj
      obtain ⟨js, hjs, rfl⟩ := ok_of_fault hj
      rw [keptMembers_eq] at hjs
      obtain ⟨w, hw, hfind⟩ := find?_of_readMembers (fun p hp => hv.name hp) hone hjs
      cases hw
      exact .reference hfind
    · obtain ⟨p, hp, rfl⟩ := ok_of_map h
      obtain ⟨j, hj, hcarried⟩ := (Parameter.faithful aside_ne_yaml).carried v p hv hp
      exact ⟨j, hj, .inline hcarried⟩
  again v entry hv h := by
    replace h := ok_of_tryAside h
    refine tryAside_ofJson ?_
    split at h
    · cases h
      rfl
    · obtain ⟨p, hp, rfl⟩ := ok_of_map h
      have hagain := (Parameter.faithful aside_ne_yaml).again v p hv hp
      rw [json, reread, referencePath_json hv hp, Parameter.hiddenReference]
      cases p.extra.find? "$ref" with
      | none => exact congrArg (Except.map inline) hagain
      | some w =>
        cases w with
        | string path => rfl
        | _ => exact congrArg (Except.map inline) hagain

end ParameterEntry

theorem Response.faithful (ha : access ≠ .yaml) :
    Faithful n .response (read access) json id := by
  refine (layout access).faithful rfl fun m _ => ?_
  simp only [layout, List.forall_mem_cons]
  refine ⟨FieldOf.faithful_skipping faithful_text (fun s j hs hcarried => ?_) (by simp),
    FieldOf.faithful_optional (Schema.faithful ha) Schema.json_ne_null, List.forall_mem_nil _⟩
  obtain rfl : s = "" := by simpa using hs
  cases hcarried
  exact List.mem_cons_self

theorem Operation.faithful (ha : access ≠ .yaml) :
    Faithful n .operation (read access) json reread := by
  refine (layout access).faithful rfl fun m _ => ?_
  simp only [layout, List.forall_mem_cons]
  exact ⟨FieldOf.faithful_optional faithful_text nofun,
    FieldOf.faithful_optional faithful_text nofun, FieldOf.faithful_optional faithful_text nofun,
    FieldOf.faithful_listed faithful_text, FieldOf.faithful_listed ParameterEntry.faithful,
    FieldOf.faithful_mapped (Response.faithful ha),
    FieldOf.faithful_optional faithful_flag nofun, List.forall_mem_nil _⟩

theorem PathItem.faithful (ha : access ≠ .yaml) :
    Faithful n .pathItem (read access) json reread := by
  refine (layout access).faithful rfl fun m _ => ?_
  rw [layout, List.forall_mem_cons, List.forall_mem_map]
  exact ⟨FieldOf.faithful_listed ParameterEntry.faithful,
    fun m _ => FieldOf.faithful_optional (Operation.faithful ha) nofun⟩

theorem Info.faithful : Faithful n .info (read access) json id := by
  refine (layout access).faithful rfl fun m _ => ?_
  simp only [layout, List.forall_mem_cons]
  exact ⟨FieldOf.faithful_always faithful_text, FieldOf.faithful_optional faithful_text nofun,
    FieldOf.faithful_always faithful_text, List.forall_mem_nil _⟩

theorem Document.faithful (ha : access ≠ .yaml) :
    Faithful n .document (read access) json reread := by
  refine (layout access).faithful rfl fun m _ => ?_
  simp only [layout, List.forall_mem_cons]
  exact ⟨FieldOf.faithful_always faithful_text,
    FieldOf.faithful_optional Info.faithful nofun,
    FieldOf.faithful_optional faithful_text nofun, FieldOf.faithful_optional faithful_text nofun,
    FieldOf.faithful_mapped (PathItem.faithful ha), FieldOf.faithful_mapped (Schema.faithful ha),
    FieldOf.faithful_mapped (Parameter.faithful ha), List.forall_mem_nil _⟩

end ApiContract
