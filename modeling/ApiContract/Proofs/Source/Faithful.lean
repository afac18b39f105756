import ApiContract.Proofs.Document.Carried
import ApiContract.Proofs.Source.Plain

namespace ApiContract.Source

variable {α β : Type} {n : Nat} {shape : Shape} {access : Access} {v : Source} {vs : List Source}
  {ms : List (MemberName × Source)} {read : Source → Except DecodeFault α} {write : α → Json}
  {again : α → α} {a : α} {choice : String}

/-- If no name is given twice in what was there, none is in what is written. -/
theorem kept_of_carried {j k : Json} (h : Carried shape j k) (hj : (ofJson j).kept = .ok j) :
    (ofJson k).kept = .ok k := by
  induction h with
  | value => exact hj
  | @list _ vs ws length _ ih =>
    refine kept_array fun w hw => ?_
    obtain ⟨i, v, hmem, hv, hw⟩ := Carried.exists_item length hw
    exact ih i v w hv hw (kept_of_array hj v hmem)
  | @map _ ms ns nodup names _ ih =>
    refine kept_object (names ▸ nodup) fun p hp => ?_
    obtain ⟨v, hmem, hv, hw⟩ := Carried.exists_value nodup names hp
    exact ih p.1 v p.2 hv hw (kept_of_object hj _ hmem)
  | @record _ fields ms ns known _ after unknown missing _ _ ih =>
    refine kept_object after fun p hp => ?_
    rcases Carried.of_mem_record after unknown missing hp with
      hmem | ⟨field, hfield, hw⟩ | ⟨field, hfield, v, hmem, hv, hw⟩
    · exact kept_of_object hj p hmem
    · rcases Carried.eq_of_filled known field hfield _ hw with he | he <;> rw [he] <;> rfl
    · exact ih field hfield v p.2 hv hw (kept_of_object hj _ hmem)
  | name | nameAlone | reference => rfl
  | oneType _ ih | severalTypes _ ih | oneForAll _ ih | oneForEach _ ih | inline _ ih => exact ih hj

/-- On plain values of depth `n`, what is read is written as what was there, and that is read as
what was read but for a change. -/
structure Faithful (n : Nat) (shape : Shape) (read : Source → Except DecodeFault α)
    (write : α → Json) (again : α → α) : Prop where
  carried : ∀ v a, Plain n v → read v = .ok a → ∃ j, v.kept = .ok j ∧ Carried shape j (write a)
  again : ∀ v a, Plain n v → read v = .ok a → read (ofJson (write a)) = .ok (again a)

theorem Faithful.congr {other : Source → Except DecodeFault α}
    (h : Faithful n shape other write again) (he : ∀ m v, Plain m v → read v = other v) :
    Faithful n shape read write again where
  carried v a hv hr := h.carried v a hv ((he n v hv).symm.trans hr)
  again v a hv hr := (he _ _ (plain_ofJson _ _ (Nat.le_refl _))).trans
    (h.again v a hv ((he n v hv).symm.trans hr))

theorem faithful_text : Faithful n .value (text access) .string id where
  carried v s hv h := by
    cases hv <;> cases h
    exact ⟨_, rfl, .value _⟩
  again v s hv h := rfl

theorem faithful_flag : Faithful n .value (flag access) .bool id where
  carried v b hv h := by
    cases hv <;> cases h
    exact ⟨_, rfl, .value _⟩
  again v b hv h := rfl

theorem eq_label_of_pick {all : List α} {label : α → String} {s : String}
    (h : pick (all.map fun a => (label a, a)) s = .ok a) : s = label a := by
  unfold pick at h
  split at h <;> cases h
  rename_i h
  induction all with
  | nil => cases h
  | cons b all ih =>
    rw [List.map_cons, List.lookup_cons] at h
    split at h
    · rename_i hs
      cases h
      exact beq_iff_eq.mp hs
    · exact ih h

/-- Outside YAML a name is given alone or as the only member of a record. -/
theorem Plain.exists_pick {choices : List (String × α)} (hv : Plain n v) (ha : access ≠ .yaml)
    (h : Source.choice access choices v = .ok a) :
    ∃ s, pick choices s = .ok a ∧ (v = .string s ∨ v = .record [(.text s, .null)] none) := by
  unfold Source.choice at h
  rw [if_neg ha] at h
  split at h
  · exact ⟨_, h, Or.inl rfl⟩
  · cases hv
  · cases h
  · cases h
  · cases h
  · rename_i k value rest fault
    obtain ⟨s, rfl : k = .text s⟩ := hv.name List.mem_cons_self
    obtain ⟨picked, hpicked, h⟩ := ok_of_bind h
    obtain ⟨null?, hnull, h⟩ := ok_of_bind h
    have hvalue : Plain n value := hv.value (p := (.text s, value)) List.mem_cons_self
    cases null? with
    | false =>
      obtain ⟨u, hu, -⟩ := ok_of_bind h
      exact absurd hu mistyped_ne_ok
    | true =>
      rw [hvalue.isNull hnull]
      simp only [not_true_eq_false, if_false] at h
      split at h <;> cases h
      exact ⟨s, hpicked, Or.inr rfl⟩
  · cases h
  · cases h

theorem faithful_choice {label : α → String} {all : List α} (ha : access ≠ .yaml) :
    Faithful n .name (Source.choice access (all.map fun a => (label a, a)))
      (fun a => .string (label a)) id where
  carried v a hv h := by
    obtain ⟨s, hs, rfl | rfl⟩ := hv.exists_pick ha h
    · obtain rfl := eq_label_of_pick hs
      exact ⟨_, rfl, .name _⟩
    · obtain rfl := eq_label_of_pick hs
      exact ⟨_, rfl, .nameAlone _⟩
  again v a hv h := by
    obtain ⟨s, hs, -⟩ := hv.exists_pick ha h
    rw [ofJson, Source.choice, if_neg ha, ← eq_label_of_pick hs]
    exact hs

theorem Plain.exists_items {as : List α} (hv : Plain n v)
    (h : Source.items access read v = .ok as) :
    ∃ vs, v = .list vs none ∧ readItems access read 0 vs = .ok as := by
  unfold Source.items at h
  rw [hv.untagged] at h
  split at h
  · rename_i vs fault
    obtain ⟨as', has, h⟩ := ok_of_bind h
    cases fault with
    | some fault => cases h
    | none =>
      cases h
      exact ⟨vs, rfl, has⟩
  · rw [hv.not_isEmpty] at h
    exact absurd h mistyped_ne_ok

theorem items_list {as : List α} (h : readItems access read 0 vs = .ok as) :
    Source.items access read (.list vs none) = .ok as := by
  change (readItems access read 0 vs >>= pure) = _
  rw [h]
  rfl

theorem carried_readItems {as : List α} {place : Nat}
    (h : ∀ v ∈ vs, ∀ a, read v = .ok a → ∃ j, v.kept = .ok j ∧ Carried shape j (write a))
    (hr : readItems access read place vs = .ok as) :
    ∃ js, keptList vs = .ok js ∧ Carried (.list shape) (.array js) (.array (as.map write)) := by
  suffices ∃ js, keptList vs = .ok js ∧ js.length = as.length ∧ ∀ (i : Nat) (j : Json) (a : α),
      js[i]? = some j → as[i]? = some a → Carried shape j (write a) by
    obtain ⟨js, hjs, hlength, key⟩ := this
    refine ⟨js, hjs, .list (by rw [List.length_map, hlength]) fun i j w hj hw => ?_⟩
    rw [List.getElem?_map, Option.map_eq_some_iff] at hw
    obtain ⟨a, ha, rfl⟩ := hw
    exact key i j a hj ha
  induction vs generalizing place as with
  | nil =>
    cases hr
    exact ⟨[], rfl, rfl, by simp⟩
  | cons v vs ih =>
    rw [List.forall_mem_cons] at h
    obtain ⟨a, ha, hr⟩ := ok_of_bind hr
    obtain ⟨as', has, hr⟩ := ok_of_bind hr
    cases hr
    obtain ⟨j, hj, hcarried⟩ := h.1 a (ok_of_inItem ha)
    obtain ⟨js, hjs, hlength, key⟩ := ih h.2 has
    refine ⟨j :: js, ?_, congrArg Nat.succ hlength, fun i => ?_⟩
    · rw [keptList, hj, hjs]
      rfl
    · cases i with
      | zero =>
        intro j' a' hj' ha'
        cases hj'
        cases ha'
        exact hcarried
      | succ i => exact key i

theorem Faithful.items (h : Faithful n shape read write again) :
    Faithful n (.list shape) (Source.items access read) (fun as => .array (as.map write))
      (List.map again) where
  carried v as hv hr := by
    obtain ⟨vs, rfl, has⟩ := hv.exists_items hr
    obtain ⟨js, hjs, hcarried⟩ := carried_readItems (fun v hm a => h.carried v a (hv.item hm)) has
    exact ⟨_, kept_list hjs, hcarried⟩
  again v as hv hr := by
    obtain ⟨vs, rfl, has⟩ := hv.exists_items hr
    have key := forall_of_readItems (fun v hm a => h.again v a (hv.item hm)) has
    rw [ofJson, ofList_eq_map, List.map_map]
    exact items_list (readItems_map (ofJson ∘ write) again key)

theorem Plain.exists_members {out : Members α} (hv : Plain n v)
    (h : Source.map access read v = .ok out) :
    ∃ ms, v = .record ms none ∧ readMembers access read ms [] = .ok out := by
  unfold Source.map at h
  rw [hv.untagged] at h
  split at h
  · rename_i ms fault
    obtain ⟨out', hout, h⟩ := ok_of_bind h
    cases fault with
    | some fault => cases h
    | none =>
      cases h
      exact ⟨ms, rfl, hout⟩
  · rw [hv.not_isEmpty] at h
    exact absurd h mistyped_ne_ok

theorem map_record {out : Members α} (h : readMembers access read ms [] = .ok out) :
    Source.map access read (.record ms none) = .ok out := by
  change (readMembers access read ms [] >>= pure) = _
  rw [h]
  rfl

theorem names_map (f : α → β) (m : Members α) :
    Members.names (m.map fun p => (p.1, f p.2)) = m.names := by
  rw [Members.names, List.map_map]
  rfl

theorem carried_readMembers {done out : Members α} (before : Members Json)
    (names : ∀ p ∈ ms, ∃ s, p.1 = .text s)
    (h : ∀ p ∈ ms, ∀ a, read p.2 = .ok a → ∃ j, p.2.kept = .ok j ∧ Carried shape j (write a))
    (hnames : done.names = before.names)
    (hdone : ∀ name j a, before.find? name = some j → done.find? name = some a →
      Carried shape j (write a))
    (hr : readMembers access read ms done = .ok out) :
    ∃ js, keptMembers ms before = .ok js ∧ out.names = js.names ∧
      ∀ name j a, js.find? name = some j → out.find? name = some a → Carried shape j (write a) := by
  induction ms generalizing done before with
  | nil =>
    cases hr
    exact ⟨before, rfl, hnames, hdone⟩
  | cons p ms ih =>
    rw [List.forall_mem_cons] at names h
    obtain ⟨k, v⟩ := p
    obtain ⟨s, rfl : k = .text s⟩ := names.1
    obtain ⟨name, hname, hr⟩ := ok_of_bind hr
    obtain rfl : s = name := by simpa [memberText] using hname
    obtain ⟨a, ha, hr⟩ := ok_of_bind hr
    obtain ⟨j, hj : v.kept = .ok j, hcarried⟩ := h.1 a (ok_of_inMember ha)
    have hnames' : (done.insert s a).names = (before.insert s j).names := by
      rw [Members.names_insert, Members.names_insert, hnames]
    obtain ⟨js, hjs, hout⟩ := ih (before.insert s j) names.2 h.2 hnames'
      (fun name j' a' hj' ha' => by
      rw [Members.find?_insert] at hj' ha'
      split at hj' <;> rename_i hs
      · rw [if_pos hs] at ha'
        cases hj'
        cases ha'
        exact hcarried
      · rw [if_neg hs] at ha'
        exact hdone name j' a' hj' ha') hr
    refine ⟨js, ?_, hout⟩
    rw [keptMembers, hj]
    exact hjs

theorem Faithful.map (h : Faithful n shape read write again) :
    Faithful n (.map shape) (Source.map access read)
      (fun m => .object (m.map fun p => (p.1, write p.2)))
      (List.map fun p => (p.1, again p.2)) where
  carried v m hv hr := by
    obtain ⟨ms, rfl, hm⟩ := hv.exists_members hr
    have hnodup : m.names.Nodup := nodup_names_of_readMembers (by simp [Members.names]) hm
    obtain ⟨js, hjs, hnames, hcarried⟩ := carried_readMembers [] (fun p hp => hv.name hp)
      (fun p hp a => h.carried p.2 a (hv.value hp)) rfl (by simp) hm
    refine ⟨_, kept_record hjs, .map (hnames ▸ hnodup) ?_ fun name j w hj hw => ?_⟩
    · rw [names_map, hnames]
    · rw [Members.find?_map, Option.map_eq_some_iff] at hw
      obtain ⟨a, ha, rfl⟩ := hw
      exact hcarried name j a hj ha
  again v m hv hr := by
    obtain ⟨ms, rfl, hm⟩ := hv.exists_members hr
    have hnodup : m.names.Nodup := nodup_names_of_readMembers (by simp [Members.names]) hm
    have key : ∀ p ∈ m, read (ofJson (write p.2)) = .ok (again p.2) :=
      forall_of_readMembers (by simp) (fun p hp a => h.again p.2 a (hv.value hp)) hm
    rw [ofJson, ofMembers_eq_map, List.map_map]
    exact map_record (readMembers_map (ofJson ∘ write) again hnodup key)

theorem tryAside_ofJson {w : Json} {trial : Except DecodeFault α} (h : trial = .ok a) :
    tryAside choice (ofJson w) trial = .ok a := by
  unfold tryAside
  rw [fault?_ofJson, h]

theorem aside_ne_yaml : Access.aside ≠ .yaml := nofun

theorem fault?_of_tryAside {trial : Except DecodeFault α} (h : tryAside choice v trial = .ok a) :
    v.fault? = none := by
  unfold tryAside at h
  split at h
  · cases h
  · assumption

end ApiContract.Source
