import ApiContract.Proofs.Members
import ApiContract.Source.JsonText
import ApiContract.Source.YamlText

namespace ApiContract.Source

variable {α β : Type} {access : Access} {name choice : String} {v : Source} {a : α} {b : β}
  {read : Source → Except DecodeFault α} {vs : List Source} {members : List (MemberName × Source)}

theorem ok_of_bind {x : Except DecodeFault α} {f : α → Except DecodeFault β}
    (h : x >>= f = .ok b) : ∃ a, x = .ok a ∧ f a = .ok b := by
  cases x with
  | error fault => cases h
  | ok a => exact ⟨a, rfl, h⟩

theorem ok_of_map {x : Except DecodeFault α} {f : α → β} (h : x.map f = .ok b) :
    ∃ a, x = .ok a ∧ f a = b := by
  cases x with
  | error fault => cases h
  | ok a => exact ⟨a, rfl, Except.ok.inj h⟩

theorem ok_of_inMember {r : Except DecodeFault α} (h : inMember access name r = .ok a) :
    r = .ok a := by
  unfold inMember within at h
  split at h
  · cases h
  · exact h

theorem ok_of_optional (h : optional access read v = .ok (some a)) : read v = .ok a := by
  obtain ⟨none?, -, h⟩ := ok_of_bind h
  cases none? with
  | true => cases h
  | false =>
    obtain ⟨a', ha, h⟩ := ok_of_bind h
    cases h
    exact ha

theorem ok_of_tryAside {trial : Except DecodeFault α} (h : tryAside choice v trial = .ok a) :
    trial = .ok a := by
  unfold tryAside at h
  split at h
  · cases h
  · split at h
    · exact h
    · cases h

/-- A record that is broken off is not read. -/
theorem ok_of_fault {x : Except DecodeFault α} {fault : Option TextFault} {f : α → β}
    (h : (do
      let d ← x
      match fault with
      | some fault => throw (DecodeFault.malformed fault)
      | none => return f d) = .ok b) : ∃ d, x = .ok d ∧ f d = b := by
  obtain ⟨d, hd, h⟩ := ok_of_bind h
  cases fault with
  | some fault => cases h
  | none =>
    cases h
    exact ⟨d, hd, rfl⟩

theorem mistyped_ne_ok {expected : String} : v.mistyped expected ≠ .ok a := by
  unfold mistyped
  split <;> nofun

/-- An empty place is read as one value, and no other place is. -/
theorem eq_of_isEmpty {expected : String} {c : β}
    (h : (if v.isEmpty access then .ok b else v.mistyped expected) = .ok c) : c = b := by
  split at h
  · cases h
    rfl
  · exact absurd h mistyped_ne_ok

@[simp] theorem inMember_ok : inMember access name (.ok a) = .ok a := by
  cases access <;> rfl

@[simp] theorem inItem_ok {place : Nat} : inItem access place (.ok a) = .ok a := by
  cases access <;> rfl

theorem inMember_aside (r : Except DecodeFault α) : inMember .aside name r = r := rfl

theorem inItem_aside (place : Nat) (r : Except DecodeFault α) : inItem .aside place r = r := rfl

theorem ok_of_inItem {place : Nat} {r : Except DecodeFault α}
    (h : inItem access place r = .ok a) : r = .ok a := by
  unfold inItem within at h
  split at h
  · cases h
  · exact h

theorem exists_readItems {place : Nat} (h : ∀ v ∈ vs, ∃ a, read v = .ok a) :
    ∃ as, readItems access read place vs = .ok as := by
  induction vs generalizing place with
  | nil => exact ⟨[], rfl⟩
  | cons v vs ih =>
    rw [List.forall_mem_cons] at h
    obtain ⟨a, ha⟩ := h.1
    obtain ⟨as, has⟩ : ∃ as, readItems access read (place + 1) vs = .ok as := ih h.2
    refine ⟨a :: as, ?_⟩
    rw [readItems, ha, inItem_ok, has]
    rfl

theorem forall_of_readItems {place : Nat} {as : List α} {P : α → Prop}
    (hread : ∀ v ∈ vs, ∀ a, read v = .ok a → P a)
    (h : readItems access read place vs = .ok as) : ∀ a ∈ as, P a := by
  induction vs generalizing place as with
  | nil =>
    cases h
    simp
  | cons v vs ih =>
    rw [List.forall_mem_cons] at hread
    obtain ⟨a, ha, h⟩ := ok_of_bind h
    obtain ⟨rest, hrest, h⟩ := ok_of_bind h
    cases h
    exact List.forall_mem_cons.mpr ⟨hread.1 a (ok_of_inItem ha), ih hread.2 hrest⟩

/-- Values that are all read give the list of what they are read as. -/
theorem readItems_map {place : Nat} (source : β → Source) (f : β → α) {bs : List β}
    (h : ∀ b ∈ bs, read (source b) = .ok (f b)) :
    readItems access read place (bs.map source) = .ok (bs.map f) := by
  induction bs generalizing place with
  | nil => rfl
  | cons b bs ih =>
    rw [List.forall_mem_cons] at h
    rw [List.map_cons, readItems, h.1, inItem_ok, ih h.2]
    rfl

theorem exists_readMembers {done : Members α} (names : ∀ p ∈ members, ∃ s, p.1 = .text s)
    (h : ∀ p ∈ members, ∃ a, read p.2 = .ok a) :
    ∃ out, readMembers access read members done = .ok out := by
  induction members generalizing done with
  | nil => exact ⟨done, rfl⟩
  | cons p rest ih =>
    rw [List.forall_mem_cons] at names h
    obtain ⟨k, v⟩ := p
    obtain ⟨s, rfl : k = .text s⟩ := names.1
    obtain ⟨a, ha⟩ := h.1
    obtain ⟨out, hout⟩ : ∃ out, readMembers access read rest (done.insert s a) = .ok out :=
      ih names.2 h.2
    refine ⟨out, ?_⟩
    rw [readMembers, ha]
    simpa [memberText, bind, Except.bind] using hout

theorem forall_of_readMembers {P : α → Prop} {done out : Members α} (hdone : ∀ p ∈ done, P p.2)
    (hread : ∀ p ∈ members, ∀ a, read p.2 = .ok a → P a)
    (h : readMembers access read members done = .ok out) : ∀ p ∈ out, P p.2 := by
  induction members generalizing done with
  | nil =>
    cases h
    exact hdone
  | cons p rest ih =>
    rw [List.forall_mem_cons] at hread
    obtain ⟨k, v⟩ := p
    obtain ⟨name, -, h⟩ := ok_of_bind h
    obtain ⟨value, hvalue, h⟩ := ok_of_bind h
    refine ih (fun p hp => ?_) hread.2 h
    rcases Members.mem_of_mem_insert hp with hp | rfl
    · exact hdone p hp
    · exact hread.1 value (ok_of_inMember hvalue)

theorem nodup_names_of_readMembers {done out : Members α} (hdone : done.names.Nodup)
    (h : readMembers access read members done = .ok out) : out.names.Nodup := by
  induction members generalizing done with
  | nil =>
    cases h
    exact hdone
  | cons p rest ih =>
    obtain ⟨k, v⟩ := p
    obtain ⟨name, -, h⟩ := ok_of_bind h
    obtain ⟨value, -, h⟩ := ok_of_bind h
    exact ih (Members.nodup_names_insert hdone name value) h

theorem readMembers_append {source : β → Source} {f : β → α} {ms : Members β} {done : Members α}
    (hnodup : (done.names ++ ms.map Prod.fst).Nodup)
    (h : ∀ p ∈ ms, read (source p.2) = .ok (f p.2)) :
    readMembers access read (ms.map fun p => (.text p.1, source p.2)) done =
      .ok (done ++ ms.map fun p => (p.1, f p.2)) := by
  induction ms generalizing done with
  | nil =>
    rw [List.map_nil, List.map_nil, List.append_nil]
    rfl
  | cons p ms ih =>
    obtain ⟨k, b⟩ := p
    rw [List.forall_mem_cons] at h
    have hk : k ∉ done.names := fun hk =>
      (List.nodup_append.mp hnodup).2.2 k hk k List.mem_cons_self rfl
    have hnames : ((done.insert k (f b)).names ++ ms.map Prod.fst).Nodup := by
      rw [Members.names_insert, if_neg hk, List.append_assoc]
      exact hnodup
    rw [List.map_cons, readMembers, h.1]
    simp only [memberText, inMember_ok, bind, Except.bind]
    rw [ih hnames h.2, Members.insert_of_find?_none (Members.find?_eq_none_iff.mpr hk)]
    simp

/-- Members of different names that are all read give the map of what they are read as. -/
theorem readMembers_map (source : β → Source) (f : β → α) {ms : Members β}
    (hnodup : ms.names.Nodup) (h : ∀ p ∈ ms, read (source p.2) = .ok (f p.2)) :
    readMembers access read (ms.map fun p => (.text p.1, source p.2)) [] =
      .ok (ms.map fun p => (p.1, f p.2)) :=
  readMembers_append hnodup h

theorem forall_of_map {P : α → Prop} (hread : ∀ v a, read v = .ok a → P a) {out : Members α}
    (h : map access read v = .ok out) : ∀ p ∈ out, P p.2 := by
  unfold map at h
  split at h
  · obtain ⟨done, hdone, rfl⟩ := ok_of_fault h
    exact forall_of_readMembers (by simp) (fun p _ => hread p.2) hdone
  · rw [eq_of_isEmpty h]
    simp

theorem nodup_names_of_map {out : Members α} (h : map access read v = .ok out) :
    out.names.Nodup := by
  have hnone : (Members.names ([] : Members α)).Nodup := List.nodup_nil
  unfold map at h
  split at h
  · obtain ⟨done, hdone, rfl⟩ := ok_of_fault h
    exact nodup_names_of_readMembers hnone hdone
  · rw [eq_of_isEmpty h]
    exact hnone

theorem faultOfList?_eq_none_iff : faultOfList? vs = none ↔ ∀ v ∈ vs, v.fault? = none := by
  induction vs with
  | nil => simp [faultOfList?]
  | cons v vs ih => rw [faultOfList?, Option.or_eq_none_iff, ih, List.forall_mem_cons]

theorem faultOfMembers?_eq_none (h : faultOfMembers? members = none) :
    ∀ p ∈ members, p.2.fault? = none := by
  induction members with
  | nil => simp
  | cons p rest ih =>
    obtain ⟨k, v⟩ := p
    rw [faultOfMembers?, Option.or_eq_none_iff, Option.or_eq_none_iff] at h
    exact List.forall_mem_cons.mpr ⟨h.1.2, ih h.2⟩

/-- Something that holds of the empty record, and goes on to hold whatever is set, from a value of
some kind, or put aside. -/
structure RecordReader.KeepsFrom (r : RecordReader α) (Q : Source → Prop) (P : α → Prop) :
    Prop where
  start : P r.start
  set : ∀ a name v b, Q v → P a → r.set a name v = .ok b → P b
  keep : ∀ keep, r.keep = some keep → ∀ a name json, P a → name ∉ r.known → P (keep a name json)

abbrev RecordReader.Keeps (r : RecordReader α) (P : α → Prop) : Prop :=
  r.KeepsFrom (fun _ => True) P

namespace RecordReader

variable {r : RecordReader α} {Q : Source → Prop} {P : α → Prop} {d d' : Draft α}

theorem readField_known {b : α} (hknown : name ∈ r.known) (hgiven : name ∉ d.given)
    (hset : r.set d.value name v = .ok b) :
    r.readField access d name v = .ok ⟨b, name :: d.given⟩ := by
  rw [RecordReader.readField, if_pos hknown, if_neg hgiven, hset, inMember_ok]
  rfl

theorem readField_unknown {keep : α → String → Json → α} {j : Json} (hknown : name ∉ r.known)
    (hkeep : r.keep = some keep) (hv : v.kept = .ok j) :
    r.readField access d name v = .ok { d with value := keep d.value name j } := by
  rw [RecordReader.readField.eq_def, if_neg hknown, hkeep]
  simp only [hv]
  rfl

theorem readFields_cons (h : r.readField access d name v = .ok d') :
    r.readFields access ((.text name, v) :: members) d = r.readFields access members d' := by
  rw [RecordReader.readFields]
  change (r.readField access d name v >>= _) = _
  rw [h]
  rfl

/-- A field is set, another member is kept, and if none are kept it is passed over. -/
theorem readField_cases (h : r.readField access d name v = .ok d') :
    (∃ b, r.set d.value name v = .ok b ∧ d' = ⟨b, name :: d.given⟩) ∨
    (∃ keep json, r.keep = some keep ∧ v.kept = .ok json ∧ name ∉ r.known ∧
      d' = { d with value := keep d.value name json }) ∨
    d' = d := by
  unfold RecordReader.readField at h
  split at h
  · split at h
    · cases h
    · obtain ⟨b, hb, h⟩ := ok_of_bind h
      cases h
      exact Or.inl ⟨b, ok_of_inMember hb, rfl⟩
  · rename_i hknown
    split at h
    · rename_i keep hkeep
      obtain ⟨json, hjson, h⟩ := ok_of_bind h
      cases h
      exact Or.inr (Or.inl ⟨keep, json, hkeep, hjson, hknown, rfl⟩)
    · split at h
      · cases h
      · cases h
        exact Or.inr (Or.inr rfl)

theorem KeepsFrom.readField (h : r.KeepsFrom Q P) (hv : Q v) (hd : P d.value)
    (hr : r.readField access d name v = .ok d') : P d'.value := by
  rcases readField_cases hr with ⟨b, hb, rfl⟩ | ⟨keep, json, hkeep, -, hknown, rfl⟩ | rfl
  · exact h.set _ _ _ _ hv hd hb
  · exact h.keep keep hkeep _ _ _ hd hknown
  · exact hd

theorem KeepsFrom.readFields (h : r.KeepsFrom Q P) (hv : ∀ p ∈ members, Q p.2) (hd : P d.value)
    (hr : r.readFields access members d = .ok d') : P d'.value := by
  induction members generalizing d with
  | nil =>
    cases hr
    exact hd
  | cons p rest ih =>
    rw [List.forall_mem_cons] at hv
    obtain ⟨k, v⟩ := p
    obtain ⟨name, -, hr⟩ := ok_of_bind hr
    obtain ⟨one, hone, hr⟩ := ok_of_bind hr
    exact ih hv.2 (h.readField hv.1 hd hone) hr

theorem eq_of_finish (hr : r.finish d = .ok a) : a = d.value := by
  unfold finish at hr
  split at hr <;> cases hr
  rfl

theorem KeepsFrom.holds (h : r.KeepsFrom Q P)
    (hv : ∀ members fault, v.untagged = .record members fault → ∀ p ∈ members, Q p.2)
    (hr : r.read access v = .ok a) : P a := by
  unfold RecordReader.read at hr
  split at hr
  · rename_i members fault he
    obtain ⟨d, hd, hr⟩ := ok_of_bind hr
    split at hr
    · cases hr
    · rw [eq_of_finish hr]
      exact h.readFields (hv members _ he) h.start hd
  · split at hr
    · rw [eq_of_finish hr]
      exact h.start
    · exact absurd hr mistyped_ne_ok

theorem Keeps.holds (h : r.Keeps P) (hr : r.read access v = .ok a) : P a :=
  KeepsFrom.holds h (fun _ _ _ _ _ => trivial) hr

end RecordReader

theorem exists_of_readJson {plan : Plan} {text : String} (h : readJson plan read text = .ok a) :
    ∃ v, read v = .ok a := by
  obtain ⟨a', ha, h⟩ := ok_of_bind h
  split at h <;> cases h
  exact ⟨_, ha⟩

theorem exists_of_readYaml {text : String} (h : readYaml read text = .ok a) :
    ∃ v, read v = .ok a := by
  obtain ⟨a', ha, h⟩ := ok_of_bind h
  split at h <;> cases h
  exact ⟨_, ha⟩

end ApiContract.Source
