import ApiContract.Document.Load
import ApiContract.Proofs.Schema.Unrepeated
import ApiContract.Proofs.Source.Plain

namespace ApiContract

open Source

namespace Source

mutual

/-- A value that is set aside is kept without a repeated name. -/
theorem unrepeated_of_kept : ∀ (v : Source) (j : Json), v.kept = .ok j → j.Unrepeated
  | .null, _, h => by
    cases h
    exact .null
  | .bool b, _, h => by
    cases h
    exact .bool b
  | .number n, _, h => by
    cases h
    exact .number n
  | .string s, _, h => by
    cases h
    exact .string s
  | .scalar s, _, h => by
    simp only [kept, keptScalar] at h
    split at h
    · cases h
    · split at h <;> cases h <;> constructor
  | .list vs fault, _, h => by
    rw [kept, keptList_eq vs 0] at h
    obtain ⟨js, hjs, rfl⟩ := ok_of_fault h
    exact .array (forall_of_readItems (unrepeated_of_keptItem vs) hjs)
  | .record ms fault, _, h => by
    rw [kept, keptMembers_eq] at h
    obtain ⟨ns, hns, rfl⟩ := ok_of_fault h
    have hnone : (Members.names ([] : Members Json)).Nodup := List.nodup_nil
    exact .object (nodup_names_of_readMembers hnone hns)
      (forall_of_readMembers (by simp) (unrepeated_of_keptMember ms) hns)
  | .tagged _ _, _, h | .broken _, _, h | .misspelt _, _, h => by cases h

theorem unrepeated_of_keptItem :
    ∀ vs : List Source, ∀ v ∈ vs, ∀ j, v.kept = .ok j → j.Unrepeated
  | [] => nofun
  | v :: vs => List.forall_mem_cons.mpr ⟨unrepeated_of_kept v, unrepeated_of_keptItem vs⟩

theorem unrepeated_of_keptMember :
    ∀ ms : List (MemberName × Source), ∀ p ∈ ms, ∀ j, p.2.kept = .ok j → j.Unrepeated
  | [] => nofun
  | (_, v) :: ms =>
    List.forall_mem_cons.mpr ⟨unrepeated_of_kept v, unrepeated_of_keptMember ms⟩

end

end Source

namespace Schema

/-- Something that holds of the empty schema and goes on to hold while members are read, whatever
schemas stand below. -/
structure KeptByReading (P : Schema → Prop) : Prop where
  start : P {}
  field : ∀ s t : Schema, t.properties = s.properties → t.extra = s.extra → P s → P t
  properties : ∀ (s : Schema) (ps : Members Schema), ps.names.Nodup → P s →
    P { s with properties := ps }
  extra : ∀ (s : Schema) (name : String) (v : Source) (json : Json), v.kept = .ok json →
    name ∉ keywords → P s → P { s with extra := Members.insert s.extra name json }

theorem keptByReading_distinct : KeptByReading Distinct where
  start := fun _ _ => rfl
  field s t _ he hs := fun keyword hk => he ▸ hs keyword hk
  properties _ _ _ hs := hs
  extra s name v json _ hname hs := fun keyword hk => by
    have hne : name ≠ keyword := by
      rintro rfl
      exact hname hk
    exact (Members.find?_insert_of_ne _ _ hne).trans (hs keyword hk)

theorem keptByReading_unrepeated : KeptByReading Unrepeated where
  start := ⟨keptByReading_distinct.start, List.nodup_nil, List.nodup_nil, by simp⟩
  field s t hp he hs :=
    ⟨keptByReading_distinct.field s t hp he hs.distinct, hp ▸ hs.properties, he ▸ hs.extra,
      he ▸ hs.values⟩
  properties s ps hps hs := { hs with properties := hps }
  extra s name v json hv hname hs :=
    { distinct := keptByReading_distinct.extra s name v json hv hname hs.distinct
      properties := hs.properties
      extra := Members.nodup_names_insert hs.extra name json
      values := fun p hp => by
        rcases Members.mem_of_mem_insert hp with hp | rfl
        · exact hs.values p hp
        · exact unrepeated_of_kept v json hv }

variable {P : Schema → Prop} {s t : Schema} {access : Access}

theorem KeptByReading.every_start (hP : KeptByReading P) : Schema.Every P {} :=
  every_iff.mpr ⟨hP.start, by simp, trivial⟩

/-- A field that holds no schema changes none of the schemas below. -/
theorem KeptByReading.readField (hP : KeptByReading P) {d d' : Draft Schema} {name : String}
    {v : Source} (hd : d.value.Every P) (h : (reader access).readField access d name v = .ok d') :
    d'.value.Every P := by
  have hset : ∀ t, (reader access).set d.value name v = .ok t → t.Every P := by
    intro t h
    rw [every_iff] at hd ⊢
    simp only [reader] at h
    split at h
    all_goals first
      | obtain ⟨_, -, h⟩ := ok_of_bind h
        cases h
        exact ⟨hP.field d.value _ rfl rfl hd.1, hd.2⟩
      | cases h
        exact hd
  rcases RecordReader.readField_cases h with
    ⟨t, ht, rfl⟩ | ⟨keep, json, hkeep, hv, hname, rfl⟩ | rfl
  · exact hset t ht
  · cases hkeep
    rw [every_iff] at hd ⊢
    exact ⟨hP.extra _ name v json hv hname hd.1, hd.2⟩
  · exact hd

theorem value_of_give {d d' : Draft Schema} {field : String} (h : give d field = .ok d') :
    d'.value = d.value := by
  unfold give at h
  split at h <;> cases h
  rfl

theorem nodup_names_of_readPropertyList {members : List (MemberName × Source)}
    {done ps : Members Schema} (hd : done.names.Nodup)
    (h : readPropertyList access members done = .ok ps) : ps.names.Nodup := by
  induction members generalizing done with
  | nil =>
    rw [readPropertyList] at h
    cases h
    exact hd
  | cons p rest ih =>
    obtain ⟨k, v⟩ := p
    rw [readPropertyList] at h
    obtain ⟨name, -, h⟩ := ok_of_bind h
    obtain ⟨s, -, h⟩ := ok_of_bind h
    exact ih (Members.nodup_names_insert hd name s) h

theorem nodup_names_of_readProperties : ∀ {v : Source} {ps : Members Schema},
    readProperties access v = .ok ps → ps.names.Nodup
  | .record members fault, ps, h => by
    rw [readProperties] at h
    obtain ⟨done, hd, rfl⟩ := ok_of_fault h
    have hnone : (Members.names ([] : Members Schema)).Nodup := List.nodup_nil
    exact nodup_names_of_readPropertyList hnone hd
  | .tagged _ v, ps, h => by
    rw [readProperties] at h
    exact nodup_names_of_readProperties h
  | .null, ps, h | .bool _, ps, h | .number _, ps, h | .string _, ps, h | .scalar _, ps, h
  | .list _ _, ps, h | .broken _, ps, h | .misspelt _, ps, h => by
    simp only [readProperties] at h
    rw [eq_of_isEmpty h]
    exact List.nodup_nil

mutual

theorem every_of_read (hP : KeptByReading P) (access : Access) : ∀ (v : Source) (s : Schema),
    read access v = .ok s → s.Every P
  | .record members fault, s, h => by
    rw [read] at h
    obtain ⟨d, hd, rfl⟩ := ok_of_fault h
    exact every_of_readMembers hP access members _ _ hP.every_start hd
  | .tagged _ v, s, h => by
    rw [read] at h
    exact every_of_read hP access v s h
  | .null, s, h | .bool _, s, h | .number _, s, h | .string _, s, h | .scalar _, s, h
  | .list _ _, s, h | .broken _, s, h | .misspelt _, s, h => by
    simp only [read] at h
    rw [eq_of_isEmpty h]
    exact hP.every_start

theorem every_of_readMembers (hP : KeptByReading P) (access : Access) :
    ∀ (members : List (MemberName × Source)) (d d' : Draft Schema), d.value.Every P →
      readMembers access members d = .ok d' → d'.value.Every P
  | [], d, d', hd, h => by
    rw [readMembers] at h
    cases h
    exact hd
  | (k, v) :: rest, d, d', hd, h => by
    rw [readMembers] at h
    obtain ⟨name, -, h⟩ := ok_of_bind h
    split at h
    · obtain ⟨one, hone, h⟩ := ok_of_bind h
      obtain ⟨properties, hp, h⟩ := ok_of_bind h
      have hp := ok_of_inMember hp
      refine every_of_readMembers hP access rest _ _ ?_ h
      rw [every_iff, value_of_give hone]
      rw [every_iff] at hd
      exact ⟨hP.properties _ _ (nodup_names_of_readProperties hp) hd.1,
        every_of_readProperties hP access v _ hp, hd.2.2⟩
    · obtain ⟨one, hone, h⟩ := ok_of_bind h
      obtain ⟨items, hi, h⟩ := ok_of_bind h
      refine every_of_readMembers hP access rest _ _ ?_ h
      rw [every_iff, value_of_give hone]
      rw [every_iff] at hd
      exact ⟨hP.field d.value _ rfl rfl hd.1, hd.2.1,
        every_of_readItems hP access v _ (ok_of_inMember hi)⟩
    · obtain ⟨one, hone, h⟩ := ok_of_bind h
      exact every_of_readMembers hP access rest _ _ (hP.readField hd hone) h

theorem every_of_readProperties (hP : KeptByReading P) (access : Access) :
    ∀ (v : Source) (ps : Members Schema), readProperties access v = .ok ps →
      ∀ p ∈ ps, p.2.Every P
  | .record members fault, ps, h => by
    rw [readProperties] at h
    obtain ⟨done, hd, rfl⟩ := ok_of_fault h
    exact every_of_readPropertyList hP access members _ _ (by simp) hd
  | .tagged _ v, ps, h => by
    rw [readProperties] at h
    exact every_of_readProperties hP access v ps h
  | .null, ps, h | .bool _, ps, h | .number _, ps, h | .string _, ps, h | .scalar _, ps, h
  | .list _ _, ps, h | .broken _, ps, h | .misspelt _, ps, h => by
    simp only [readProperties] at h
    rw [eq_of_isEmpty h]
    simp

theorem every_of_readPropertyList (hP : KeptByReading P) (access : Access) :
    ∀ (members : List (MemberName × Source)) (done ps : Members Schema),
      (∀ p ∈ done, p.2.Every P) → readPropertyList access members done = .ok ps →
      ∀ p ∈ ps, p.2.Every P
  | [], done, ps, hd, h => by
    rw [readPropertyList] at h
    cases h
    exact hd
  | (k, v) :: rest, done, ps, hd, h => by
    rw [readPropertyList] at h
    obtain ⟨name, -, h⟩ := ok_of_bind h
    obtain ⟨s, hs, h⟩ := ok_of_bind h
    refine every_of_readPropertyList hP access rest _ _ (fun p hp => ?_) h
    rcases Members.mem_of_mem_insert hp with hp | rfl
    · exact hd p hp
    · exact every_of_read hP access v s (ok_of_inMember hs)

theorem every_of_readItems (hP : KeptByReading P) (access : Access) : ∀ (v : Source)
    (items : Option (Items Schema)), readItems access v = .ok items → EveryItem P items
  | .list vs fault, items, h => by
    rw [readItems] at h
    obtain ⟨ss, hss, rfl⟩ := ok_of_map (ok_of_tryAside h)
    exact every_of_readList hP vs ss hss
  | .record members fault, items, h => by
    rw [readItems] at h
    obtain ⟨d, hd, rfl⟩ := ok_of_map (ok_of_tryAside h)
    exact every_of_readMembers hP .aside members _ d hP.every_start hd
  | .null, items, h | .bool _, items, h | .number _, items, h | .string _, items, h
  | .scalar _, items, h | .tagged _ _, items, h | .broken _, items, h | .misspelt _, items, h => by
    simp only [readItems] at h
    obtain ⟨none?, -, h⟩ := ok_of_bind h
    split at h
    · cases h
      trivial
    · cases ok_of_tryAside h

theorem every_of_readList (hP : KeptByReading P) : ∀ (vs : List Source) (ss : List Schema),
    readList vs = .ok ss → ∀ s ∈ ss, s.Every P
  | [], ss, h => by
    rw [readList] at h
    cases h
    simp
  | v :: rest, ss, h => by
    rw [readList] at h
    obtain ⟨s, hs, h⟩ := ok_of_bind h
    obtain ⟨others, ho, h⟩ := ok_of_bind h
    cases h
    exact List.forall_mem_cons.mpr ⟨every_of_read hP .aside v s hs,
      every_of_readList hP rest others ho⟩

end

end Schema

open Schema (KeptByReading)

variable {P : Schema → Prop}

/-- Something is true of the schema of a response, if it has one, and of all that stands in it. -/
def Response.Every (P : Schema → Prop) (r : Response) : Prop := ∀ s, r.schema = some s → s.Every P

def Operation.Every (P : Schema → Prop) (op : Operation) : Prop := ∀ p ∈ op.responses, p.2.Every P

def PathItem.Every (P : Schema → Prop) (item : PathItem) : Prop :=
  ∀ method op, item.operation method = some op → op.Every P

theorem Response.keeps_every (hP : KeptByReading P) (access : Access) :
    (reader access).Keeps (Every P) where
  start := by simp [Every, reader]
  set r name v r' _ hr h := by
    simp only [reader] at h
    split at h
    · obtain ⟨_, -, h⟩ := ok_of_bind h
      cases h
      exact hr
    · obtain ⟨schema, hschema, h⟩ := ok_of_bind h
      cases h
      intro s hs
      cases hs
      exact Schema.every_of_read hP access v s (ok_of_optional hschema)
    · cases h
      exact hr
  keep keep hkeep r name json hr _ := by
    cases hkeep
    exact hr

theorem Operation.keeps_every (hP : KeptByReading P) (access : Access) :
    (reader access).Keeps (Every P) where
  start := by simp [Every, reader]
  set op name v op' _ hop h := by
    simp only [reader] at h
    split at h
    case h_6 =>
      obtain ⟨responses, hr, h⟩ := ok_of_bind h
      cases h
      exact forall_of_map (fun v r => (Response.keeps_every hP access).holds) hr
    all_goals first
      | obtain ⟨_, -, h⟩ := ok_of_bind h
        cases h
        exact hop
      | cases h
        exact hop
  keep keep hkeep op name json hop _ := by
    cases hkeep
    exact hop

theorem PathItem.keeps_every (hP : KeptByReading P) (access : Access) :
    (reader access).Keeps (Every P) where
  start := by
    intro method op h
    cases method <;> cases h
  set item name v item' _ hitem h := by
    simp only [reader] at h
    split at h
    · rename_i m _
      obtain ⟨op, hop, h⟩ := ok_of_bind h
      cases h
      intro method op' h
      by_cases hm : m = method
      · subst hm
        rw [operation_setOperation] at h
        subst h
        exact (Operation.keeps_every hP access).holds (ok_of_optional hop)
      · rw [operation_setOperation_of_ne _ _ hm] at h
        exact hitem method op' h
    · obtain ⟨_, -, h⟩ := ok_of_bind h
      cases h
      refine fun method op hop => hitem method op ?_
      cases method <;> exact hop
  keep keep hkeep item name json hitem _ := by
    cases hkeep
    refine fun method op hop => hitem method op ?_
    cases method <;> exact hop

namespace Document

/-- Something is true of all schemas of the paths and definitions, found by name or not. -/
def Throughout (P : Schema → Prop) (d : Document) : Prop :=
  (∀ p ∈ d.paths, p.2.Every P) ∧ ∀ p ∈ d.definitions, p.2.Every P

theorem keeps_throughout (hP : KeptByReading P) (access : Access) :
    (reader access).Keeps (Throughout P) where
  start := by simp [Throughout, reader]
  set d name v d' _ hd h := by
    simp only [reader] at h
    split at h
    case h_5 =>
      obtain ⟨paths, hp, h⟩ := ok_of_bind h
      cases h
      exact ⟨forall_of_map (fun v item => (PathItem.keeps_every hP access).holds) hp, hd.2⟩
    case h_6 =>
      obtain ⟨definitions, hs, h⟩ := ok_of_bind h
      cases h
      exact ⟨hd.1, forall_of_map (Schema.every_of_read hP access) hs⟩
    all_goals first
      | obtain ⟨_, -, h⟩ := ok_of_bind h
        cases h
        exact hd
      | cases h
        exact hd
  keep keep hkeep d name json hd _ := by
    cases hkeep
    exact hd

/-- No name repeats among the paths, the definitions or the shared parameters. -/
structure Keyed (d : Document) : Prop where
  paths : d.paths.names.Nodup
  definitions : d.definitions.names.Nodup
  parameters : d.parameters.names.Nodup

theorem keeps_keyed (access : Access) : (reader access).Keeps Keyed where
  start := ⟨List.nodup_nil, List.nodup_nil, List.nodup_nil⟩
  set d name v d' _ hd h := by
    simp only [reader] at h
    split at h
    case h_5 =>
      obtain ⟨paths, hp, h⟩ := ok_of_bind h
      cases h
      exact { hd with paths := nodup_names_of_map hp }
    case h_6 =>
      obtain ⟨definitions, hs, h⟩ := ok_of_bind h
      cases h
      exact { hd with definitions := nodup_names_of_map hs }
    case h_7 =>
      obtain ⟨parameters, hp, h⟩ := ok_of_bind h
      cases h
      exact { hd with parameters := nodup_names_of_map hp }
    all_goals first
      | obtain ⟨_, -, h⟩ := ok_of_bind h
        cases h
        exact ⟨hd.paths, hd.definitions, hd.parameters⟩
      | cases h
        exact hd
  keep keep hkeep d name json hd _ := by
    cases hkeep
    exact ⟨hd.paths, hd.definitions, hd.parameters⟩

variable {d : Document} {format : Format} {text : String}

theorem Throughout.every (h : d.Throughout P) : d.Every P :=
  every_of_forall (fun p hp method op hop => h.1 p hp method op hop) h.2

/-- What a reader of documents keeps holds of every document that is decoded. -/
theorem holds_of_decode {P : Document → Prop} (hkeeps : ∀ access, (reader access).Keeps P)
    (h : decode format text = .ok d) : P d := by
  cases format with
  | json =>
    obtain ⟨v, hv⟩ := exists_of_readJson h
    exact (hkeeps .json).holds hv
  | yaml =>
    obtain ⟨v, hv⟩ := exists_of_readYaml h
    exact (hkeeps .yaml).holds hv

theorem decode_of_ofText (h : ofText format text = .ok d) : decode format text = .ok d := by
  unfold ofText checkVersion at h
  split at h
  · rename_i d' hd'
    split at h <;> cases h
    exact hd'
  · cases h

theorem every_of_decode (hP : KeptByReading P) (h : decode format text = .ok d) : d.Every P :=
  (holds_of_decode (keeps_throughout hP) h).every

/-- Every document that is read, from JSON or YAML, is well-formed. -/
theorem wellFormed_of_decode (h : decode format text = .ok d) : d.WellFormed :=
  every_of_decode Schema.keptByReading_distinct h

theorem wellFormed_of_ofText (h : ofText format text = .ok d) : d.WellFormed :=
  wellFormed_of_decode (decode_of_ofText h)

/-- No schema of a document that is read gives a name twice. -/
theorem unrepeated_of_decode (h : decode format text = .ok d) : d.Every Schema.Unrepeated :=
  every_of_decode Schema.keptByReading_unrepeated h

/-- No name repeats in the maps of a document that is read. -/
theorem keyed_of_decode (h : decode format text = .ok d) : d.Keyed :=
  holds_of_decode keeps_keyed h

end Document

end ApiContract
