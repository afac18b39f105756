import ApiContract.Proofs.Document.Layouts

namespace ApiContract.Schema

open Source

variable {n : Nat} {access : Access} {v : Source} {vs : List Source} {s : Schema}
  {ms : List (MemberName × Source)} {d d' : Draft Schema}

theorem readPropertyList_eq (access : Access) (ms : List (MemberName × Source))
    (done : Members Schema) :
    readPropertyList access ms done = Source.readMembers access (read access) ms done := by
  induction ms generalizing done with
  | nil => rw [readPropertyList, Source.readMembers]
  | cons p ms ih =>
    obtain ⟨k, v⟩ := p
    rw [readPropertyList, Source.readMembers]
    simp only [ih]

theorem readProperties_eq (hv : Plain n v) :
    readProperties access v = Source.map access (read access) v := by
  cases hv with
  | record fault | emptyRecord fault =>
    rw [readProperties, readPropertyList_eq]
    rfl
  | _ => simp [readProperties, Source.map, Source.untagged]

theorem readList_eq (vs : List Source) (place : Nat) :
    readList vs = Source.readItems .aside (read .aside) place vs := by
  induction vs generalizing place with
  | nil => rw [readList, Source.readItems]
  | cons v vs ih => rw [readList, Source.readItems, inItem_aside, ih (place + 1)]

/-- The items of a schema that has any. -/
def readAnyItems (v : Source) : Except DecodeFault (Items Schema) :=
  tryAside "Items" v <|
    match v with
    | .list vs _ => (readList vs).map .tuple
    | .record ms _ => (readMembers .aside ms ⟨{}, []⟩).map fun d => .single d.value
    | _ => .error (.noVariant "Items")

theorem tryAside_map {α β : Type} {choice : String} (f : α → β) (trial : Except DecodeFault α) :
    tryAside choice v (trial.map f) = (tryAside choice v trial).map f := by
  unfold tryAside
  split
  · rfl
  · cases trial <;> rfl

theorem bind_pure_eq_map {α β : Type} (r : Except DecodeFault α) (f : α → β) :
    (r >>= fun a => pure (f a)) = r.map f := by
  cases r <;> rfl

theorem optional_eq_map {α : Type} {read : Source → Except DecodeFault α}
    (h : v.isNull access = .ok false) :
    Source.optional access read v = (read v).map some := by
  rw [← bind_pure_eq_map, Source.optional, h]
  rfl

theorem readItems_eq (access : Access) (v : Source) :
    readItems access v = Source.optional access readAnyItems v := by
  cases v with
  | list vs fault =>
    rw [optional_eq_map rfl, readItems, readAnyItems, ← tryAside_map]
    cases readList vs <;> rfl
  | record ms fault =>
    rw [optional_eq_map rfl, readItems, readAnyItems, ← tryAside_map]
    cases readMembers .aside ms ⟨{}, []⟩ <;> rfl
  | _ =>
    simp only [readItems, Source.optional]
    refine congrArg (isNull access _ >>= ·) (funext fun null? => ?_)
    cases null? with
    | true => rfl
    | false =>
      simp only [Bool.false_eq_true, if_false, bind_pure_eq_map]
      exact tryAside_map some (.error (.noVariant "Items"))

/-- The reader of a schema with all of its fields. -/
def fullReader (access : Access) : RecordReader Schema where
  name := "Schema"
  known := (reader access).known
  required := []
  start := {}
  keep := (reader access).keep
  set s name v :=
    match name with
    | "properties" => do return { s with properties := ← Source.map access (read access) v }
    | "items" => do return { s with items := ← Source.optional access readAnyItems v }
    | name => (reader access).set s name v

theorem inMember_bind_pure {α β : Type} {name : String} (r : Except DecodeFault α) (f : α → β) :
    inMember access name (r >>= fun a => pure (f a)) =
      inMember access name r >>= fun a => pure (f a) := by
  cases r <;> cases access <;> rfl

theorem readMembers_eq (values : ∀ p ∈ ms, Plain n p.2) (d : Draft Schema) :
    readMembers access ms d = (fullReader access).readFields access ms d := by
  induction ms generalizing d with
  | nil => rw [readMembers, RecordReader.readFields]
  | cons p ms ih =>
    obtain ⟨k, v⟩ := p
    rw [List.forall_mem_cons] at values
    rw [readMembers, RecordReader.readFields]
    refine congrArg (memberText access k >>= ·) (funext fun name => ?_)
    split
    · rw [RecordReader.readField, if_pos (by simp [fullReader, reader]), give]
      split
      · rfl
      · have hset : (fullReader access).set d.value "properties" v =
            Source.map access (read access) v >>= fun x =>
              pure { d.value with properties := x } := rfl
        rw [hset, inMember_bind_pure, readProperties_eq values.1]
        cases inMember access "properties" (Source.map access (read access) v) with
        | error => rfl
        | ok properties => exact ih values.2 _
    · rw [RecordReader.readField, if_pos (by simp [fullReader, reader]), give]
      split
      · rfl
      · have hset : (fullReader access).set d.value "items" v =
            Source.optional access readAnyItems v >>= fun x =>
              pure { d.value with items := x } := rfl
        rw [hset, inMember_bind_pure, readItems_eq]
        cases inMember access "items" (Source.optional access readAnyItems v) with
        | error => rfl
        | ok items => exact ih values.2 _
    · rename_i hproperties hitems
      have hset : (fullReader access).set d.value name v = (reader access).set d.value name v := by
        simp only [fullReader]
      have hfield : (reader access).readField access d name v =
          (fullReader access).readField access d name v := by
        rw [RecordReader.readField.eq_def, RecordReader.readField.eq_def, hset]
        rfl
      rw [hfield]
      exact congrArg (_ >>= ·) (funext fun d => ih values.2 d)

theorem read_eq (hv : Plain n v) : read access v = (fullReader access).read access v := by
  cases hv with
  | record fault names values =>
    rw [read, readMembers_eq values]
    refine congrArg ((fullReader access).readFields access _ _ >>= ·) (funext fun d => ?_)
    cases fault <;> rfl
  | emptyRecord fault => rfl
  | _ => simp [read, RecordReader.read, Source.untagged, fullReader, isEmpty]

theorem faithful_typeName (ha : access ≠ .yaml) :
    Faithful n .name (TypeName.read access) TypeName.json id :=
  faithful_choice ha

theorem faithful_types : Faithful n .types TypeSet.read TypeSet.json id where
  carried v types hv h := by
    replace h := ok_of_tryAside h
    split at h
    · rename_i t ht
      cases h
      obtain ⟨j, hj, hcarried⟩ := (faithful_typeName aside_ne_yaml).carried v t hv ht
      exact ⟨j, hj, .oneType hcarried⟩
    · obtain ⟨ts, hts, rfl⟩ := ok_of_map h
      obtain ⟨j, hj, hcarried⟩ := (faithful_typeName aside_ne_yaml).items.carried v ts hv hts
      exact ⟨j, hj, .severalTypes hcarried⟩
  again v types hv h := by
    replace h := ok_of_tryAside h
    refine tryAside_ofJson ?_
    split at h
    · rename_i t ht
      cases h
      have hagain := (faithful_typeName aside_ne_yaml).again v t hv ht
      rw [TypeSet.json, hagain]
      rfl
    · obtain ⟨ts, hts, rfl⟩ := ok_of_map h
      have hagain := (faithful_typeName aside_ne_yaml).items.again v ts hv hts
      have hname : TypeName.read .aside (ofJson (.array (ts.map TypeName.json))) =
          .error (.malformed (.json .valueExpected)) := rfl
      rw [TypeSet.json, hname, hagain, List.map_id]
      rfl

def itemsJson : Items Schema → Json
  | .single s => s.json
  | .tuple ss => .array (ss.map json)

theorem jsonItems_eq (items : Option (Items Schema)) :
    jsonItems items = present "items" itemsJson items := by
  match items with
  | none | some (.single _) => rfl
  | some (.tuple ss) => rw [jsonItems, jsonList_eq_map]; rfl

def layout (access : Access) : (fullReader access).Layout where
  fields := [
    .optional "$ref" .value (·.reference) (fun s x => { s with reference := x }) (fun _ _ => rfl)
      access (Source.text access) .string id,
    .optional "type" .types (·.types) (fun s x => { s with types := x }) (fun _ _ => rfl) access
      TypeSet.read TypeSet.json id,
    .optional "format" .value (·.format) (fun s x => { s with format := x }) (fun _ _ => rfl) access
      (Source.text access) .string id,
    .optional "description" .value (·.description) (fun s x => { s with description := x })
      (fun _ _ => rfl) access (Source.text access) .string id,
    .optional "nullable" .value (·.nullable) (fun s x => { s with nullable := x }) (fun _ _ => rfl)
      access (Source.flag access) .bool id,
    .mapped "properties" .schema (·.properties) (fun s x => { s with properties := x })
      (fun _ _ => rfl) access (read access) json id,
    .listed "required" .value (·.required) (fun s x => { s with required := x }) (fun _ _ => rfl)
      access (Source.text access) .string id,
    .optional "items" .items (·.items) (fun s x => { s with items := x }) (fun _ _ => rfl) access
      readAnyItems itemsJson id]
  extra := (·.extra)
  keep s name j := { s with extra := Members.insert s.extra name j }
  write := json
  again := id
  known := rfl
  nodup := by simp [fullReader, reader]
  within := by
    simp only [List.forall_mem_cons]
    exact ⟨{ get_again := fun _ => map_id_symm _ }, { get_again := fun _ => map_id_symm _ },
      { get_again := fun _ => map_id_symm _ }, { get_again := fun _ => map_id_symm _ },
      { get_again := fun _ => map_id_symm _ }, { get_again := fun _ => (List.map_id _).symm },
      { get_again := fun _ => (List.map_id _).symm }, { get_again := fun _ => map_id_symm _ },
      nofun⟩
  get_put_of_ne := by simp
  keep_eq := rfl
  extra_keep _ _ _ := rfl
  extra_start := rfl
  extra_again _ := rfl
  required := nofun
  write_eq s := by
    rw [json_eq]
    simp [members, FieldOf.member, present_map, present_ite, jsonItems_eq, jsonMembers_eq_map]
  ext := by
    rintro ⟨_, _, _, _, _, _, _, _, _⟩ ⟨_, _, _, _, _, _, _, _, _⟩
    simp +contextual

theorem json_ne_null (s : Schema) : s.json ≠ .null := by
  rw [json_eq]
  nofun

theorem read_of_readMembers (h : readMembers access ms ⟨{}, []⟩ = .ok d) :
    read access (.record ms none) = .ok d.value := by
  rw [read, h]
  rfl

/-- Items are read from a list of schemas or from one schema, with nothing wrong behind them. -/
theorem readAnyItems_cases {items : Items Schema} (h : readAnyItems v = .ok items) :
    (∃ vs ss, v = .list vs none ∧ Source.readItems .aside (read .aside) 0 vs = .ok ss ∧
      items = .tuple ss) ∨
    ∃ ms s, v = .record ms none ∧ read .aside v = .ok s ∧ items = .single s := by
  have hfault := fault?_of_tryAside h
  replace h := ok_of_tryAside h
  split at h
  · rename_i vs fault
    obtain ⟨ss, hss, rfl⟩ := ok_of_map h
    rw [fault?, Option.or_eq_none_iff, Option.map_eq_none_iff] at hfault
    obtain ⟨-, rfl⟩ := hfault
    rw [readList_eq vs 0] at hss
    exact Or.inl ⟨vs, ss, rfl, hss, rfl⟩
  · rename_i ms fault
    obtain ⟨d, hd, rfl⟩ := ok_of_map h
    rw [fault?, Option.or_eq_none_iff, Option.map_eq_none_iff] at hfault
    obtain ⟨-, rfl⟩ := hfault
    exact Or.inr ⟨ms, d.value, rfl, read_of_readMembers hd, rfl⟩
  · cases h

/-- Items are read and written faithfully if schemas are. -/
theorem faithful_items (h : Faithful n .schema (read .aside) json id) :
    Faithful n .items readAnyItems itemsJson id where
  carried v items hv hr := by
    rcases readAnyItems_cases hr with ⟨vs, ss, rfl, hss, rfl⟩ | ⟨ms, s, rfl, hs, rfl⟩
    · obtain ⟨js, hjs, hcarried⟩ :=
        carried_readItems (fun v hm s => h.carried v s (hv.item hm)) hss
      exact ⟨_, kept_list hjs, .oneForEach hcarried⟩
    · obtain ⟨j, hj, hcarried⟩ := h.carried _ s hv hs
      exact ⟨j, hj, .oneForAll hcarried⟩
  again v items hv hr := by
    refine tryAside_ofJson ?_
    rcases readAnyItems_cases hr with ⟨vs, ss, rfl, hss, rfl⟩ | ⟨ms, s, rfl, hs, rfl⟩
    · have key := forall_of_readItems (fun v hm s => h.again v s (hv.item hm)) hss
      have hlist : readList (ofList (ss.map json)) = .ok ss := by
        rw [readList_eq _ 0, ofList_eq_map, List.map_map, readItems_map (ofJson ∘ json) id key,
          List.map_id]
      rw [itemsJson, ofJson]
      exact congrArg (Except.map Items.tuple) hlist
    · have hagain := h.again _ s hv hs
      rw [json_eq, ofJson, read] at hagain
      obtain ⟨d, hd, he⟩ := ok_of_bind hagain
      have hvalue : d.value = s := Except.ok.inj he
      rw [itemsJson, json_eq, ofJson]
      simp only [hd, Except.map, hvalue]
      rfl

/-- Outside YAML, schemas are read and written faithfully, and read again as they were. -/
theorem faithful (ha : access ≠ .yaml) : Faithful n .schema (read access) json id := by
  induction n generalizing access with
  | zero => exact ((layout access).faithful rfl fun m hm => by omega).congr fun m v => read_eq
  | succ n ih =>
    refine ((layout access).faithful rfl fun m hm => ?_).congr fun m v => read_eq
    obtain rfl := Nat.succ.inj hm
    simp only [layout, List.forall_mem_cons]
    exact ⟨FieldOf.faithful_optional faithful_text nofun,
      FieldOf.faithful_optional faithful_types (by rintro (_ | _) <;> nofun),
      FieldOf.faithful_optional faithful_text nofun,
      FieldOf.faithful_optional faithful_text nofun,
      FieldOf.faithful_optional faithful_flag nofun,
      FieldOf.faithful_mapped (ih ha),
      FieldOf.faithful_listed faithful_text,
      FieldOf.faithful_optional (faithful_items (ih aside_ne_yaml))
        (by rintro (s | _); exact json_ne_null s; nofun), nofun⟩

end ApiContract.Schema
