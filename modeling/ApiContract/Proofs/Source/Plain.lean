import ApiContract.Proofs.Json.Tokens
import ApiContract.Proofs.Source.Reading

namespace ApiContract

namespace Source

mutual

/-- What stands in the text of a JSON value. -/
def ofJson : Json → Source
  | .null => .null
  | .bool b => .bool b
  | .number n => .number n
  | .string s => .string s
  | .array vs => .list (ofList vs) none
  | .object ms => .record (ofMembers ms) none

def ofList : List Json → List Source
  | [] => []
  | v :: vs => ofJson v :: ofList vs

def ofMembers : List (String × Json) → List (MemberName × Source)
  | [] => []
  | (k, v) :: ms => (.text k, ofJson v) :: ofMembers ms

end

theorem ofList_eq_map (vs : List Json) : ofList vs = vs.map ofJson := by
  induction vs with
  | nil => rfl
  | cons v vs ih => rw [ofList, ih, List.map_cons]

theorem ofMembers_eq_map (ms : List (String × Json)) :
    ofMembers ms = ms.map fun p => (.text p.1, ofJson p.2) := by
  induction ms with
  | nil => rfl
  | cons p ms ih =>
    obtain ⟨k, v⟩ := p
    rw [ofMembers, ih, List.map_cons]

theorem ofMembers_append (ms ns : List (String × Json)) :
    ofMembers (ms ++ ns) = ofMembers ms ++ ofMembers ns := by
  simp only [ofMembers_eq_map, List.map_append]

mutual

theorem fault?_ofJson : ∀ v : Json, (ofJson v).fault? = none
  | .null | .bool _ | .number _ | .string _ => rfl
  | .array vs => by rw [ofJson, fault?, faultOfList?_ofList vs, Option.map_none, Option.or_none]
  | .object ms => by
    rw [ofJson, fault?, faultOfMembers?_ofMembers ms, Option.map_none, Option.or_none]

theorem faultOfList?_ofList : ∀ vs : List Json, faultOfList? (ofList vs) = none
  | [] => rfl
  | v :: vs => by rw [ofList, faultOfList?, fault?_ofJson v, faultOfList?_ofList vs, Option.or_none]

theorem faultOfMembers?_ofMembers :
    ∀ ms : List (String × Json), faultOfMembers? (ofMembers ms) = none
  | [] => rfl
  | (k, v) :: ms => by
    rw [ofMembers, faultOfMembers?, fault?_ofJson v, faultOfMembers?_ofMembers ms]
    rfl

end

/-- A value as JSON has it, of lists and records nested at most `n` deep. One that would be deeper
holds nothing but its fault. -/
inductive Plain : Nat → Source → Prop
  | null {n : Nat} : Plain n .null
  | bool {n : Nat} (b : Bool) : Plain n (.bool b)
  | number {n : Nat} (x : Number) : Plain n (.number x)
  | string {n : Nat} (s : String) : Plain n (.string s)
  | list {n : Nat} {vs : List Source} (fault : Option TextFault) (items : ∀ v ∈ vs, Plain n v) :
    Plain (n + 1) (.list vs fault)
  | record {n : Nat} {ms : List (MemberName × Source)} (fault : Option TextFault)
    (names : ∀ p ∈ ms, ∃ s, p.1 = .text s) (values : ∀ p ∈ ms, Plain n p.2) :
    Plain (n + 1) (.record ms fault)
  | emptyList {n : Nat} (fault : TextFault) : Plain n (.list [] (some fault))
  | emptyRecord {n : Nat} (fault : TextFault) : Plain n (.record [] (some fault))
  | broken {n : Nat} (fault : TextFault) : Plain n (.broken fault)
  | misspelt {n : Nat} (fault : TextFault) : Plain n (.misspelt fault)

namespace Plain

variable {n m : Nat} {v : Source} {vs : List Source} {ms : List (MemberName × Source)}
  {fault : Option TextFault}

theorem mono (h : Plain n v) (hle : n ≤ m) : Plain m v := by
  induction h generalizing m with
  | null => exact .null
  | bool b => exact .bool b
  | number x => exact .number x
  | string s => exact .string s
  | list fault _ ih =>
    obtain ⟨m, rfl⟩ := Nat.exists_eq_add_of_lt (Nat.lt_of_succ_le hle)
    exact .list fault fun v hv => ih v hv (by omega)
  | record fault names _ ih =>
    obtain ⟨m, rfl⟩ := Nat.exists_eq_add_of_lt (Nat.lt_of_succ_le hle)
    exact .record fault names fun p hp => ih p hp (by omega)
  | emptyList fault => exact .emptyList fault
  | emptyRecord fault => exact .emptyRecord fault
  | broken fault => exact .broken fault
  | misspelt fault => exact .misspelt fault

theorem members (h : Plain n (.record ms none)) :
    ∃ m, n = m + 1 ∧ (∀ p ∈ ms, ∃ s, p.1 = .text s) ∧ ∀ p ∈ ms, Plain m p.2 := by
  cases h with
  | record _ names values => exact ⟨_, rfl, names, values⟩

theorem item (h : Plain n (.list vs fault)) (hv : v ∈ vs) : Plain n v := by
  cases h with
  | list _ items => exact (items v hv).mono (Nat.le_succ _)
  | emptyList => cases hv

theorem name (h : Plain n (.record ms fault)) {p : MemberName × Source} (hp : p ∈ ms) :
    ∃ s, p.1 = .text s := by
  cases h with
  | record _ names _ => exact names p hp
  | emptyRecord => cases hp

theorem value (h : Plain n (.record ms fault)) {p : MemberName × Source} (hp : p ∈ ms) :
    Plain n p.2 := by
  cases h with
  | record _ _ values => exact (values p hp).mono (Nat.le_succ _)
  | emptyRecord => cases hp

theorem untagged (h : Plain n v) : v.untagged = v := by
  cases h <;> rfl

theorem not_isEmpty (h : Plain n v) (access : Access) : v.isEmpty access = false := by
  cases h <;> rfl

theorem isNull (h : Plain n v) {access : Access} (hv : v.isNull access = .ok true) :
    v = .null := by
  cases h <;> first | rfl | cases hv

end Plain

mutual

/-- A JSON value is as plain as it is deep. -/
theorem plain_ofJson : ∀ (v : Json) (n : Nat), v.depth ≤ n → Plain n (ofJson v)
  | .null, _, _ => .null
  | .bool b, _, _ => .bool b
  | .number x, _, _ => .number x
  | .string s, _, _ => .string s
  | .array vs, n + 1, h => .list none (plain_ofList vs n (Nat.le_of_succ_le_succ h))
  | .object ms, n + 1, h => by
    have hms := plain_ofMembers ms n (Nat.le_of_succ_le_succ h)
    exact .record none (fun p hp => (hms p hp).1) fun p hp => (hms p hp).2

theorem plain_ofList : ∀ (vs : List Json) (n : Nat), Json.depthOfList vs ≤ n →
    ∀ v ∈ ofList vs, Plain n v
  | [], _, _ => nofun
  | v :: vs, n, h => by
    obtain ⟨hv, hvs⟩ := Nat.max_le.mp h
    exact List.forall_mem_cons.mpr ⟨plain_ofJson v n hv, plain_ofList vs n hvs⟩

theorem plain_ofMembers : ∀ (ms : List (String × Json)) (n : Nat), Json.depthOfMembers ms ≤ n →
    ∀ p ∈ ofMembers ms, (∃ s, p.1 = .text s) ∧ Plain n p.2
  | [], _, _ => nofun
  | (k, v) :: ms, n, h => by
    obtain ⟨hv, hms⟩ := Nat.max_le.mp h
    exact List.forall_mem_cons.mpr ⟨⟨⟨k, rfl⟩, plain_ofJson v n hv⟩, plain_ofMembers ms n hms⟩

end

variable {n : Nat} {v : Source} {vs : List Source} {ms : List (MemberName × Source)} {j : Json}
  {js : List Json} {ns : Members Json}

theorem keptList_eq (vs : List Source) (place : Nat) :
    keptList vs = readItems .aside kept place vs := by
  induction vs generalizing place with
  | nil => rfl
  | cons v vs ih => rw [keptList, readItems, inItem_aside, ih (place + 1)]

theorem keptMembers_eq (ms : List (MemberName × Source)) (done : Members Json) :
    keptMembers ms done = readMembers .aside kept ms done := by
  induction ms generalizing done with
  | nil => rfl
  | cons p ms ih =>
    obtain ⟨k, v⟩ := p
    rw [keptMembers, readMembers]
    simp only [inMember_aside, ih]

theorem kept_list (h : keptList vs = .ok js) : kept (.list vs none) = .ok (.array js) := by
  rw [kept, h]
  rfl

theorem kept_record (h : keptMembers ms [] = .ok ns) :
    kept (.record ms none) = .ok (.object ns) := by
  rw [kept, h]
  rfl

theorem kept_array (h : ∀ j ∈ js, (ofJson j).kept = .ok j) :
    (ofJson (.array js)).kept = .ok (.array js) := by
  rw [ofJson]
  refine kept_list ?_
  rw [keptList_eq _ 0, ofList_eq_map, readItems_map ofJson id h, List.map_id]

theorem kept_object (hnodup : ns.names.Nodup) (h : ∀ p ∈ ns, (ofJson p.2).kept = .ok p.2) :
    (ofJson (.object ns)).kept = .ok (.object ns) := by
  rw [ofJson]
  refine kept_record ?_
  rw [keptMembers_eq, ofMembers_eq_map, readMembers_map ofJson id hnodup h]
  simp

/-- A plain value that is whole can be set aside. -/
theorem Plain.exists_kept (h : Plain n v) (hv : v.fault? = none) : ∃ j, v.kept = .ok j := by
  induction h with
  | null | bool | number | string => exact ⟨_, rfl⟩
  | broken | misspelt | emptyList | emptyRecord => cases hv
  | @list n vs fault _ ih =>
    rw [fault?, Option.or_eq_none_iff, Option.map_eq_none_iff] at hv
    obtain ⟨hvs, rfl⟩ := hv
    obtain ⟨js, hjs⟩ : ∃ js, readItems .aside kept 0 vs = .ok js :=
      exists_readItems fun v hv => ih v hv (faultOfList?_eq_none_iff.mp hvs v hv)
    exact ⟨_, kept_list ((keptList_eq vs 0).trans hjs)⟩
  | @record n ms fault names _ ih =>
    rw [fault?, Option.or_eq_none_iff, Option.map_eq_none_iff] at hv
    obtain ⟨hms, rfl⟩ := hv
    obtain ⟨ns, hns⟩ : ∃ ns, readMembers .aside kept ms [] = .ok ns :=
      exists_readMembers names fun p hp => ih p hp (faultOfMembers?_eq_none hms p hp)
    exact ⟨_, kept_record ((keptMembers_eq ms []).trans hns)⟩

/-- What is kept is no deeper than what was there, and it is kept again as it is. -/
theorem Plain.kept_ofJson (h : Plain n v) (hv : v.kept = .ok j) :
    j.depth ≤ n ∧ (ofJson j).kept = .ok j := by
  induction h generalizing j with
  | null | bool | number | string =>
    cases hv
    exact ⟨Nat.zero_le _, rfl⟩
  | broken | misspelt | emptyList | emptyRecord => cases hv
  | @list n vs fault _ ih =>
    rw [kept] at hv
    obtain ⟨js, hjs, rfl⟩ := ok_of_fault hv
    rw [keptList_eq vs 0] at hjs
    have key := forall_of_readItems ih hjs
    exact ⟨Nat.succ_le_succ (Json.depthOfList_le_iff.mpr fun j hj => (key j hj).1),
      kept_array fun j hj => (key j hj).2⟩
  | @record n ms fault _ _ ih =>
    rw [kept] at hv
    obtain ⟨ns, hns, rfl⟩ := ok_of_fault hv
    rw [keptMembers_eq] at hns
    have key := forall_of_readMembers (by simp) ih hns
    have hnodup : ns.names.Nodup := nodup_names_of_readMembers (by simp [Members.names]) hns
    exact ⟨Nat.succ_le_succ (Json.depthOfMembers_le_iff.mpr fun p hp => (key p hp).1),
      kept_object hnodup fun p hp => (key p hp).2⟩

/-- A number stands somewhere within a value. -/
inductive Has (x : Number) : Source → Prop
  | here : Has x (.number x)
  | item {vs : List Source} {fault : Option TextFault} {v : Source} (mem : v ∈ vs) (has : Has x v) :
    Has x (.list vs fault)
  | member {ms : List (MemberName × Source)} {fault : Option TextFault} {p : MemberName × Source}
    (mem : p ∈ ms) (has : Has x p.2) : Has x (.record ms fault)

/-- The numbers of what is kept are those that were there. -/
theorem Plain.has_of_kept (h : Plain n v) (hv : v.kept = .ok j) : ∀ x ∈ j.numbers, v.Has x := by
  induction h generalizing j with
  | null | bool | string =>
    cases hv
    exact nofun
  | number x =>
    cases hv
    rintro _ ⟨⟩
    · exact .here
    · contradiction
  | broken | misspelt | emptyList | emptyRecord => cases hv
  | @list n vs fault _ ih =>
    rw [kept] at hv
    obtain ⟨js, hjs, rfl⟩ := ok_of_fault hv
    rw [keptList_eq vs 0] at hjs
    intro x hx
    obtain ⟨j, hj, hx⟩ := Json.mem_numbersOfList.mp hx
    exact forall_of_readItems (P := fun j => ∀ x ∈ j.numbers, Has x (.list vs fault))
      (fun v hv j hj x hx => .item hv (ih v hv hj x hx)) hjs j hj x hx
  | @record n ms fault _ _ ih =>
    rw [kept] at hv
    obtain ⟨ns, hns, rfl⟩ := ok_of_fault hv
    rw [keptMembers_eq] at hns
    intro x hx
    obtain ⟨p, hp, hx⟩ := Json.mem_numbersOfMembers.mp hx
    exact forall_of_readMembers (P := fun j => ∀ x ∈ j.numbers, Has x (.record ms fault))
      (by simp) (fun p hp j hj x hx => .member hp (ih p hp hj x hx)) hns p hp x hx

theorem kept_of_array (h : (ofJson (.array js)).kept = .ok (.array js)) :
    ∀ j ∈ js, (ofJson j).kept = .ok j := by
  rw [ofJson, kept] at h
  obtain ⟨_, hjs, he⟩ := ok_of_bind h
  cases he
  rw [keptList_eq _ 0] at hjs
  exact forall_of_readItems
    (fun v hv j hj => ((plain_ofList js _ (Nat.le_refl _) v hv).kept_ofJson hj).2) hjs

theorem kept_of_object (h : (ofJson (.object ns)).kept = .ok (.object ns)) :
    ∀ p ∈ ns, (ofJson p.2).kept = .ok p.2 := by
  rw [ofJson, kept] at h
  obtain ⟨_, hns, he⟩ := ok_of_bind h
  cases he
  rw [keptMembers_eq] at hns
  exact forall_of_readMembers (by simp)
    (fun p hp j hj => ((plain_ofMembers ns _ (Nat.le_refl _) p hp).2.kept_ofJson hj).2) hns

/-- No name is given twice, so what is kept of the value is all of it. -/
def Unrepeated (v : Source) : Prop := ∃ j, v.kept = .ok j ∧ v = ofJson j

namespace Unrepeated

theorem plain (h : v.Unrepeated) : ∃ n, Plain n v := by
  obtain ⟨j, -, rfl⟩ := h
  exact ⟨j.depth, plain_ofJson j _ (Nat.le_refl _)⟩

theorem item {fault : Option TextFault} (h : (Source.list vs fault).Unrepeated) :
    ∀ v ∈ vs, v.Unrepeated := by
  obtain ⟨j, hj, he⟩ := h
  cases j with
  | array js =>
    cases he
    rw [ofList_eq_map, List.forall_mem_map]
    exact fun w hw => ⟨w, kept_of_array hj w hw, rfl⟩
  | _ => cases he

theorem member {fault : Option TextFault} (h : (Source.record ms fault).Unrepeated) :
    ∀ p ∈ ms, p.2.Unrepeated := by
  obtain ⟨j, hj, he⟩ := h
  cases j with
  | object ns =>
    cases he
    rw [ofMembers_eq_map, List.forall_mem_map]
    exact fun p hp => ⟨p.2, kept_of_object hj p hp, rfl⟩
  | _ => cases he

end Unrepeated

end Source

end ApiContract
