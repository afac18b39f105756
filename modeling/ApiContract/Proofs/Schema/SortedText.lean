import ApiContract.Proofs.Schema.Agreement

namespace ApiContract.Schema

open Extraction

/-- The names of the fields that a schema interprets. -/
def keywords : List String :=
  ["$ref", "type", "format", "description", "nullable", "properties", "required", "items"]

/-- What nothing interprets does not hide one of the fields. -/
def Distinct (s : Schema) : Prop := ∀ keyword ∈ keywords, Members.find? s.extra keyword = none

theorem shallow_distinct : Shallow Distinct where
  properties _ _ _ h _ := h
  items _ _ h := h

/-- The members of the JSON value of a schema. -/
def members (s : Schema) : List (String × Json) :=
  present "$ref" .string s.reference ++ present "type" TypeSet.json s.types ++
  present "format" .string s.format ++ present "description" .string s.description ++
  present "nullable" .bool s.nullable ++
  (if s.properties.isEmpty then [] else [("properties", .object (jsonMembers s.properties))]) ++
  (if s.required.isEmpty then [] else [("required", .array (s.required.map .string))]) ++
  jsonItems s.items ++ s.extra

theorem json_eq (s : Schema) : s.json = .object s.members := by
  obtain ⟨_, _, _, _, _, _, _, _, _⟩ := s
  rw [json]
  rfl

theorem find?_present {α : Type} (name : String) (write : α → Json) (a : Option α)
    (other : String) :
    Members.find? (present name write a) other = if name = other then a.map write else none := by
  cases a <;> simp [present, Members.find?]

theorem find?_jsonItems (items : Option (Items Schema)) (name : String) :
    Members.find? (jsonItems items) name =
      if "items" = name then (Members.find? (jsonItems items) "items") else none := by
  match items with
  | none => simp [jsonItems]
  | some (.single s) => simp [jsonItems, Members.find?]
  | some (.tuple ss) => simp [jsonItems, Members.find?]

theorem find?_single {α : Type} (c : Bool) (name other : String) (a : α) :
    Members.find? (if c then [] else [(name, a)]) other =
      if name = other then (if c then none else some a) else none := by
  cases c <;> simp [Members.find?]

theorem find?_members (s : Schema) (name : String) :
    Members.find? s.members name =
      ((if "$ref" = name then s.reference.map Json.string else none).or <|
      (if "type" = name then s.types.map TypeSet.json else none).or <|
      (if "format" = name then s.format.map Json.string else none).or <|
      (if "description" = name then s.description.map Json.string else none).or <|
      (if "nullable" = name then s.nullable.map Json.bool else none).or <|
      (if "properties" = name then
        (if s.properties.isEmpty then none else some (.object (jsonMembers s.properties)))
        else none).or <|
      (if "required" = name then
        (if s.required.isEmpty then none else some (.array (s.required.map .string)))
        else none).or <|
      (if "items" = name then Members.find? (jsonItems s.items) "items" else none).or <|
      Members.find? s.extra name) := by
  rw [members]
  simp only [Members.find?_append, find?_present, find?_single, Option.or_assoc]
  rw [find?_jsonItems]

theorem jsonMembers_eq_map (properties : List (String × Schema)) :
    jsonMembers properties = properties.map fun p => (p.1, p.2.json) := by
  induction properties with
  | nil => rfl
  | cons p rest ih =>
    obtain ⟨k, s⟩ := p
    rw [jsonMembers, ih, List.map_cons]

theorem jsonList_eq_map (ss : List Schema) : jsonList ss = ss.map json := by
  induction ss with
  | nil => rfl
  | cons s rest ih => rw [jsonList, ih, List.map_cons]

theorem eq_of_map_sortedText {α : Type} {write : α → Json}
    (hw : ∀ a b, (write a).sortedText = (write b).sortedText → a = b) {a b : Option α}
    (h : (a.map write).map Json.sortedText = (b.map write).map Json.sortedText) : a = b := by
  match a, b with
  | none, none => rfl
  | some a, some b => exact congrArg some (hw a b (by simpa using h))
  | none, some b | some a, none => simp at h

theorem map_eq_of_map_sortedText {α : Type} {write : α → Json}
    (hw : ∀ a b, (write a).sortedText = (write b).sortedText → a = b) {as bs : List α}
    (h : as.map (Json.sortedText ∘ write) = bs.map (Json.sortedText ∘ write)) : as = bs := by
  induction as generalizing bs with
  | nil => simpa [eq_comm] using h
  | cons a as ih =>
    cases bs with
    | nil => simp at h
    | cons b bs =>
      obtain ⟨hab, hrest⟩ := List.cons.inj h
      rw [hw a b hab, ih hrest]

theorem typeName_of_sortedText (a b : TypeName) (h : a.json.sortedText = b.json.sortedText) :
    a = b := by
  have hl : a.label = b.label := Json.string_of_sortedText h
  revert hl
  cases a <;> cases b <;> simp [TypeName.label]

theorem typeSet_of_sortedText (a b : TypeSet) (h : a.json.sortedText = b.json.sortedText) :
    a = b := by
  match a, b with
  | .single a, .single b => rw [typeName_of_sortedText a b h]
  | .several as, .several bs =>
    have hm := Json.map_of_sortedText h
    rw [List.map_map, List.map_map] at hm
    rw [map_eq_of_map_sortedText typeName_of_sortedText hm]
  | .single _, .several _ | .several _, .single _ => cases Json.form_of_sortedText h

theorem strings_of_sortedText {as bs : List String}
    (h : (if as.isEmpty then none else some (Json.array (as.map .string))).map Json.sortedText =
      (if bs.isEmpty then none else some (Json.array (bs.map .string))).map Json.sortedText) :
    as = bs := by
  match as, bs with
  | [], [] => rfl
  | [], b :: bs | a :: as, [] => simp at h
  | a :: as, b :: bs =>
    have hm := Json.map_of_sortedText (Option.some.inj h)
    rw [List.map_map, List.map_map] at hm
    exact map_eq_of_map_sortedText (fun _ _ => Json.string_of_sortedText) hm

theorem find?_of_properties_sortedText {ps qs : List (String × Schema)}
    (h : (if ps.isEmpty then none else some (Json.object (jsonMembers ps))).map Json.sortedText =
      (if qs.isEmpty then none else some (Json.object (jsonMembers qs))).map Json.sortedText)
    (name : String) :
    (Members.find? ps name).map canonicalText = (Members.find? qs name).map canonicalText := by
  match ps, qs with
  | [], [] => rfl
  | [], q :: qs | p :: ps, [] => simp at h
  | p :: ps, q :: qs =>
    have hf := Json.find?_of_sortedText (Option.some.inj h) name
    rw [jsonMembers_eq_map, jsonMembers_eq_map, Members.find?_map, Members.find?_map,
      Option.map_map, Option.map_map] at hf
    exact hf

theorem form_json (s : Schema) : s.json.form = .object := by
  rw [json_eq]
  rfl

theorem items_of_sortedText {a b : Option (Items Schema)}
    (h : (Members.find? (jsonItems a) "items").map Json.sortedText =
      (Members.find? (jsonItems b) "items").map Json.sortedText) :
    ItemsAgree a b ∧ ∀ s t, a = some (.single s) → b = some (.single t) →
      canonicalText s = canonicalText t := by
  match a, b with
  | none, none => exact ⟨trivial, by simp⟩
  | some (.single s), some (.single t) =>
    have ht : canonicalText s = canonicalText t := Option.some.inj h
    refine ⟨trivial, ?_⟩
    rintro _ _ ⟨rfl⟩ ⟨rfl⟩
    exact ht
  | some (.tuple ss), some (.tuple ts) =>
    have hm := Json.map_of_sortedText (Option.some.inj h)
    rw [jsonList_eq_map, jsonList_eq_map, List.map_map, List.map_map] at hm
    exact ⟨hm, by simp⟩
  | none, some (.single _) | none, some (.tuple _) | some (.single _), none
  | some (.tuple _), none => simp [jsonItems, Members.find?] at h
  | some (.single s), some (.tuple ts) =>
    have hf := Json.form_of_sortedText (Option.some.inj h)
    rw [form_json] at hf
    cases hf
  | some (.tuple ss), some (.single t) =>
    have hf := Json.form_of_sortedText (Option.some.inj h)
    rw [form_json] at hf
    cases hf

/-- Nothing within them hides a field, and the texts with members by name are one. -/
structure SameText (s t : Schema) : Prop where
  left : s.Every Distinct
  right : t.Every Distinct
  text : canonicalText s = canonicalText t

variable {s t : Schema}

theorem SameText.find?_members (h : SameText s t) (name : String) :
    (Members.find? s.members name).map Json.sortedText =
      (Members.find? t.members name).map Json.sortedText := by
  have ht : s.json.sortedText = t.json.sortedText := h.text
  rw [json_eq, json_eq] at ht
  exact Json.find?_of_sortedText ht name

theorem find?_keyword (hs : s.Distinct) :
    Members.find? s.members "$ref" = s.reference.map .string ∧
    Members.find? s.members "type" = s.types.map TypeSet.json ∧
    Members.find? s.members "format" = s.format.map .string ∧
    Members.find? s.members "description" = s.description.map .string ∧
    Members.find? s.members "nullable" = s.nullable.map .bool ∧
    Members.find? s.members "properties" =
      (if s.properties.isEmpty then none else some (.object (jsonMembers s.properties))) ∧
    Members.find? s.members "required" =
      (if s.required.isEmpty then none else some (.array (s.required.map .string))) ∧
    Members.find? s.members "items" = Members.find? (jsonItems s.items) "items" := by
  have he : ∀ keyword ∈ keywords, Members.find? s.extra keyword = none := hs
  simp only [keywords, List.forall_mem_cons] at he
  obtain ⟨h1, h2, h3, h4, h5, h6, h7, h8, -⟩ := he
  simp [Schema.find?_members, h1, h2, h3, h4, h5, h6, h7, h8]

theorem find?_extra (hs : s.Distinct) (name : String) :
    Members.find? s.extra name =
      if name ∈ keywords then none else Members.find? s.members name := by
  split
  · rename_i hn
    exact hs name hn
  · rename_i hn
    simp only [keywords, List.mem_cons, List.not_mem_nil, or_false, not_or] at hn
    simp [Schema.find?_members, Ne.symm hn.1, Ne.symm hn.2.1, Ne.symm hn.2.2.1,
      Ne.symm hn.2.2.2.1, Ne.symm hn.2.2.2.2.1, Ne.symm hn.2.2.2.2.2.1,
      Ne.symm hn.2.2.2.2.2.2.1, Ne.symm hn.2.2.2.2.2.2.2]

/-- Properties of one name have one sorted text too. -/
theorem SameText.properties (h : SameText s t) (name : String) :
    (Members.find? s.properties name).map canonicalText =
      (Members.find? t.properties name).map canonicalText := by
  have hm := h.find?_members "properties"
  rw [(find?_keyword h.left.self).2.2.2.2.2.1, (find?_keyword h.right.self).2.2.2.2.2.1] at hm
  exact find?_of_properties_sortedText hm name

theorem SameText.items (h : SameText s t) :
    ItemsAgree s.items t.items ∧ ∀ a b, s.items = some (.single a) → t.items = some (.single b) →
      canonicalText a = canonicalText b := by
  have hm := h.find?_members "items"
  rw [(find?_keyword h.left.self).2.2.2.2.2.2.2, (find?_keyword h.right.self).2.2.2.2.2.2.2] at hm
  exact items_of_sortedText hm

theorem SameText.agrees (h : SameText s t) : s.Agrees t := by
  obtain ⟨s1, s2, s3, s4, s5, -, s7, -⟩ := find?_keyword h.left.self
  obtain ⟨t1, t2, t3, t4, t5, -, t7, -⟩ := find?_keyword h.right.self
  have string : ∀ a b, (Json.string a).sortedText = (Json.string b).sortedText → a = b :=
    fun _ _ => Json.string_of_sortedText
  have bool : ∀ a b, (Json.bool a).sortedText = (Json.bool b).sortedText → a = b :=
    fun _ _ => Json.bool_of_sortedText
  refine ⟨?_, ?_, ?_, ?_, ?_, ?_, ?_, ?_, h.items.1⟩
  · exact eq_of_map_sortedText string (s1 ▸ t1 ▸ h.find?_members "$ref")
  · exact eq_of_map_sortedText typeSet_of_sortedText (s2 ▸ t2 ▸ h.find?_members "type")
  · exact eq_of_map_sortedText string (s3 ▸ t3 ▸ h.find?_members "format")
  · exact eq_of_map_sortedText string (s4 ▸ t4 ▸ h.find?_members "description")
  · exact eq_of_map_sortedText bool (s5 ▸ t5 ▸ h.find?_members "nullable")
  · exact strings_of_sortedText (s7 ▸ t7 ▸ h.find?_members "required")
  · intro name
    rw [find?_extra h.left.self, find?_extra h.right.self]
    split
    · rfl
    · exact h.find?_members name
  · intro name
    have hn := congrArg Option.isSome (h.properties name)
    rw [Option.isSome_map, Option.isSome_map] at hn
    rw [Members.mem_names_iff, Members.mem_names_iff, hn]

theorem descending_sameText : Descending SameText where
  agrees h := h.agrees
  items h ha hb := by
    refine ⟨h.left.ofItems ha, h.right.ofItems hb, ?_⟩
    exact h.items.2 _ _ (items_of_singleItems ha) (items_of_singleItems hb)
  property {_ _ _ _ name} h ha hb := by
    refine ⟨h.left.ofProperty ha, h.right.ofProperty hb, ?_⟩
    have hp := h.properties name
    rw [ha, hb] at hp
    exact Option.some.inj hp

/-- What stands below a schema has another text: it holds less. -/
theorem canonicalText_ne_of_at? {route : Route} (h : s.at? route = some t) (hr : route ≠ []) :
    canonicalText s ≠ canonicalText t := by
  suffices hlt : t.json.nodes < s.json.nodes by
    intro he
    have hnodes : s.json.nodes = t.json.nodes := Json.nodes_of_sortedText he
    omega
  induction route generalizing s with
  | nil => exact absurd rfl hr
  | cons move route ih =>
    rw [at?_cons] at h
    obtain ⟨child, hc, ht⟩ := Option.bind_eq_some_iff.mp h
    have hlt : child.json.nodes < s.json.nodes := by
      cases move with
      | items =>
        have hi := items_of_singleItems ((at?_items s).symm.trans hc)
        have hm : ("items", child.json) ∈ s.members := by simp [members, hi, jsonItems]
        rw [json_eq s]
        exact Json.nodes_lt_of_mem hm
      | property name =>
        have hm := Members.mem_of_find? ((at?_property s name).symm.trans hc)
        have hp : ("properties", Json.object (jsonMembers s.properties)) ∈ s.members := by
          simp [members, List.ne_nil_of_mem hm]
        have hin : (name, child.json) ∈ jsonMembers s.properties := by
          rw [jsonMembers_eq_map]
          exact List.mem_map.mpr ⟨_, hm, rfl⟩
        rw [json_eq s]
        exact Nat.lt_trans (Json.nodes_lt_of_mem hin) (Json.nodes_lt_of_mem hp)
    by_cases hn : route = []
    · subst hn
      cases ht
      exact hlt
    · exact Nat.lt_trans (ih ht hn) hlt

/-- The same schema, or one of the same sorted text. -/
def Matches (s t : Schema) : Prop := s = t ∨ SameText s t

theorem descending_matches : Descending Matches where
  agrees h := h.elim (fun h => h ▸ .refl _) SameText.agrees
  items h ha hb := h.imp (descending_eq.items · ha hb) (descending_sameText.items · ha hb)
  property h ha hb := h.imp (descending_eq.property · ha hb) (descending_sameText.property · ha hb)

end ApiContract.Schema

namespace ApiContract

/-- No schema hides one of its fields behind a member that nothing interprets. -/
def Document.WellFormed (d : Document) : Prop := d.Every Schema.Distinct

end ApiContract
