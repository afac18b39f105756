import ApiContract.Proofs.Json.Reordering
import ApiContract.Proofs.Schema.SortedText

namespace ApiContract.Schema

open Extraction

/-- A schema gives no name twice: not among its properties, not among the members that nothing
interprets, not within one of these, and not as one of these and as a field. -/
structure Unrepeated (s : Schema) : Prop where
  distinct : s.Distinct
  properties : (Members.names s.properties).Nodup
  extra : (Members.names s.extra).Nodup
  values : ∀ p ∈ s.extra, p.2.Unrepeated

theorem shallow_unrepeated : Shallow Unrepeated where
  properties _ name child h _ := { h with
    properties := Members.nodup_names_insert h.properties name child }
  items _ _ h := { h with }

variable {s : Schema}

theorem names_present_sublist {α : Type} (name : String) (write : α → Json) (a : Option α) :
    (Members.names (present name write a)).Sublist [name] := by
  cases a <;> simp [present, Members.names]

theorem names_single_sublist (c : Bool) (name : String) (v : Json) :
    (Members.names (if c then [] else [(name, v)])).Sublist [name] := by
  cases c <;> simp [Members.names]

theorem names_jsonItems_sublist (items : Option (Items Schema)) :
    (Members.names (jsonItems items)).Sublist ["items"] := by
  match items with
  | none | some (.single _) | some (.tuple _) => simp [jsonItems, Members.names]

theorem Unrepeated.nodup_names (h : s.Unrepeated) : (Members.names s.members).Nodup := by
  rw [members, Members.names, List.map_append, List.nodup_append]
  have hfields : (Members.names (present "$ref" .string s.reference ++
      present "type" TypeSet.json s.types ++ present "format" .string s.format ++
      present "description" .string s.description ++ present "nullable" .bool s.nullable ++
      (if s.properties.isEmpty then [] else [("properties", .object (jsonMembers s.properties))]) ++
      (if s.required.isEmpty then [] else [("required", .array (s.required.map .string))]) ++
      jsonItems s.items)).Sublist keywords := by
    simp only [Members.names, List.map_append]
    exact (((((((names_present_sublist ..).append (names_present_sublist ..)).append
      (names_present_sublist ..)).append (names_present_sublist ..)).append
      (names_present_sublist ..)).append (names_single_sublist ..)).append
      (names_single_sublist ..)).append (names_jsonItems_sublist _)
  refine ⟨hfields.nodup (by decide), h.extra, ?_⟩
  rintro name hname _ hextra rfl
  exact Members.find?_eq_none_iff.mp (h.distinct name (hfields.subset hname)) hextra

theorem unrepeated_strings (as : List String) : (Json.array (as.map .string)).Unrepeated := by
  refine .array fun v hv => ?_
  obtain ⟨s, -, rfl⟩ := List.mem_map.mp hv
  exact .string s

theorem unrepeated_typeSet (ts : TypeSet) : ts.json.Unrepeated := by
  cases ts with
  | single t => exact .string _
  | several ts =>
    refine .array fun v hv => ?_
    obtain ⟨t, -, rfl⟩ := List.mem_map.mp hv
    exact .string _

theorem unrepeated_present {α : Type} {name : String} {write : α → Json} {a : Option α}
    (h : ∀ a, (write a).Unrepeated) : ∀ p ∈ present name write a, p.2.Unrepeated := by
  cases a <;> simp [present, h]

mutual

/-- A schema that gives no name twice, nor any within it, is written without a repeated name. -/
theorem unrepeated_json : ∀ s : Schema, s.Every Unrepeated → s.json.Unrepeated
  | ⟨reference, types, format, description, nullable, properties, required, items, extra⟩, h => by
    obtain ⟨hs, hp, hi⟩ := every_iff.mp h
    have hnames := hs.nodup_names
    have hproperties : (Members.names (jsonMembers properties)).Nodup := by
      rw [jsonMembers_eq_map, Members.names, List.map_map]
      exact hs.properties
    rw [json_eq]
    refine .object hnames ?_
    simp only [members, List.forall_mem_append]
    refine ⟨⟨⟨⟨⟨⟨⟨⟨?_, ?_⟩, ?_⟩, ?_⟩, ?_⟩, ?_⟩, ?_⟩, ?_⟩, hs.values⟩
    · exact unrepeated_present .string
    · exact unrepeated_present unrepeated_typeSet
    · exact unrepeated_present .string
    · exact unrepeated_present .string
    · exact unrepeated_present .bool
    · split
      · simp
      · simpa using Json.Unrepeated.object hproperties (unrepeated_jsonMembers properties hp)
    · split
      · simp
      · simpa using unrepeated_strings required
    · exact unrepeated_jsonItems items hi

theorem unrepeated_jsonMembers : ∀ ps : List (String × Schema),
    (∀ p ∈ ps, p.2.Every Unrepeated) → ∀ p ∈ jsonMembers ps, p.2.Unrepeated
  | [], _ => nofun
  | (_, s) :: rest, h => by
    rw [List.forall_mem_cons] at h
    exact List.forall_mem_cons.mpr ⟨unrepeated_json s h.1, unrepeated_jsonMembers rest h.2⟩

theorem unrepeated_jsonItems : ∀ items : Option (Items Schema),
    EveryItem Unrepeated items → ∀ p ∈ jsonItems items, p.2.Unrepeated
  | none, _ => nofun
  | some (.single s), h => by simpa [jsonItems] using unrepeated_json s h
  | some (.tuple ss), h => by
    simpa [jsonItems] using Json.Unrepeated.array (unrepeated_jsonList ss h)

theorem unrepeated_jsonList : ∀ ss : List Schema,
    (∀ s ∈ ss, s.Every Unrepeated) → ∀ v ∈ jsonList ss, v.Unrepeated
  | [], _ => nofun
  | s :: rest, h => by
    rw [List.forall_mem_cons] at h
    exact List.forall_mem_cons.mpr ⟨unrepeated_json s h.1, unrepeated_jsonList rest h.2⟩

end

end ApiContract.Schema
