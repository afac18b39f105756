import ApiContract.Proofs.Schema.Everywhere

namespace ApiContract

open Extraction

namespace Schema

variable {s : Schema} {name : String}

theorem kind_eq_reference_iff : s.kind = .reference name ↔ s.referenceName = some name := by
  unfold kind kindOf referenceName
  cases ApiContract.referenceName s.reference with
  | some other => simp
  | none =>
    simp only [reduceCtorEq, iff_false]
    split
    · simp
    · split
      · simp
      · split <;> simp

theorem referenceName_eq_none_of_array (h : s.kind = .array) : s.referenceName = none := by
  cases hr : s.referenceName with
  | none => rfl
  | some name =>
    rw [kind_eq_reference_iff.mpr hr] at h
    cases h

theorem not_array_of_referenceName (h : s.referenceName = some name) : s.kind ≠ .array := by
  intro ha
  rw [referenceName_eq_none_of_array ha] at h
  cases h

/-- A reference has no properties beside it. -/
def Bare (s : Schema) : Prop := s.referenceName = none ∨ s.properties = []

theorem shallow_bare : Shallow Bare where
  properties _ _ _ h hn := Or.inl (h.resolve_right hn)
  items _ _ h := h

end Schema

namespace Extraction

variable {s : Schema} {slot slot' : Slot} {step name : String} {steps rest : List String}

theorem locateProperty_eq (slot : Slot) (step : String) (rest : List String)
    (properties : List (String × Schema)) :
    locateProperty slot step rest properties =
      match Members.find? properties step with
      | some child => locateFrom (slot.toProperty step) child rest
      | none => .error (.noSuchProperty step) := by
  induction properties with
  | nil => simp [locateProperty]
  | cons p more ih =>
    obtain ⟨k, s⟩ := p
    by_cases hk : k = step <;> simp [locateProperty, Members.find?, hk, ih]

theorem locateFrom_eq (slot : Slot) (s : Schema) (steps : List String) :
    locateFrom slot s steps =
      if s.kind = .array then locateItems slot s.items steps
      else match steps with
        | [] => .ok slot
        | step :: rest => locateProperty slot step rest s.properties := by
  obtain ⟨_, _, _, _, _, _, _, _, _⟩ := s
  rw [locateFrom.eq_def]
  rfl

theorem locateFrom_array (h : s.kind = .array) :
    locateFrom slot s steps =
      match s.singleItems with
      | some item => locateFrom slot.toItems item steps
      | none => .error (.malformedArray slot.name) := by
  rw [locateFrom_eq, if_pos h, Schema.singleItems]
  cases s.items with
  | none => rfl
  | some items => cases items <;> rfl

theorem locateFrom_nil (h : s.kind ≠ .array) : locateFrom slot s [] = .ok slot := by
  rw [locateFrom_eq, if_neg h]

theorem locateFrom_cons (h : s.kind ≠ .array) :
    locateFrom slot s (step :: rest) =
      match Members.find? s.properties step with
      | some child => locateFrom (slot.toProperty step) child rest
      | none => .error (.noSuchProperty step) := by
  rw [locateFrom_eq, if_neg h]
  exact locateProperty_eq slot step rest s.properties

theorem hopProperty_eq (skipped : Nat) (step : String) (rest : List String)
    (properties : List (String × Schema)) :
    hopProperty skipped step rest properties =
      match Members.find? properties step with
      | some child => hopFrom (skipped + 1) child rest
      | none => none := by
  induction properties with
  | nil => simp [hopProperty]
  | cons p more ih =>
    obtain ⟨k, s⟩ := p
    by_cases hk : k = step <;> simp [hopProperty, Members.find?, hk, ih]

theorem hopFrom_nil (skipped : Nat) (s : Schema) : hopFrom skipped s [] = none := by
  obtain ⟨_, _, _, _, _, _, _, _, _⟩ := s
  rw [hopFrom]

theorem hopFrom_array {skipped : Nat} (h : s.kind = .array) :
    hopFrom skipped s (step :: rest) =
      match s.singleItems with
      | some item => hopFrom skipped item (step :: rest)
      | none => none := by
  obtain ⟨reference, types, _, _, _, properties, _, items, _⟩ := s
  have hk : kindOf reference types (!properties.isEmpty) = .array := h
  rw [hopFrom, hk]
  match items with
  | none | some (.single _) | some (.tuple _) => simp [hopItems, Schema.singleItems]

theorem hopFrom_reference {skipped : Nat} (h : s.referenceName = some name) :
    hopFrom skipped s (step :: rest) = some ⟨name, skipped⟩ := by
  have hk := Schema.kind_eq_reference_iff.mpr h
  obtain ⟨reference, types, _, _, _, properties, _, _, _⟩ := s
  have hk : kindOf reference types (!properties.isEmpty) = .reference name := hk
  rw [hopFrom, hk]

theorem hopFrom_cons {skipped : Nat} (h : s.kind ≠ .array) (hr : s.referenceName = none) :
    hopFrom skipped s (step :: rest) =
      match Members.find? s.properties step with
      | some child => hopFrom (skipped + 1) child rest
      | none => none := by
  have hr : ∀ name, s.kind ≠ .reference name := by
    intro name hk
    rw [Schema.kind_eq_reference_iff.mp hk] at hr
    cases hr
  obtain ⟨reference, types, _, _, _, properties, _, _, _⟩ := s
  rw [← hopProperty_eq, hopFrom]
  split
  · rename_i hk
    exact absurd hk h
  · rename_i hk
    exact absurd hk (hr _)
  · rfl

/-- A search from a slot that holds a schema ends at a slot that holds another. -/
inductive Located : Slot → Schema → List String → Slot → Schema → Prop
  | stop {slot : Slot} {s : Schema} : s.kind ≠ .array → Located slot s [] slot s
  | items {slot slot' : Slot} {s item t : Schema} {steps : List String} :
      s.kind = .array → s.singleItems = some item → Located slot.toItems item steps slot' t →
      Located slot s steps slot' t
  | property {slot slot' : Slot} {s child t : Schema} {step : String} {rest : List String} :
      s.kind ≠ .array → Members.find? s.properties step = some child →
      Located (slot.toProperty step) child rest slot' t → Located slot s (step :: rest) slot' t

theorem located_of_locateFrom {slot slot' : Slot} {s : Schema} {steps : List String}
    (h : locateFrom slot s steps = .ok slot') : ∃ t, Located slot s steps slot' t := by
  by_cases ha : s.kind = .array
  · rw [locateFrom_array ha] at h
    cases hi : s.singleItems with
    | none => simp [hi] at h
    | some item =>
      simp only [hi] at h
      obtain ⟨t, ht⟩ := located_of_locateFrom h
      exact ⟨t, .items ha hi ht⟩
  · match steps with
    | [] =>
      rw [locateFrom_nil ha] at h
      obtain rfl : slot = slot' := by simpa using h
      exact ⟨s, .stop ha⟩
    | step :: rest =>
      rw [locateFrom_cons ha] at h
      cases hc : Members.find? s.properties step with
      | none => simp [hc] at h
      | some child =>
        simp only [hc] at h
        obtain ⟨t, ht⟩ := located_of_locateFrom h
        exact ⟨t, .property ha hc ht⟩
termination_by sizeOf s
decreasing_by
  · exact Schema.sizeOf_lt_of_singleItems hi
  · exact Schema.sizeOf_lt_of_find? hc

/-- A search for a reference comes to one: in the items of an array, in the schema itself or below a
property. -/
inductive Hops : Nat → Schema → List String → Hop → Prop
  | here {skipped : Nat} {s : Schema} {name step : String} {rest : List String} :
      s.referenceName = some name → Hops skipped s (step :: rest) ⟨name, skipped⟩
  | items {skipped : Nat} {s item : Schema} {step : String} {rest : List String} {hop : Hop} :
      s.kind = .array → s.singleItems = some item → Hops skipped item (step :: rest) hop →
      Hops skipped s (step :: rest) hop
  | property {skipped : Nat} {s child : Schema} {step : String} {rest : List String} {hop : Hop} :
      s.kind ≠ .array → s.referenceName = none → Members.find? s.properties step = some child →
      Hops (skipped + 1) child rest hop → Hops skipped s (step :: rest) hop

theorem hops_of_hopFrom {skipped : Nat} {s : Schema} {steps : List String} {hop : Hop}
    (h : hopFrom skipped s steps = some hop) : Hops skipped s steps hop := by
  match steps with
  | [] => simp [hopFrom_nil] at h
  | step :: rest =>
    by_cases ha : s.kind = .array
    · rw [hopFrom_array ha] at h
      cases hi : s.singleItems with
      | none => simp [hi] at h
      | some item =>
        simp only [hi] at h
        exact .items ha hi (hops_of_hopFrom h)
    · cases hr : s.referenceName with
      | some name =>
        rw [hopFrom_reference hr] at h
        cases h
        exact .here hr
      | none =>
        rw [hopFrom_cons ha hr] at h
        cases hc : Members.find? s.properties step with
        | none => simp [hc] at h
        | some child =>
          simp only [hc] at h
          exact .property ha hr hc (hops_of_hopFrom h)
termination_by sizeOf s
decreasing_by
  · exact Schema.sizeOf_lt_of_singleItems hi
  · exact Schema.sizeOf_lt_of_find? hc

theorem Hops.hopFrom_eq {skipped : Nat} {hop : Hop} (h : Hops skipped s steps hop) :
    hopFrom skipped s steps = some hop := by
  induction h with
  | here hr => exact hopFrom_reference hr
  | items ha hi _ ih =>
    rw [hopFrom_array ha, hi]
    exact ih
  | property ha hr hc _ ih =>
    rw [hopFrom_cons ha hr, hc]
    exact ih

/-- Where no reference is found, none stands at the start. -/
theorem referenceName_of_hopFrom {skipped : Nat} (h : hopFrom skipped s (step :: rest) = none) :
    s.referenceName = none := by
  cases hr : s.referenceName with
  | none => rfl
  | some name => simp [hopFrom_reference hr] at h

variable {t root : Schema}

theorem Located.not_array (h : Located slot s steps slot' t) : t.kind ≠ .array := by
  induction h with
  | stop hk => exact hk
  | items _ _ _ ih => exact ih
  | property _ _ _ ih => exact ih

/-- The slot's route leads to what the slot holds. -/
theorem Located.at? (h : Located slot s steps slot' t) (hs : root.at? slot.route = some s) :
    root.at? slot'.route = some t := by
  induction h with
  | stop => exact hs
  | items _ hi _ ih => exact ih (by simp [Slot.toItems, Schema.at?_append, hs, Schema.at?, hi])
  | property _ hc _ ih =>
    exact ih (by simp [Slot.toProperty, Schema.at?_append, hs, Schema.at?, hc])

/-- A search never comes back up to the root, and a step leads away from it. -/
theorem Located.kind (h : Located slot s steps slot' t)
    (hs : slot.kind = .root ↔ slot.route = []) :
    (slot'.kind = .root ↔ slot'.route = []) ∧
      (steps ≠ [] ∨ slot.route ≠ [] → slot'.route ≠ []) := by
  induction h with
  | stop => exact ⟨hs, by simp⟩
  | items _ _ _ ih =>
    obtain ⟨hk, hr⟩ := ih (by simp [Slot.toItems])
    exact ⟨hk, fun _ => hr (Or.inr (by simp [Slot.toItems]))⟩
  | property _ _ _ ih =>
    obtain ⟨hk, hr⟩ := ih (by simp [Slot.toProperty])
    exact ⟨hk, fun _ => hr (Or.inr (by simp [Slot.toProperty]))⟩

/-- Past a reference nothing is found if no reference has properties. -/
theorem Located.hopFrom_eq_none (h : Located slot s steps slot' t) (hb : s.Every Schema.Bare)
    (skipped : Nat) : hopFrom skipped s steps = none := by
  induction h generalizing skipped with
  | stop => exact hopFrom_nil _ _
  | @items slot slot' s item t steps ha hi _ ih =>
    match steps with
    | [] => exact hopFrom_nil _ _
    | step :: rest =>
      rw [hopFrom_array ha, hi]
      exact ih (hb.ofItems hi) skipped
  | property ha hc _ ih =>
    have hr := hb.self.resolve_right (Schema.properties_ne_nil_of_find? hc)
    rw [hopFrom_cons ha hr, hc]
    exact ih (hb.ofProperty hc) (skipped + 1)

end Extraction

end ApiContract
