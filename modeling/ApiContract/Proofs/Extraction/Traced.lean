import ApiContract.Proofs.Extraction.Descent

namespace ApiContract.Extraction

/-- A schema in whose properties a step is looked up, and the step. -/
abbrev Lookup := Schema × String

/-- The search for a slot, and what it looks up on the way. -/
def tracedLocate (slot : Slot) (s : Schema) (steps : List String) :
    List Lookup × Except ResolveFault Slot :=
  if s.kind = .array then
    match _h : s.singleItems with
    | some item => tracedLocate slot.toItems item steps
    | none => ([], .error (.malformedArray slot.name))
  else match steps with
    | [] => ([], .ok slot)
    | step :: rest =>
      match _h : Members.find? s.properties step with
      | some child =>
        let (later, found) := tracedLocate (slot.toProperty step) child rest
        ((s, step) :: later, found)
      | none => ([(s, step)], .error (.noSuchProperty step))
termination_by sizeOf s
decreasing_by
  · exact Schema.sizeOf_lt_of_singleItems (by assumption)
  · exact Schema.sizeOf_lt_of_find? (by assumption)

/-- The search for a reference in the way, and what it looks up before it. -/
def tracedHop (skipped : Nat) (s : Schema) (steps : List String) : List Lookup × Option Hop :=
  match steps with
  | [] => ([], none)
  | step :: rest =>
    match s.kind with
    | .array =>
      match _h : s.singleItems with
      | some item => tracedHop skipped item (step :: rest)
      | none => ([], none)
    | .reference name => ([], some ⟨name, skipped⟩)
    | _ =>
      match _h : Members.find? s.properties step with
      | some child =>
        let (later, found) := tracedHop (skipped + 1) child rest
        ((s, step) :: later, found)
      | none => ([(s, step)], none)
termination_by sizeOf s
decreasing_by
  · exact Schema.sizeOf_lt_of_singleItems (by assumption)
  · exact Schema.sizeOf_lt_of_find? (by assumption)

variable {s t : Schema} {slot : Slot} {step name : String} {steps rest : List String}
  {skipped : Nat} {hop : Hop}

theorem tracedLocate_array (h : s.kind = .array) :
    tracedLocate slot s steps =
      match s.singleItems with
      | some item => tracedLocate slot.toItems item steps
      | none => ([], .error (.malformedArray slot.name)) := by
  rw [tracedLocate.eq_def, if_pos h]
  split <;> simp_all

theorem tracedLocate_nil (h : s.kind ≠ .array) : tracedLocate slot s [] = ([], .ok slot) := by
  rw [tracedLocate.eq_def, if_neg h]

theorem tracedLocate_cons (h : s.kind ≠ .array) :
    tracedLocate slot s (step :: rest) =
      match Members.find? s.properties step with
      | some child =>
        ((s, step) :: (tracedLocate (slot.toProperty step) child rest).1,
          (tracedLocate (slot.toProperty step) child rest).2)
      | none => ([(s, step)], .error (.noSuchProperty step)) := by
  rw [tracedLocate, if_neg h]
  split <;> simp_all

theorem tracedHop_nil : tracedHop skipped s [] = ([], none) := by
  rw [tracedHop]

theorem tracedHop_array (h : s.kind = .array) :
    tracedHop skipped s (step :: rest) =
      match s.singleItems with
      | some item => tracedHop skipped item (step :: rest)
      | none => ([], none) := by
  rw [tracedHop]
  simp only [h]
  split <;> simp_all

theorem tracedHop_reference (h : s.referenceName = some name) :
    tracedHop skipped s (step :: rest) = ([], some ⟨name, skipped⟩) := by
  rw [tracedHop]
  simp only [Schema.kind_eq_reference_iff.mpr h]

theorem tracedHop_cons (h : s.kind ≠ .array) (hr : s.referenceName = none) :
    tracedHop skipped s (step :: rest) =
      match Members.find? s.properties step with
      | some child =>
        ((s, step) :: (tracedHop (skipped + 1) child rest).1,
          (tracedHop (skipped + 1) child rest).2)
      | none => ([(s, step)], none) := by
  rw [tracedHop]
  split
  · rename_i hk
    exact absurd hk h
  · rename_i hk
    rw [Schema.kind_eq_reference_iff.mp hk] at hr
    cases hr
  · split <;> simp_all

theorem tracedLocate_snd (slot : Slot) (s : Schema) (steps : List String) :
    (tracedLocate slot s steps).2 = locateFrom slot s steps := by
  by_cases ha : s.kind = .array
  · rw [tracedLocate_array ha, locateFrom_array ha]
    cases hi : s.singleItems with
    | none => rfl
    | some item => exact tracedLocate_snd slot.toItems item steps
  · match steps with
    | [] => rw [tracedLocate_nil ha, locateFrom_nil ha]
    | step :: rest =>
      rw [tracedLocate_cons ha, locateFrom_cons ha]
      cases hc : Members.find? s.properties step with
      | none => rfl
      | some child => exact tracedLocate_snd (slot.toProperty step) child rest
termination_by sizeOf s
decreasing_by
  · exact Schema.sizeOf_lt_of_singleItems hi
  · exact Schema.sizeOf_lt_of_find? hc

theorem tracedHop_snd (skipped : Nat) (s : Schema) (steps : List String) :
    (tracedHop skipped s steps).2 = hopFrom skipped s steps := by
  match steps with
  | [] => rw [tracedHop_nil, hopFrom_nil]
  | step :: rest =>
    by_cases ha : s.kind = .array
    · rw [tracedHop_array ha, hopFrom_array ha]
      cases hi : s.singleItems with
      | none => rfl
      | some item => exact tracedHop_snd skipped item (step :: rest)
    · cases hr : s.referenceName with
      | some name => rw [tracedHop_reference hr, hopFrom_reference hr]
      | none =>
        rw [tracedHop_cons ha hr, hopFrom_cons ha hr]
        cases hc : Members.find? s.properties step with
        | none => rfl
        | some child => exact tracedHop_snd (skipped + 1) child rest
termination_by sizeOf s
decreasing_by
  · exact Schema.sizeOf_lt_of_singleItems hi
  · exact Schema.sizeOf_lt_of_find? hc

/-- All steps are looked up in schemas that refer to no other one. -/
def Straight (looked : List Lookup) : Prop := ∀ l ∈ looked, l.1.referenceName = none

theorem straight_tracedHop (skipped : Nat) (s : Schema) (steps : List String) :
    Straight (tracedHop skipped s steps).1 := by
  match steps with
  | [] =>
    rw [tracedHop_nil]
    exact nofun
  | step :: rest =>
    by_cases ha : s.kind = .array
    · rw [tracedHop_array ha]
      cases hi : s.singleItems with
      | none => exact nofun
      | some item => exact straight_tracedHop skipped item (step :: rest)
    · cases hr : s.referenceName with
      | some name =>
        rw [tracedHop_reference hr]
        exact nofun
      | none =>
        rw [tracedHop_cons ha hr]
        cases hc : Members.find? s.properties step with
        | none => exact List.forall_mem_singleton.mpr hr
        | some child =>
          exact List.forall_mem_cons.mpr ⟨hr, straight_tracedHop (skipped + 1) child rest⟩
termination_by sizeOf s
decreasing_by
  · exact Schema.sizeOf_lt_of_singleItems hi
  · exact Schema.sizeOf_lt_of_find? hc

/-- A path runs into a schema that refers to another one, with a step still to go. -/
inductive Meets : Schema → List String → Schema → String → Prop
  | here {s : Schema} {name step : String} {rest : List String} :
      s.referenceName = some name → Meets s (step :: rest) s step
  | items {s item t : Schema} {step next : String} {rest : List String} :
      s.kind = .array → s.singleItems = some item → Meets item (step :: rest) t next →
      Meets s (step :: rest) t next
  | property {s child t : Schema} {step next : String} {rest : List String} :
      s.kind ≠ .array → s.referenceName = none → Members.find? s.properties step = some child →
      Meets child rest t next → Meets s (step :: rest) t next

/-- The reference that is found is the one that the path runs into. -/
theorem meets_of_hopFrom (h : hopFrom skipped s steps = some hop) :
    ∃ t next, Meets s steps t next ∧ t.referenceName = some hop.name := by
  replace h := hops_of_hopFrom h
  induction h with
  | here hr => exact ⟨_, _, .here hr, hr⟩
  | items ha hi _ ih =>
    obtain ⟨t, next, hm, ht⟩ := ih
    exact ⟨t, next, .items ha hi hm, ht⟩
  | property ha hr hc _ ih =>
    obtain ⟨t, next, hm, ht⟩ := ih
    exact ⟨t, next, .property ha hr hc hm, ht⟩

/-- Where no reference stands in the way, the search for a slot looks nothing up in one. -/
theorem straight_tracedLocate {skipped : Nat} {s : Schema} {steps : List String}
    (h : hopFrom skipped s steps = none) (slot : Slot) :
    Straight (tracedLocate slot s steps).1 := by
  by_cases ha : s.kind = .array
  · rw [tracedLocate_array ha]
    cases hi : s.singleItems with
    | none => exact nofun
    | some item =>
      have hitem : hopFrom skipped item steps = none := by
        match steps with
        | [] => exact hopFrom_nil _ _
        | step :: rest => rwa [hopFrom_array ha, hi] at h
      exact straight_tracedLocate hitem slot.toItems
  · match steps with
    | [] =>
      rw [tracedLocate_nil ha]
      exact nofun
    | step :: rest =>
      have hr := referenceName_of_hopFrom h
      rw [hopFrom_cons ha hr] at h
      rw [tracedLocate_cons ha]
      cases hc : Members.find? s.properties step with
      | none => exact List.forall_mem_singleton.mpr hr
      | some child =>
        simp only [hc] at h
        exact List.forall_mem_cons.mpr ⟨hr, straight_tracedLocate h (slot.toProperty step)⟩
termination_by sizeOf s
decreasing_by
  · exact Schema.sizeOf_lt_of_singleItems hi
  · exact Schema.sizeOf_lt_of_find? hc

/-- The search for a slot goes on in the properties of the reference that a path runs into, and
fails there if the step is none of them. -/
theorem Meets.tracedLocate (h : Meets s steps t step) (slot : Slot) :
    ∃ before after, (tracedLocate slot s steps).1 = before ++ (t, step) :: after ∧ Straight before ∧
      (Members.find? t.properties step = none →
        locateFrom slot s steps = .error (.noSuchProperty step)) := by
  induction h generalizing slot with
  | @here s name step rest hr =>
    have ha := Schema.not_array_of_referenceName hr
    rw [tracedLocate_cons ha, locateFrom_cons ha]
    cases hc : Members.find? s.properties step with
    | none => exact ⟨[], [], rfl, nofun, fun _ => rfl⟩
    | some child => exact ⟨[], _, rfl, nofun, nofun⟩
  | items ha hi _ ih =>
    rw [tracedLocate_array ha, locateFrom_array ha, hi]
    exact ih slot.toItems
  | @property s child t step next rest ha hr hc _ ih =>
    obtain ⟨before, after, hlooked, hstraight, hfail⟩ := ih (slot.toProperty step)
    rw [tracedLocate_cons ha, locateFrom_cons ha, hc]
    refine ⟨(s, step) :: before, after, ?_, List.forall_mem_cons.mpr ⟨hr, hstraight⟩, hfail⟩
    simp only [hlooked, List.cons_append]

end ApiContract.Extraction
