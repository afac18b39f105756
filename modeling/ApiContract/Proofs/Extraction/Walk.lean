import ApiContract.Proofs.Extraction.Path

namespace ApiContract.Extraction

/-- The response that a rule addresses. -/
def Rule.root (rule : Rule) : Root := .response rule.path rule.method (toString rule.code)

/-- Where the rest of a path starts, as a root. -/
def Origin.root (o : Origin) (rule : Rule) : Root :=
  match o.definition with
  | none => rule.root
  | some name => .definition name

/-- The place that is reached when the walk goes on from an origin. -/
def slotFrom (d : Document) (rule : Rule) (steps : List String) (unvisited : List Station)
    (o : Origin) : Except Fault Place :=
  match (walk d rule steps unvisited o).2 with
  | .error fault => .error fault
  | .ok last =>
    match last.schema d rule with
    | .error fault => .error fault
    | .ok root =>
      match locate root (steps.drop last.offset) with
      | .error cause => .error (.property rule cause)
      | .ok slot => .ok ⟨last.root rule, slot.route⟩

/-- The place of the schema that a rule moves. -/
def slotOf (d : Document) (rule : Rule) : Except Fault Place :=
  slotFrom d rule (splitSteps rule.property) (stations d (splitSteps rule.property)) ⟨none, 0⟩

variable {d : Document} {rule : Rule} {o last : Origin} {s t : Schema} {name : String}
  {steps : List String} {unvisited : List Station} {place q : Place} {n : Nat}

theorem responseSchema_eq_ok :
    responseSchema d rule = .ok s ↔ d.rootSchema? rule.root = some s := by
  unfold responseSchema Rule.root Document.rootSchema? Operation.response
  generalize toString rule.code = key
  cases hi : d.paths.find? rule.path with
  | none => simp [hi]
  | some item =>
    cases ho : item.operation rule.method with
    | none => simp [hi, ho]
    | some op =>
      cases hr : op.responses.find? key with
      | none => simp [hi, ho, hr]
      | some r => cases hs : r.schema <;> simp [hi, ho, hr, hs]

theorem schema_eq_ok : o.schema d rule = .ok s ↔ d.rootSchema? (o.root rule) = some s := by
  obtain ⟨definition, offset⟩ := o
  cases definition with
  | none => exact responseSchema_eq_ok
  | some name =>
    simp only [Origin.schema, Origin.root, Document.rootSchema?]
    cases d.definitions.find? name <;> simp

theorem setSchema_eq (s : Schema) : o.setSchema d rule s = d.setRoot (o.root rule) s := by
  obtain ⟨definition, offset⟩ := o
  cases definition <;> rfl

theorem walk_here (hs : o.schema d rule = .ok s) (hh : hop? s (steps.drop o.offset) = none) :
    (walk d rule steps unvisited o).2 = .ok o := by
  rw [walk.eq_def]
  simp only [hs, hh]

theorem walk_on {hop : Hop} (hs : o.schema d rule = .ok s)
    (hh : hop? s (steps.drop o.offset) = some hop) (ht : d.definitions.find? hop.name = some t)
    (hu : (hop.name, o.offset + hop.skipped) ∈ unvisited) :
    (walk d rule steps unvisited o).2 =
      (walk d rule steps (without (hop.name, o.offset + hop.skipped) unvisited)
        ⟨some hop.name, o.offset + hop.skipped⟩).2 := by
  conv => lhs; rw [walk.eq_def]
  simp [hs, hh, ht, hu]

theorem slotFrom_on {hop : Hop} (hs : o.schema d rule = .ok s)
    (hh : hop? s (steps.drop o.offset) = some hop) (ht : d.definitions.find? hop.name = some t)
    (hu : (hop.name, o.offset + hop.skipped) ∈ unvisited) :
    slotFrom d rule steps unvisited o =
      slotFrom d rule steps (without (hop.name, o.offset + hop.skipped) unvisited)
        ⟨some hop.name, o.offset + hop.skipped⟩ := by
  rw [slotFrom, slotFrom, walk_on hs hh ht hu]

/-- A walk from one origin to the one where it ends. -/
inductive Walks (d : Document) (rule : Rule) (steps : List String) :
    List Station → Origin → Origin → Prop
  | here {unvisited : List Station} {o : Origin} {s : Schema} :
      o.schema d rule = .ok s → hop? s (steps.drop o.offset) = none →
      Walks d rule steps unvisited o o
  | cut {unvisited : List Station} {o : Origin} {s : Schema} {hop : Hop} :
      o.schema d rule = .ok s → hop? s (steps.drop o.offset) = some hop →
      Walks d rule steps unvisited o o
  | on {unvisited : List Station} {o last : Origin} {s t : Schema} {hop : Hop} :
      o.schema d rule = .ok s → hop? s (steps.drop o.offset) = some hop →
      d.definitions.find? hop.name = some t →
      Walks d rule steps (without (hop.name, o.offset + hop.skipped) unvisited)
        ⟨some hop.name, o.offset + hop.skipped⟩ last →
      Walks d rule steps unvisited o last

theorem walks_of_walk {unvisited : List Station} {o : Origin}
    (h : (walk d rule steps unvisited o).2 = .ok last) : Walks d rule steps unvisited o last := by
  cases hs : o.schema d rule with
  | error fault =>
    rw [walk.eq_def] at h
    simp [hs] at h
  | ok s =>
    cases hh : hop? s (steps.drop o.offset) with
    | none =>
      rw [walk_here hs hh] at h
      cases h
      exact .here hs hh
    | some hop =>
      cases ht : d.definitions.find? hop.name with
      | none =>
        rw [walk.eq_def] at h
        simp [hs, hh, ht] at h
      | some t =>
        by_cases hu : (hop.name, o.offset + hop.skipped) ∈ unvisited
        · rw [walk_on hs hh ht hu] at h
          exact .on hs hh ht (walks_of_walk h)
        · rw [walk.eq_def] at h
          simp [hs, hh, ht, hu] at h
          exact h ▸ .cut hs hh
termination_by unvisited.length
decreasing_by exact length_without_lt hu

theorem located_of_slotFrom (h : slotFrom d rule steps unvisited o = .ok place) :
    ∃ last root slot t, Walks d rule steps unvisited o last ∧ last.schema d rule = .ok root ∧
      Located {} root (steps.drop last.offset) slot t ∧ place = ⟨last.root rule, slot.route⟩ := by
  unfold slotFrom at h
  split at h
  · cases h
  · rename_i last hw
    split at h
    · cases h
    · rename_i root hr
      split at h
      · cases h
      · rename_i slot hl
        cases h
        obtain ⟨t, ht⟩ := located_of_locateFrom hl
        exact ⟨last, root, slot, t, walks_of_walk hw, hr, ht, rfl⟩

/-- If no reference has properties, the slot is where the path leads: a walk that is cut ends before
a reference, and past a reference nothing is found. -/
theorem leads_of_slotFrom (hb : d.Every Schema.Bare) (hs : d.rootSchema? (o.root rule) = some s)
    (h : slotFrom d rule steps unvisited o = .ok place) :
    ∃ n t, Leads d n ⟨o.root rule, []⟩ s (steps.drop o.offset) place t := by
  obtain ⟨last, root, slot, t, hw, hr, hl, rfl⟩ := located_of_slotFrom h
  clear h
  have hn := hl.hopFrom_eq_none (hb _ _ (schema_eq_ok.mp hr)) 0
  induction hw generalizing s with
  | here hs' _ =>
    obtain rfl : s = root := Option.some.inj (hs.symm.trans (schema_eq_ok.mp hr))
    exact ⟨0, t, hl.leads hn⟩
  | cut hs' hh =>
    rw [hr] at hs'
    cases hs'
    rw [hop?, hn] at hh
    cases hh
  | @on unvisited o last s' target hop hs' hh ht _ ih =>
    obtain rfl : s = s' := Option.some.inj (hs.symm.trans (schema_eq_ok.mp hs'))
    obtain ⟨m, u, hm⟩ := ih ht hr hl hn
    obtain ⟨j, hj, -, hlead⟩ := leads_of_hopFrom (d := d) hh
    rw [hj, Nat.zero_add, ← List.drop_drop] at hm
    exact ⟨m + 1, u, hlead ht hm _⟩

theorem mem_without {station other : Station} {all : List Station} (h : station ∈ all)
    (hne : station ≠ other) : station ∈ without other all := by
  simpa [without, h] using hne

theorem mem_stations {off : Nat} (ht : d.definitions.find? name = some t)
    (hoff : off < steps.length) : (name, off) ∈ stations d steps := by
  simp only [stations, List.mem_flatMap, List.mem_map, List.mem_range]
  exact ⟨name, Members.mem_names_iff.mpr (by simp [ht]), off, hoff, rfl⟩

/-- The stations from which a path leads on through fewer references are still to be visited. A walk
that came by such a station before would have to go through as many again. -/
def Open (d : Document) (steps : List String) (unvisited : List Station) (n : Nat) : Prop :=
  ∀ name off target m q t, off < steps.length → d.definitions.find? name = some target →
    Leads d m ⟨.definition name, []⟩ target (steps.drop off) q t → m < n → (name, off) ∈ unvisited

/-- A path that leads somewhere is walked to its end. -/
theorem slotFrom_of_leads {unvisited : List Station} {o : Origin} {s : Schema}
    (hs : d.rootSchema? (o.root rule) = some s)
    (h : Leads d n ⟨o.root rule, []⟩ s (steps.drop o.offset) q t)
    (ho : Open d steps unvisited n) : slotFrom d rule steps unvisited o = .ok q := by
  induction n generalizing unvisited o s with
  | zero =>
    rcases h.search with ⟨-, hh, slot, hl, rfl⟩ | ⟨_, _, m, _, hm, _⟩
    · rw [slotFrom, walk_here (schema_eq_ok.mpr hs) hh]
      simp only [schema_eq_ok.mpr hs, hl]
    · cases hm
  | succ n ih =>
    rcases h.search with ⟨hn, -⟩ | ⟨name, target, m, j, hm, hh, hlt, ht, hl⟩
    · cases hn
    · cases hm
      have hoff : o.offset + j < steps.length := by
        rw [List.length_drop] at hlt
        omega
      rw [List.drop_drop] at hl
      have hu := ho name _ target n q t hoff ht hl (Nat.lt_succ_self n)
      rw [slotFrom_on (schema_eq_ok.mpr hs) hh ht hu]
      refine ih ht hl ?_
      intro other off target' m q' t' hoff' ht' hl' hlt'
      refine mem_without (ho other off target' m q' t' hoff' ht' hl' (by omega)) ?_
      -- the station that was just left lies `n` references before the end
      rintro ⟨⟩
      obtain rfl := Option.some.inj (ht.symm.trans ht')
      exact absurd (hl'.unique hl).1 (by omega)

theorem leads_of_slotOf (hb : d.Every Schema.Bare) (h : slotOf d rule = .ok place) :
    ∃ n s t, d.rootSchema? rule.root = some s ∧
      Leads d n ⟨rule.root, []⟩ s (splitSteps rule.property) place t := by
  obtain ⟨_, _, _, _, hw, _⟩ := located_of_slotFrom h
  have hr : ∃ s, d.rootSchema? rule.root = some s := by
    cases hw with
    | here hs | cut hs | on hs => exact ⟨_, schema_eq_ok.mp hs⟩
  obtain ⟨s, hs⟩ := hr
  obtain ⟨n, t, hl⟩ := leads_of_slotFrom (o := ⟨none, 0⟩) hb hs h
  exact ⟨n, s, t, hs, hl⟩

theorem slotOf_of_leads (hs : d.rootSchema? rule.root = some s)
    (h : Leads d n ⟨rule.root, []⟩ s (splitSteps rule.property) q t) : slotOf d rule = .ok q :=
  slotFrom_of_leads (o := ⟨none, 0⟩) hs h fun _ _ _ _ _ _ hoff ht _ _ => mem_stations ht hoff

theorem Walks.offset_lt (h : Walks d rule steps unvisited o last) :
    last = o ∨ last.offset < steps.length := by
  induction h with
  | here => exact Or.inl rfl
  | cut => exact Or.inl rfl
  | on _ hh _ _ ih =>
    obtain ⟨j, hj, hlt, -⟩ := leads_of_hopFrom (d := d) hh
    rw [List.length_drop] at hlt
    rcases ih with rfl | ih
    · exact Or.inr (by simp only [hj]; omega)
    · exact Or.inr ih

/-- A schema that is no array stands at the slot, and the slot is not the whole of a definition. -/
theorem schemaAt?_of_slotOf (h : slotOf d rule = .ok place) :
    ∃ s, d.schemaAt? place = some s ∧ s.kind ≠ .array ∧
      (place.root = rule.root ∨ place.route ≠ []) := by
  obtain ⟨last, root, slot, t, hw, hr, hl, rfl⟩ := located_of_slotFrom h
  refine ⟨t, ?_, hl.not_array, ?_⟩
  · have ht : root.at? slot.route = some t := hl.at? rfl
    simp [Document.schemaAt?, schema_eq_ok.mp hr, ht]
  · rcases hw.offset_lt with rfl | hlt
    · exact Or.inl rfl
    · refine Or.inr ((hl.kind (by simp)).2 (Or.inl ?_))
      exact List.ne_nil_of_length_pos (by rw [List.length_drop]; omega)

end ApiContract.Extraction
