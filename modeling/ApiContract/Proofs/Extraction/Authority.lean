import ApiContract.Proofs.Extraction.Effect
import ApiContract.Proofs.Extraction.Traced

namespace ApiContract.Extraction

/-- The walk, and what it looks up on the way. -/
def tracedWalk (d : Document) (rule : Rule) (steps : List String) (unvisited : List Station)
    (o : Origin) : List Lookup × List LogLine × Except Fault Origin :=
  match o.schema d rule with
  | .error fault => ([], [], .error fault)
  | .ok s =>
    let (looked, found) := tracedHop 0 s (steps.drop o.offset)
    match found with
    | none => (looked, [], .ok o)
    | some hop =>
      let next : Origin := ⟨some hop.name, o.offset + hop.skipped⟩
      if (d.definitions.find? hop.name).isNone then
        (looked, [followed rule hop.name], .error (.property rule (.unknownDefinition hop.name)))
      else if (hop.name, next.offset) ∈ unvisited then
        let (more, log, found) :=
          tracedWalk d rule steps (without (hop.name, next.offset) unvisited) next
        (looked ++ more, followed rule hop.name :: log, found)
      else (looked, [], .ok o)
termination_by unvisited.length
decreasing_by exact length_without_lt (by assumption)

/-- Applies one rule and tells what it looks up. -/
def tracedRule (d : Document) (rule : Rule) : List Lookup × Applied :=
  let steps := splitSteps rule.property
  let (looked, log, found) := tracedWalk d rule steps (stations d steps) ⟨none, 0⟩
  match found with
  | .error fault => (looked, ⟨d, .error fault, log⟩)
  | .ok o =>
    match o.schema d rule with
    | .error fault => (looked, ⟨d, .error fault, log⟩)
    | .ok root =>
      let (more, located) := tracedLocate {} root (steps.drop o.offset)
      match located with
      | .error cause => (looked ++ more, ⟨d, .error (.property rule cause), log⟩)
      | .ok slot =>
        match slot.schema? root with
        | none => (looked ++ more, ⟨d, .error (.property rule (.noSuchProperty slot.name)), log⟩)
        | some s =>
          let (document, result) := factor d rule o root slot s
          (looked ++ more, ⟨document, result, log⟩)

variable {d : Document} {rule : Rule} {o last : Origin} {s t u : Schema} {name step : String}
  {steps : List String} {unvisited visited : List Station} {place q : Place} {n : Nat} {hop : Hop}

theorem tracedWalk_snd (d : Document) (rule : Rule) (steps : List String)
    (unvisited : List Station) (o : Origin) :
    (tracedWalk d rule steps unvisited o).2 = walk d rule steps unvisited o := by
  rw [tracedWalk.eq_def, walk.eq_def]
  cases hs : o.schema d rule with
  | error fault => rfl
  | ok s =>
    simp only [hop?, ← tracedHop_snd]
    cases hh : (tracedHop 0 s (steps.drop o.offset)).2 with
    | none => rfl
    | some hop =>
      by_cases hn : (d.definitions.find? hop.name).isNone
      · simp only [hn, if_true]
      · by_cases hu : (hop.name, o.offset + hop.skipped) ∈ unvisited
        · have ih := tracedWalk_snd d rule steps
            (without (hop.name, o.offset + hop.skipped) unvisited)
            ⟨some hop.name, o.offset + hop.skipped⟩
          simp [hn, hu, ih]
        · simp [hn, hu]
termination_by unvisited.length
decreasing_by exact length_without_lt hu

/-- A traced rule does what the rule does. -/
theorem tracedRule_snd (d : Document) (rule : Rule) :
    (tracedRule d rule).2 = applyRule d rule := by
  have hw := tracedWalk_snd d rule (splitSteps rule.property)
    (stations d (splitSteps rule.property)) ⟨none, 0⟩
  simp only [tracedRule, applyRule, ← hw]
  rcases tracedWalk d rule (splitSteps rule.property) (stations d (splitSteps rule.property))
    ⟨none, 0⟩ with ⟨looked, log, found⟩
  cases found with
  | error fault => rfl
  | ok o =>
    cases hr : o.schema d rule with
    | error fault => simp [hr]
    | ok root =>
      simp only [hr, locate, ← tracedLocate_snd]
      rcases tracedLocate {} root ((splitSteps rule.property).drop o.offset) with ⟨more, located⟩
      cases located with
      | error cause => rfl
      | ok slot => cases hs : slot.schema? root <;> simp [hs]

theorem straight_tracedWalk (d : Document) (rule : Rule) (steps : List String)
    (unvisited : List Station) (o : Origin) :
    Straight (tracedWalk d rule steps unvisited o).1 := by
  rw [tracedWalk.eq_def]
  cases hs : o.schema d rule with
  | error fault => exact nofun
  | ok s =>
    have hstraight := straight_tracedHop 0 s (steps.drop o.offset)
    dsimp only
    generalize tracedHop 0 s (steps.drop o.offset) = p at hstraight ⊢
    obtain ⟨looked, found⟩ := p
    cases found with
    | none => exact hstraight
    | some hop =>
      dsimp only
      split
      · exact hstraight
      · split
        · exact List.forall_mem_append.mpr ⟨hstraight, straight_tracedWalk d rule steps _ _⟩
        · exact hstraight
termination_by unvisited.length
decreasing_by exact length_without_lt (by assumption)

/-- A walk comes to an origin after it has visited some stations, the last one first. -/
inductive Visits (d : Document) (rule : Rule) : List Station → Origin → Prop
  | start : Visits d rule [] ⟨none, 0⟩
  | next {visited : List Station} {o : Origin} {s t : Schema} {hop : Hop} :
      Visits d rule visited o → o.schema d rule = .ok s →
      hop? s ((splitSteps rule.property).drop o.offset) = some hop →
      d.definitions.find? hop.name = some t → (hop.name, o.offset + hop.skipped) ∉ visited →
      Visits d rule ((hop.name, o.offset + hop.skipped) :: visited)
        ⟨some hop.name, o.offset + hop.skipped⟩

/-- At an origin a reference, the schema `t`, leads back to a station that was visited, and the next
step of the path is `step`. -/
structure ComesBack (d : Document) (rule : Rule) (visited : List Station) (o : Origin)
    (s t : Schema) (step : String) : Prop where
  visits : Visits d rule visited o
  schema : o.schema d rule = .ok s
  meets : Meets s ((splitSteps rule.property).drop o.offset) t step
  back : ∃ hop, hop? s ((splitSteps rule.property).drop o.offset) = some hop ∧
    t.referenceName = some hop.name ∧ (hop.name, o.offset + hop.skipped) ∈ visited

/-- Only definitions are visited. -/
theorem Visits.isSome (h : Visits d rule visited o) :
    ∀ station ∈ visited, (d.definitions.find? station.1).isSome := by
  induction h with
  | start => exact nofun
  | next _ _ _ ht _ ih => exact List.forall_mem_cons.mpr ⟨by simp [ht], ih⟩

/-- The stations that are left are those that were not visited. -/
def Left (d : Document) (rule : Rule) (visited unvisited : List Station) : Prop :=
  ∀ station, station ∈ unvisited ↔
    station ∈ stations d (splitSteps rule.property) ∧ station ∉ visited

theorem left_start : Left d rule [] (stations d (splitSteps rule.property)) := by
  simp [Left]

theorem Left.next (h : Left d rule visited unvisited) (station : Station) :
    Left d rule (station :: visited) (without station unvisited) := by
  intro other
  simp only [without, List.mem_filter, decide_eq_true_eq, h other, List.mem_cons]
  grind

/-- A reference that stands in the way leads to a station of the path. -/
theorem mem_stations_of_hop? (hh : hop? s (steps.drop o.offset) = some hop)
    (ht : d.definitions.find? hop.name = some t) :
    (hop.name, o.offset + hop.skipped) ∈ stations d steps := by
  obtain ⟨j, hj, hlt, -⟩ := leads_of_hopFrom (d := d) hh
  rw [List.length_drop] at hlt
  exact mem_stations ht (by omega)

/-- The walk ends where no reference stands in the way, or where one leads back. -/
theorem exists_visits_of_walk {visited unvisited : List Station} {o : Origin}
    (hv : Visits d rule visited o) (hl : Left d rule visited unvisited)
    (h : (walk d rule (splitSteps rule.property) unvisited o).2 = .ok last) :
    ∃ visited s, Visits d rule visited last ∧ last.schema d rule = .ok s ∧
      (hop? s ((splitSteps rule.property).drop last.offset) = none ∨
        ∃ t step, ComesBack d rule visited last s t step) := by
  cases hs : o.schema d rule with
  | error fault =>
    rw [walk.eq_def] at h
    simp [hs] at h
  | ok s =>
    cases hh : hop? s ((splitSteps rule.property).drop o.offset) with
    | none =>
      rw [walk_here hs hh] at h
      cases h
      exact ⟨visited, s, hv, hs, Or.inl hh⟩
    | some hop =>
      cases ht : d.definitions.find? hop.name with
      | none =>
        rw [walk.eq_def] at h
        simp [hs, hh, ht] at h
      | some target =>
        have hmem := mem_stations_of_hop? hh ht
        by_cases hu : (hop.name, o.offset + hop.skipped) ∈ unvisited
        · rw [walk_on hs hh ht hu] at h
          exact exists_visits_of_walk (.next hv hs hh ht ((hl _).mp hu).2) (hl.next _) h
        · rw [walk.eq_def] at h
          simp only [hs, hh, ht, hu, Option.isNone_some, Bool.false_eq_true, if_false] at h
          cases h
          have hback : (hop.name, last.offset + hop.skipped) ∈ visited :=
            Decidable.byContradiction fun hnot => hu ((hl _).mpr ⟨hmem, hnot⟩)
          obtain ⟨t, step, hm, hr⟩ := meets_of_hopFrom hh
          exact ⟨visited, s, hv, hs, Or.inr ⟨t, step, hv, hs, hm, hop, hh, hr, hback⟩⟩
termination_by unvisited.length
decreasing_by exact length_without_lt hu

/-- A walk that comes to an origin goes on from there. -/
theorem Visits.walk_eq (h : Visits d rule visited o) :
    ∃ unvisited, Left d rule visited unvisited ∧
      (walk d rule (splitSteps rule.property) (stations d (splitSteps rule.property)) ⟨none, 0⟩).2 =
        (walk d rule (splitSteps rule.property) unvisited o).2 := by
  induction h with
  | start => exact ⟨_, left_start, rfl⟩
  | @next visited o s t hop _ hs hh ht hnot ih =>
    obtain ⟨unvisited, hl, hw⟩ := ih
    have hu := (hl _).mpr ⟨mem_stations_of_hop? hh ht, hnot⟩
    exact ⟨_, hl.next _, hw.trans (walk_on hs hh ht hu)⟩

/-- A walk that comes back ends there. -/
theorem ComesBack.walk_eq (h : ComesBack d rule visited o s t step) :
    (walk d rule (splitSteps rule.property) (stations d (splitSteps rule.property)) ⟨none, 0⟩).2 =
      .ok o := by
  obtain ⟨unvisited, hl, hw⟩ := h.visits.walk_eq
  obtain ⟨hop, hh, -, hback⟩ := h.back
  have hu : (hop.name, o.offset + hop.skipped) ∉ unvisited := fun hu => ((hl _).mp hu).2 hback
  have hn := Option.isNone_eq_false_iff.mpr (h.visits.isSome _ hback)
  rw [hw, walk.eq_def]
  simp only [h.schema, hh, hn, hu, Bool.false_eq_true, if_false]

/-- From every station that was visited the rest of the path leads through more references than from
the origin. -/
def Further (d : Document) (rule : Rule) (visited : List Station) (n : Nat) (q : Place)
    (t : Schema) : Prop :=
  ∀ station ∈ visited, ∃ target m, d.definitions.find? station.1 = some target ∧ n ≤ m ∧
    Leads d m ⟨.definition station.1, []⟩ target ((splitSteps rule.property).drop station.2) q t

/-- A path that leads somewhere leads there from every origin of the walk. -/
theorem Visits.leads (h : Visits d rule visited o) (hs : d.rootSchema? rule.root = some s)
    (hl : Leads d n ⟨rule.root, []⟩ s (splitSteps rule.property) q t) :
    ∃ m u, o.schema d rule = .ok u ∧
      Leads d m ⟨o.root rule, []⟩ u ((splitSteps rule.property).drop o.offset) q t ∧
      Further d rule visited m q t := by
  induction h with
  | start => exact ⟨n, s, schema_eq_ok.mpr hs, hl, nofun⟩
  | @next visited o s' target hop _ hs' hh ht _ ih =>
    obtain ⟨m, u, hu, hlead, hfurther⟩ := ih
    obtain rfl : s' = u := Except.ok.inj (hs'.symm.trans hu)
    rcases hlead.search with ⟨-, hn, -⟩ | ⟨name, target', k, j, rfl, hj, -, ht', hk⟩
    · rw [hn] at hh
      cases hh
    · obtain rfl : hop = ⟨name, j⟩ := Option.some.inj (hh.symm.trans hj)
      rw [List.drop_drop] at hk
      refine ⟨k, target', schema_eq_ok.mpr ht', hk, List.forall_mem_cons.mpr ⟨?_, ?_⟩⟩
      · exact ⟨target', k, ht', Nat.le_refl k, hk⟩
      · intro station hmem
        obtain ⟨target'', m, ht'', hle, hm⟩ := hfurther station hmem
        exact ⟨target'', m, ht'', by omega, hm⟩

/-- Where the walk comes back, the path leads nowhere. -/
theorem ComesBack.not_leads (h : ComesBack d rule visited o u t step)
    (hs : d.rootSchema? rule.root = some s) {t' : Schema} :
    ¬ Leads d n ⟨rule.root, []⟩ s (splitSteps rule.property) q t' := by
  intro hl
  obtain ⟨m, u', hu, hlead, hfurther⟩ := h.visits.leads hs hl
  obtain rfl : u = u' := Except.ok.inj (h.schema.symm.trans hu)
  obtain ⟨hop, hh, -, hback⟩ := h.back
  rcases hlead.search with ⟨-, hn, -⟩ | ⟨name, target, k, j, rfl, hj, -, ht, hk⟩
  · rw [hn] at hh
    cases hh
  · obtain rfl : hop = ⟨name, j⟩ := Option.some.inj (hh.symm.trans hj)
    rw [List.drop_drop] at hk
    obtain ⟨target', m, ht', hle, hm⟩ := hfurther _ hback
    obtain rfl : target = target' := Option.some.inj (ht.symm.trans ht')
    have := (hk.unique hm).1
    omega

/-- The walk that comes back nowhere ends where no reference stands in the way. -/
theorem hop?_eq_none_of_walk (hnever : ∀ visited o s t step, ¬ ComesBack d rule visited o s t step)
    (h : (walk d rule (splitSteps rule.property) (stations d (splitSteps rule.property))
      ⟨none, 0⟩).2 = .ok last) :
    ∃ visited s, Visits d rule visited last ∧ last.schema d rule = .ok s ∧
      hop? s ((splitSteps rule.property).drop last.offset) = none := by
  obtain ⟨visited, s, hv, hs, hn | ⟨t, step, hback⟩⟩ :=
    exists_visits_of_walk .start left_start h
  · exact ⟨visited, s, hv, hs, hn⟩
  · exact absurd hback (hnever _ _ _ _ _)

/-- A rule looks up what its walk looks up, and then what the search from the walk's end does. -/
theorem tracedRule_fst (d : Document) (rule : Rule) :
    ∃ looked, Straight looked ∧
      match (walk d rule (splitSteps rule.property) (stations d (splitSteps rule.property))
        ⟨none, 0⟩).2 with
      | .error _ => (tracedRule d rule).1 = looked
      | .ok last => ∀ s, last.schema d rule = .ok s → (tracedRule d rule).1 =
          looked ++ (tracedLocate {} s ((splitSteps rule.property).drop last.offset)).1 := by
  have hstraight := straight_tracedWalk d rule (splitSteps rule.property)
    (stations d (splitSteps rule.property)) ⟨none, 0⟩
  simp only [tracedRule, ← tracedWalk_snd]
  generalize tracedWalk d rule (splitSteps rule.property)
    (stations d (splitSteps rule.property)) ⟨none, 0⟩ = run at hstraight ⊢
  obtain ⟨looked, log, found⟩ := run
  refine ⟨looked, hstraight, ?_⟩
  cases found with
  | error fault => rfl
  | ok last =>
    intro s hs
    simp only [hs]
    generalize tracedLocate {} s ((splitSteps rule.property).drop last.offset) = search
    obtain ⟨more, located⟩ := search
    cases located with
    | error cause => rfl
    | ok slot =>
      dsimp only
      split <;> rfl

theorem straight_tracedRule (hnever : ∀ visited o s t step, ¬ ComesBack d rule visited o s t step) :
    Straight (tracedRule d rule).1 := by
  obtain ⟨looked, hstraight, hlooked⟩ := tracedRule_fst d rule
  split at hlooked
  · exact hlooked ▸ hstraight
  · rename_i last hw
    obtain ⟨_, s, -, hs, hn⟩ := hop?_eq_none_of_walk hnever hw
    rw [hlooked s hs]
    exact List.forall_mem_append.mpr ⟨hstraight, straight_tracedLocate hn {}⟩

/-- A path that leads somewhere from an origin of the walk leads there from the start. -/
theorem Visits.leads_root (h : Visits d rule visited o) (hs : o.schema d rule = .ok s)
    (hl : Leads d n ⟨o.root rule, []⟩ s ((splitSteps rule.property).drop o.offset) q t) :
    ∃ m u, d.rootSchema? rule.root = some u ∧
      Leads d m ⟨rule.root, []⟩ u (splitSteps rule.property) q t := by
  induction h generalizing n s with
  | start => exact ⟨n, s, schema_eq_ok.mp hs, hl⟩
  | @next visited o s' target hop _ hs' hh ht _ ih =>
    have htarget : s = target := Option.some.inj ((schema_eq_ok.mp hs).symm.trans ht)
    subst htarget
    obtain ⟨j, hj, -, hlead⟩ := leads_of_hopFrom (d := d) hh
    rw [hj, Nat.zero_add, ← List.drop_drop] at hl
    exact ih hs' (hlead ht hl _)

/-- If the walk comes back nowhere, the path leads to what is found, through every reference. -/
theorem exists_leads_of_slotOf
    (hnever : ∀ visited o s t step, ¬ ComesBack d rule visited o s t step)
    (h : slotOf d rule = .ok place) :
    ∃ n s t, d.rootSchema? rule.root = some s ∧
      Leads d n ⟨rule.root, []⟩ s (splitSteps rule.property) place t := by
  cases hw : (walk d rule (splitSteps rule.property) (stations d (splitSteps rule.property))
      ⟨none, 0⟩).2 with
  | error fault => simp [slotOf, slotFrom, hw] at h
  | ok last =>
    obtain ⟨visited, s, hv, hs, hn⟩ := hop?_eq_none_of_walk hnever hw
    cases hl : locate s ((splitSteps rule.property).drop last.offset) with
    | error cause => simp [slotOf, slotFrom, hw, hs, hl] at h
    | ok slot =>
      obtain rfl : (⟨last.root rule, slot.route⟩ : Place) = place := by
        simpa [slotOf, slotFrom, hw, hs, hl] using h
      obtain ⟨t, ht⟩ := located_of_locateFrom hl
      obtain ⟨m, u, hu, hlead⟩ := hv.leads_root hs (ht.leads hn)
      exact ⟨m, u, t, hu, hlead⟩

theorem ComesBack.tracedRule (h : ComesBack d rule visited o s t step) :
    ∃ before after, (tracedRule d rule).1 = before ++ (t, step) :: after ∧ Straight before := by
  obtain ⟨looked, hstraight, hlooked⟩ := tracedRule_fst d rule
  obtain ⟨before, after, hmore, hbefore, -⟩ := h.meets.tracedLocate {}
  rw [h.walk_eq] at hlooked
  refine ⟨looked ++ before, after, ?_, List.forall_mem_append.mpr ⟨hstraight, hbefore⟩⟩
  rw [hlooked s h.schema, hmore, List.append_assoc]

theorem ComesBack.result (h : ComesBack d rule visited o s t step)
    (hnone : Members.find? t.properties step = none) :
    (applyRule d rule).result = .error (.property rule (.noSuchProperty step)) := by
  obtain ⟨-, -, -, -, hfail⟩ := h.meets.tracedLocate {}
  have hslot : slotOf d rule = .error (.property rule (.noSuchProperty step)) := by
    simp only [slotOf, slotFrom, h.walk_eq, h.schema, locate, hfail hnone]
  exact (Applies.lost hslot).applyRule_eq.2

theorem document_of_error {fault : Fault} (h : (applyRule d rule).result = .error fault) :
    (applyRule d rule).document = d := by
  have heffect := applyRule_effect d rule
  rw [h] at heffect
  exact heffect

/-- References are authoritative unless the walk of a rule comes back to a station that it has
visited. If it never does, every step is looked up in a schema that refers to no other one, and what
is found is where the path leads when every reference with steps left is followed. If it does, the
path leads nowhere, but the next step is looked up among the properties of the reference: the rule
fails there if it is none of them. A rule that fails changes nothing. -/
theorem references_authoritative (d : Document) (rule : Rule) :
    (tracedRule d rule).2 = applyRule d rule ∧
    ((∀ visited o s t step, ¬ ComesBack d rule visited o s t step) →
      Straight (tracedRule d rule).1 ∧
      ∀ place, slotOf d rule = .ok place → ∃ n s t, d.rootSchema? rule.root = some s ∧
        Leads d n ⟨rule.root, []⟩ s (splitSteps rule.property) place t) ∧
    (∀ visited o s t step, ComesBack d rule visited o s t step →
      t.referenceName ≠ none ∧
      (∀ n u place v, d.rootSchema? rule.root = some u →
        ¬ Leads d n ⟨rule.root, []⟩ u (splitSteps rule.property) place v) ∧
      (∃ before after,
        (tracedRule d rule).1 = before ++ (t, step) :: after ∧ Straight before) ∧
      (Members.find? t.properties step = none →
        (applyRule d rule).result = .error (.property rule (.noSuchProperty step)))) ∧
    (∀ fault, (applyRule d rule).result = .error fault → (applyRule d rule).document = d) := by
  refine ⟨tracedRule_snd d rule, ?_, ?_, fun _ => document_of_error⟩
  · intro hnever
    exact ⟨straight_tracedRule hnever, fun _ => exists_leads_of_slotOf hnever⟩
  · intro visited o s t step hback
    obtain ⟨hop, -, ht, -⟩ := hback.back
    have href : t.referenceName ≠ none := by simp [ht]
    exact ⟨href, fun _ _ _ _ hs => hback.not_leads hs, hback.tracedRule, hback.result⟩

namespace Knot

def leaf : Schema := { types := some (.single .string) }

/-- A reference to itself that has a property. -/
def tied : Schema := { Schema.referTo "Tied" with properties := [("x", leaf)] }

/-- A reference to itself that has none. -/
def bare : Schema := .referTo "Bare"

def loose : Schema := { properties := [("x", leaf)] }

def document : Document :=
  { swagger := "2.0"
    paths := [("/knot",
      { get := some { responses := [
          ("200", { schema := some tied }), ("203", { schema := some bare }),
          ("206", { schema := some loose })] } })]
    definitions := [("Tied", tied), ("Bare", bare)] }

def take (code : Nat) : Rule := ⟨"/knot", .get, code, "x", "X"⟩

theorem steps_take (code : Nat) : splitSteps (take code).property = ["x"] := by
  have hsteps : splitSteps "x" = ["x"] := by decide
  exact hsteps

theorem schema_take : responseSchema document (take 200) = .ok tied ∧
    responseSchema document (take 203) = .ok bare ∧
    responseSchema document (take 206) = .ok loose := by
  have hkeys : toString 200 = "200" ∧ toString 203 = "203" ∧ toString 206 = "206" := by decide
  simp only [responseSchema, Operation.response, take, hkeys]
  exact ⟨rfl, rfl, rfl⟩

/-- A schema that refers to itself leads back from the first station. -/
theorem comesBack {code : Nat} {s : Schema} {name : String}
    (hs : responseSchema document (take code) = .ok s) (hr : s.referenceName = some name)
    (hd : document.definitions.find? name = some s) :
    ComesBack document (take code) [(name, 0)] ⟨some name, 0⟩ s s "x" := by
  have hstart : Origin.schema ⟨none, 0⟩ document (take code) = .ok s := hs
  have hh : hop? s ((splitSteps (take code).property).drop 0) = some ⟨name, 0⟩ := by
    rw [steps_take]
    exact hopFrom_reference hr
  have hmeets : Meets s ((splitSteps (take code).property).drop 0) s "x" := by
    rw [steps_take]
    exact .here hr
  exact ⟨.next .start hstart hh hd nofun, schema_eq_ok.mpr hd, hmeets, ⟨name, 0⟩, hh, hr,
    List.mem_singleton.mpr rfl⟩

end Knot

open Knot in
/-- Where a reference leads back that has no properties the rule fails, and where no reference
stands in the way none is looked into. -/
theorem knot_authoritative :
    (applyRule document (take 203)).result =
      .error (.property (take 203) (.noSuchProperty "x")) ∧
    (applyRule document (take 203)).document = document ∧
    Straight (tracedRule document (take 206)).1 := by
  obtain ⟨-, -, hback, hfail⟩ := references_authoritative document (take 203)
  obtain ⟨-, hnever, -⟩ := references_authoritative document (take 206)
  have hresult := (hback _ _ _ _ _ (comesBack schema_take.2.1 rfl rfl)).2.2.2 rfl
  have hloose := responseSchema_eq_ok.mp schema_take.2.2
  have hleads : Leads document 0 ⟨(take 206).root, []⟩ loose (splitSteps (take 206).property)
      ⟨(take 206).root, [.property "x"]⟩ leaf := by
    rw [steps_take]
    exact .property (by decide) rfl rfl (.stop (by decide))
  exact ⟨hresult, hfail _ hresult, (hnever fun _ _ _ _ _ h => h.not_leads hloose hleads).1⟩

open Knot in
/-- The walk comes back to a reference with a property, and the rule moves the property. -/
theorem knot_moves_property :
    ComesBack document (take 200) [("Tied", 0)] ⟨some "Tied", 0⟩ tied tied "x" ∧
    (applyRule document (take 200)).result = .ok .inserted ∧
    (applyRule document (take 200)).document.definitions.find? "X" = some leaf := by
  have hback := comesBack schema_take.1 rfl rfl
  have hslot : slotOf document (take 200) = .ok ⟨.definition "Tied", [.property "x"]⟩ := by
    have hlocate : locate tied ["x"] = .ok ⟨.property, "x", [.property "x"]⟩ := rfl
    have hsteps : (splitSteps (take 200).property).drop 0 = ["x"] := steps_take 200
    simp only [slotOf, slotFrom, hback.walk_eq, hback.schema, hsteps, hlocate]
    rfl
  have happlies := Applies.inserted hslot rfl (by decide) rfl
  refine ⟨hback, happlies.applyRule_eq.2, ?_⟩
  rw [happlies.applyRule_eq.1]
  rfl

end ApiContract.Extraction
