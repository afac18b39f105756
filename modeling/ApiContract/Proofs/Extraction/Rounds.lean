import ApiContract.Proofs.Extraction.Authority
import ApiContract.Proofs.Extraction.Revisit

namespace ApiContract.Extraction

variable {d : Document} {rule : Rule} {steps : List String} {s : Schema} {o : Origin}
  {station other : Station} {visited : List Origin}

/-- Where the rest of a path starts at a station. -/
def arrival (station : Station) : Origin := ⟨some station.1, station.2⟩

theorem arrival_inj : arrival station = arrival other ↔ station = other := by
  simp [arrival, Prod.ext_iff]

/-- How far a walk is: where it stands, and the stations that it has come to. -/
structure Progress where
  origin : Origin := ⟨none, 0⟩
  seen : List Station := []

def Progress.next (p : Progress) (station : Station) : Progress :=
  ⟨arrival station, station :: p.seen⟩

/-- What a round of a walk ends with. -/
inductive Round where
  | failed (fault : Fault)
  | stopped
  | on (station : Station)
deriving DecidableEq

/-- A round looks up the schema at hand and goes on where a reference stands in the way of the path,
unless the walk was there before. -/
def round (d : Document) (rule : Rule) (steps : List String) (p : Progress) : Round :=
  match p.origin.schema d rule with
  | .error fault => .failed fault
  | .ok s =>
    match leap s steps p.origin.offset with
    | none => .stopped
    | some station => if p.seen.contains station then .stopped else .on station

variable {p : Progress} {fault : Fault}

theorem round_failed (h : p.origin.schema d rule = .error fault) :
    round d rule steps p = .failed fault := by
  simp only [round, h]

theorem round_stopped (hs : p.origin.schema d rule = .ok s)
    (hl : leap s steps p.origin.offset = none) : round d rule steps p = .stopped := by
  simp only [round, hs, hl]

theorem round_back (hs : p.origin.schema d rule = .ok s)
    (hl : leap s steps p.origin.offset = some station) (hseen : station ∈ p.seen) :
    round d rule steps p = .stopped := by
  simp only [round, hs, hl, List.contains_iff_mem.mpr hseen, if_true]

theorem round_on_iff : round d rule steps p = .on station ↔ station ∉ p.seen ∧
    ∃ s, p.origin.schema d rule = .ok s ∧ leap s steps p.origin.offset = some station := by
  unfold round
  cases hs : p.origin.schema d rule with
  | error fault => simp
  | ok s =>
    cases hl : leap s steps p.origin.offset with
    | none => simp [hl]
    | some next =>
      by_cases hseen : next ∈ p.seen
      · suffices station ∉ p.seen → next ≠ station by simpa [hl, hseen]
        rintro hnew rfl
        exact hnew hseen
      · suffices next = station → station ∉ p.seen by simpa [hl, hseen]
        rintro rfl
        exact hseen

theorem le_of_leap {off : Nat} (h : leap s steps off = some station) : off ≤ station.2 := by
  obtain ⟨hop, -, rfl⟩ := Option.map_eq_some_iff.mp h
  exact Nat.le_add_right off hop.skipped

/-- A round that goes on comes to a new station, at the same step or at a later one. -/
theorem station_of_round (h : round d rule steps p = .on station) :
    station ∉ p.seen ∧ p.origin.offset ≤ station.2 ∧ station.2 < steps.length := by
  obtain ⟨hnew, s, -, hl⟩ := round_on_iff.mp h
  exact ⟨hnew, le_of_leap hl, leap_lt hl⟩

/-- A walk goes on in rounds: the origins at which it looks up a schema, in order, what it tells,
and where it ends. -/
inductive Loops (d : Document) (rule : Rule) (steps : List String) :
    Progress → List Origin → List LogLine × Except Fault Origin → Prop
  | failed {p : Progress} {fault : Fault} (ends : round d rule steps p = .failed fault) :
      Loops d rule steps p [p.origin] ([], .error fault)
  | stopped {p : Progress} (ends : round d rule steps p = .stopped) :
      Loops d rule steps p [p.origin] ([], .ok p.origin)
  | on {p : Progress} {station : Station} {visited : List Origin} {log : List LogLine}
      {found : Except Fault Origin} (goes : round d rule steps p = .on station)
      (rest : Loops d rule steps (p.next station) visited (log, found)) :
      Loops d rule steps p (p.origin :: visited) (followed rule station.1 :: log, found)

variable {outcome : List LogLine × Except Fault Origin}

/-- Every round is determined, so the walk is. -/
theorem Loops.unique {visited' : List Origin} {outcome' : List LogLine × Except Fault Origin}
    (h : Loops d rule steps p visited outcome) (h' : Loops d rule steps p visited' outcome') :
    visited' = visited ∧ outcome' = outcome := by
  induction h generalizing visited' outcome' with
  | failed ends => cases h' <;> simp_all
  | stopped ends => cases h' <;> simp_all
  | on goes _ ih =>
    cases h' with
    | failed ends => simp [goes] at ends
    | stopped ends => simp [goes] at ends
    | on goes' rest' =>
      obtain rfl := Round.on.inj (goes.symm.trans goes')
      obtain ⟨rfl, hrest⟩ := ih rest'
      simpa using hrest

/-- All rounds but the last tell which reference they follow. -/
theorem Loops.length_eq (h : Loops d rule steps p visited outcome) :
    outcome.1.length + 1 = visited.length := by
  induction h with
  | failed => rfl
  | stopped => rfl
  | on _ _ ih => simpa using ih

/-- After the first origin come stations only, none of which was seen. -/
theorem Loops.fresh (h : Loops d rule steps p visited outcome) :
    ∀ o ∈ visited, o = p.origin ∨
      ∃ station, o = arrival station ∧ station ∉ p.seen ∧ station.2 < steps.length := by
  induction h with
  | failed => simp
  | stopped => simp
  | @on p station _ _ _ goes _ ih =>
    obtain ⟨hnew, -, hlt⟩ := station_of_round goes
    rintro o (_ | ⟨_, ho⟩)
    · exact Or.inl rfl
    · refine Or.inr ?_
      rcases ih o ho with rfl | ⟨later, rfl, hlater, hlt⟩
      · exact ⟨station, rfl, hnew, hlt⟩
      · exact ⟨later, rfl, fun hp => hlater (List.mem_cons_of_mem _ hp), hlt⟩

theorem Loops.offset_le (h : Loops d rule steps p visited outcome) :
    ∀ o ∈ visited, p.origin.offset ≤ o.offset := by
  induction h with
  | failed => simp
  | stopped => simp
  | on goes _ ih =>
    have hle := (station_of_round goes).2.1
    exact List.forall_mem_cons.mpr ⟨Nat.le_refl _, fun o ho => Nat.le_trans hle (ih o ho)⟩

/-- A walk never goes back along the path. -/
theorem Loops.pairwise_offset (h : Loops d rule steps p visited outcome) :
    visited.Pairwise fun o o' => o.offset ≤ o'.offset := by
  induction h with
  | failed => simp
  | stopped => simp
  | on goes rest ih =>
    have hle := (station_of_round goes).2.1
    exact List.pairwise_cons.mpr ⟨fun o ho => Nat.le_trans hle (rest.offset_le o ho), ih⟩

/-- The walk is at the response, or at a station that it has come to. -/
def Progress.Arrived (p : Progress) : Prop :=
  p.origin.definition = none ∨ ∃ station ∈ p.seen, p.origin = arrival station

theorem arrived_next (p : Progress) (station : Station) : (p.next station).Arrived :=
  Or.inr ⟨station, List.mem_cons_self, rfl⟩

/-- Where a walk has arrived it does not come again. -/
theorem Progress.Arrived.ne_arrival (hp : p.Arrived) (hnew : station ∉ p.seen) :
    p.origin ≠ arrival station := by
  intro ho
  rcases hp with hnone | ⟨seen, hseen, hs⟩
  · rw [ho] at hnone
    cases hnone
  · exact hnew (arrival_inj.mp (ho.symm.trans hs) ▸ hseen)

/-- A walk comes to no station twice. -/
theorem Loops.nodup (h : Loops d rule steps p visited outcome) (hp : p.Arrived) :
    visited.Nodup := by
  induction h with
  | failed => simp
  | stopped => simp
  | @on p station _ _ _ goes rest ih =>
    -- All that comes later is the station of this round or one that was not seen by then.
    have hnew := (station_of_round goes).1
    refine List.nodup_cons.mpr ⟨fun hmem => ?_, ih (arrived_next p station)⟩
    rcases rest.fresh _ hmem with ho | ⟨later, ho, hlater, -⟩
    · exact hp.ne_arrival hnew ho
    · exact hp.ne_arrival (fun hseen => hlater (List.mem_cons_of_mem _ hseen)) ho

/-- What a walk looks into is the schema it starts from, or a definition at a step of the path. -/
theorem Loops.mem_of_isOk (h : Loops d rule steps p visited outcome) (ho : o ∈ visited)
    (hok : (o.schema d rule).isOk) : o ∈ p.origin :: (stations d steps).map arrival := by
  rcases h.fresh o ho with rfl | ⟨station, rfl, -, hlt⟩
  · exact List.mem_cons_self
  · refine List.mem_cons_of_mem _ (List.mem_map_of_mem ?_)
    cases hs : (arrival station).schema d rule with
    | error fault => simp [hs, Except.isOk, Except.toBool] at hok
    | ok s => exact mem_stations (schema_eq_ok.mp hs) hlt

theorem length_stations (d : Document) (steps : List String) :
    (stations d steps).length = d.definitions.length * steps.length := by
  simp [stations, List.length_flatMap, Members.names, Function.comp_def, List.map_const']

/-- A walk looks into one schema for each definition and each step at most, and into the first. -/
theorem Loops.length_le (h : Loops d rule steps p visited outcome) (hp : p.Arrived) :
    (visited.filter fun o => (o.schema d rule).isOk).length ≤
      d.definitions.length * steps.length + 1 := by
  have hsub : (visited.filter fun o => (o.schema d rule).isOk) ⊆
      p.origin :: (stations d steps).map arrival := by
    intro o ho
    obtain ⟨hmem, hok⟩ := List.mem_filter.mp ho
    exact h.mem_of_isOk hmem hok
  have hle := List.Nodup.length_le_of_subset ((h.nodup hp).filter _) hsub
  rwa [List.length_cons, List.length_map, length_stations] at hle

/-- A walk that has come to some stations goes on in rounds over those that are left. -/
theorem exists_loops {seen unvisited : List Station} {o : Origin} (hv : Visits d rule seen o)
    (hl : Left d rule seen unvisited) :
    ∃ visited, Loops d rule (splitSteps rule.property) ⟨o, seen⟩ visited
      (walk d rule (splitSteps rule.property) unvisited o) := by
  rw [walk.eq_def]
  cases hs : o.schema d rule with
  | error fault => exact ⟨_, .failed (round_failed hs)⟩
  | ok s =>
    cases hh : hop? s ((splitSteps rule.property).drop o.offset) with
    | none =>
      simp only [hh]
      exact ⟨_, .stopped (round_stopped hs (by simp [leap, hh]))⟩
    | some hop =>
      have hleap : leap s (splitSteps rule.property) o.offset =
          some (hop.name, o.offset + hop.skipped) := by simp [leap, hh]
      have goes (hnew : (hop.name, o.offset + hop.skipped) ∉ seen) :
          round d rule (splitSteps rule.property) ⟨o, seen⟩ =
            .on (hop.name, o.offset + hop.skipped) := round_on_iff.mpr ⟨hnew, s, hs, hleap⟩
      cases ht : d.definitions.find? hop.name with
      | none =>
        -- The round goes on, and the next one fails: the definition is not there.
        have hnew : (hop.name, o.offset + hop.skipped) ∉ seen := fun hseen => by
          simpa [ht] using hv.isSome _ hseen
        have hfault : (arrival (hop.name, o.offset + hop.skipped)).schema d rule =
            .error (.property rule (.unknownDefinition hop.name)) := by
          simp [arrival, Origin.schema, ht]
        simp only [hh, ht, Option.isNone_none, if_true]
        exact ⟨_, .on (goes hnew) (.failed (round_failed hfault))⟩
      | some target =>
        by_cases hu : (hop.name, o.offset + hop.skipped) ∈ unvisited
        · have hnew := ((hl _).mp hu).2
          obtain ⟨visited, hrest⟩ := exists_loops (.next hv hs hh ht hnew) (hl.next _)
          simp only [hh, ht, hu, Option.isNone_some, Bool.false_eq_true, if_false, if_true]
          exact ⟨_, .on (goes hnew) hrest⟩
        · have hseen : (hop.name, o.offset + hop.skipped) ∈ seen :=
            Decidable.byContradiction fun hnot =>
              hu ((hl _).mpr ⟨mem_stations_of_hop? hh ht, hnot⟩)
          simp only [hh, ht, hu, Option.isNone_some, Bool.false_eq_true, if_false]
          exact ⟨_, .stopped (round_back hs hleap hseen)⟩
termination_by unvisited.length
decreasing_by exact length_without_lt hu

/-- The walk of a rule ends, whatever the definitions refer to: it is the one run of its rounds from
the response. It never goes back along the path and comes to no station twice, so that it looks into
at most one schema for each definition and each step, and the one of the response; a name that is no
definition ends it. It tells of every reference that it follows. -/
theorem walk_bounded (d : Document) (rule : Rule) :
    ∃ visited outcome, Loops d rule (splitSteps rule.property) {} visited outcome ∧
      (∀ visited' outcome', Loops d rule (splitSteps rule.property) {} visited' outcome' →
        visited' = visited ∧ outcome' = outcome) ∧
      outcome = walk d rule (splitSteps rule.property)
        (stations d (splitSteps rule.property)) ⟨none, 0⟩ ∧
      (visited.Pairwise fun o o' => o.offset ≤ o'.offset) ∧
      visited.Nodup ∧
      (visited.filter fun o => (o.schema d rule).isOk).length ≤
        d.definitions.length * (splitSteps rule.property).length + 1 ∧
      (applyRule d rule).log.length + 1 = visited.length := by
  have hresponse : Visits d rule [] ⟨none, 0⟩ := .start
  have hstart : Progress.Arrived {} := Or.inl rfl
  obtain ⟨visited, h⟩ := exists_loops hresponse left_start
  exact ⟨visited, _, h, fun _ _ h' => h.unique h', rfl, h.pairwise_offset, h.nodup hstart,
    h.length_le hstart, h.length_eq⟩

end ApiContract.Extraction
