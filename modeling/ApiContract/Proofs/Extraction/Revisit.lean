import ApiContract.Proofs.Extraction.Relocation

namespace ApiContract.Extraction

variable {R : Schema → Schema → Prop} {d d' : Document} {rule : Rule} {o : Origin}
  {place p : Place} {old new s s' t : Schema} {slot slot' : Slot} {name : String} {root : Root}
  {steps : List String} {unvisited unvisited' : List Station} {station : Station} {off x : Nat}

theorem hopFrom_add (k i : Nat) (s : Schema) (steps : List String) :
    hopFrom (k + i) s steps =
      (hopFrom i s steps).map fun hop => ⟨hop.name, k + hop.skipped⟩ := by
  match steps with
  | [] => simp [hopFrom_nil]
  | step :: rest =>
    by_cases ha : s.kind = .array
    · rw [hopFrom_array ha, hopFrom_array ha]
      cases hi : s.singleItems with
      | none => rfl
      | some item => exact hopFrom_add k i item (step :: rest)
    · cases hr : s.referenceName with
      | some name => rw [hopFrom_reference hr, hopFrom_reference hr, Option.map_some]
      | none =>
        rw [hopFrom_cons ha hr, hopFrom_cons ha hr]
        cases hc : Members.find? s.properties step with
        | none => rfl
        | some child => exact hopFrom_add k (i + 1) child rest
termination_by sizeOf s
decreasing_by
  · exact Schema.sizeOf_lt_of_singleItems hi
  · exact Schema.sizeOf_lt_of_find? hc

/-- The search for a reference goes the same way in schemas that are related. -/
theorem hopFrom_of_descending (hR : Descending R) {s t : Schema} (h : R s t) (k : Nat)
    (steps : List String) : hopFrom k s steps = hopFrom k t steps := by
  have hag := hR.agrees h
  match steps with
  | [] => rw [hopFrom_nil, hopFrom_nil]
  | step :: rest =>
    by_cases ha : s.kind = .array
    · rw [hopFrom_array ha, hopFrom_array (hag.kind ▸ ha)]
      have hsome := hag.singleItems_isSome
      cases hi : s.singleItems with
      | none =>
        rw [hi, Option.isSome_none, eq_comm, Option.isSome_eq_false_iff, Option.isNone_iff_eq_none]
          at hsome
        rw [hsome]
      | some item =>
        obtain ⟨item', hi', hr⟩ := hR.move h ((s.at?_items).trans hi)
        rw [Schema.at?_items] at hi'
        rw [hi']
        exact hopFrom_of_descending hR hr k (step :: rest)
    · have hb : t.kind ≠ .array := hag.kind ▸ ha
      cases hr : s.referenceName with
      | some name =>
        rw [hopFrom_reference hr, hopFrom_reference (hag.referenceName ▸ hr)]
      | none =>
        rw [hopFrom_cons ha hr, hopFrom_cons hb (hag.referenceName ▸ hr)]
        cases hc : Members.find? s.properties step with
        | none =>
          have hn : Members.find? t.properties step = none := by
            rw [Members.find?_eq_none_iff] at hc ⊢
            exact fun hm => hc ((hag.properties step).mpr hm)
          rw [hn]
        | some child =>
          obtain ⟨child', hc', hr'⟩ := hR.move h ((s.at?_property step).trans hc)
          rw [Schema.at?_property] at hc'
          rw [hc']
          exact hopFrom_of_descending hR hr' (k + 1) rest
termination_by sizeOf s
decreasing_by
  · exact Schema.sizeOf_lt_of_singleItems hi
  · exact Schema.sizeOf_lt_of_find? hc

theorem Located.locateFrom_eq (h : Located slot s steps slot' t) :
    locateFrom slot s steps = .ok slot' := by
  induction h with
  | stop hk => exact locateFrom_nil hk
  | items ha hi _ ih =>
    rw [locateFrom_array ha, hi]
    exact ih
  | property ha hc _ ih =>
    rw [locateFrom_cons ha, hc]
    exact ih

theorem Located.route_prefix (h : Located slot s steps slot' t) : slot.route <+: slot'.route := by
  induction h with
  | stop => exact List.prefix_refl _
  | items _ _ _ ih => exact (List.prefix_append ..).trans ih
  | property _ _ _ ih => exact (List.prefix_append ..).trans ih

theorem ne_of_step_prefix {move : Move} {route : Route} (h : slot.route ++ [move] <+: route) :
    (⟨root, slot.route⟩ : Place) ≠ ⟨root, route⟩ := by
  intro he
  have hr : slot.route = route := congrArg Place.route he
  have hlen := h.length_le
  rw [hr, List.length_append, List.length_singleton] at hlen
  omega

namespace Relocation

/-- A search that ended where the reference now is ends there again, and what stands in its way
is still the same. -/
theorem located (h : Relocation R d d' place old new name) (hl : Located slot s steps slot' t)
    (ht : Tracks R place old new ⟨root, slot.route⟩ s s') (hp : place = ⟨root, slot'.route⟩) :
    Located slot s' steps slot' new ∧ ∀ k, hopFrom k s' steps = hopFrom k s steps := by
  induction hl generalizing s' with
  | stop =>
    subst hp
    obtain ⟨-, rfl⟩ := ht.self
    refine ⟨.stop (Schema.not_array_of_referenceName h.refers), fun k => ?_⟩
    rw [hopFrom_nil, hopFrom_nil]
  | @items slot slot' s item t steps ha hi hl ih =>
    have hne : (⟨root, slot.route⟩ : Place) ≠ place := by
      rw [hp]
      exact ne_of_step_prefix hl.route_prefix
    have hag := ht.agrees h.descending hne
    obtain ⟨item', hi', hti⟩ := ht.along h.descending h.refl hne ((s.at?_items).trans hi)
    rw [Schema.at?_items] at hi'
    obtain ⟨hl', hh⟩ := ih hti hp
    refine ⟨.items (hag.kind ▸ ha) hi' hl', fun k => ?_⟩
    match steps with
    | [] => rw [hopFrom_nil, hopFrom_nil]
    | step :: rest =>
      rw [hopFrom_array ha, hopFrom_array (hag.kind ▸ ha), hi, hi']
      exact hh k
  | @property slot slot' s child t step rest ha hc hl ih =>
    have hne : (⟨root, slot.route⟩ : Place) ≠ place := by
      rw [hp]
      exact ne_of_step_prefix hl.route_prefix
    have hag := ht.agrees h.descending hne
    have hb : s'.kind ≠ .array := hag.kind ▸ ha
    obtain ⟨child', hc', htc⟩ :=
      ht.along h.descending h.refl hne ((s.at?_property step).trans hc)
    rw [Schema.at?_property] at hc'
    obtain ⟨hl', hh⟩ := ih htc hp
    refine ⟨.property hb hc' hl', fun k => ?_⟩
    cases hr : s.referenceName with
    | some name => rw [hopFrom_reference hr, hopFrom_reference (hag.referenceName ▸ hr)]
    | none =>
      rw [hopFrom_cons ha hr, hopFrom_cons hb (hag.referenceName ▸ hr), hc, hc']
      exact hh (k + 1)

/-- A reference that stood in the way of a path still does, or the path first comes by the new one
and meets the old one past it. -/
theorem hopFrom_tracked (h : Relocation R d d' place old new name) {k : Nat} {hop : Hop}
    (hh : hopFrom k s steps = some hop) (ht : Tracks R place old new p s s') :
    hopFrom k s' steps = some hop ∨
      p.root = place.root ∧ ∃ j, j < steps.length ∧ hopFrom k s' steps = some ⟨name, k + j⟩ ∧
        hopFrom (k + j) old (steps.drop j) = some hop := by
  replace hh := hops_of_hopFrom hh
  induction hh generalizing s' p with
  | @here k s other step rest hr =>
    by_cases hp : p = place
    · subst hp
      obtain ⟨rfl, rfl⟩ := ht.self
      exact Or.inr ⟨rfl, 0, by simp, hopFrom_reference h.refers, hopFrom_reference hr⟩
    · exact Or.inl (hopFrom_reference ((ht.agrees h.descending hp).referenceName ▸ hr))
  | @items k s item step rest hop ha hi _ ih =>
    have hp := h.ne_of_array ht ha
    obtain ⟨item', hi', hti⟩ := ht.along h.descending h.refl hp ((s.at?_items).trans hi)
    rw [Schema.at?_items] at hi'
    rw [hopFrom_array ((ht.agrees h.descending hp).kind ▸ ha), hi']
    have hbelow := ih hti
    exact hbelow
  | @property k s child step rest hop ha hr hc hrest ih =>
    by_cases hp : p = place
    · subst hp
      obtain ⟨rfl, rfl⟩ := ht.self
      exact Or.inr ⟨rfl, 0, by simp, hopFrom_reference h.refers,
        (Hops.property ha hr hc hrest).hopFrom_eq⟩
    · have hag := ht.agrees h.descending hp
      obtain ⟨child', hc', htc⟩ :=
        ht.along h.descending h.refl hp ((s.at?_property step).trans hc)
      rw [Schema.at?_property] at hc'
      rw [hopFrom_cons (hag.kind ▸ ha) (hag.referenceName ▸ hr), hc']
      rcases ih htc with hsame | ⟨hroot, j, hlt, hj, hold⟩
      · exact Or.inl hsame
      · refine Or.inr ⟨hroot, j + 1, by simpa using hlt, ?_, ?_⟩
        · rwa [Nat.add_assoc, Nat.add_comm 1 j] at hj
        · rwa [Nat.add_assoc, Nat.add_comm 1 j] at hold

end Relocation

/-- The station to which the rest of a path leads from a schema. -/
def leap (s : Schema) (steps : List String) (off : Nat) : Option Station :=
  (hop? s (steps.drop off)).map fun hop => (hop.name, off + hop.skipped)

theorem leap_eq (s : Schema) (steps : List String) (off : Nat) :
    leap s steps off =
      (hopFrom off s (steps.drop off)).map fun hop => (hop.name, hop.skipped) := by
  rw [leap, hop?, ← Nat.add_zero off, hopFrom_add, Option.map_map]
  rfl

theorem leap_of_descending (hR : Descending R) (h : R s t) (steps : List String) (off : Nat) :
    leap s steps off = leap t steps off := by
  rw [leap, leap, hop?, hop?, hopFrom_of_descending hR h]

theorem leap_lt (h : leap s steps off = some station) : station.2 < steps.length := by
  obtain ⟨hop, hh, rfl⟩ := Option.map_eq_some_iff.mp h
  obtain ⟨j, hj, hlt, -⟩ := leads_of_hopFrom (d := { swagger := "" }) hh
  rw [List.length_drop] at hlt
  simp only [hj]
  omega

theorem Relocation.leap_tracked (h : Relocation R d d' place old new name)
    (hs : leap s steps off = some station) (ht : Tracks R place old new p s s') :
    leap s' steps off = some station ∨
      p.root = place.root ∧ ∃ x, x < steps.length ∧ leap s' steps off = some (name, x) ∧
        leap old steps x = some station := by
  rw [leap_eq] at hs
  obtain ⟨hop, hh, rfl⟩ := Option.map_eq_some_iff.mp hs
  rcases h.hopFrom_tracked hh ht with hsame | ⟨hroot, j, hlt, hj, hold⟩
  · left
    rw [leap_eq, hsame, Option.map_some]
  · rw [List.length_drop] at hlt
    refine Or.inr ⟨hroot, off + j, by omega, ?_, ?_⟩
    · rw [leap_eq, hj, Option.map_some]
    · rw [leap_eq, ← List.drop_drop, hold, Option.map_some]

theorem slotFrom_leap (hs : o.schema d rule = .ok s) (hl : leap s steps o.offset = some station)
    (ht : (d.definitions.find? station.1).isSome) (hu : station ∈ unvisited) :
    slotFrom d rule steps unvisited o =
      slotFrom d rule steps (without station unvisited) ⟨some station.1, station.2⟩ := by
  obtain ⟨hop, hh, rfl⟩ := Option.map_eq_some_iff.mp hl
  obtain ⟨t, ht⟩ := Option.isSome_iff_exists.mp ht
  exact slotFrom_on hs hh ht hu

theorem slotFrom_here (hs : o.schema d rule = .ok s)
    (hl : locate s (steps.drop o.offset) = .ok slot)
    (hc : ∀ station, leap s steps o.offset = some station →
      (d.definitions.find? station.1).isSome ∧ station ∉ unvisited) :
    slotFrom d rule steps unvisited o = .ok ⟨o.root rule, slot.route⟩ := by
  have hw : (walk d rule steps unvisited o).2 = .ok o := by
    cases hh : hop? s (steps.drop o.offset) with
    | none => exact walk_here hs hh
    | some hop =>
      obtain ⟨ht, hu⟩ := hc _ (by rw [leap, hh, Option.map_some])
      obtain ⟨t, ht⟩ := Option.isSome_iff_exists.mp ht
      rw [walk.eq_def]
      simp [hs, hh, ht, hu]
  simp [slotFrom, hw, hs, hl]

/-- Where a walk ends, the slot lies below the schema that it ends at. -/
theorem locate_of_walk (hs : o.schema d rule = .ok s)
    (hw : (walk d rule steps unvisited o).2 = .ok o)
    (h : slotFrom d rule steps unvisited o = .ok place) :
    ∃ slot, locate s (steps.drop o.offset) = .ok slot ∧ place = ⟨o.root rule, slot.route⟩ := by
  rw [slotFrom, hw] at h
  simp only [hs] at h
  split at h
  · cases h
  · rename_i slot hl
    cases h
    exact ⟨slot, hl, rfl⟩

/-- A walk stays where no reference is in the way or the next station was visited before; else it
goes on to that station. -/
theorem slotFrom_cases (h : slotFrom d rule steps unvisited o = .ok place) :
    ∃ s, o.schema d rule = .ok s ∧
      ((∃ slot, locate s (steps.drop o.offset) = .ok slot ∧ place = ⟨o.root rule, slot.route⟩ ∧
        ∀ station, leap s steps o.offset = some station →
          (d.definitions.find? station.1).isSome ∧ station ∉ unvisited) ∨
      (∃ station, leap s steps o.offset = some station ∧
        (d.definitions.find? station.1).isSome ∧ station ∈ unvisited ∧
        slotFrom d rule steps (without station unvisited) ⟨some station.1, station.2⟩ =
          .ok place)) := by
  cases hs : o.schema d rule with
  | error fault =>
    rw [slotFrom, walk.eq_def] at h
    simp [hs] at h
  | ok s =>
    refine ⟨s, rfl, ?_⟩
    cases hh : hop? s (steps.drop o.offset) with
    | none =>
      obtain ⟨slot, hl, hp⟩ := locate_of_walk hs (walk_here hs hh) h
      exact Or.inl ⟨slot, hl, hp, by simp [leap, hh]⟩
    | some hop =>
      have hleap : leap s steps o.offset = some (hop.name, o.offset + hop.skipped) := by
        rw [leap, hh, Option.map_some]
      cases ht : d.definitions.find? hop.name with
      | none =>
        rw [slotFrom, walk.eq_def] at h
        simp [hs, hh, ht] at h
      | some t =>
        by_cases hu : (hop.name, o.offset + hop.skipped) ∈ unvisited
        · right
          refine ⟨_, hleap, by simp [ht], hu, ?_⟩
          rwa [← slotFrom_on hs hh ht hu]
        · left
          have hw : (walk d rule steps unvisited o).2 = .ok o := by
            rw [walk.eq_def]
            simp [hs, hh, ht, hu]
          obtain ⟨slot, hl, hp⟩ := locate_of_walk hs hw h
          refine ⟨slot, hl, hp, ?_⟩
          rintro station hst
          rw [hleap] at hst
          cases hst
          exact ⟨by simp [ht], hu⟩

theorem exists_leap_of_ne (h : slotFrom d rule steps unvisited o = .ok place)
    (hne : place.root ≠ o.root rule) :
    ∃ s station, o.schema d rule = .ok s ∧ leap s steps o.offset = some station ∧
      station ∈ unvisited := by
  obtain ⟨s, hs, ⟨slot, -, rfl, -⟩ | ⟨station, hl, -, hu, -⟩⟩ := slotFrom_cases h
  · exact absurd rfl hne
  · exact ⟨s, station, hs, hl, hu⟩

/-- How the stations left to the walk through the new document compare with those left to the first
walk. Only stations of the new definition may be visited before their time, and then the walk has
gone on from there already. -/
structure Abreast (d : Document) (name : String) (old : Schema) (steps : List String) (o : Origin)
    (unvisited unvisited' : List Station) : Prop where
  visited : ∀ station ∈ unvisited', (d.definitions.find? station.1).isSome → station ∈ unvisited
  left : ∀ station ∈ unvisited, station.1 ≠ name → station ∈ unvisited'
  ahead : ∀ x, x < steps.length → (name, x) ∉ unvisited' → o = ⟨some name, x⟩ ∨
    ∀ station, leap old steps x = some station → station ∉ unvisited

theorem not_mem_without (station : Station) (all : List Station) :
    station ∉ without station all := by
  simp [without]

theorem mem_of_mem_without {other : Station} {all : List Station}
    (h : station ∈ without other all) : station ∈ all :=
  (List.mem_filter.mp h).1

namespace Abreast

/-- Both walks go on to the same station. -/
theorem next (h : Abreast d name old steps o unvisited unvisited')
    (hold : o.definition = some name → leap old steps o.offset = some station) :
    Abreast d name old steps ⟨some station.1, station.2⟩ (without station unvisited)
      (without station unvisited') where
  visited other hm ht := by
    have hne : other ≠ station := by
      rintro rfl
      exact not_mem_without _ _ hm
    exact mem_without (h.visited other (mem_of_mem_without hm) ht) hne
  left other hm hn := by
    have hne : other ≠ station := by
      rintro rfl
      exact not_mem_without _ _ hm
    exact mem_without (h.left other (mem_of_mem_without hm) hn) hne
  ahead x hx hm := by
    by_cases he : (name, x) = station
    · left
      rw [← he]
    · right
      intro other hother hin
      have hm' : (name, x) ∉ unvisited' := fun hin' => hm (mem_without hin' he)
      rcases h.ahead x hx hm' with rfl | hdone
      · obtain rfl := Option.some.inj ((hold rfl).symm.trans hother)
        exact not_mem_without _ _ hin
      · exact hdone other hother (mem_of_mem_without hin)

/-- The second walk comes by the new definition, and then both go on to the same station. -/
theorem through (h : Abreast d name old steps o unvisited unvisited')
    (hold : leap old steps x = some station)
    (ho : o.definition ≠ some name) :
    Abreast d name old steps ⟨some station.1, station.2⟩ (without station unvisited)
      (without station (without (name, x) unvisited')) where
  visited other hm ht := by
    have hne : other ≠ station := by
      rintro rfl
      exact not_mem_without _ _ hm
    exact mem_without (h.visited other (mem_of_mem_without (mem_of_mem_without hm)) ht) hne
  left other hm hn := by
    have hne : other ≠ station := by
      rintro rfl
      exact not_mem_without _ _ hm
    have hx : other ≠ (name, x) := by
      rintro rfl
      exact hn rfl
    exact mem_without (mem_without (h.left other (mem_of_mem_without hm) hn) hx) hne
  ahead y hy hm := by
    by_cases he : (name, y) = station
    · left
      rw [← he]
    · right
      intro other hother hin
      by_cases hyx : y = x
      · subst hyx
        obtain rfl := Option.some.inj (hold.symm.trans hother)
        exact not_mem_without _ _ hin
      · have hm' : (name, y) ∉ unvisited' := by
          intro hin'
          exact hm (mem_without (mem_without hin' (by simpa using hyx)) he)
        rcases h.ahead y hy hm' with rfl | hdone
        · exact ho rfl
        · exact hdone other hother (mem_of_mem_without hin)

/-- Where the first walk goes on to, the second one may go as well. From the new definition the
first walk goes on again, so the second one has not been there. -/
theorem mem_next (h : Abreast d name old steps o unvisited unvisited') (hu : station ∈ unvisited)
    (hlt : station.2 < steps.length)
    (hself : o = ⟨some name, station.2⟩ → leap old steps station.2 = some station)
    (hon : station.1 = name → ∃ next, leap old steps station.2 = some next ∧
      next ∈ without station unvisited) : station ∈ unvisited' := by
  by_cases hn : station.1 = name
  · obtain ⟨next, hnext, hin⟩ := hon hn
    obtain ⟨other, x⟩ := station
    obtain rfl : other = name := hn
    refine Decidable.byContradiction fun hnot => ?_
    rcases h.ahead x hlt hnot with rfl | hdone
    · obtain rfl := Option.some.inj ((hself rfl).symm.trans hnext)
      exact not_mem_without _ _ hin
    · exact hdone next hnext (mem_of_mem_without hin)
  · exact h.left station hu hn

/-- The second walk has not been where the new definition stands before a station that is left. -/
theorem mem_new (h : Abreast d name old steps o unvisited unvisited') (hx : x < steps.length)
    (hold : leap old steps x = some station) (hu : station ∈ unvisited)
    (ho : o.definition ≠ some name) : (name, x) ∈ unvisited' := by
  refine Decidable.byContradiction fun hnot => ?_
  rcases h.ahead x hx hnot with rfl | hdone
  · exact ho rfl
  · exact hdone station hold hu

theorem start (hkeep : ∀ name, (d.definitions.find? name).isSome →
      (d'.definitions.find? name).isSome) (hn : (d'.definitions.find? name).isSome) :
    Abreast d name old steps ⟨none, 0⟩ (stations d steps) (stations d' steps) where
  visited station hm ht := by
    obtain ⟨t, ht⟩ := Option.isSome_iff_exists.mp ht
    simp only [stations, List.mem_flatMap, List.mem_map, List.mem_range] at hm
    obtain ⟨other, -, x, hx, rfl⟩ := hm
    exact mem_stations ht hx
  left station hm _ := by
    simp only [stations, List.mem_flatMap, List.mem_map, List.mem_range] at hm
    obtain ⟨other, ho, x, hx, rfl⟩ := hm
    obtain ⟨t, ht⟩ := Option.isSome_iff_exists.mp (hkeep _ (Members.mem_names_iff.mp ho))
    exact mem_stations ht hx
  ahead x hx hm := by
    obtain ⟨t, ht⟩ := Option.isSome_iff_exists.mp hn
    exact absurd (mem_stations ht hx) hm

end Abreast

namespace Relocation

theorem find?_isSome (h : Relocation R d d' place old new name) {other : String}
    (ho : (d.definitions.find? other).isSome) : (d'.definitions.find? other).isSome := by
  obtain ⟨t, ht⟩ := Option.isSome_iff_exists.mp ho
  have hroot : d.rootSchema? (.definition other) = some t := ht
  exact Option.isSome_iff_exists.mpr ⟨_, h.roots _ _ hroot⟩

/-- Where the first walk ends, the second one does. -/
theorem slotFrom_stays (h : Relocation R d d' place old new name) (hs' : o.schema d' rule = .ok s')
    (ht : Tracks R place old new ⟨o.root rule, []⟩ s s')
    (hl : locate s (steps.drop o.offset) = .ok slot) (hp : place = ⟨o.root rule, slot.route⟩)
    (hc : ∀ station, leap s steps o.offset = some station →
      (d.definitions.find? station.1).isSome ∧ station ∉ unvisited)
    (ha : Abreast d name old steps o unvisited unvisited') :
    slotFrom d' rule steps unvisited' o = .ok place := by
  obtain ⟨t, hloc⟩ := located_of_locateFrom hl
  obtain ⟨hloc', hh⟩ := h.located hloc ht hp
  rw [hp]
  refine slotFrom_here hs' hloc'.locateFrom_eq ?_
  intro station hst
  rw [leap_eq, hh, ← leap_eq] at hst
  obtain ⟨hfound, hu⟩ := hc station hst
  exact ⟨h.find?_isSome hfound, fun hin => hu (ha.visited station hin hfound)⟩

/-- Where the new reference stands in the way, the second walk goes through its definition. -/
theorem slotFrom_through (h : Relocation R d d' place old new name)
    (hs' : o.schema d' rule = .ok s') (hnew : leap s' steps o.offset = some (name, x))
    (hold : leap old steps x = some station) (hfound : (d.definitions.find? station.1).isSome)
    (hx : (name, x) ∈ unvisited') (hu : station ∈ unvisited') (hne : station ≠ (name, x)) :
    slotFrom d' rule steps unvisited' o =
      slotFrom d' rule steps (without station (without (name, x) unvisited'))
        ⟨some station.1, station.2⟩ := by
  obtain ⟨e, he, hr⟩ := h.target
  have hse : (⟨some name, x⟩ : Origin).schema d' rule = .ok e := schema_eq_ok.mpr he
  have hle : leap e steps x = some station := by
    rw [← leap_of_descending h.descending hr, hold]
  rw [slotFrom_leap hs' hnew (by simp [he]) hx,
    slotFrom_leap hse hle (h.find?_isSome hfound) (mem_without hu hne)]

/-- The second walk keeps abreast of the first and ends where it ended. -/
theorem slotFrom_again (h : Relocation R d d' place old new name)
    (hne : place.root ≠ .definition name)
    (hdef : ∀ e, d.definitions.find? name = some e → ∀ x, leap e steps x = leap old steps x)
    {unvisited unvisited' : List Station} {o : Origin}
    (hslot : slotFrom d rule steps unvisited o = .ok place)
    (ha : Abreast d name old steps o unvisited unvisited') :
    slotFrom d' rule steps unvisited' o = .ok place := by
  obtain ⟨s, hs, hcase⟩ := slotFrom_cases hslot
  obtain ⟨s', hroot', ht⟩ := h.tracks_root (schema_eq_ok.mp hs)
  have hs' := schema_eq_ok.mpr hroot'
  -- from the new definition the first walk leaps where it would have from the old schema
  have hold : ∀ {o : Origin} {s : Schema}, o.schema d rule = .ok s → o.definition = some name →
      ∀ x, leap s steps x = leap old steps x := by
    rintro ⟨definition, off⟩ s hs rfl
    exact hdef s (schema_eq_ok.mp hs)
  rcases hcase with ⟨slot, hl, hp, hc⟩ | ⟨station, hleap, hfound, hu, hrest⟩
  · exact h.slotFrom_stays hs' ht hl hp hc ha
  · -- the walk does not end in the new definition, so it leaps on from there
    have hon : station.1 = name → ∃ next, leap old steps station.2 = some next ∧
        next ∈ without station unvisited := by
      intro hn
      obtain ⟨e, next, he, hnext, hin⟩ := exists_leap_of_ne hrest (hn ▸ hne)
      refine ⟨next, ?_, hin⟩
      rwa [hold he (congrArg some hn)] at hnext
    have hu' : station ∈ unvisited' := by
      refine ha.mem_next hu (leap_lt hleap) ?_ hon
      rintro rfl
      rw [← hold hs rfl, hleap]
    rcases h.leap_tracked hleap ht with hsame | ⟨hroot, x, hx, hnew, hpast⟩
    · rw [slotFrom_leap hs' hsame (h.find?_isSome hfound) hu']
      refine h.slotFrom_again hne hdef hrest (ha.next ?_)
      intro ho
      rw [← hold hs ho, hleap]
    · have ho : o.definition ≠ some name := by
        rintro ho
        refine hne (hroot.symm.trans ?_)
        simp only [Origin.root, ho]
      have hstation : station ≠ (name, x) := by
        rintro rfl
        obtain ⟨next, hnext, hin⟩ := hon rfl
        obtain rfl := Option.some.inj (hpast.symm.trans hnext)
        exact not_mem_without _ _ hin
      rw [h.slotFrom_through hs' hnew hpast hfound (ha.mem_new hx hpast hu ho) hu' hstation]
      exact h.slotFrom_again hne hdef hrest (ha.through hpast ho)
termination_by unvisited.length
decreasing_by all_goals exact length_without_lt hu

theorem slotOf_again (h : Relocation R d d' place old new rule.definition)
    (hne : place.root ≠ .definition rule.definition)
    (hdef : ∀ e, d.definitions.find? rule.definition = some e →
      ∀ steps x, leap e steps x = leap old steps x)
    (hslot : Extraction.slotOf d rule = .ok place) : Extraction.slotOf d' rule = .ok place := by
  obtain ⟨e, he, -⟩ := h.target
  have hstart : Abreast d rule.definition old (splitSteps rule.property) ⟨none, 0⟩
      (stations d (splitSteps rule.property)) (stations d' (splitSteps rule.property)) :=
    .start (fun _ => h.find?_isSome) (by simp [he])
  exact h.slotFrom_again hne (fun e he => hdef e he _) hslot hstart

end Relocation

/-- A rule that succeeds finds the same slot if it is applied again. -/
theorem Applies.slotOf_again {outcome : Outcome} (h : Applies d rule d' (.ok outcome))
    (hw : d.WellFormed) (hslot : slotOf d rule = .ok place) : slotOf d' rule = .ok place := by
  cases h with
  | alreadyReferenced => exact hslot
  | reused hslot' hs _ he ht =>
    obtain rfl : place = _ := by simpa [hslot] using hslot'
    have hm : Schema.SameText _ _ := ⟨hw (.definition rule.definition) _ he, hw.at? hs, ht⟩
    refine (relocation_reused hw hslot hs he ht).slotOf_again
      (root_ne_of_canonicalText hslot hs he ht) ?_ hslot
    intro e he' steps x
    obtain rfl := Option.some.inj (he.symm.trans he')
    exact leap_of_descending Schema.descending_sameText hm steps x
  | inserted hslot' hs _ hn =>
    obtain rfl : place = _ := by simpa [hslot] using hslot'
    refine (relocation_inserted hslot hs hn).slotOf_again (root_ne_of_unknown hs hn) ?_ hslot
    intro e he
    rw [hn] at he
    cases he

end ApiContract.Extraction
