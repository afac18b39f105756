import ApiContract.Proofs.Extraction.Meaning

namespace ApiContract.Extraction

variable {d : Document} {rules order : List Rule}

/-- What lets every rule still to come succeed. -/
structure Ready (d : Document) (rules : List Rule) : Prop where
  bare : d.Every Schema.Bare
  distinct : (rules.map Rule.definition).Nodup
  fresh : ∀ r ∈ rules, d.definitions.find? r.definition = none
  slots : ∀ r ∈ rules, ∃ place, slotOf d r = .ok place

theorem Ready.of_perm (h : Ready d rules) (hp : order.Perm rules) : Ready d order where
  bare := h.bare
  distinct := (hp.map Rule.definition).nodup_iff.mpr h.distinct
  fresh r hr := h.fresh r (hp.mem_iff.mp hr)
  slots r hr := h.slots r (hp.mem_iff.mp hr)

/-- The first of the rules succeeds, and the rest are ready after it: a slot that the rule has moved
into its definition is found there. -/
theorem Ready.step {rule : Rule} {rest : List Rule} (h : Ready d (rule :: rest)) :
    ((applyRule d rule).result = .ok .inserted ∨
      (applyRule d rule).result = .ok .alreadyReferenced) ∧
      Ready (applyRule d rule).document rest := by
  generalize hd : (applyRule d rule).document = d', hr : (applyRule d rule).result = result
  have ha := applies d rule
  rw [hd, hr] at ha
  obtain ⟨place, hplace⟩ := h.slots rule List.mem_cons_self
  have hfresh := h.fresh rule List.mem_cons_self
  obtain ⟨hnot, hnd⟩ := List.nodup_cons.mp h.distinct
  have hrest : ∀ r ∈ rest, r ∈ rule :: rest := fun r hr => List.mem_cons_of_mem rule hr
  cases ha with
  | lost hslot => simp [hplace] at hslot
  | conflict _ _ _ he => simp [hfresh] at he
  | reused _ _ _ he => simp [hfresh] at he
  | alreadyReferenced =>
    exact ⟨Or.inr rfl, h.bare, hnd, fun r hr => h.fresh r (hrest r hr),
      fun r hr => h.slots r (hrest r hr)⟩
  | inserted hslot hs hne hn =>
    have ha := Applies.inserted hslot hs hne hn
    refine ⟨Or.inl rfl, ha.bare h.bare, hnd, fun r hr => ?_, fun r hr => ?_⟩
    · refine (ha.rootSchema?_eq_none (.definition r.definition)).mpr ⟨h.fresh r (hrest r hr), ?_⟩
      rintro ⟨-, he⟩
      have he : r.definition = rule.definition := by simpa using he
      exact hnot (he ▸ List.mem_map_of_mem hr)
    · obtain ⟨q, hq⟩ := h.slots r (hrest r hr)
      obtain ⟨t, ht, -⟩ := schemaAt?_of_slotOf hq
      exact ⟨_, ((relocation_inserted hslot hs hn).slotOf h.bare hq ht).1⟩

theorem Ready.run (h : Ready d rules) :
    (applyRules d rules).result = .ok () ∧ (answers d rules).length = rules.length ∧
      ∀ answer ∈ answers d rules, answer = .ok .inserted ∨ answer = .ok .alreadyReferenced := by
  induction rules generalizing d with
  | nil => exact ⟨rfl, rfl, by simp [answers]⟩
  | cons rule rest ih =>
    obtain ⟨hone, hready⟩ := h.step
    obtain ⟨hok, hlen, hall⟩ := ih hready
    rcases hone with hone | hone
    all_goals
      simp only [applyRules, answers, hone, List.length_cons, List.mem_cons, forall_eq_or_imp]
      exact ⟨hok, congrArg (· + 1) hlen, by simp, hall⟩

/-- Rules that name new definitions, each its own, and succeed when applied alone succeed in every
order, in a document where no reference has properties beside it. -/
theorem extract_any_order (hb : d.Every Schema.Bare) (hnd : (rules.map Rule.definition).Nodup)
    (hnew : ∀ r ∈ rules, d.definitions.find? r.definition = none)
    (hone : ∀ r ∈ rules, ∃ outcome, (applyRule d r).result = .ok outcome)
    (ho : order.Perm rules) :
    (extract d order).result = .ok () ∧ (answers d order).length = order.length ∧
      ∀ answer ∈ answers d order, answer = .ok .inserted ∨ answer = .ok .alreadyReferenced := by
  have hslots : ∀ r ∈ rules, ∃ place, slotOf d r = .ok place := by
    intro r hr
    obtain ⟨outcome, hout⟩ := hone r hr
    exact (hout ▸ applies d r).exists_slot
  have hready : Ready d rules := ⟨hb, hnd, hnew, hslots⟩
  rw [extract_result]
  exact (hready.of_perm ho).run

open Chain in
/-- Rules for a schema, for one within it and for it again by way of the next link, from the outside
in. -/
theorem chain_any_order :
    (extract document
      [take "load" "Cargo", take "next.load" "Load", take "load.unit" "Unit"]).result = .ok () ∧
      (answers document
        [take "load" "Cargo", take "next.load" "Load", take "load.unit" "Unit"]).length = 3 ∧
      ∀ answer ∈ answers document
          [take "load" "Cargo", take "next.load" "Load", take "load.unit" "Unit"],
        answer = .ok .inserted ∨ answer = .ok .alreadyReferenced := by
  have hunit := (Applies.inserted (slotOf_load_unit "Unit") rfl (by decide) rfl).applyRule_eq.2
  have hload := (Applies.inserted (slotOf_next_load "Load") rfl (by decide) rfl).applyRule_eq.2
  have hcargo := (Applies.inserted (slotOf_load "Cargo") rfl (by decide) rfl).applyRule_eq.2
  have hperm := List.reverse_perm
    [take "load.unit" "Unit", take "next.load" "Load", take "load" "Cargo"]
  refine extract_any_order document_bare (by decide) (by decide) ?_ hperm
  simp [hunit, hload, hcargo]

end ApiContract.Extraction
