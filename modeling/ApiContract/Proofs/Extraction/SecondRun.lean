import ApiContract.Proofs.Extraction.Meaning

namespace ApiContract.Extraction

/-- Rules that find everything done: all of them say so, and the document stays as it is. -/
structure Idle (d : Document) (rules : List Rule) : Prop where
  succeeds : (extract d rules).result = .ok ()
  document : (extract d rules).document = d
  answers : answers d rules = rules.map fun _ => .ok .alreadyReferenced

/-- Two rules have one slot, and the second finds its reference there. -/
def Filled (d : Document) (rule filler : Rule) : Prop :=
  ∃ place s, slotOf d rule = .ok place ∧ slotOf d filler = .ok place ∧
    d.schemaAt? place = some s ∧ s.referenceName = some filler.definition

variable {R : Schema → Schema → Prop} {d d' : Document} {rules past : List Rule}
  {rule r filler : Rule} {outcome : Outcome} {place : Place} {old new : Schema}

theorem applyRule_of_filled (h : Filled d rule rule) :
    (applyRule d rule).document = d ∧ (applyRule d rule).result = .ok .alreadyReferenced := by
  obtain ⟨place, s, hslot, -, hs, hname⟩ := h
  exact (Applies.alreadyReferenced hslot hs hname).applyRule_eq

theorem filled_of_applyRule (h : (applyRule d rule).result = .ok .alreadyReferenced) :
    Filled d rule rule := by
  have ha := applies d rule
  generalize (applyRule d rule).document = d' at ha
  rw [h] at ha
  cases ha with
  | alreadyReferenced hslot hs hname => exact ⟨_, _, hslot, hslot, hs, hname⟩

theorem filled_of_answers (h : answers d rules = rules.map fun _ => .ok .alreadyReferenced) :
    ∀ r ∈ rules, Filled d r r := by
  induction rules with
  | nil => simp
  | cons rule rest ih =>
    rw [answers] at h
    split at h
    · simp at h
    · rename_i outcome hout
      obtain ⟨hone, hrest⟩ := List.cons.inj h
      have hf := filled_of_applyRule (hout.trans hone)
      rw [(applyRule_of_filled hf).1] at hrest
      exact List.forall_mem_cons.mpr ⟨hf, ih hrest⟩

theorem idle_of_filled (h : ∀ r ∈ rules, Filled d r r) : Idle d rules := by
  suffices (applyRules d rules).result = .ok () ∧ (applyRules d rules).document = d ∧
      answers d rules = rules.map fun _ => .ok .alreadyReferenced from
    ⟨(extract_result ..).trans this.1, (extract_document ..).trans this.2.1, this.2.2⟩
  induction rules with
  | nil => exact ⟨rfl, rfl, rfl⟩
  | cons rule rest ih =>
    obtain ⟨hf, hrest⟩ := List.forall_mem_cons.mp h
    obtain ⟨hd, hr⟩ := applyRule_of_filled hf
    simpa [applyRules, answers, hd, hr] using ih hrest

/-- A run is idle exactly if every rule finds its reference at its slot. -/
theorem idle_iff : Idle d rules ↔ ∀ r ∈ rules, Filled d r r :=
  ⟨fun h => filled_of_answers h.answers, idle_of_filled⟩

/-- The slot of every rule is that of one which finds its reference there. -/
def Settled (d : Document) (rules : List Rule) : Prop := ∀ r ∈ rules, ∃ m ∈ rules, Filled d r m

theorem Relocation.filled_self (h : Relocation R d d' place old new rule.definition)
    (hb : d.Every Schema.Bare) (hslot : Extraction.slotOf d rule = .ok place) :
    Filled d' rule rule := by
  obtain ⟨hslot', t', ht, htr⟩ := h.slotOf hb hslot h.held
  rw [moved_self] at hslot' ht
  exact ⟨place, t', hslot', hslot', ht, htr.self.2 ▸ h.refers⟩

/-- A rule that was filled stays so, unless the slot is the one that is rewritten. -/
theorem Relocation.filled (h : Relocation R d d' place old new rule.definition)
    (hb : d.Every Schema.Bare) (hslot : Extraction.slotOf d rule = .ok place)
    (hf : Filled d r filler) : Filled d' r filler ∨ Filled d' r rule := by
  obtain ⟨q, s, hr, hfill, hs, hname⟩ := hf
  obtain ⟨hr', t', ht, htr⟩ := h.slotOf hb hr hs
  by_cases hq : q = place
  · subst hq
    right
    exact ⟨_, t', hr', (h.slotOf hb hslot hs).1, ht, htr.self.2 ▸ h.refers⟩
  · left
    exact ⟨_, t', hr', (h.slotOf hb hfill hs).1, ht,
      (htr.agrees h.descending hq).referenceName ▸ hname⟩

theorem Relocation.settled (h : Relocation R d d' place old new rule.definition)
    (hb : d.Every Schema.Bare) (hslot : Extraction.slotOf d rule = .ok place)
    (hs : Settled d past) : Settled d' (past ++ [rule]) := by
  intro r hr
  rcases List.mem_append.mp hr with hr | hr
  · obtain ⟨m, hm, hf⟩ := hs r hr
    rcases h.filled hb hslot hf with hf | hf
    · exact ⟨m, List.mem_append_left _ hm, hf⟩
    · exact ⟨rule, by simp, hf⟩
  · obtain rfl := List.mem_singleton.mp hr
    exact ⟨r, by simp, h.filled_self hb hslot⟩

theorem Applies.settled (h : Applies d rule d' (.ok outcome)) (hw : d.WellFormed)
    (hb : d.Every Schema.Bare) (hs : Settled d past) : Settled d' (past ++ [rule]) := by
  cases h with
  | alreadyReferenced hslot ht hname =>
    intro r hr
    rcases List.mem_append.mp hr with hr | hr
    · obtain ⟨m, hm, hf⟩ := hs r hr
      exact ⟨m, List.mem_append_left _ hm, hf⟩
    · obtain rfl := List.mem_singleton.mp hr
      exact ⟨r, by simp, _, _, hslot, hslot, ht, hname⟩
  | reused hslot ht _ he htext => exact (relocation_reused hw hslot ht he htext).settled hb hslot hs
  | inserted hslot ht _ hn => exact (relocation_inserted hslot ht hn).settled hb hslot hs

theorem settled_applyRules (hw : d.WellFormed) (hb : d.Every Schema.Bare) (hs : Settled d past)
    (hok : (applyRules d rules).result = .ok ()) :
    Settled (applyRules d rules).document (past ++ rules) := by
  induction rules generalizing d past with
  | nil => simpa [applyRules] using hs
  | cons rule rest ih =>
    have ha := applies d rule
    rw [applyRules] at hok ⊢
    split at hok
    · cases hok
    · rename_i outcome hout
      rw [hout] at ha
      have hrest := ih (ha.wellFormed hw) (ha.bare hb) (ha.settled hw hb hs) hok
      simpa [hout] using hrest

/-- After a run that succeeds, the same rules are idle exactly if every rule finds its reference at
its slot. Where no reference has properties this fails only when rules of different names have come
to one slot: the later one has put its reference in the place of the other's. -/
theorem extract_again_iff (hok : (extract d rules).result = .ok ()) :
    (Idle (extract d rules).document rules ↔
      ∀ r ∈ rules, Filled (extract d rules).document r r) ∧
    (d.WellFormed → d.Every Schema.Bare →
      (Idle (extract d rules).document rules ↔ ∀ r ∈ rules, ∀ m ∈ rules, ∀ place,
        slotOf (extract d rules).document r = .ok place →
        slotOf (extract d rules).document m = .ok place → r.definition = m.definition)) := by
  refine ⟨idle_iff, fun hw hb => ⟨fun hidle r hr m hm place hslot hslot' => ?_, fun hone => ?_⟩⟩
  · obtain ⟨q, s, hq, -, hs, hname⟩ := idle_iff.mp hidle r hr
    obtain ⟨q', s', hq', -, hs', hname'⟩ := idle_iff.mp hidle m hm
    obtain rfl : place = q := by simpa [hslot] using hq
    obtain rfl : place = q' := by simpa [hslot'] using hq'
    obtain rfl := Option.some.inj (hs.symm.trans hs')
    exact Option.some.inj (hname.symm.trans hname')
  · refine idle_iff.mpr fun r hr => ?_
    rw [extract_result] at hok
    have hnil : Settled d [] := fun r hr => nomatch hr
    have hsettled : Settled (extract d rules).document rules := by
      rw [extract_document]
      exact settled_applyRules hw hb hnil hok
    obtain ⟨m, hm, place, s, hslot, hslot', hs, hname⟩ := hsettled r hr
    exact ⟨place, s, hslot, hslot, hs, hone r hr m hm place hslot hslot' ▸ hname⟩

namespace Chain

/-- The load of every link is a definition. -/
def once : Document := (document.put loadPlace (.referTo "Load")).define "Load" load

theorem applies_load : Applies document (take "load" "Load") once (.ok .inserted) :=
  .inserted (slotOf_load "Load") rfl (by decide) rfl

theorem relocation_load : Relocation Eq document once loadPlace load (.referTo "Load") "Load" :=
  @relocation_inserted document (take "load" "Load") loadPlace load (slotOf_load "Load") rfl rfl

theorem slotOf_once (h : slotOf document rule = .ok loadPlace) :
    slotOf once rule = .ok loadPlace := by
  have hmoved := (relocation_load.slotOf document_bare h rfl).1
  rwa [moved_self] at hmoved

theorem filled_once (h : slotOf document rule = .ok loadPlace) (hn : rule.definition = "Load") :
    Filled once rule rule :=
  ⟨loadPlace, .referTo "Load", slotOf_once h, slotOf_once h, rfl, hn ▸ referenceName_referTo _⟩

theorem extract_once :
    (extract document [take "load" "Load", take "next.load" "Load"]).result = .ok () ∧
      (extract document [take "load" "Load", take "next.load" "Load"]).document = once := by
  obtain ⟨hd, hr⟩ := applies_load.applyRule_eq
  obtain ⟨hd', hr'⟩ := applyRule_of_filled (filled_once (slotOf_next_load "Load") rfl)
  simp [extract_result, extract_document, applyRules, hd, hr, hd', hr']

/-- The load of every link has a second name. -/
def twice : Document := (once.put loadPlace (.referTo "Cargo")).define "Cargo" (.referTo "Load")

theorem ne_of_definition {name other : String} (h : name ≠ other) :
    (Schema.referTo name).referenceName ≠ some other := by
  rw [referenceName_referTo]
  exact fun he => h (Option.some.inj he)

theorem applies_cargo : Applies once (take "load" "Cargo") twice (.ok .inserted) :=
  .inserted (slotOf_once (slotOf_load "Cargo")) rfl (ne_of_definition (by decide)) rfl

theorem relocation_cargo :
    Relocation Eq once twice loadPlace (.referTo "Load") (.referTo "Cargo") "Cargo" :=
  @relocation_inserted once (take "load" "Cargo") loadPlace (.referTo "Load")
    (slotOf_once (slotOf_load "Cargo")) rfl rfl

theorem slotOf_twice : slotOf twice (take "load" "Load") = .ok loadPlace := by
  have hb := applies_load.bare document_bare
  have hmoved := (relocation_cargo.slotOf hb (slotOf_once (slotOf_load "Load")) rfl).1
  rwa [moved_self] at hmoved

theorem applies_twice : Applies twice (take "load" "Load") twice
    (.error (.conflict "Load" (canonicalText load) (canonicalText (.referTo "Cargo")))) := by
  refine .conflict slotOf_twice rfl (ne_of_definition (by decide)) rfl ?_
  decide

end Chain

open Chain in
/-- Two ways to one schema are no obstacle when both rules give it the same name. -/
theorem chain_again : Idle (extract document [take "load" "Load", take "next.load" "Load"]).document
    [take "load" "Load", take "next.load" "Load"] :=
  ((extract_again_iff extract_once.1).2 document_wellFormed document_bare).mpr
    (by simp [take])

open Chain in
/-- Two names for one schema are: the first name's reference has given way to the second's. -/
theorem chain_two_names :
    (extract document [take "load" "Load", take "load" "Cargo"]).result = .ok () ∧
      (extract (extract document [take "load" "Load", take "load" "Cargo"]).document
        [take "load" "Load", take "load" "Cargo"]).result =
          .error (.conflict "Load" (canonicalText load) (canonicalText (.referTo "Cargo"))) := by
  obtain ⟨hd, hr⟩ := applies_load.applyRule_eq
  obtain ⟨hd', hr'⟩ := applies_cargo.applyRule_eq
  obtain ⟨-, hr''⟩ := applies_twice.applyRule_eq
  simp [extract_result, extract_document, applyRules, hd, hr, hd', hr', hr'']

end ApiContract.Extraction
