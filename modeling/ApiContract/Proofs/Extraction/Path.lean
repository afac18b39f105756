import ApiContract.Proofs.Extraction.Descent

namespace ApiContract.Extraction

/-- From a schema at a place a path leads, through so many references, to a schema at a place. -/
inductive Leads (d : Document) : Nat → Place → Schema → List String → Place → Schema → Prop
  | stop {p : Place} {s : Schema} : s.kind ≠ .array → Leads d 0 p s [] p s
  | items {n : Nat} {p q : Place} {s item t : Schema} {steps : List String} :
      s.kind = .array → s.singleItems = some item → Leads d n (p.step .items) item steps q t →
      Leads d n p s steps q t
  | property {n : Nat} {p q : Place} {s child t : Schema} {step : String} {rest : List String} :
      s.kind ≠ .array → s.referenceName = none → Members.find? s.properties step = some child →
      Leads d n (p.step (.property step)) child rest q t → Leads d n p s (step :: rest) q t
  | follow {n : Nat} {p q : Place} {s target t : Schema} {name step : String}
      {rest : List String} :
      s.referenceName = some name → d.definitions.find? name = some target →
      Leads d n ⟨.definition name, []⟩ target (step :: rest) q t →
      Leads d (n + 1) p s (step :: rest) q t

variable {d : Document} {n m : Nat} {p q q' : Place} {s t t' target : Schema}
  {steps : List String} {slot slot' : Slot} {root : Root}

theorem Leads.schemaAt? (h : Leads d n p s steps q t) (hs : d.schemaAt? p = some s) :
    d.schemaAt? q = some t := by
  induction h with
  | stop => exact hs
  | items _ hi _ ih =>
    obtain ⟨u, hu, hs⟩ := Option.bind_eq_some_iff.mp hs
    exact ih (by simp [Document.schemaAt?, Place.step, hu, Schema.at?_append, hs, Schema.at?, hi])
  | property _ _ hc _ ih =>
    obtain ⟨u, hu, hs⟩ := Option.bind_eq_some_iff.mp hs
    exact ih
      (by simp [Document.schemaAt?, Place.step, hu, Schema.at?_append, hs, Schema.at?, hc])
  | follow _ ht _ ih =>
    exact ih (by simp [Document.schemaAt?, Document.rootSchema?, ht, Schema.at?])

/-- A path leads to one place, through one number of references. -/
theorem Leads.unique (h : Leads d n p s steps q t) (h' : Leads d m p s steps q' t') :
    n = m ∧ q = q' ∧ t = t' := by
  induction h generalizing m with
  | stop hk =>
    cases h' with
    | stop => exact ⟨rfl, rfl, rfl⟩
    | items ha => exact absurd ha hk
  | items ha hi _ ih =>
    cases h' with
    | stop hk => exact absurd ha hk
    | items _ hi' h' =>
      obtain rfl := Option.some.inj (hi.symm.trans hi')
      exact ih h'
    | property hk => exact absurd ha hk
    | follow hr => exact absurd ha (Schema.not_array_of_referenceName hr)
  | property hk hr hc _ ih =>
    cases h' with
    | items ha => exact absurd ha hk
    | property _ _ hc' h' =>
      obtain rfl := Option.some.inj (hc.symm.trans hc')
      exact ih h'
    | follow hr' => simp [hr] at hr'
  | follow hr ht _ ih =>
    cases h' with
    | items ha => exact absurd ha (Schema.not_array_of_referenceName hr)
    | property _ hr' => simp [hr] at hr'
    | follow hr' ht' h' =>
      obtain rfl := Option.some.inj (hr.symm.trans hr')
      obtain rfl := Option.some.inj (ht.symm.trans ht')
      obtain ⟨rfl, hq⟩ := ih h'
      exact ⟨rfl, hq⟩

theorem Located.leads (h : Located slot s steps slot' t) {skipped : Nat}
    (hn : hopFrom skipped s steps = none) :
    Leads d 0 ⟨root, slot.route⟩ s steps ⟨root, slot'.route⟩ t := by
  induction h generalizing skipped with
  | stop hk => exact .stop hk
  | @items slot slot' s item t steps ha hi _ ih =>
    refine .items ha hi ?_
    match steps with
    | [] => exact ih (hopFrom_nil 0 item)
    | step :: rest =>
      rw [hopFrom_array ha, hi] at hn
      exact ih hn
  | @property slot slot' s child t step rest ha hc _ ih =>
    have hr := referenceName_of_hopFrom hn
    rw [hopFrom_cons ha hr, hc] at hn
    exact .property ha hr hc (ih hn)

/-- The search for a reference is the first stretch of every path that leads on from it. -/
theorem leads_of_hopFrom {skipped : Nat} {hop : Hop}
    (h : hopFrom skipped s steps = some hop) :
    ∃ j, hop.skipped = skipped + j ∧ j < steps.length ∧
      ∀ {n : Nat} {q : Place} {t target : Schema}, d.definitions.find? hop.name = some target →
        Leads d n ⟨.definition hop.name, []⟩ target (steps.drop j) q t →
        ∀ p, Leads d (n + 1) p s steps q t := by
  replace h := hops_of_hopFrom h
  induction h with
  | here hr => exact ⟨0, rfl, by simp, fun ht hd p => .follow hr ht hd⟩
  | items ha hi _ ih =>
    obtain ⟨j, hj, hlt, hl⟩ := ih
    exact ⟨j, hj, hlt, fun ht hd p => .items ha hi (hl ht hd _)⟩
  | property ha hr hc _ ih =>
    obtain ⟨j, hj, hlt, hl⟩ := ih
    refine ⟨j + 1, by omega, by simpa using hlt, fun ht hd p => ?_⟩
    exact .property ha hr hc (hl ht hd _)

/-- A path ends within the schema it starts in, or its first reference is found there. -/
theorem Leads.stretch (h : Leads d n ⟨root, slot.route⟩ s steps q t) (skipped : Nat) :
    (n = 0 ∧ hopFrom skipped s steps = none ∧
      ∃ slot', locateFrom slot s steps = .ok slot' ∧ q = ⟨root, slot'.route⟩) ∨
    (∃ name target m j, n = m + 1 ∧ hopFrom skipped s steps = some ⟨name, skipped + j⟩ ∧
      j < steps.length ∧ d.definitions.find? name = some target ∧
      Leads d m ⟨.definition name, []⟩ target (steps.drop j) q t) := by
  generalize hp : (⟨root, slot.route⟩ : Place) = p at h
  induction h generalizing slot skipped with
  | stop hk =>
    subst hp
    exact Or.inl ⟨rfl, hopFrom_nil _ _, slot, locateFrom_nil hk, rfl⟩
  | @items n p q s item t steps ha hi h ih =>
    subst hp
    have hl : locateFrom slot s steps = locateFrom slot.toItems item steps := by
      rw [locateFrom_array ha, hi]
    have hh : hopFrom skipped s steps = hopFrom skipped item steps := by
      match steps with
      | [] => rw [hopFrom_nil, hopFrom_nil]
      | step :: rest => rw [hopFrom_array ha, hi]
    rw [hl, hh]
    exact @ih slot.toItems skipped rfl
  | @property n p q s child t step rest ha hr hc h ih =>
    subst hp
    have hl : locateFrom slot s (step :: rest) = locateFrom (slot.toProperty step) child rest := by
      rw [locateFrom_cons ha, hc]
    have hh : hopFrom skipped s (step :: rest) = hopFrom (skipped + 1) child rest := by
      rw [hopFrom_cons ha hr, hc]
    rw [hl, hh]
    rcases @ih (slot.toProperty step) (skipped + 1) rfl with
      hend | ⟨name, target, m, j, hn, hj, hlt, ht, hm⟩
    · exact Or.inl hend
    · refine Or.inr ⟨name, target, m, j + 1, hn, ?_, by simpa using hlt, ht, hm⟩
      rw [hj]
      congr 2
      omega
  | @follow n p q s target t name step rest hr ht h ih =>
    exact Or.inr ⟨name, target, n, 0, rfl, hopFrom_reference hr, by simp, ht, h⟩

theorem Leads.search {root : Root} (h : Leads d n ⟨root, []⟩ s steps q t) :
    (n = 0 ∧ hop? s steps = none ∧
      ∃ slot, locate s steps = .ok slot ∧ q = ⟨root, slot.route⟩) ∨
    (∃ name target m j, n = m + 1 ∧ hop? s steps = some ⟨name, j⟩ ∧
      j < steps.length ∧ d.definitions.find? name = some target ∧
      Leads d m ⟨.definition name, []⟩ target (steps.drop j) q t) := by
  have h : Leads d n ⟨root, ({} : Slot).route⟩ s steps q t := h
  simpa [hop?, locate] using h.stretch 0

end ApiContract.Extraction
