import ApiContract.Extraction.Apply
import ApiContract.Proofs.Members

namespace ApiContract

open Extraction

namespace Schema

variable {s item child new t : Schema} {route rest : Route} {name : String}

theorem put_items (h : s.singleItems = some item) :
    s.put (.items :: route) new = { s with items := some (.single (item.put route new)) } := by
  simp [put, h]

theorem put_property (h : Members.find? s.properties name = some child) :
    s.put (.property name :: route) new =
      { s with properties := Members.insert s.properties name (child.put route new) } := by
  simp [put, h]

theorem at?_append (s : Schema) (route rest : Route) :
    s.at? (route ++ rest) = (s.at? route).bind (at? rest) := by
  induction route generalizing s with
  | nil => rfl
  | cons move route ih =>
    cases move with
    | items => cases h : s.singleItems <;> simp [at?, h, ih]
    | property name => cases h : Members.find? s.properties name <;> simp [at?, h, ih]

@[simp] theorem at?_items (s : Schema) : s.at? [.items] = s.singleItems := by
  cases h : s.singleItems <;> simp [at?, h]

@[simp] theorem at?_property (s : Schema) (name : String) :
    s.at? [.property name] = Members.find? s.properties name := by
  cases h : Members.find? s.properties name <;> simp [at?, h]

theorem at?_cons (s : Schema) (move : Move) (route : Route) :
    s.at? (move :: route) = (s.at? [move]).bind (at? route) :=
  at?_append s [move] route

/-- What stands one move down, when a schema is put further down the same way. -/
theorem at?_put_cons {move : Move} (h : s.at? [move] = some child) :
    (s.put (move :: route) new).at? [move] = some (child.put route new) := by
  cases move with
  | items =>
    rw [at?_items] at h
    rw [put_items h, at?_items]
    rfl
  | property name =>
    rw [at?_property] at h
    rw [put_property h, at?_property]
    exact Members.find?_insert_self ..

/-- What stands one move down another way. -/
theorem at?_put_of_ne {move other : Move} (h : s.at? (move :: route) = some t)
    (hne : other ≠ move) : (s.put (move :: route) new).at? [other] = s.at? [other] := by
  cases move with
  | items =>
    obtain ⟨item, hi, -⟩ := Option.bind_eq_some_iff.mp h
    cases other with
    | items => exact absurd rfl hne
    | property other => rw [put_items hi, at?_property, at?_property]
  | property name =>
    obtain ⟨child, hc, -⟩ := Option.bind_eq_some_iff.mp h
    cases other with
    | items =>
      rw [put_property hc, at?_items, at?_items]
      rfl
    | property other =>
      rw [put_property hc, at?_property, at?_property]
      exact Members.find?_insert_of_ne _ _ fun he => hne (congrArg Move.property he.symm)

/-- A route that leads somewhere still leads there, to what was put. -/
theorem at?_put (h : s.at? route = some t) : (s.put route new).at? route = some new := by
  induction route generalizing s with
  | nil => rfl
  | cons move route ih =>
    cases move with
    | items =>
      obtain ⟨item, hi, ht⟩ := Option.bind_eq_some_iff.mp h
      simp [put_items hi, at?, singleItems, ih ht]
    | property name =>
      obtain ⟨child, hc, ht⟩ := Option.bind_eq_some_iff.mp h
      simp [put_property hc, at?, Members.find?_insert_self, ih ht]

theorem sizeOf_lt_of_singleItems (h : s.singleItems = some item) : sizeOf item < sizeOf s := by
  obtain ⟨_, _, _, _, _, _, _, items, _⟩ := s
  match items, h with
  | some (.single _), rfl =>
    simp
    omega

theorem sizeOf_lt_of_find? (h : Members.find? s.properties name = some child) :
    sizeOf child < sizeOf s := by
  obtain ⟨_, _, _, _, _, properties, _, _, _⟩ := s
  have := Members.sizeOf_lt_of_find? h
  simp at this ⊢
  omega

end Schema

/-- Where a route starts: at the schema of a response or at a definition. -/
inductive Root where
  | response (path : String) (method : Method) (key : String)
  | definition (name : String)
deriving Repr, DecidableEq

/-- A root and a route below it. -/
structure Place where
  root : Root
  route : Route := []
deriving Repr, DecidableEq

namespace Place

/-- The place one move down. -/
def step (p : Place) (move : Move) : Place := { p with route := p.route ++ [move] }

/-- A place lies at another one or below it. -/
def Within (q p : Place) : Prop := q.root = p.root ∧ p.route <+: q.route

instance (q p : Place) : Decidable (q.Within p) := inferInstanceAs (Decidable (_ ∧ _))

variable {p q : Place} {move : Move}

theorem within_refl (p : Place) : p.Within p := ⟨rfl, List.prefix_refl _⟩

theorem Within.step (h : p.Within q) (move : Move) : (p.step move).Within q :=
  ⟨h.1, h.2.trans (List.prefix_append ..)⟩

theorem within_of_within_step (h : q.Within (p.step move)) : q.Within p :=
  ⟨h.1, (List.prefix_append ..).trans h.2⟩

theorem not_within_step_self (p : Place) (move : Move) : ¬ p.Within (p.step move) := by
  rintro ⟨-, h⟩
  have hlen := h.length_le
  simp only [Place.step, List.length_append, List.length_singleton] at hlen
  omega

theorem eq_or_within_of_step (h : (p.step move).Within q) : p.step move = q ∨ p.Within q := by
  obtain ⟨hr, hp⟩ := h
  rcases List.prefix_concat_iff.mp hp with he | hp
  · left
    obtain ⟨root, route⟩ := q
    simp_all [Place.step]
  · exact Or.inr ⟨hr, hp⟩

theorem exists_of_within (h : q.Within p) : ∃ rest, q = ⟨p.root, p.route ++ rest⟩ := by
  obtain ⟨root, route⟩ := q
  obtain ⟨rfl, rest, hr⟩ := h
  exact ⟨rest, by simp [hr]⟩

end Place

namespace Document

def rootSchema? (d : Document) : Root → Option Schema
  | .response path method key =>
    (d.paths.find? path).bind fun item =>
      (item.operation method).bind fun op =>
        (op.responses.find? key).bind Response.schema
  | .definition name => d.definitions.find? name

/-- The document with another schema at a root; a root that is not there changes nothing. -/
def setRoot (d : Document) (root : Root) (s : Schema) : Document :=
  match root with
  | .response path method key =>
    match d.paths.find? path with
    | none => d
    | some item =>
      match item.operation method with
      | none => d
      | some op =>
        match op.responses.find? key with
        | none => d
        | some r =>
          let responses := Members.insert op.responses key { r with schema := some s }
          let item := item.setOperation method (some { op with responses })
          { d with paths := Members.insert d.paths path item }
  | .definition name => { d with definitions := Members.insert d.definitions name s }

def schemaAt? (d : Document) (p : Place) : Option Schema :=
  (d.rootSchema? p.root).bind (Schema.at? p.route)

/-- The document with another schema at a place. -/
def put (d : Document) (p : Place) (new : Schema) : Document :=
  match d.rootSchema? p.root with
  | none => d
  | some s => d.setRoot p.root (s.put p.route new)

variable {d : Document} {path key name : String} {method : Method} {s t : Schema}

theorem rootSchema?_response :
    d.rootSchema? (.response path method key) = some s ↔
      ∃ item op r, d.paths.find? path = some item ∧ item.operation method = some op ∧
        op.responses.find? key = some r ∧ r.schema = some s := by
  simp [rootSchema?, Option.bind_eq_some_iff]

theorem setRoot_response {item : PathItem} {op : Operation} {r : Response}
    (hi : d.paths.find? path = some item) (ho : item.operation method = some op)
    (hr : op.responses.find? key = some r) :
    d.setRoot (.response path method key) s =
      { d with
        paths := Members.insert d.paths path <| item.setOperation method <| some
          { op with
            responses := Members.insert op.responses key { r with schema := some s } } } := by
  simp [setRoot, hi, ho, hr]

theorem rootSchema?_setRoot_self {root : Root} (h : d.rootSchema? root = some t) :
    (d.setRoot root s).rootSchema? root = some s := by
  cases root with
  | response path method key =>
    obtain ⟨item, op, r, hi, ho, hr, -⟩ := rootSchema?_response.mp h
    rw [setRoot_response hi ho hr, rootSchema?_response]
    exact ⟨_, _, _, Members.find?_insert_self .., PathItem.operation_setOperation ..,
      Members.find?_insert_self .., rfl⟩
  | definition name => exact Members.find?_insert_self ..

/-- A schema at one root leaves every other root as it is. -/
theorem rootSchema?_setRoot_of_ne {root other : Root} (h : d.rootSchema? root = some t)
    (hne : other ≠ root) : (d.setRoot root s).rootSchema? other = d.rootSchema? other := by
  cases root with
  | definition name =>
    cases other with
    | definition other =>
      exact Members.find?_insert_of_ne _ _ fun he => hne (congrArg Root.definition he.symm)
    | response => rfl
  | response path method key =>
    obtain ⟨item, op, r, hi, ho, hr, -⟩ := rootSchema?_response.mp h
    rw [setRoot_response hi ho hr]
    cases other with
    | definition => rfl
    | response path' method' key' =>
      by_cases hp : path = path'
      · subst hp
        by_cases hm : method = method'
        · subst hm
          have hk : key ≠ key' := fun hk => hne (hk ▸ rfl)
          simp [rootSchema?, Members.find?_insert_self, PathItem.operation_setOperation,
            Members.find?_insert_of_ne _ _ hk, hi, ho]
        · simp [rootSchema?, Members.find?_insert_self,
            PathItem.operation_setOperation_of_ne _ _ hm, hi]
      · simp [rootSchema?, Members.find?_insert_of_ne _ _ hp]

theorem put_of_rootSchema? {p : Place} (h : d.rootSchema? p.root = some s) (new : Schema) :
    d.put p new = d.setRoot p.root (s.put p.route new) := by
  simp [put, h]

theorem rootSchema?_put {p : Place} {root : Root} (hp : d.schemaAt? p = some t)
    (hs : d.rootSchema? root = some s) (new : Schema) :
    (d.put p new).rootSchema? root = some (if root = p.root then s.put p.route new else s) := by
  obtain ⟨u, hu, -⟩ := Option.bind_eq_some_iff.mp hp
  rw [put_of_rootSchema? hu]
  by_cases he : root = p.root
  · subst he
    obtain rfl : s = u := Option.some.inj (hs.symm.trans hu)
    simpa using rootSchema?_setRoot_self hu
  · simpa [he] using (rootSchema?_setRoot_of_ne hu he).trans hs

theorem rootSchema?_put_of_ne {p : Place} {root : Root} (hp : d.schemaAt? p = some t)
    (hne : root ≠ p.root) (new : Schema) :
    (d.put p new).rootSchema? root = d.rootSchema? root := by
  obtain ⟨u, hu, -⟩ := Option.bind_eq_some_iff.mp hp
  rw [put_of_rootSchema? hu, rootSchema?_setRoot_of_ne hu hne]

/-- No root comes or goes when a schema is put at a place. -/
theorem rootSchema?_put_eq_none {p : Place} {root : Root} (hp : d.schemaAt? p = some t)
    (new : Schema) : (d.put p new).rootSchema? root = none ↔ d.rootSchema? root = none := by
  by_cases hne : root = p.root
  · subst hne
    obtain ⟨u, hu, -⟩ := Option.bind_eq_some_iff.mp hp
    simp [rootSchema?_put hp hu, hu]
  · rw [rootSchema?_put_of_ne hp hne]

theorem schemaAt?_put {p : Place} (hp : d.schemaAt? p = some t) (new : Schema) :
    (d.put p new).schemaAt? p = some new := by
  obtain ⟨u, hu, ht⟩ := Option.bind_eq_some_iff.mp hp
  simp [schemaAt?, rootSchema?_put hp hu, Schema.at?_put ht]

end Document

end ApiContract
