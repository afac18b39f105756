import ApiContract.Proofs.Source.Faithful

namespace ApiContract.Source

/-- A field of a record: where it is held, how it is read and how it is written, if it is. -/
structure FieldOf (α : Type) extends Field where
  Content : Type
  get : α → Content
  put : α → Content → α
  get_put : ∀ a x, get (put a x) = x
  read : Source → Except DecodeFault Content
  write : Content → Option Json
  /-- The content after it was written and read again. -/
  again : Content → Content
  /-- The content where the field is missing. -/
  initial : Content
  read_initial : ∀ w, write initial = some w → read (ofJson w) = .ok (again initial)
  again_initial : write initial = none → again initial = initial

namespace FieldOf

variable {α β : Type} {n : Nat} {access : Access}

def member (f : FieldOf α) (a : α) : Option Json := f.write (f.get a)

/-- Content that is read again where it was written, and otherwise is as if it were missing. -/
def Restores (f : FieldOf α) (x : f.Content) : Prop :=
  (∀ w, f.write x = some w → f.read (ofJson w) = .ok (f.again x)) ∧
    (f.write x = none → f.again x = f.initial)

theorem restores_initial (f : FieldOf α) : f.Restores f.initial :=
  ⟨f.read_initial, f.again_initial⟩

/-- What is read from a plain value is written as what was there, or left out for a blank value. -/
structure Faithful (n : Nat) (f : FieldOf α) : Prop where
  carried : ∀ v x, Plain n v → f.read v = .ok x → ∃ j, v.kept = .ok j ∧
    (∀ w, f.write x = some w → Carried f.shape j w) ∧ (f.write x = none → j ∈ f.blank)
  restores : ∀ v x, Plain n v → f.read v = .ok x → f.Restores x

section Skipping

variable {field : Field} {get : α → β} {put : α → β → α} {get_put : ∀ a x, get (put a x) = x}
  {read : Source → Except DecodeFault β} {write : β → Json} {skip : β → Bool} {again : β → β}
  {initial : β} {read_initial : read (ofJson (write initial)) = .ok (again initial)}
  {again_initial : again initial = initial}

/-- A field that is left out for the contents that `skip` picks. -/
@[simp] def skipping (field : Field) (get : α → β) (put : α → β → α)
    (get_put : ∀ a x, get (put a x) = x) (read : Source → Except DecodeFault β) (write : β → Json)
    (skip : β → Bool) (again : β → β) (initial : β)
    (read_initial : read (ofJson (write initial)) = .ok (again initial))
    (again_initial : again initial = initial) : FieldOf α where
  toField := field
  Content := β
  get := get
  put := put
  get_put := get_put
  read := read
  write x := if skip x then none else some (write x)
  again := again
  initial := initial
  read_initial w hw := by
    split at hw <;> cases hw
    exact read_initial
  again_initial _ := again_initial

theorem faithful_skipping (h : Source.Faithful n field.shape read write again)
    (hblank : ∀ x j, skip x → Carried field.shape j (write x) → j ∈ field.blank)
    (hskip : ∀ x, skip x → x = initial) :
    (skipping field get put get_put read write skip again initial read_initial
      again_initial).Faithful n where
  carried v x hv hx := by
    obtain ⟨j, hj, hcarried⟩ := h.carried v x hv hx
    refine ⟨j, hj, fun w hw => ?_, fun hnone => ?_⟩
    · simp only [skipping] at hw
      split at hw <;> cases hw
      exact hcarried
    · simp only [skipping] at hnone
      split at hnone
      · rename_i hs
        exact hblank x j hs hcarried
      · cases hnone
  restores v x hv hx := by
    constructor
    · intro w hw
      simp only [skipping] at hw ⊢
      split at hw <;> cases hw
      exact h.again v x hv hx
    · intro hnone
      simp only [skipping] at hnone ⊢
      split at hnone
      · rename_i hs
        rw [hskip x hs]
        exact again_initial
      · cases hnone

end Skipping

section Kinds

variable {name : String} {shape : Shape} {field : Field} {read : Source → Except DecodeFault β}
  {write : β → Json} {again : β → β}

/-- A field that is always written. -/
@[simp] def always (field : Field) (get : α → β) (put : α → β → α)
    (get_put : ∀ a x, get (put a x) = x) (read : Source → Except DecodeFault β) (write : β → Json)
    (initial : β) (read_initial : read (ofJson (write initial)) = .ok initial) : FieldOf α :=
  skipping field get put get_put read write (fun _ => false) id initial read_initial rfl

theorem faithful_always {get : α → β} {put : α → β → α} {get_put : ∀ a x, get (put a x) = x}
    {initial : β} {read_initial : read (ofJson (write initial)) = .ok initial}
    (h : Source.Faithful n field.shape read write id) :
    (always field get put get_put read write initial read_initial).Faithful n :=
  faithful_skipping h nofun nofun

/-- A field with a list, which is left out where it is empty. -/
@[simp] def listed (name : String) (shape : Shape) (get : α → List β) (put : α → List β → α)
    (get_put : ∀ a x, get (put a x) = x) (access : Access) (read : Source → Except DecodeFault β)
    (write : β → Json) (again : β → β) : FieldOf α :=
  skipping (.listed name shape) get put get_put (Source.items access read)
    (fun as => .array (as.map write)) List.isEmpty (List.map again) [] rfl rfl

theorem faithful_listed {get : α → List β} {put : α → List β → α}
    {get_put : ∀ a x, get (put a x) = x} (h : Source.Faithful n shape read write again) :
    (listed name shape get put get_put access read write again).Faithful n := by
  refine faithful_skipping h.items (fun as j has hcarried => ?_) (fun as has => ?_)
  · obtain rfl := List.isEmpty_iff.mp has
    cases hcarried with
    | list length => simp_all [Field.listed]
  · exact List.isEmpty_iff.mp has

/-- A field with a map, which is left out where it is empty. -/
@[simp] def mapped (name : String) (shape : Shape) (get : α → Members β) (put : α → Members β → α)
    (get_put : ∀ a x, get (put a x) = x) (access : Access) (read : Source → Except DecodeFault β)
    (write : β → Json) (again : β → β) : FieldOf α :=
  skipping (.mapped name shape) get put get_put (Source.map access read)
    (fun m => .object (m.map fun p => (p.1, write p.2))) List.isEmpty
    (List.map fun p => (p.1, again p.2)) [] rfl rfl

theorem faithful_mapped {get : α → Members β} {put : α → Members β → α}
    {get_put : ∀ a x, get (put a x) = x} (h : Source.Faithful n shape read write again) :
    (mapped name shape get put get_put access read write again).Faithful n := by
  refine faithful_skipping h.map (fun m j hm hcarried => ?_) (fun m hm => ?_)
  · obtain rfl := List.isEmpty_iff.mp hm
    cases hcarried with
    | map nodup names => simp_all [Members.names, Field.mapped]
    | record known => cases known
  · exact List.isEmpty_iff.mp hm

/-- A field that is left out where it holds nothing, and for which null stands for nothing. -/
@[simp] def optional (name : String) (shape : Shape) (get : α → Option β) (put : α → Option β → α)
    (get_put : ∀ a x, get (put a x) = x) (access : Access) (read : Source → Except DecodeFault β)
    (write : β → Json) (again : β → β) : FieldOf α where
  toField := .optional name shape
  Content := Option β
  get := get
  put := put
  get_put := get_put
  read := Source.optional access read
  write := Option.map write
  again := Option.map again
  initial := none
  read_initial := nofun
  again_initial _ := rfl

theorem optional_ofJson {w : Json} {a : β} (hw : w ≠ .null) (h : read (ofJson w) = .ok a) :
    Source.optional access read (ofJson w) = .ok (some a) := by
  cases w with
  | null => exact absurd rfl hw
  | _ =>
    change (read _ >>= fun a => pure (some a)) = _
    rw [h]
    rfl

theorem faithful_optional {get : α → Option β} {put : α → Option β → α}
    {get_put : ∀ a x, get (put a x) = x} (h : Source.Faithful n shape read write again)
    (hnull : ∀ a, write a ≠ .null) :
    (optional name shape get put get_put access read write again).Faithful n where
  carried v x hv hx := by
    obtain ⟨null?, hnull?, hx⟩ := ok_of_bind hx
    cases null? with
    | true =>
      cases hx
      obtain rfl := hv.isNull hnull?
      exact ⟨.null, rfl, nofun, fun _ => List.mem_cons_self⟩
    | false =>
      obtain ⟨a, ha, hx⟩ := ok_of_bind hx
      cases hx
      obtain ⟨j, hj, hcarried⟩ := h.carried v a hv ha
      refine ⟨j, hj, fun w hw => ?_, nofun⟩
      cases hw
      exact hcarried
  restores v x hv hx := by
    cases x with
    | none => exact restores_initial _
    | some a =>
      refine ⟨fun w hw => ?_, nofun⟩
      cases hw
      exact optional_ofJson (hnull a) (h.again v a hv (ok_of_optional hx))

end Kinds

end FieldOf

end ApiContract.Source
