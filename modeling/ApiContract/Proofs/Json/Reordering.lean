import ApiContract.Proofs.Json.Tokens

namespace ApiContract

namespace Number

variable {m n : Int} {x y : Double}

theorem not_minus_of_mem_toDigits {k : Nat} {c : Char} (h : c ∈ Nat.toDigits 10 k) : c ≠ '-' := by
  rintro rfl
  exact absurd (Nat.isDigit_of_mem_toDigits (by decide) (by decide) h) (by decide)

theorem toDigits_injective {j k : Nat} (h : Nat.toDigits 10 j = Nat.toDigits 10 k) : j = k := by
  rw [← Nat.ofDigitChars_ten_toDigits (n := j), h, Nat.ofDigitChars_ten_toDigits]

/-- Integers are told apart by their texts. -/
theorem integer_text_injective (h : (integer m).text = (integer n).text) : m = n := by
  cases m with
  | ofNat j =>
    cases n with
    | ofNat k =>
      rw [Int.ofNat_eq_natCast, Int.ofNat_eq_natCast, text_ofNat, text_ofNat] at h
      rw [toDigits_injective h]
    | negSucc k =>
      rw [Int.ofNat_eq_natCast, text_ofNat, text_negSucc] at h
      exact absurd rfl (not_minus_of_mem_toDigits (h ▸ List.mem_cons_self))
  | negSucc j =>
    cases n with
    | ofNat k =>
      rw [Int.ofNat_eq_natCast, text_ofNat, text_negSucc] at h
      exact absurd rfl (not_minus_of_mem_toDigits (h ▸ List.mem_cons_self))
    | negSucc k =>
      rw [text_negSucc, text_negSucc, List.cons.injEq] at h
      rw [Nat.succ.inj (toDigits_injective h.2)]

/-- A double is written with a point or with an exponent. -/
theorem exists_mem_double_text (x : Double) : '.' ∈ x.text ∨ 'e' ∈ x.text := by
  have hpositional : ∀ digits exponent, '.' ∈ Double.positional digits exponent := by
    intro digits exponent
    unfold Double.positional
    split
    · simp
    · dsimp only
      split <;> simp
  have hscientific : ∀ digits exponent, 'e' ∈ Double.scientific digits exponent := by
    intro digits exponent
    simp [Double.scientific]
  simp only [Double.text]
  generalize Nat.toDigits 10 (Decimal.shortest x).digits = digits
  by_cases hzero : x.isZero
  · rw [if_pos hzero]
    cases x.negative <;> simp
  · rw [if_neg hzero]
    by_cases hsmall : -5 < (Decimal.shortest x).exponent + digits.length ∧
        (Decimal.shortest x).exponent + digits.length ≤ 16
    · rw [if_pos hsmall]
      cases x.negative <;> simp [hpositional]
    · rw [if_neg hsmall]
      cases x.negative <;> simp [hscientific]

theorem integer_text_ne_double_text (n : Int) (x : Double) :
    (integer n).text ≠ (double x).text := by
  have hplain : ∀ c ∈ (integer n).text, c.isDigit ∨ c = '-' := by
    intro c hc
    cases n with
    | ofNat k =>
      rw [Int.ofNat_eq_natCast, text_ofNat] at hc
      exact Or.inl (Nat.isDigit_of_mem_toDigits (by decide) (by decide) hc)
    | negSucc k =>
      rw [text_negSucc] at hc
      rcases List.mem_cons.mp hc with rfl | hc
      · exact Or.inr rfl
      · exact Or.inl (Nat.isDigit_of_mem_toDigits (by decide) (by decide) hc)
  intro h
  rw [h] at hplain
  rcases exists_mem_double_text x with hc | hc <;> exact absurd (hplain _ hc) (by decide)

end Number

namespace Json

variable {u v w : Json} {vs ws : List Json} {ms ns : Members Json}

/-- Equality up to the order of the members of objects, at any depth. -/
inductive Reordered : Json → Json → Prop
  | refl (v : Json) : Reordered v v
  | symm {v w : Json} : Reordered v w → Reordered w v
  | trans {u v w : Json} : Reordered u v → Reordered v w → Reordered u w
  | members {ms ns : Members Json} : ms.Perm ns → Reordered (.object ms) (.object ns)
  | value (before : Members Json) {name : String} {v w : Json} (after : Members Json) :
      Reordered v w →
      Reordered (.object (before ++ (name, v) :: after)) (.object (before ++ (name, w) :: after))
  | item (before : List Json) {v w : Json} (after : List Json) :
      Reordered v w → Reordered (.array (before ++ v :: after)) (.array (before ++ w :: after))

theorem reordered_items {f : Json → Json} (before : List Json)
    (h : ∀ v ∈ vs, Reordered v (f v)) :
    Reordered (.array (before ++ vs)) (.array (before ++ vs.map f)) := by
  induction vs generalizing before with
  | nil => exact .refl _
  | cons v vs ih =>
    rw [List.forall_mem_cons] at h
    have hrest := ih (before ++ [f v]) h.2
    rw [List.append_assoc, List.append_assoc] at hrest
    exact (Reordered.item before vs h.1).trans hrest

theorem reordered_values {f : Json → Json} (before : Members Json)
    (h : ∀ p ∈ ms, Reordered p.2 (f p.2)) :
    Reordered (.object (before ++ ms)) (.object (before ++ ms.map fun p => (p.1, f p.2))) := by
  induction ms generalizing before with
  | nil => exact .refl _
  | cons p ms ih =>
    rw [List.forall_mem_cons] at h
    have hrest := ih (before ++ [(p.1, f p.2)]) h.2
    rw [List.append_assoc, List.append_assoc] at hrest
    exact (Reordered.value before ms h.1).trans hrest

mutual

/-- The canonical form loses no member and moves nothing but members. -/
theorem reordered_canonical : ∀ v : Json, Reordered v v.canonical
  | .null | .bool _ | .number _ | .string _ => .refl _
  | .array vs => by
    rw [canonical, canonicalList_eq_map]
    exact reordered_items [] (reordered_canonicalList vs)
  | .object ms => by
    rw [canonical, canonicalMembers_eq_map]
    exact (reordered_values [] (reordered_canonicalMembers ms)).trans
      (.members (Members.sorted_perm _).symm)

theorem reordered_canonicalList : ∀ vs : List Json, ∀ v ∈ vs, Reordered v v.canonical
  | [] => nofun
  | v :: vs => List.forall_mem_cons.mpr ⟨reordered_canonical v, reordered_canonicalList vs⟩

theorem reordered_canonicalMembers :
    ∀ ms : List (String × Json), ∀ p ∈ ms, Reordered p.2 p.2.canonical
  | [] => nofun
  | (_, v) :: ms => List.forall_mem_cons.mpr ⟨reordered_canonical v, reordered_canonicalMembers ms⟩

end

/-- No object within the value gives a name twice. -/
inductive Unrepeated : Json → Prop
  | null : Unrepeated .null
  | bool (b : Bool) : Unrepeated (.bool b)
  | number (n : Number) : Unrepeated (.number n)
  | string (s : String) : Unrepeated (.string s)
  | array {vs : List Json} : (∀ v ∈ vs, Unrepeated v) → Unrepeated (.array vs)
  | object {ms : Members Json} : ms.names.Nodup → (∀ p ∈ ms, Unrepeated p.2) →
      Unrepeated (.object ms)

theorem unrepeated_array : Unrepeated (.array vs) ↔ ∀ v ∈ vs, Unrepeated v := by
  constructor
  · rintro (_ | _ | _ | _ | h)
    exact h
  · exact .array

theorem unrepeated_object :
    Unrepeated (.object ms) ↔ ms.names.Nodup ∧ ∀ p ∈ ms, Unrepeated p.2 := by
  constructor
  · rintro (_ | _ | _ | _ | _ | ⟨hnames, hvalues⟩)
    exact ⟨hnames, hvalues⟩
  · exact fun h => .object h.1 h.2

theorem Reordered.unrepeated_iff (h : Reordered v w) : v.Unrepeated ↔ w.Unrepeated := by
  induction h with
  | refl => rfl
  | symm _ ih => exact ih.symm
  | trans _ _ ih ih' => exact ih.trans ih'
  | members h =>
    simp only [unrepeated_object, Members.names, (h.map Prod.fst).nodup_iff, h.mem_iff]
  | value before after _ ih =>
    simp only [unrepeated_object, Members.names, List.map_append, List.map_cons,
      List.forall_mem_append, List.forall_mem_cons, ih]
  | item before after _ ih =>
    simp only [unrepeated_array, List.forall_mem_append, List.forall_mem_cons, ih]

theorem canonical_eq_of_reordered (h : Reordered v w) (hv : v.Unrepeated) :
    v.canonical = w.canonical := by
  induction h with
  | refl => rfl
  | symm h ih => exact (ih (h.unrepeated_iff.mpr hv)).symm
  | trans h _ ih ih' => exact (ih hv).trans (ih' (h.unrepeated_iff.mp hv))
  | @members ms ns h =>
    have hnodup : (Members.names (canonicalMembers ns)).Nodup := by
      rw [canonicalMembers_eq_map, Members.names, List.map_map]
      exact (h.map Prod.fst).nodup_iff.mp (unrepeated_object.mp hv).1
    have hperm : (canonicalMembers ms).Perm (canonicalMembers ns) := by
      rw [canonicalMembers_eq_map, canonicalMembers_eq_map]
      exact h.map _
    rw [canonical, canonical, Members.sorted_eq_of_perm hperm hnodup]
  | value before after h ih =>
    have hv := ih ((unrepeated_object.mp hv).2 _ (List.mem_append_right _ List.mem_cons_self))
    simp only [canonical, canonicalMembers_eq_map, List.map_append, List.map_cons, hv]
  | item before after h ih =>
    have hv := ih (unrepeated_array.mp hv _ (by simp))
    simp only [canonical, canonicalList_eq_map, List.map_append, List.map_cons, hv]

mutual

/-- The canonical form of a value is its own canonical form. -/
theorem canonical_canonical : ∀ v : Json, v.canonical.canonical = v.canonical
  | .null | .bool _ | .number _ | .string _ => rfl
  | .array vs => by rw [canonical, canonical, canonicalList_canonicalList vs]
  | .object ms => by
    rw [canonical, canonical, canonicalMembers_eq_map (Members.sorted _), Members.sorted_map,
      ← canonicalMembers_eq_map, canonicalMembers_canonicalMembers ms, Members.sorted_sorted]

theorem canonicalList_canonicalList :
    ∀ vs : List Json, canonicalList (canonicalList vs) = canonicalList vs
  | [] => rfl
  | v :: vs => by
    rw [canonicalList, canonicalList, canonical_canonical v, canonicalList_canonicalList vs]

theorem canonicalMembers_canonicalMembers :
    ∀ ms : List (String × Json), canonicalMembers (canonicalMembers ms) = canonicalMembers ms
  | [] => rfl
  | (k, v) :: ms => by
    rw [canonicalMembers, canonicalMembers, canonical_canonical v,
      canonicalMembers_canonicalMembers ms]

end

/-- No two doubles, one of each value, are written alike. -/
def DoublesTold (v w : Json) : Prop :=
  ∀ x y, .double x ∈ v.numbers → .double y ∈ w.numbers → x.text = y.text → x = y

theorem eq_of_number_text {m n : Number}
    (hd : ∀ x y, m = .double x → n = .double y → x.text = y.text → x = y)
    (h : m.text = n.text) : m = n := by
  match m, n with
  | .integer m, .integer n => rw [Number.integer_text_injective h]
  | .integer m, .double y => exact absurd h (Number.integer_text_ne_double_text m y)
  | .double x, .integer n => exact absurd h.symm (Number.integer_text_ne_double_text n x)
  | .double x, .double y => rw [hd x y rfl rfl h]

theorem Reordered.mem_numbers_iff (h : Reordered v w) (n : Number) :
    n ∈ v.numbers ↔ n ∈ w.numbers := by
  induction h with
  | refl => rfl
  | symm _ ih => exact ih.symm
  | trans _ _ ih ih' => exact ih.trans ih'
  | members h => simp only [numbers, mem_numbersOfMembers, h.mem_iff]
  | value before after _ ih =>
    simp only [numbers, mem_numbersOfMembers, List.mem_append, List.mem_cons, or_and_right,
      exists_or, exists_eq_left, ih]
  | item before after _ ih =>
    simp only [numbers, mem_numbersOfList, List.mem_append, List.mem_cons, or_and_right,
      exists_or, exists_eq_left, ih]

mutual

/-- Only numbers that are written alike tell like values apart. -/
theorem eq_of_alike : ∀ v w : Json, DoublesTold v w → Alike v w → v = w
  | .null, .null, _, _ => rfl
  | .bool _, .bool _, _, h | .string _, .string _, _, h => by rw [Alike] at h; rw [h]
  | .number m, .number n, hd, h => by
    have htold : ∀ x y, m = .double x → n = .double y → x.text = y.text → x = y :=
      fun x y hx hy => hd x y (by simp [numbers, hx]) (by simp [numbers, hy])
    rw [eq_of_number_text htold h]
  | .array vs, .array ws, hd, h => by rw [eq_of_alikeList vs ws hd h]
  | .object ms, .object ns, hd, h => by rw [eq_of_alikeMembers ms ns hd h]

theorem eq_of_alikeList : ∀ vs ws : List Json,
    DoublesTold (.array vs) (.array ws) → AlikeList vs ws → vs = ws
  | [], [], _, _ => rfl
  | v :: vs, w :: ws, hd, h => by
    rw [eq_of_alike v w (fun x y hx hy => hd x y (by simp [numbers, numbersOfList, hx])
        (by simp [numbers, numbersOfList, hy])) h.1,
      eq_of_alikeList vs ws (fun x y hx hy => hd x y
        (by rw [numbers] at hx; simp [numbers, numbersOfList, hx])
        (by rw [numbers] at hy; simp [numbers, numbersOfList, hy])) h.2]

theorem eq_of_alikeMembers : ∀ ms ns : List (String × Json),
    DoublesTold (.object ms) (.object ns) → AlikeMembers ms ns → ms = ns
  | [], [], _, _ => rfl
  | (k, v) :: ms, (l, w) :: ns, hd, h => by
    rw [h.1, eq_of_alike v w (fun x y hx hy => hd x y (by simp [numbers, numbersOfMembers, hx])
        (by simp [numbers, numbersOfMembers, hy])) h.2.1,
      eq_of_alikeMembers ms ns (fun x y hx hy => hd x y
        (by rw [numbers] at hx; simp [numbers, numbersOfMembers, hx])
        (by rw [numbers] at hy; simp [numbers, numbersOfMembers, hy])) h.2.2]

end

/-- Values have one canonical text exactly if they differ in no more than the order of members. -/
theorem sortedText_eq_iff_reordered (hv : v.Unrepeated) (hd : DoublesTold v w) :
    v.sortedText = w.sortedText ↔ Reordered v w := by
  constructor
  · intro h
    have hd : DoublesTold v.canonical w.canonical := fun x y hx hy =>
      hd x y (((reordered_canonical v).mem_numbers_iff _).mpr hx)
        (((reordered_canonical w).mem_numbers_iff _).mpr hy)
    have he := eq_of_alike _ _ hd (sortedText_eq_iff.mp h)
    exact (reordered_canonical v).trans (he ▸ (reordered_canonical w).symm)
  · intro h
    rw [sortedText, sortedText, canonical_eq_of_reordered h hv]

end Json

end ApiContract
