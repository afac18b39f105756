import ApiContract.Proofs.PathTemplate

namespace ApiContract

namespace Text

variable {pattern cs before after : List Char}

theorem dropStart?_isSome (pattern cs : List Char) :
    (dropStart? pattern cs).isSome ↔ pattern <+: cs := by
  constructor
  · intro h
    obtain ⟨rest, hrest⟩ := Option.isSome_iff_exists.mp h
    exact ⟨rest, (eq_append_of_dropStart? hrest).symm⟩
  · rintro ⟨rest, rfl⟩
    rw [dropStart?_append]
    rfl

theorem splitFirst?_isSome (pattern cs : List Char) :
    (splitFirst? pattern cs).isSome ↔ pattern <:+: cs := by
  induction cs with
  | nil => rw [splitFirst?, Option.isSome_map, dropStart?_isSome, List.prefix_nil, List.infix_nil]
  | cons c cs ih =>
    rw [splitFirst?_cons, Option.isSome_or, Option.isSome_map, Option.isSome_map, Bool.or_eq_true,
      dropStart?_isSome, ih, List.infix_cons_iff]

/-- A pattern stands in a text at a place and at no place before it. -/
def FirstAt (pattern cs : List Char) (i : Nat) : Prop :=
  pattern <+: cs.drop i ∧ ∀ j < i, ¬ pattern <+: cs.drop j

theorem FirstAt.unique {i j : Nat} (hi : FirstAt pattern cs i) (hj : FirstAt pattern cs j) :
    i = j :=
  Nat.le_antisymm (Nat.not_lt.mp fun h => hi.2 j h hj.1) (Nat.not_lt.mp fun h => hj.2 i h hi.1)

theorem firstAt_of_splitFirst? (h : splitFirst? pattern cs = some (before, after)) :
    FirstAt pattern cs before.length := by
  induction cs generalizing before with
  | nil =>
    obtain ⟨rest, hrest, hfound⟩ := Option.map_eq_some_iff.mp h
    obtain ⟨rfl, rfl⟩ := Prod.mk.inj hfound
    exact ⟨⟨rest, (eq_append_of_dropStart? hrest).symm⟩, nofun⟩
  | cons c cs ih =>
    rw [splitFirst?_cons] at h
    cases hstart : dropStart? pattern (c :: cs) with
    | some rest =>
      rw [hstart] at h
      obtain ⟨rfl, rfl⟩ := Prod.mk.inj (Option.some.inj h)
      exact ⟨⟨rest, (eq_append_of_dropStart? hstart).symm⟩, nofun⟩
    | none =>
      rw [hstart] at h
      obtain ⟨⟨front, rest⟩, hlater, hfound⟩ := Option.map_eq_some_iff.mp h
      obtain ⟨rfl, rfl⟩ := Prod.mk.inj hfound
      obtain ⟨hhere, hbefore⟩ := ih hlater
      refine ⟨hhere, fun j hj hpattern => ?_⟩
      cases j with
      | zero =>
        have hsome := (dropStart?_isSome pattern (c :: cs)).mpr hpattern
        rw [hstart] at hsome
        cases hsome
      | succ j => exact hbefore j (Nat.lt_of_succ_lt_succ hj) hpattern

theorem FirstAt.exists_splitFirst? {i : Nat} (h : FirstAt pattern cs i) :
    ∃ found ∈ splitFirst? pattern cs, found.1.length = i := by
  have hinfix : pattern <:+: cs := h.1.isInfix.trans (List.drop_suffix i cs).isInfix
  obtain ⟨found, hfound⟩ := Option.isSome_iff_exists.mp ((splitFirst?_isSome pattern cs).mpr hinfix)
  exact ⟨found, hfound, (firstAt_of_splitFirst? hfound).unique h⟩

end Text

namespace PathTemplate

open Piece (parameters sources Apart)
open Text

variable {name text text' template : String} {names names' : List String}
  {pieces pieces' placed rest rest' : List Piece}

/-- No literal is empty. -/
def Solid (pieces : List Piece) : Prop := ∀ text, .literal text ∈ pieces → text ≠ ""

theorem solid_append {first second : List Piece} :
    Solid (first ++ second) ↔ Solid first ∧ Solid second := by
  simp only [Solid, List.mem_append, or_imp, forall_and]

theorem solid_cons {piece : Piece} :
    Solid (piece :: rest) ↔ (∀ text, piece = .literal text → text ≠ "") ∧ Solid rest := by
  simp only [Solid, List.mem_cons, or_imp, forall_and, eq_comm]

theorem solid_parameter : Solid (.parameter name :: rest) ↔ Solid rest := by
  simp [solid_cons]

theorem solid_literal : Solid (.literal text :: rest) ↔ text ≠ "" ∧ Solid rest := by
  simp [solid_cons]

theorem solid_ofText (cs : List Char) : Solid (Piece.ofText cs) := by
  unfold Piece.ofText
  split
  · exact fun _ h => absurd h List.not_mem_nil
  · rename_i hne
    exact solid_literal.mpr ⟨by simpa using hne, fun _ h => absurd h List.not_mem_nil⟩

theorem solid_place? (h : place? name pieces = some placed) (hp : Solid pieces) :
    Solid placed := by
  induction pieces generalizing placed with
  | nil => cases h
  | cons piece rest ih =>
    cases piece with
    | parameter v =>
      obtain ⟨more, hmore, rfl⟩ := Option.map_eq_some_iff.mp h
      exact solid_parameter.mpr (ih hmore (solid_parameter.mp hp))
    | literal text =>
      obtain ⟨htext, hrest⟩ := solid_literal.mp hp
      unfold place? at h
      split at h
      · rename_i before after _
        obtain rfl := Option.some.inj h
        rw [List.append_assoc, List.cons_append, solid_append, solid_parameter, solid_append]
        exact ⟨solid_ofText before, solid_ofText after, hrest⟩
      · obtain ⟨more, hmore, rfl⟩ := Option.map_eq_some_iff.mp h
        exact solid_literal.mpr ⟨htext, ih hmore hrest⟩

theorem solid_interpolate (template : String) (names : List String) :
    Solid (interpolate template names).pieces := by
  induction names using List.reverseRecOn with
  | nil => exact solid_ofText _
  | append_singleton names name ih =>
    rw [interpolate_concat]
    unfold PathTemplate.step
    split
    · rename_i pieces hplace
      exact solid_place? hplace ih
    · exact ih

theorem eq_relative (template : String) :
    template = "/" ++ String.ofList (relative template) ∨
      template.toList.head? ≠ some '/' ∧ template = String.ofList (relative template) := by
  unfold relative
  split
  · rename_i rest hslash
    left
    apply String.toList_inj.mp
    rw [hslash, String.toList_append, String.toList_ofList, String.toList_ofList]
    rfl
  · rename_i hslash
    right
    refine ⟨fun hhead => ?_, String.ofList_toList.symm⟩
    obtain ⟨rest, hrest⟩ := List.head?_eq_some_iff.mp hhead
    exact hslash rest hrest

theorem join_sources (pieces : List Piece) :
    String.join (pieces.map Piece.source) = String.ofList (sources pieces) := by
  apply String.toList_inj.mp
  rw [String.toList_ofList]
  induction pieces with
  | nil => rfl
  | cons piece rest ih =>
    rw [List.map_cons, String.join_cons, String.toList_append, ih]
    rfl

/-- The pieces, with each parameter in braces, make up the template without one leading slash. No
literal is empty and no two of them stand side by side. The parameters that are placed and those
that are not are the given ones, each as often as it was given. -/
theorem interpolate_lossless (template : String) (names : List String) :
    let t := interpolate template names
    (template = "/" ++ String.join (t.pieces.map Piece.source) ∨
      template.toList.head? ≠ some '/' ∧ template = String.join (t.pieces.map Piece.source)) ∧
    Solid t.pieces ∧ Apart t.pieces ∧ (t.placed ++ t.unplaced).Perm names := by
  intro t
  have hholds := holds_interpolate template names
  refine ⟨?_, solid_interpolate template names, hholds.apart, hholds.perm⟩
  rw [join_sources, hholds.sources]
  exact eq_relative template

theorem ne_nil_of_literal (h : Solid (.literal text :: rest)) : text.toList ≠ [] := by
  simpa using (solid_literal.mp h).1

theorem eq_nil_of_sources (hp : Solid pieces) (h : sources pieces = []) : pieces = [] := by
  cases pieces with
  | nil => rfl
  | cons piece rest =>
    cases piece with
    | literal text => exact absurd (List.append_eq_nil_iff.mp h).1 (ne_nil_of_literal hp)
    | parameter v => simp [placeholder_eq] at h

theorem spot?_parameter (v : String) (rest : List Piece) :
    spot? v (.parameter v :: rest) = some ([], sources rest) := by
  rw [spot?, if_pos rfl]

/-- Behind a text no parameter stands in front. -/
theorem spot?_literal_ne (h : Solid (.literal text :: rest)) (v : String) (after : List Char) :
    spot? v (.literal text :: rest) ≠ some ([], after) := by
  rw [spot?]
  intro hspot
  obtain ⟨⟨before, later⟩, -, hfound⟩ := Option.map_eq_some_iff.mp hspot
  exact ne_nil_of_literal h (List.append_eq_nil_iff.mp (congrArg Prod.fst hfound)).1

/-- A literal ends where the next parameter stands or where the template ends. -/
theorem length_literal_le (hsources : sources (.literal text :: rest) =
    sources (.literal text' :: rest')) (hapart : Apart (.literal text :: rest))
    (hspots : ∀ v, spot? v (.literal text :: rest) = spot? v (.literal text' :: rest')) :
    text'.toList.length ≤ text.toList.length := by
  cases rest with
  | nil =>
    have hlength := congrArg List.length hsources
    simp only [sources_literal, sources_nil, List.length_append, List.length_nil] at hlength
    omega
  | cons piece rest =>
    cases piece with
    | literal other => simpa [Piece.parameter?] using hapart.1
    | parameter v =>
      have hspot := hspots v
      rw [spot?, spot?_parameter, spot?] at hspot
      obtain ⟨⟨before, after⟩, -, hfound⟩ := Option.map_eq_some_iff.mp hspot.symm
      have hlength := congrArg (List.length ∘ Prod.fst) hfound
      simp only [behind, Function.comp_apply, List.length_append, List.length_nil] at hlength
      omega

/-- The parameter that stands in front is told by where it stands. -/
theorem eq_of_spot? {v w : String}
    (h : spot? v (.parameter v :: rest) = spot? v (.parameter w :: rest')) : v = w := by
  rw [spot?_parameter, spot?] at h
  split at h
  · rename_i heq
    exact heq.symm
  · obtain ⟨⟨before, after⟩, -, hfound⟩ := Option.map_eq_some_iff.mp h.symm
    simp [behind, placeholder_eq] at hfound

/-- Behind a parameter that stands only in front, everything stands where it stands. -/
theorem spot?_behind_parameter {v : String} (hv : v ∉ parameters rest)
    (hv' : v ∉ parameters rest')
    (h : ∀ u, spot? u (.parameter v :: rest) = spot? u (.parameter v :: rest')) (u : String) :
    spot? u rest = spot? u rest' := by
  by_cases hu : v = u
  · subst hu
    have hnone := (not_congr (spot?_isSome v rest)).mpr hv
    have hnone' := (not_congr (spot?_isSome v rest')).mpr hv'
    rw [Option.not_isSome_iff_eq_none.mp hnone, Option.not_isSome_iff_eq_none.mp hnone']
  · have hspot := h u
    rw [spot?, spot?, if_neg hu, if_neg hu] at hspot
    exact Option.map_injective (behind_injective (placeholder v)) hspot

/-- Pieces are told by the template that they make up and by where the parameters stand in it. -/
theorem eq_of_spots (hsources : sources pieces = sources pieces')
    (hspots : ∀ v, spot? v pieces = spot? v pieces')
    (hsolid : Solid pieces) (hsolid' : Solid pieces') (hapart : Apart pieces)
    (hapart' : Apart pieces') (honce : (parameters pieces).Nodup)
    (honce' : (parameters pieces').Nodup) : pieces = pieces' := by
  induction pieces generalizing pieces' with
  | nil => exact (eq_nil_of_sources hsolid' hsources.symm).symm
  | cons piece rest ih =>
    cases pieces' with
    | nil => exact eq_nil_of_sources hsolid hsources
    | cons piece' rest' =>
      cases piece with
      | literal text =>
        cases piece' with
        | parameter w =>
          exact absurd ((hspots w).trans (spot?_parameter w rest')) (spot?_literal_ne hsolid w _)
        | literal text' =>
          have hlength : text.toList.length = text'.toList.length :=
            Nat.le_antisymm (length_literal_le hsources.symm hapart' fun v => (hspots v).symm)
              (length_literal_le hsources hapart hspots)
          rw [sources_literal, sources_literal] at hsources
          obtain ⟨htext, hrest⟩ := List.append_inj hsources hlength
          obtain rfl := String.toList_inj.mp htext
          have hlater : ∀ v, spot? v rest = spot? v rest' :=
            fun v => Option.map_injective (behind_injective text.toList) (hspots v)
          rw [ih hrest hlater (solid_literal.mp hsolid).2 (solid_literal.mp hsolid').2 hapart.2
            hapart'.2 honce honce']
      | parameter v =>
        cases piece' with
        | literal text' =>
          exact absurd ((hspots v).symm.trans (spot?_parameter v rest))
            (spot?_literal_ne hsolid' v _)
        | parameter w =>
          obtain rfl : v = w := eq_of_spot? (hspots v)
          obtain ⟨hv, hothers⟩ := List.nodup_cons.mp honce
          obtain ⟨hv', hothers'⟩ := List.nodup_cons.mp honce'
          have hlater : ∀ u, spot? u rest = spot? u rest' := spot?_behind_parameter hv hv' hspots
          rw [ih (List.append_cancel_left hsources) hlater (solid_parameter.mp hsolid)
            (solid_parameter.mp hsolid') hapart hapart' hothers hothers']

/-- The placeholder of a name is somewhere in a template. -/
def Occurs (name template : String) : Prop := placeholder name <:+: template.toList

/-- Wherever the placeholders of two names stand first, that of the first name stands in front. -/
def OccursBefore (template first second : String) : Prop :=
  ∀ i j, FirstAt (placeholder first) template.toList i →
    FirstAt (placeholder second) template.toList j → i < j

theorem occurs_iff (name template : String) :
    (splitFirst? (placeholder name) (relative template)).isSome ↔ Occurs name template := by
  obtain ⟨slash, hslash⟩ := splitFirst?_relative template
  rw [Occurs, ← splitFirst?_isSome, hslash, Option.isSome_map]

instance : DecidableRel Occurs := fun name template => decidable_of_iff _ (occurs_iff name template)

theorem occursBefore_of_precedes {v w : String}
    (h : Precedes (splitFirst? (placeholder v) (relative template))
      (splitFirst? (placeholder w) (relative template))) : OccursBefore template v w := by
  obtain ⟨slash, hslash⟩ := splitFirst?_relative template
  have hbehind := h.behind slash
  rw [← hslash, ← hslash] at hbehind
  intro i j hi hj
  obtain ⟨x, hx, rfl⟩ := hi.exists_splitFirst?
  obtain ⟨y, hy, rfl⟩ := hj.exists_splitFirst?
  exact hbehind x hx y hy

section Distinct

variable (hdistinct : names.Nodup) (hnames : ∀ n ∈ names, Braceless n)
include hdistinct hnames

theorem pieces_of_perm (template : String) (h : names'.Perm names) :
    (interpolate template names').pieces = (interpolate template names).pieces := by
  have hdistinct' : names'.Nodup := h.nodup_iff.mpr hdistinct
  have hnames' : ∀ n ∈ names', Braceless n := fun n hn => hnames n (h.subset hn)
  have hholds := holds_interpolate template names
  have hholds' := holds_interpolate template names'
  apply eq_of_spots
  case hsources => rw [hholds.sources, hholds'.sources]
  case hspots =>
    intro v
    by_cases hv : v ∈ names
    · rw [← (stands_interpolate template hdistinct hnames).spots v hv,
        ← (stands_interpolate template hdistinct' hnames').spots v (h.symm.subset hv)]
    · have habsent : ∀ {others : List String}, v ∉ others →
          spot? v (interpolate template others).pieces = none := by
        intro others hother
        rw [← Option.not_isSome_iff_eq_none, spot?_isSome]
        exact fun hm => hother (mem_of_interpolate hm)
      rw [habsent hv, habsent fun hm => hv (h.subset hm)]
  case hsolid => exact solid_interpolate template names'
  case hsolid' => exact solid_interpolate template names
  case hapart => exact hholds'.apart
  case hapart' => exact hholds.apart
  case honce => exact nodup_placed hdistinct'
  case honce' => exact nodup_placed hdistinct

theorem placed_ascend (template : String) :
    (interpolate template names).placed.Pairwise (OccursBefore template) := by
  have hstands := stands_interpolate template hdistinct hnames
  have hascend : (interpolate template names).placed.Pairwise fun v w =>
      Precedes (spot? v (interpolate template names).pieces)
        (spot? w (interpolate template names).pieces) := spots_ascend (nodup_placed hdistinct)
  apply hascend.imp_of_mem
  intro v w hv hw hvw
  rw [← hstands.spots v (mem_of_interpolate hv), ← hstands.spots w (mem_of_interpolate hw)] at hvw
  exact occursBefore_of_precedes hvw

end Distinct

/-- If the names are pairwise different and have no braces, the pieces are the same in whatever
order the names come. Placed are those of which the template has the placeholder, each once and in
the order in which the placeholders occur first; the others are left out in the order in which they
came. -/
theorem interpolate_by_template (template : String) {names : List String}
    (hdistinct : names.Nodup) (hnames : ∀ n ∈ names, Braceless n) :
    let t := interpolate template names
    (∀ names', names'.Perm names → (interpolate template names').pieces = t.pieces) ∧
    (∀ n, n ∈ t.placed ↔ n ∈ names ∧ Occurs n template) ∧ t.placed.Nodup ∧
    t.placed.Pairwise (OccursBefore template) ∧
    t.unplaced = names.filter fun n => ¬ Occurs n template := by
  intro t
  refine ⟨fun _ => pieces_of_perm hdistinct hnames template, fun n => ?_, nodup_placed hdistinct,
    placed_ascend hdistinct hnames template, ?_⟩
  · constructor
    · intro hn
      have hgiven : n ∈ names := mem_of_interpolate hn
      exact ⟨hgiven, (occurs_iff n template).mp ((mem_placed_iff hdistinct hnames hgiven).mp hn)⟩
    · rintro ⟨hn, hoccurs⟩
      exact (mem_placed_iff hdistinct hnames hn).mpr ((occurs_iff n template).mpr hoccurs)
  · rw [(stands_interpolate template hdistinct hnames).unplaced]
    apply List.filter_congr
    intro n _
    rw [Bool.eq_iff_iff, decide_eq_true_eq, ← occurs_iff, Bool.not_eq_true,
      Option.isSome_eq_false_iff]

/-- A name that stands twice is placed where it stands first, whichever name is given first. -/
theorem sheet_by_template :
    let template := "/maps/\x7bmap\x7d/\x7bsheet\x7d/\x7bmap\x7d"
    let t := interpolate template ["sheet", "legend", "map"]
    (interpolate template ["map", "sheet", "legend"]).pieces = t.pieces ∧
      (∀ n, n ∈ t.placed ↔ n ∈ ["sheet", "legend", "map"] ∧ Occurs n template) ∧
      t.placed.Pairwise (OccursBefore template) ∧ t.unplaced = ["legend"] := by
  intro template t
  have hdistinct : ["sheet", "legend", "map"].Nodup := by decide
  have hnames : ∀ n ∈ ["sheet", "legend", "map"], Braceless n := by decide
  obtain ⟨hpieces, hplaced, -, hascend, hunplaced⟩ :=
    interpolate_by_template template hdistinct hnames
  refine ⟨hpieces _ (by decide), hplaced, hascend, hunplaced.trans ?_⟩
  decide

end PathTemplate

end ApiContract
