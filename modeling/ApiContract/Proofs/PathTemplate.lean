import ApiContract.PathTemplate
import ApiContract.Proofs.Text.Occurrence
import Mathlib.Data.List.Induction

namespace ApiContract

namespace Piece

/-- The parameters among pieces. -/
def parameters (pieces : List Piece) : List String := pieces.filterMap Piece.parameter?

/-- The template that pieces stand for. -/
def sources (pieces : List Piece) : List Char := pieces.flatMap fun p => p.source.toList

/-- No two literals stand side by side. -/
def Apart : List Piece → Prop
  | [] => True
  | .parameter _ :: rest => Apart rest
  | .literal _ :: rest => (∀ p ∈ rest.head?, p.parameter?.isSome) ∧ Apart rest

end Piece

/-- What stands for a parameter in a template. -/
def placeholder (name : String) : List Char := (Piece.parameter name).source.toList

/-- A name has no braces. -/
def Braceless (name : String) : Prop := '{' ∉ name.toList ∧ '}' ∉ name.toList

instance : DecidablePred Braceless := fun _ => instDecidableAnd

namespace PathTemplate

open Piece (parameters sources Apart)
open Text

variable {name other : String} {pieces placed rest : List Piece} {template : List Char}
  {names : List String} {t : PathTemplate}

@[simp] theorem parameters_literal (text : String) (rest : List Piece) :
    parameters (.literal text :: rest) = parameters rest := rfl

@[simp] theorem parameters_parameter (name : String) (rest : List Piece) :
    parameters (.parameter name :: rest) = name :: parameters rest := rfl

@[simp] theorem parameters_append (first second : List Piece) :
    parameters (first ++ second) = parameters first ++ parameters second :=
  List.filterMap_append

@[simp] theorem parameters_ofText (cs : List Char) : parameters (Piece.ofText cs) = [] := by
  unfold Piece.ofText
  split <;> rfl

@[simp] theorem sources_nil : sources [] = [] := rfl

@[simp] theorem sources_literal (text : String) (rest : List Piece) :
    sources (.literal text :: rest) = text.toList ++ sources rest := rfl

@[simp] theorem sources_parameter (name : String) (rest : List Piece) :
    sources (.parameter name :: rest) = placeholder name ++ sources rest := rfl

@[simp] theorem sources_append (first second : List Piece) :
    sources (first ++ second) = sources first ++ sources second :=
  List.flatMap_append

@[simp] theorem sources_ofText (cs : List Char) : sources (Piece.ofText cs) = cs := by
  unfold Piece.ofText
  split <;> simp_all

theorem apart_ofText (cs : List Char) : Apart (Piece.ofText cs) := by
  unfold Piece.ofText
  split <;> simp [Apart]

theorem placeholder_eq (name : String) : placeholder name = '{' :: (name.toList ++ ['}']) := by
  simp [placeholder, Piece.source]

theorem opens_sources (h : ∀ p ∈ pieces.head?, p.parameter?.isSome) :
    Opens '{' (sources pieces) := by
  cases pieces with
  | nil => simp [Opens]
  | cons piece rest =>
    cases piece with
    | literal text => simp [Piece.parameter?] at h
    | parameter name => simp [Opens, placeholder_eq]

theorem dropStart?_placeholder_of_ne (hn : Braceless name) (ho : Braceless other)
    (hne : name ≠ other) (cs : List Char) :
    dropStart? (placeholder name) (placeholder other ++ cs) = none := by
  simp only [placeholder_eq, List.cons_append, List.append_assoc, List.nil_append, dropStart?,
    if_true]
  exact dropStart?_closed hn.2 ho.2 (fun h => hne (String.toList_inj.mp h)) cs

/-- A placeholder is nowhere within another. -/
theorem splitFirst?_placeholder_of_ne (hn : Braceless name) (ho : Braceless other)
    (hne : name ≠ other) (cs : List Char) :
    splitFirst? (placeholder name) (placeholder other ++ cs) =
      (splitFirst? (placeholder name) cs).map (behind (placeholder other)) := by
  have hbody : '{' ∉ other.toList ++ ['}'] := by simpa using ho.1
  have hstart := dropStart?_placeholder_of_ne hn ho hne cs
  rw [placeholder_eq other, List.cons_append] at hstart ⊢
  rw [splitFirst?_of_dropStart? hstart, placeholder_eq name,
    splitFirst?_append_of_not_mem hbody, Option.map_map, behind_comp]
  rfl

/-- What is found in a template is found in it without its slash. -/
theorem splitFirst?_relative (template : String) :
    ∃ slash, ∀ name, splitFirst? (placeholder name) template.toList =
      (splitFirst? (placeholder name) (relative template)).map (behind slash) := by
  unfold relative
  split
  · rename_i rest ht
    have hslash : '{' ∉ ['/'] := by decide
    refine ⟨['/'], fun name => ?_⟩
    rw [ht, placeholder_eq]
    exact splitFirst?_append_of_not_mem hslash _ rest
  · exact ⟨[], by simp⟩

/-- The template before and after the parameter of a name. -/
def spot? (name : String) : List Piece → Option (List Char × List Char)
  | [] => none
  | .literal text :: rest => (spot? name rest).map (behind text.toList)
  | .parameter v :: rest =>
    if v = name then some ([], sources rest)
    else (spot? name rest).map (behind (placeholder v))

theorem spot?_ofText (name : String) (cs : List Char) (rest : List Piece) :
    spot? name (Piece.ofText cs ++ rest) = (spot? name rest).map (behind cs) := by
  unfold Piece.ofText
  split
  · simp_all
  · simp [spot?]

theorem spot?_isSome (name : String) (pieces : List Piece) :
    (spot? name pieces).isSome ↔ name ∈ parameters pieces := by
  induction pieces with
  | nil => simp [spot?, parameters]
  | cons piece rest ih =>
    cases piece with
    | literal text => simp [spot?, ih]
    | parameter v =>
      rw [spot?, parameters_parameter, List.mem_cons]
      split
      · simp_all
      · rename_i hne
        simp [ih, Ne.symm hne]

theorem sources_place? (h : place? name pieces = some placed) :
    sources placed = sources pieces := by
  induction pieces generalizing placed with
  | nil => cases h
  | cons piece rest ih =>
    cases piece with
    | parameter v =>
      obtain ⟨more, hmore, rfl⟩ := Option.map_eq_some_iff.mp h
      simp [ih hmore]
    | literal text =>
      unfold place? at h
      split at h
      · rename_i before after hs
        obtain rfl := Option.some.inj h
        simp [eq_append_of_splitFirst? hs, placeholder]
      · obtain ⟨more, hmore, rfl⟩ := Option.map_eq_some_iff.mp h
        simp [ih hmore]

/-- Placing a parameter adds it and no other. -/
theorem parameters_place? (h : place? name pieces = some placed) :
    (parameters placed).Perm (name :: parameters pieces) := by
  induction pieces generalizing placed with
  | nil => cases h
  | cons piece rest ih =>
    cases piece with
    | parameter v =>
      obtain ⟨more, hmore, rfl⟩ := Option.map_eq_some_iff.mp h
      exact ((ih hmore).cons v).trans (.swap ..)
    | literal text =>
      unfold place? at h
      split at h
      · obtain rfl := Option.some.inj h
        simp
      · obtain ⟨more, hmore, rfl⟩ := Option.map_eq_some_iff.mp h
        simpa using ih hmore

theorem head_place? (h : place? name pieces = some placed)
    (hp : ∀ p ∈ pieces.head?, p.parameter?.isSome) : ∀ p ∈ placed.head?, p.parameter?.isSome := by
  cases pieces with
  | nil => cases h
  | cons piece rest =>
    cases piece with
    | literal text => simp [Piece.parameter?] at hp
    | parameter v =>
      obtain ⟨more, -, rfl⟩ := Option.map_eq_some_iff.mp h
      simp [Piece.parameter?]

theorem apart_place? (h : place? name pieces = some placed) (hp : Apart pieces) :
    Apart placed := by
  induction pieces generalizing placed with
  | nil => cases h
  | cons piece rest ih =>
    cases piece with
    | parameter v =>
      obtain ⟨more, hmore, rfl⟩ := Option.map_eq_some_iff.mp h
      have hmore : Apart more := ih hmore hp
      exact hmore
    | literal text =>
      obtain ⟨hhead, hrest⟩ := hp
      unfold place? at h
      split at h
      · rename_i before after hs
        obtain rfl := Option.some.inj h
        have hafter : Apart (Piece.ofText after ++ rest) := by
          unfold Piece.ofText
          split
          · exact hrest
          · exact ⟨hhead, hrest⟩
        rw [List.append_assoc, List.cons_append]
        unfold Piece.ofText
        split
        · exact hafter
        · exact ⟨by simp [Piece.parameter?], hafter⟩
      · obtain ⟨more, hmore, rfl⟩ := Option.map_eq_some_iff.mp h
        exact ⟨head_place? hmore hhead, ih hmore hrest⟩

/-- The other parameters stay where they are. -/
theorem spot?_place?_of_ne (h : place? name pieces = some placed) (hne : name ≠ other) :
    spot? other placed = spot? other pieces := by
  induction pieces generalizing placed with
  | nil => cases h
  | cons piece rest ih =>
    cases piece with
    | parameter v =>
      obtain ⟨more, hmore, rfl⟩ := Option.map_eq_some_iff.mp h
      rw [spot?, spot?, ih hmore, sources_place? hmore]
    | literal text =>
      unfold place? at h
      split at h
      · rename_i before after hs
        obtain rfl := Option.some.inj h
        rw [List.append_assoc, List.cons_append, spot?_ofText]
        simp [spot?, hne, spot?_ofText, eq_append_of_splitFirst? hs, placeholder]
      · obtain ⟨more, hmore, rfl⟩ := Option.map_eq_some_iff.mp h
        rw [spot?, spot?, ih hmore]

/-- A parameter is placed where its placeholder occurs first, if it occurs. -/
theorem splitFirst?_sources (hn : Braceless name)
    (hp : ∀ v ∈ parameters pieces, Braceless v ∧ name ≠ v) (hapart : Apart pieces) :
    splitFirst? (placeholder name) (sources pieces) =
      (place? name pieces).bind (spot? name) := by
  induction pieces with
  | nil => simp [splitFirst?, dropStart?, placeholder_eq, place?]
  | cons piece rest ih =>
    cases piece with
    | parameter v =>
      obtain ⟨⟨hv, hne⟩, hrest⟩ := List.forall_mem_cons.mp hp
      rw [sources_parameter, splitFirst?_placeholder_of_ne hn hv hne, ih hrest hapart, place?]
      cases place? name rest with
      | none => rfl
      | some more => simp [spot?, Ne.symm hne]
    | literal text =>
      obtain ⟨hhead, hrest⟩ := hapart
      have hbody : '{' ∉ name.toList ++ ['}'] := by simpa using hn.1
      have hopens := splitFirst?_append_of_opens hbody (opens_sources hhead) text.toList
      rw [← placeholder_eq] at hopens
      rw [sources_literal, hopens, place?, ← placeholder]
      cases splitFirst? (placeholder name) text.toList with
      | some found =>
        simp [spot?_ofText, spot?, followed, behind]
      | none =>
        rw [ih hp hrest]
        cases place? name rest <;> simp [spot?]

/-- The pieces of a template in which some parameters have been placed, as far as they could be. -/
structure Holds (template : List Char) (names : List String) (t : PathTemplate) : Prop where
  sources : sources t.pieces = template
  apart : Apart t.pieces
  perm : (t.placed ++ t.unplaced).Perm names

theorem interpolate_concat (template : String) (names : List String) (name : String) :
    interpolate template (names ++ [name]) = (interpolate template names).step name :=
  List.foldl_append

theorem Holds.step (h : Holds template names t) (name : String) :
    Holds template (names ++ [name]) (t.step name) := by
  unfold PathTemplate.step
  split
  · rename_i pieces hp
    constructor
    case sources => exact (sources_place? hp).trans h.sources
    case apart => exact apart_place? hp h.apart
    case perm =>
      have hplaced := (parameters_place? hp).append_right t.unplaced
      exact hplaced.trans ((h.perm.cons name).trans (List.perm_append_singleton name names).symm)
  · constructor
    case sources => exact h.sources
    case apart => exact h.apart
    case perm =>
      rw [placed, ← List.append_assoc]
      exact h.perm.append_right [name]

theorem holds_interpolate (template : String) (names : List String) :
    Holds (relative template) names (interpolate template names) := by
  induction names using List.reverseRecOn with
  | nil =>
    constructor
    case sources => exact sources_ofText _
    case apart => exact apart_ofText _
    case perm => exact .of_eq (congrArg (· ++ []) (parameters_ofText (relative template)))
  | append_singleton names name ih =>
    rw [interpolate_concat]
    exact ih.step name

theorem mem_of_interpolate {template other : String} {names : List String}
    (ho : other ∈ (interpolate template names).placed) : other ∈ names :=
  (holds_interpolate template names).perm.subset (List.mem_append_left _ ho)

/-- Each name stands where its placeholder occurs first, and those are left out that do not
occur. -/
structure Stands (template : List Char) (names : List String) (t : PathTemplate) : Prop where
  spots : ∀ name ∈ names, splitFirst? (placeholder name) template = spot? name t.pieces
  unplaced : t.unplaced = names.filter fun name => (splitFirst? (placeholder name) template).isNone

theorem Stands.step (h : Stands template names t) (ht : Holds template names t)
    (hnames : ∀ n ∈ names, Braceless n) (hname : Braceless name) (hnew : name ∉ names) :
    Stands template (names ++ [name]) (t.step name) := by
  have hparameters : ∀ v ∈ parameters t.pieces, v ∈ names :=
    fun v hv => ht.perm.subset (List.mem_append_left _ hv)
  have hne : ∀ n ∈ names, name ≠ n := fun n hn he => hnew (he ▸ hn)
  have hfirst : splitFirst? (placeholder name) template =
      (place? name t.pieces).bind (spot? name) := by
    rw [← ht.sources]
    apply splitFirst?_sources hname _ ht.apart
    exact fun v hv => ⟨hnames v (hparameters v hv), hne v (hparameters v hv)⟩
  have hnone : spot? name t.pieces = none := by
    rw [← Option.not_isSome_iff_eq_none, spot?_isSome]
    exact fun hm => hnew (hparameters name hm)
  unfold PathTemplate.step
  cases hplace : place? name t.pieces with
  | some placed =>
    rw [hplace, Option.bind_some] at hfirst
    have hsome : (spot? name placed).isSome := by
      rw [spot?_isSome]
      exact (parameters_place? hplace).mem_iff.mpr List.mem_cons_self
    constructor
    case spots =>
      intro n hn
      rcases List.mem_append.mp hn with hn | hn
      · rw [h.spots n hn, spot?_place?_of_ne hplace (hne n hn)]
      · rw [List.mem_singleton.mp hn, hfirst]
    case unplaced =>
      rw [List.filter_append, ← h.unplaced]
      simp [hfirst, Option.isSome_iff_ne_none.mp hsome]
  | none =>
    rw [hplace, Option.bind_none] at hfirst
    constructor
    case spots =>
      intro n hn
      rcases List.mem_append.mp hn with hn | hn
      · exact h.spots n hn
      · rw [List.mem_singleton.mp hn, hfirst, hnone]
    case unplaced => simp [List.filter_append, h.unplaced, hfirst]

theorem stands_interpolate (template : String) (hdistinct : names.Nodup)
    (hnames : ∀ n ∈ names, Braceless n) :
    Stands (relative template) names (interpolate template names) := by
  induction names using List.reverseRecOn with
  | nil => exact ⟨fun _ h => absurd h List.not_mem_nil, rfl⟩
  | append_singleton names name ih =>
    obtain ⟨hnodup, -, hapart⟩ := List.nodup_append.mp hdistinct
    obtain ⟨hothers, hname⟩ := List.forall_mem_append.mp hnames
    rw [interpolate_concat]
    apply (ih hnodup hothers).step (holds_interpolate template names) hothers
    · exact hname name (List.mem_singleton_self name)
    · exact fun hm => hapart name hm name (List.mem_singleton_self name) rfl

theorem nodup_placed {template : String} (hdistinct : names.Nodup) :
    (interpolate template names).placed.Nodup := by
  have hall := (holds_interpolate template names).perm.nodup_iff.mpr hdistinct
  exact (List.nodup_append.mp hall).1

theorem mem_placed_iff {template : String} (hdistinct : names.Nodup)
    (hnames : ∀ n ∈ names, Braceless n) (hn : name ∈ names) :
    name ∈ (interpolate template names).placed ↔
      (splitFirst? (placeholder name) (relative template)).isSome := by
  rw [(stands_interpolate template hdistinct hnames).spots name hn, spot?_isSome]
  rfl

/-- If both are found, the first is found further in front. -/
def Precedes (first second : Option (List Char × List Char)) : Prop :=
  ∀ x ∈ first, ∀ y ∈ second, x.1.length < y.1.length

theorem Precedes.behind {first second : Option (List Char × List Char)}
    (h : Precedes first second) (cs : List Char) :
    Precedes (first.map (behind cs)) (second.map (behind cs)) := by
  intro x hx y hy
  obtain ⟨x', hx', rfl⟩ := Option.map_eq_some_iff.mp hx
  obtain ⟨y', hy', rfl⟩ := Option.map_eq_some_iff.mp hy
  simpa [Text.behind] using h x' hx' y' hy'

/-- Parameters that are pairwise different stand one behind the other. -/
theorem spots_ascend (h : (parameters pieces).Nodup) :
    (parameters pieces).Pairwise fun v w => Precedes (spot? v pieces) (spot? w pieces) := by
  induction pieces with
  | nil => exact .nil
  | cons piece rest ih =>
    cases piece with
    | literal text => exact (ih h).imp fun hvw => hvw.behind text.toList
    | parameter u =>
      obtain ⟨hu, hrest⟩ := List.nodup_cons.mp h
      have hlater : ∀ w ∈ parameters rest,
          spot? w (.parameter u :: rest) = (spot? w rest).map (behind (placeholder u)) := by
        intro w hw
        have hne : u ≠ w := fun he => hu (he ▸ hw)
        rw [spot?, if_neg hne]
      apply List.pairwise_cons.mpr
      constructor
      · intro w hw x hx y hy
        rw [hlater w hw] at hy
        obtain ⟨y, -, rfl⟩ := Option.map_eq_some_iff.mp hy
        obtain rfl : x = ([], sources rest) := by simpa [spot?] using hx.symm
        simp [behind, placeholder_eq]
      · apply (ih hrest).imp_of_mem
        intro v w hv hw hvw
        rw [hlater v hv, hlater w hw]
        exact hvw.behind (placeholder u)

end PathTemplate

end ApiContract
