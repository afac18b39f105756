import ApiContract.Proofs.Members
import ApiContract.Proofs.PathTemplate

namespace ApiContract

/-- Replaces, for each text, the first occurrence of the placeholder of its name. -/
def fill (texts : Members String) : List Char → List Char
  | [] => []
  | c :: cs =>
    match List.find? (fun p => (Text.dropStart? (placeholder p.1) (c :: cs)).isSome) texts with
    | some (name, text) =>
      text.toList ++ fill (texts.filter (·.1 ≠ name)) (cs.drop (name.length + 1))
    | none => c :: fill texts cs
termination_by cs => cs.length

/-- A piece with a text in the place of its parameter. -/
def Piece.filled (text : String → String) : Piece → List Char
  | literal s => s.toList
  | parameter name => (text name).toList

namespace PathTemplate

open Piece (parameters sources)
open Text

variable {texts : Members String} {pieces : List Piece}

theorem fill_of_not_starts {c : Char} {cs : List Char}
    (h : ∀ name ∈ texts.names, dropStart? (placeholder name) (c :: cs) = none) :
    fill texts (c :: cs) = c :: fill texts cs := by
  have hnone : List.find? (fun p => (dropStart? (placeholder p.1) (c :: cs)).isSome) texts =
      none := by
    apply List.find?_eq_none.mpr
    intro p hp
    simp [h p.1 (List.mem_map_of_mem hp)]
  rw [fill, hnone]

/-- Where no placeholder occurs before the end of a text, the text stays. -/
theorem fill_append {cs ds : List Char}
    (h : ∀ name ∈ texts.names, ∃ found : Option (List Char × List Char),
      splitFirst? (placeholder name) (cs ++ ds) = found.map (behind cs)) :
    fill texts (cs ++ ds) = cs ++ fill texts ds := by
  induction cs with
  | nil => rfl
  | cons c cs ih =>
    have hsplit : ∀ found : Option (List Char × List Char),
        found.map (behind (c :: cs)) = (found.map (behind cs)).map (behind [c]) := by
      intro found
      simp [Option.map_map]
    rw [List.cons_append, List.cons_append, fill_of_not_starts, ih]
    · intro name hn
      obtain ⟨found, hfound⟩ := h name hn
      have hlater : splitFirst? (placeholder name) ([c] ++ (cs ++ ds)) =
          (found.map (behind cs)).map (behind [c]) := hfound.trans (hsplit found)
      exact ⟨found, splitFirst?_of_behind hlater⟩
    · intro name hn
      obtain ⟨found, hfound⟩ := h name hn
      rw [List.cons_append, splitFirst?_cons, hsplit] at hfound
      cases hstart : dropStart? (placeholder name) (c :: (cs ++ ds)) with
      | none => rfl
      | some rest =>
        rw [hstart] at hfound
        cases found <;> simp [behind] at hfound

theorem fill_placeholder {name text : String} (hnodup : texts.names.Nodup)
    (hnames : ∀ n ∈ texts.names, Braceless n) (hmem : (name, text) ∈ texts) (cs : List Char) :
    fill texts (placeholder name ++ cs) =
      text.toList ++ fill (texts.filter (·.1 ≠ name)) cs := by
  have hname : name ∈ texts.names := List.mem_map_of_mem hmem
  have hhere : (dropStart? (placeholder name) (placeholder name ++ cs)).isSome := by
    simp [dropStart?_append]
  have hfind : List.find?
      (fun p => (dropStart? (placeholder p.1) (placeholder name ++ cs)).isSome) texts =
      some (name, text) := by
    cases hf : List.find?
        (fun p => (dropStart? (placeholder p.1) (placeholder name ++ cs)).isSome) texts with
    | none => exact absurd hhere (List.find?_eq_none.mp hf (name, text) hmem)
    | some p =>
      have hp := List.mem_of_find?_eq_some hf
      have hsame : p.1 = name := by
        apply Classical.byContradiction
        intro hne
        have hstart := dropStart?_placeholder_of_ne (hnames p.1 (List.mem_map_of_mem hp))
          (hnames name hname) hne cs
        simpa [hstart] using List.find?_some hf
      rw [Members.eq_of_name_eq hnodup hp hmem hsame]
  have hdrop : (name.toList ++ ['}'] ++ cs).drop (name.length + 1) = cs := by
    apply List.drop_left'
    simp [String.length_toList]
  rw [placeholder_eq, List.cons_append] at hfind ⊢
  rw [fill, hfind]
  dsimp only
  rw [hdrop]

/-- Texts that are filled in where the parameters of their names stand. -/
theorem fill_sources {text : String → String} (hnodup : texts.names.Nodup)
    (hnames : ∀ n ∈ texts.names, Braceless n) (htext : ∀ p ∈ texts, p.2 = text p.1)
    (hparameters : ∀ v ∈ parameters pieces, v ∈ texts.names) (honce : (parameters pieces).Nodup)
    (hspots : ∀ n ∈ texts.names, splitFirst? (placeholder n) (sources pieces) = spot? n pieces) :
    fill texts (sources pieces) = pieces.flatMap (Piece.filled text) := by
  induction pieces generalizing texts with
  | nil =>
    rw [sources_nil, fill]
    rfl
  | cons piece rest ih =>
    rw [List.flatMap_cons]
    cases piece with
    | literal s =>
      have hrest : ∀ n ∈ texts.names,
          splitFirst? (placeholder n) (sources rest) = spot? n rest :=
        fun n hn => splitFirst?_of_behind (hspots n hn)
      have hbehind :
          fill texts (s.toList ++ sources rest) = s.toList ++ fill texts (sources rest) :=
        fill_append fun n hn => ⟨spot? n rest, hspots n hn⟩
      rw [sources_literal, hbehind, ih hnodup hnames htext hparameters honce hrest]
      rfl
    | parameter v =>
      obtain ⟨hv, hothers⟩ := List.forall_mem_cons.mp hparameters
      obtain ⟨hfresh, hrest⟩ := List.nodup_cons.mp honce
      obtain ⟨⟨name, s⟩, hmem, rfl⟩ := List.mem_map.mp hv
      have hleft : ∀ n, n ∈ Members.names (texts.filter (·.1 ≠ name)) ↔
          n ∈ texts.names ∧ n ≠ name := by
        intro n
        simp [Members.names, and_comm]
      have hfilled : s.toList = Piece.filled text (.parameter name) :=
        congrArg String.toList (htext _ hmem)
      rw [sources_parameter, fill_placeholder hnodup hnames hmem, hfilled, ih]
      · exact (List.filter_sublist.map Prod.fst).nodup hnodup
      · exact fun n hn => hnames n ((hleft n).mp hn).1
      · exact fun p hp => htext p (List.mem_filter.mp hp).1
      · exact fun w hw => (hleft w).mpr ⟨hothers w hw, fun he => hfresh (he ▸ hw)⟩
      · exact hrest
      · intro n hn
        obtain ⟨hn, hne⟩ := (hleft n).mp hn
        have hspot := hspots n hn
        rw [spot?, if_neg (Ne.symm hne)] at hspot
        exact splitFirst?_of_behind hspot

end PathTemplate

end ApiContract
