import ApiContract.Proofs.Document.Faithful

namespace ApiContract

open Source

namespace ParameterEntry

/-- An inline parameter may keep a reference that is taken for one when it is read again. -/
def hidesReference : ParameterEntry → Bool
  | reference _ => false
  | inline p => p.hiddenReference.isSome

theorem reread_eq_iff (entry : ParameterEntry) :
    entry.reread = entry ↔ entry.hidesReference = false := by
  cases entry with
  | reference path => simp [reread, hidesReference]
  | inline p => cases h : p.hiddenReference <;> simp [reread, hidesReference, h]

end ParameterEntry

theorem map_eq_self_iff {α : Type} {l : List α} {f : α → α} :
    l.map f = l ↔ ∀ a ∈ l, f a = a := by
  induction l with
  | nil => simp
  | cons a l ih => rw [List.map_cons, List.cons.injEq, ih, List.forall_mem_cons]

theorem Operation.reread_eq_iff (op : Operation) :
    op.reread = op ↔ ∀ entry ∈ op.parameters, entry.hidesReference = false := by
  have hop : op.reread = op ↔ op.parameters.map ParameterEntry.reread = op.parameters := by
    obtain ⟨_, _, _, _, _, _, _, _⟩ := op
    simp [reread]
  rw [hop, map_eq_self_iff]
  exact forall₂_congr fun entry _ => entry.reread_eq_iff

namespace PathItem

/-- The parameters of a path and of its operations. -/
def entries (item : PathItem) : List ParameterEntry :=
  item.parameters ++ item.operations.flatMap fun p => p.2.parameters

theorem operation_reread (item : PathItem) (m : Method) :
    item.reread.operation m = (item.operation m).map Operation.reread := by
  cases m <;> rfl

theorem mem_operations_iff {item : PathItem} {m : Method} {op : Operation} :
    (m, op) ∈ item.operations ↔ item.operation m = some op := by
  have hm : m ∈ Method.all := by cases m <;> decide
  simp [operations, hm]

theorem forall_entries_iff {item : PathItem} {P : ParameterEntry → Prop} :
    (∀ entry ∈ item.entries, P entry) ↔ (∀ entry ∈ item.parameters, P entry) ∧
      ∀ m op, item.operation m = some op → ∀ entry ∈ op.parameters, P entry := by
  rw [entries, List.forall_mem_append, List.forall_mem_flatMap]
  refine and_congr_right fun _ => ⟨fun h m op hop => ?_, fun h p hp => ?_⟩
  · exact h (m, op) (mem_operations_iff.mpr hop)
  · exact h p.1 p.2 (mem_operations_iff.mp hp)

theorem reread_eq_iff (item : PathItem) :
    item.reread = item ↔ ∀ entry ∈ item.entries, entry.hidesReference = false := by
  have hitem : item.reread = item ↔ item.parameters.map ParameterEntry.reread = item.parameters ∧
      ∀ m, (item.operation m).map Operation.reread = item.operation m := by
    constructor
    · intro h
      exact ⟨congrArg parameters h, fun m => by rw [← operation_reread, h]⟩
    · rintro ⟨hp, ho⟩
      refine (layout .json).ext _ _ (fun f hf => ?_) rfl
      rcases List.mem_cons.mp hf with rfl | hf
      · exact hp
      · obtain ⟨m, -, rfl⟩ := List.mem_map.mp hf
        exact (operation_reread item m).trans (ho m)
  have hoperation : ∀ m, (item.operation m).map Operation.reread = item.operation m ↔
      ∀ op, item.operation m = some op → op.reread = op := fun m => by
    cases item.operation m <;> simp
  rw [hitem, map_eq_self_iff, forall_entries_iff]
  refine and_congr (forall₂_congr fun entry _ => entry.reread_eq_iff) (forall_congr' fun m => ?_)
  rw [hoperation]
  exact forall₂_congr fun op _ => op.reread_eq_iff

end PathItem

namespace Document

/-- The parameters of all paths and operations. -/
def entries (d : Document) : List ParameterEntry := d.paths.flatMap fun p => p.2.entries

theorem reread_eq_iff (d : Document) :
    d.reread = d ↔ ∀ entry ∈ d.entries, entry.hidesReference = false := by
  have hd : d.reread = d ↔ (d.paths.map fun p => (p.1, p.2.reread)) = d.paths := by
    obtain ⟨_, _, _, _, _, _, _, _⟩ := d
    simp [reread]
  rw [hd, map_eq_self_iff, entries, List.forall_mem_flatMap]
  exact forall₂_congr fun p _ => by rw [← PathItem.reread_eq_iff, Prod.ext_iff, and_iff_right rfl]

end Document

variable {v : Source} {access : Access}

namespace ParameterEntry

/-- Where a reference is given once, a text is taken for it. -/
theorem hidesReference_of_unrepeated {entry : ParameterEntry} (hv : v.Unrepeated)
    (h : read v = .ok entry) : entry.hidesReference = false := by
  replace h := ok_of_tryAside h
  split at h
  · cases h
    rfl
  · rename_i fault hpath
    obtain ⟨p, hp, rfl⟩ := ok_of_map h
    obtain ⟨n, hplain⟩ := hv.plain
    obtain ⟨j, hj, rfl⟩ := hv
    obtain ⟨d, js, hjs, hfollows, rfl, -⟩ := (Parameter.layout aside_ne_yaml).follows_of_read
      (fun _ _ => Parameter.faithful_fields aside_ne_yaml) hplain hp
    cases hj.symm.trans hjs
    have hextra : d.value.extra.find? "$ref" = Members.find? js "$ref" :=
      hfollows.unknown "$ref" (by simp [Parameter.reader])
    rw [referencePath_ofJson hfollows.nodup, ← hextra] at hpath
    rw [hidesReference, Parameter.hiddenReference]
    split
    · rename_i path hhidden
      rw [hhidden] at hpath
      cases hpath
    · rfl

theorem hidesReference_of_items {entries : List ParameterEntry} (hv : v.Unrepeated)
    (h : Source.items access read v = .ok entries) :
    ∀ entry ∈ entries, entry.hidesReference = false := by
  obtain ⟨n, hplain⟩ := hv.plain
  obtain ⟨vs, rfl, hvs⟩ := hplain.exists_items h
  exact forall_of_readItems (fun w hw entry => hidesReference_of_unrepeated (hv.item w hw)) hvs

end ParameterEntry

/-- What holds of whatever is read from the members of a record holds if no name was given twice. -/
theorem Source.RecordReader.KeepsFrom.of_unrepeated {α : Type} {r : RecordReader α} {P : α → Prop}
    {a : α} (h : r.KeepsFrom Unrepeated P) (hv : v.Unrepeated) (ha : r.read access v = .ok a) :
    P a := by
  refine h.holds (fun members fault he => ?_) ha
  obtain ⟨n, hplain⟩ := hv.plain
  rw [hplain.untagged] at he
  exact (he ▸ hv).member

theorem Operation.keeps_references (access : Access) : (reader access).KeepsFrom Unrepeated
    fun op => ∀ entry ∈ op.parameters, entry.hidesReference = false where
  start := by simp [reader]
  set op name v op' hv hop h := by
    simp only [reader] at h
    split at h
    case h_5 =>
      obtain ⟨entries, he, h⟩ := ok_of_bind h
      cases h
      exact ParameterEntry.hidesReference_of_items hv he
    all_goals first
      | obtain ⟨_, -, h⟩ := ok_of_bind h
        cases h
        exact hop
      | cases h
        exact hop
  keep keep hkeep op name json hop _ := by
    cases hkeep
    exact hop

theorem PathItem.keeps_references (access : Access) : (reader access).KeepsFrom Unrepeated
    fun item => ∀ entry ∈ item.entries, entry.hidesReference = false where
  start := by
    rw [forall_entries_iff]
    exact ⟨by simp [reader], fun m op h => by cases m <;> cases h⟩
  set item name v item' hv hitem h := by
    rw [forall_entries_iff] at hitem ⊢
    simp only [reader] at h
    split at h
    · rename_i m _
      obtain ⟨op?, hop, h⟩ := ok_of_bind h
      cases h
      refine ⟨by cases m <;> exact hitem.1, fun other op hother => ?_⟩
      by_cases hm : m = other
      · subst hm
        rw [operation_setOperation] at hother
        subst hother
        exact (Operation.keeps_references access).of_unrepeated hv (ok_of_optional hop)
      · rw [operation_setOperation_of_ne _ _ hm] at hother
        exact hitem.2 other op hother
    · obtain ⟨entries, he, h⟩ := ok_of_bind h
      cases h
      refine ⟨ParameterEntry.hidesReference_of_items hv he, fun m op hop => hitem.2 m op ?_⟩
      cases m <;> exact hop
  keep keep hkeep item name json hitem _ := by
    cases hkeep
    rw [forall_entries_iff] at hitem ⊢
    refine ⟨hitem.1, fun m op hop => hitem.2 m op ?_⟩
    cases m <;> exact hop

theorem Document.keeps_references (access : Access) : (reader access).KeepsFrom Unrepeated
    fun d => ∀ entry ∈ d.entries, entry.hidesReference = false where
  start := by simp [entries, reader]
  set d name v d' hv hd h := by
    simp only [reader] at h
    split at h
    case h_5 =>
      obtain ⟨paths, hp, h⟩ := ok_of_bind h
      cases h
      obtain ⟨n, hplain⟩ := hv.plain
      obtain ⟨ms, rfl, hms⟩ := hplain.exists_members hp
      rw [entries, List.forall_mem_flatMap]
      exact forall_of_readMembers (by simp)
        (fun p hp item => (PathItem.keeps_references access).of_unrepeated (hv.member p hp)) hms
    all_goals first
      | obtain ⟨_, -, h⟩ := ok_of_bind h
        cases h
        exact hd
      | cases h
        exact hd
  keep keep hkeep d name json hd _ := by
    cases hkeep
    exact hd

end ApiContract
