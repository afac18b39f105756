import ApiContract.Document.Basic
import Mathlib.Data.List.Forall2
import Mathlib.Data.List.Induction

namespace ApiContract

theorem eraseDups_concat {α : Type} [BEq α] [LawfulBEq α] (as : List α) (a : α) :
    (as ++ [a]).eraseDups = if a ∈ as then as.eraseDups else as.eraseDups ++ [a] := by
  rw [List.eraseDups_append]
  split <;> simp_all [List.removeAll, List.eraseDups_cons]

theorem nodup_eraseDups {α : Type} [BEq α] [LawfulBEq α] (as : List α) : as.eraseDups.Nodup := by
  induction as using List.reverseRecOn with
  | nil => exact List.nodup_nil
  | append_singleton as a ih =>
    rw [eraseDups_concat]
    split
    · exact ih
    · rename_i hnew
      refine List.nodup_append.mpr ⟨ih, List.pairwise_singleton _ a, ?_⟩
      rintro _ hb _ ha rfl
      exact hnew (List.mem_eraseDups.mp (List.mem_singleton.mp ha ▸ hb))

namespace Parameter

variable {ps more : List Parameter} {p : Parameter} {k : String × Location}

/-- What tells a parameter from the others. -/
def key (p : Parameter) : String × Location := (p.name, p.location)

def keys (ps : List Parameter) : List (String × Location) := ps.map key

def ofKey (k : String × Location) (ps : List Parameter) : List Parameter := ps.filter (·.key = k)

@[simp] theorem keys_cons : keys (p :: ps) = p.key :: keys ps := rfl

@[simp] theorem keys_append : keys (ps ++ more) = keys ps ++ keys more :=
  List.map_append

theorem ofKey_cons_self (ps : List Parameter) : ofKey p.key (p :: ps) = p :: ofKey p.key ps := by
  simp [ofKey]

theorem ofKey_cons_of_ne (h : p.key ≠ k) (ps : List Parameter) :
    ofKey k (p :: ps) = ofKey k ps := by
  simp [ofKey, h]

theorem ofKey_append (k : String × Location) (ps more : List Parameter) :
    ofKey k (ps ++ more) = ofKey k ps ++ ofKey k more :=
  List.filter_append ..

theorem mem_ofKey : p ∈ ofKey k ps ↔ p ∈ ps ∧ p.key = k := by
  simp [ofKey]

theorem ofKey_eq_nil_iff : ofKey k ps = [] ↔ k ∉ keys ps := by
  simp only [ofKey, List.filter_eq_nil_iff, keys, List.mem_map, decide_eq_true_eq]
  grind

theorem getLast?_ofKey (h : k ∈ keys ps) : ∃ p, (ofKey k ps).getLast? = some p ∧ p.key = k := by
  have hne : ofKey k ps ≠ [] := fun hnil => ofKey_eq_nil_iff.mp hnil h
  have hlast := List.getLast_mem hne
  exact ⟨_, List.getLast?_eq_some_getLast hne, (mem_ofKey.mp hlast).2⟩

theorem tail_ofKey (h : (keys ps).Nodup) (k : String × Location) : (ofKey k ps).tail = [] := by
  cases hof : ofKey k ps with
  | nil => rfl
  | cons p rest =>
    cases rest with
    | nil => rfl
    | cons q rest =>
      have hsublist : (keys (ofKey k ps)).Sublist (keys ps) := List.filter_sublist.map _
      have hp : p.key = k := (mem_ofKey.mp (hof ▸ List.mem_cons_self)).2
      have hq : q.key = k :=
        (mem_ofKey.mp (hof ▸ List.mem_cons_of_mem p List.mem_cons_self)).2
      have hnodup := hsublist.nodup h
      simp [hof, hp, hq] at hnodup

end Parameter

namespace Document

open Parameter

variable {ps shared own : List Parameter} {p q : Parameter} {k : String × Location}

theorem sameParameter_iff : sameParameter q p ↔ q.key = p.key := by
  simp [sameParameter, key]

theorem keys_override (ps : List Parameter) (p : Parameter) :
    keys (override ps p) = if p.key ∈ keys ps then keys ps else keys ps ++ [p.key] := by
  induction ps with
  | nil => rfl
  | cons q rest ih =>
    rw [override]
    split
    · rename_i hsame
      rw [sameParameter_iff] at hsame
      simp [hsame]
    · rename_i hother
      have hne : p.key ≠ q.key := fun h => hother (sameParameter_iff.mpr h.symm)
      simp only [keys_cons, ih, List.mem_cons, hne, false_or]
      split <;> rfl

/-- The parameter comes in the place of the first one of its key. -/
theorem ofKey_override_self (ps : List Parameter) (p : Parameter) :
    ofKey p.key (override ps p) = p :: (ofKey p.key ps).tail := by
  induction ps with
  | nil => exact ofKey_cons_self []
  | cons q rest ih =>
    rw [override]
    split
    · rename_i hsame
      rw [sameParameter_iff] at hsame
      rw [ofKey_cons_self, ← hsame, ofKey_cons_self, List.tail_cons]
    · rename_i hother
      have hne : q.key ≠ p.key := fun h => hother (sameParameter_iff.mpr h)
      rw [ofKey_cons_of_ne hne, ih, ofKey_cons_of_ne hne]

theorem ofKey_override_of_ne (h : p.key ≠ k) (ps : List Parameter) :
    ofKey k (override ps p) = ofKey k ps := by
  induction ps with
  | nil => exact ofKey_cons_of_ne h []
  | cons q rest ih =>
    rw [override]
    split
    · rename_i hsame
      have hq : q.key ≠ k := sameParameter_iff.mp hsame ▸ h
      rw [ofKey_cons_of_ne h, ofKey_cons_of_ne hq]
    · by_cases hq : q.key = k
      · subst hq
        rw [ofKey_cons_self, ofKey_cons_self, ih]
      · rw [ofKey_cons_of_ne hq, ofKey_cons_of_ne hq, ih]

/-- What is left of the parameters of a path and of its operation: the keys of the path, then those
that only the operation has, in the order in which they come first; of a key that the operation has,
its last parameter in the place of the first one of the path. -/
structure Overridden (shared own effective : List Parameter) : Prop where
  order : keys effective = keys shared ++ ((keys own).filter (· ∉ keys shared)).eraseDups
  replaced : ∀ p, (ofKey p.key own).getLast? = some p →
    ofKey p.key effective = p :: (ofKey p.key shared).tail
  inherited : ∀ k, k ∉ keys own → ofKey k effective = ofKey k shared

theorem overridden_nil (shared : List Parameter) : Overridden shared [] shared := by
  constructor
  case order => simp [keys]
  case replaced => simp [ofKey]
  case inherited => simp

theorem Overridden.tail_eq {effective : List Parameter} (h : Overridden shared own effective)
    (k : String × Location) : (ofKey k effective).tail = (ofKey k shared).tail := by
  by_cases hk : k ∈ keys own
  · obtain ⟨p, hlast, rfl⟩ := getLast?_ofKey hk
    rw [h.replaced p hlast, List.tail_cons]
  · rw [h.inherited k hk]

theorem Overridden.step {effective : List Parameter} (h : Overridden shared own effective)
    (p : Parameter) : Overridden shared (own ++ [p]) (override effective p) := by
  constructor
  case order =>
    have hkeys : keys (own ++ [p]) = keys own ++ [p.key] := keys_append
    have hpresent : p.key ∈ keys effective ↔ p.key ∈ keys shared ∨ p.key ∈ keys own := by
      rw [h.order, List.mem_append, List.mem_eraseDups, List.mem_filter]
      grind
    rw [keys_override, hkeys, List.filter_append]
    by_cases hshared : p.key ∈ keys shared
    · have hnone : [p.key].filter (· ∉ keys shared) = [] := by simp [hshared]
      rw [if_pos (hpresent.mpr (.inl hshared)), hnone, List.append_nil, h.order]
    · have hself : [p.key].filter (· ∉ keys shared) = [p.key] := by simp [hshared]
      rw [hself, eraseDups_concat]
      by_cases hown : p.key ∈ keys own
      · rw [if_pos (hpresent.mpr (.inr hown)), if_pos, h.order]
        simp [hown, hshared]
      · rw [if_neg, if_neg, h.order, List.append_assoc]
        · simp [hown]
        · simp [hpresent, hown, hshared]
  case replaced =>
    intro q hq
    rw [ofKey_append] at hq
    by_cases hkey : p.key = q.key
    · rw [← hkey, ofKey_cons_self] at hq
      obtain rfl : p = q := by simpa [ofKey] using hq
      rw [ofKey_override_self, h.tail_eq]
    · rw [ofKey_cons_of_ne hkey] at hq
      rw [ofKey_override_of_ne hkey]
      exact h.replaced q (by simpa [ofKey] using hq)
  case inherited =>
    intro k hk
    rw [keys_append, List.mem_append, not_or] at hk
    have hne : p.key ≠ k := fun hp => hk.2 (hp ▸ List.mem_cons_self)
    rw [ofKey_override_of_ne hne, h.inherited k hk.1]

theorem overridden_foldl (shared own : List Parameter) :
    Overridden shared own (own.foldl override shared) := by
  induction own using List.reverseRecOn with
  | nil => exact overridden_nil shared
  | append_singleton own p ih =>
    rw [List.foldl_append]
    exact ih.step p

/-- What is in force has one parameter of each key: of a key that the operation has, its last one,
and otherwise that of the path. The keys of the path come first, in their order, then those that
only the operation has. -/
structure Effective (shared own effective : List Parameter) : Prop where
  distinct : (keys effective).Nodup
  overrides : ∀ p, p.key ∈ keys own → (p ∈ effective ↔ (ofKey p.key own).getLast? = some p)
  inherits : ∀ p, p.key ∉ keys own → (p ∈ effective ↔ p ∈ shared)
  order : keys effective = keys shared ++ ((keys own).filter (· ∉ keys shared)).eraseDups

theorem Overridden.effective_iff {effective : List Parameter}
    (h : Overridden shared own effective) :
    Effective shared own effective ↔ (keys shared).Nodup := by
  constructor
  · intro he
    have hdistinct := he.distinct
    rw [h.order] at hdistinct
    exact (List.nodup_append.mp hdistinct).1
  · intro hshared
    have hof : ∀ p, p ∈ effective ↔ p ∈ ofKey p.key effective := by simp [mem_ofKey]
    constructor
    case distinct =>
      rw [h.order, List.nodup_append]
      refine ⟨hshared, nodup_eraseDups _, ?_⟩
      rintro k hk _ hnew rfl
      simp [List.mem_eraseDups, hk] at hnew
    case overrides =>
      intro p hp
      obtain ⟨last, hlast, hkey⟩ := getLast?_ofKey hp
      rw [hof, hlast, Option.some.injEq, ← hkey, h.replaced last (hkey ▸ hlast), tail_ofKey hshared,
        List.mem_singleton, eq_comm]
    case inherits =>
      intro p hp
      rw [hof, h.inherited _ hp, mem_ofKey, and_iff_left rfl]
    case order => exact h.order

/-- An entry is a parameter or refers to one. -/
def Gives (d : Document) (entry : ParameterEntry) (p : Parameter) : Prop :=
  entry.resolve d.parameters = .ok p

variable {d : Document} {given before after : List ParameterEntry} {entry : ParameterEntry}
  {fault : ResolveFault}

theorem mapM_resolve_of_gives (h : List.Forall₂ (Gives d) given ps) :
    given.mapM (·.resolve d.parameters) = .ok ps := by
  induction h with
  | nil => rfl
  | cons hp _ ih =>
    rw [List.mapM_cons, hp, ih]
    rfl

theorem mapM_resolve_of_fault (hbefore : ∀ e ∈ before, ∃ p, Gives d e p)
    (hentry : entry.resolve d.parameters = .error fault) :
    (before ++ entry :: after).mapM (·.resolve d.parameters) = .error fault := by
  induction before with
  | nil =>
    rw [List.nil_append, List.mapM_cons, hentry]
    rfl
  | cons e rest ih =>
    obtain ⟨⟨p, hp⟩, hrest⟩ := List.forall_mem_cons.mp hbefore
    rw [List.cons_append, List.mapM_cons, hp, ih hrest]
    rfl

theorem exists_gives (h : ∀ e ∈ given, ∃ p, Gives d e p) :
    ∃ ps, List.Forall₂ (Gives d) given ps := by
  induction given with
  | nil => exact ⟨[], .nil⟩
  | cons e rest ih =>
    obtain ⟨⟨p, hp⟩, hrest⟩ := List.forall_mem_cons.mp h
    obtain ⟨ps, hps⟩ := ih hrest
    exact ⟨p :: ps, .cons hp hps⟩

theorem operationParameters_of_gives {item : PathItem} {op : Operation}
    (hitem : List.Forall₂ (Gives d) item.parameters shared)
    (hop : List.Forall₂ (Gives d) op.parameters own) :
    d.operationParameters item op = .ok (own.foldl override shared) := by
  rw [operationParameters, mapM_resolve_of_gives hitem, mapM_resolve_of_gives hop]
  rfl

/-- The fault is that of the first entry that leads nowhere, those of the path before those of the
operation. -/
theorem operationParameters_of_fault {item : PathItem} {op : Operation}
    (hentries : item.parameters ++ op.parameters = before ++ entry :: after)
    (hbefore : ∀ e ∈ before, ∃ p, Gives d e p)
    (hentry : entry.resolve d.parameters = .error fault) :
    d.operationParameters item op = .error fault := by
  have hown : ∀ between, before = item.parameters ++ between →
      op.parameters = between ++ entry :: after →
      d.operationParameters item op = .error fault := by
    rintro between rfl hop
    obtain ⟨hshared, hbetween⟩ := List.forall_mem_append.mp hbefore
    obtain ⟨shared, hfound⟩ := exists_gives hshared
    rw [operationParameters, mapM_resolve_of_gives hfound, hop,
      mapM_resolve_of_fault hbetween hentry]
    rfl
  rcases List.append_eq_append_iff.mp hentries with ⟨between, hpath, hop⟩ | ⟨rest, hpath, hop⟩
  · exact hown between hpath hop
  · cases rest with
    | nil => exact hown [] (by simpa using hpath.symm) hop.symm
    | cons e rest =>
      obtain rfl : entry = e := (List.cons.inj hop).1
      rw [operationParameters, hpath, mapM_resolve_of_fault hbefore hentry]
      rfl

/-- If every entry gives a parameter, those of the path are in force as far as those of the
operation do not override them, and this is one for each key exactly if the path has no key twice.
Otherwise the first entry that leads nowhere is the fault, those of the path before those of the
operation. -/
theorem operationParameters_effective (d : Document) (item : PathItem) (op : Operation) :
    ((∀ e ∈ item.parameters ++ op.parameters, ∃ p, Gives d e p) →
      ∃ shared own effective, List.Forall₂ (Gives d) item.parameters shared ∧
        List.Forall₂ (Gives d) op.parameters own ∧
        d.operationParameters item op = .ok effective ∧ Overridden shared own effective ∧
        (Effective shared own effective ↔ (keys shared).Nodup)) ∧
    ∀ before entry after fault, item.parameters ++ op.parameters = before ++ entry :: after →
      (∀ e ∈ before, ∃ p, Gives d e p) → entry.resolve d.parameters = .error fault →
      d.operationParameters item op = .error fault := by
  constructor
  · intro hall
    obtain ⟨hshared, hown⟩ := List.forall_mem_append.mp hall
    obtain ⟨shared, hitem⟩ := exists_gives hshared
    obtain ⟨own, hop⟩ := exists_gives hown
    have hoverridden := overridden_foldl shared own
    exact ⟨shared, own, own.foldl override shared, hitem, hop,
      operationParameters_of_gives hitem hop, hoverridden, hoverridden.effective_iff⟩
  · intro before entry after fault hentries hbefore hentry
    exact operationParameters_of_fault hentries hbefore hentry

namespace Referred

def page : Parameter := { name := "page", location := .query, type := some .integer }

/-- The same parameter as `page`, with another type. -/
def token : Parameter := { name := "page", location := .query, type := some .string }

def unit : Parameter := { name := "unit", location := .query, type := some .string }

def filter : Parameter := { name := "filter", location := .query, type := some .string }

def document : Document :=
  { swagger := "2.0", parameters := [("page", page), ("token", token), ("unit", unit)] }

def item : PathItem :=
  { parameters := [.reference "#/parameters/page", .reference "#/parameters/unit"] }

/-- An operation that overrides the page of its path by a reference. -/
def op : Operation := { parameters := [.inline filter, .reference "#/parameters/token"] }

/-- An operation that refers to a parameter that does not exist. -/
def lost : Operation := { parameters := [.inline filter, .reference "#/parameters/ghost"] }

end Referred

open Referred in
theorem token_in_force :
    document.operationParameters item op = .ok [token, unit, filter] ∧
      Effective [page, unit] [filter, token] [token, unit, filter] ∧
      document.operationParameters item lost = .error (.unknownParameter "ghost") := by
  have hpath : ∀ e ∈ item.parameters, ∃ p, Gives document e p :=
    List.forall_mem_cons.mpr ⟨⟨page, rfl⟩, List.forall_mem_singleton.mpr ⟨unit, rfl⟩⟩
  have hown : ∀ e ∈ op.parameters, ∃ p, Gives document e p :=
    List.forall_mem_cons.mpr ⟨⟨filter, rfl⟩, List.forall_mem_singleton.mpr ⟨token, rfl⟩⟩
  obtain ⟨shared, own, effective, hitem, hop, heffective, -, hiff⟩ :=
    (operationParameters_effective document item op).1 (List.forall_mem_append.mpr ⟨hpath, hown⟩)
  obtain rfl : [page, unit] = shared := Except.ok.inj (mapM_resolve_of_gives hitem)
  obtain rfl : [filter, token] = own := Except.ok.inj (mapM_resolve_of_gives hop)
  obtain rfl : [token, unit, filter] = effective := Except.ok.inj heffective
  refine ⟨heffective, hiff.mpr (by decide), ?_⟩
  have hbefore : ∀ e ∈ item.parameters ++ [.inline filter], ∃ p, Gives document e p :=
    List.forall_mem_append.mpr ⟨hpath, List.forall_mem_singleton.mpr ⟨filter, rfl⟩⟩
  exact (operationParameters_effective document item lost).2 _ _ [] _ rfl hbefore rfl

namespace Repeated

def stringUnit : Parameter := { name := "unit", location := .query, type := some .string }

def integerUnit : Parameter := { name := "unit", location := .query, type := some .integer }

def booleanUnit : Parameter := { name := "unit", location := .query, type := some .boolean }

/-- A path that declares one parameter twice. -/
def item : PathItem := { parameters := [.inline stringUnit, .inline integerUnit] }

def op : Operation := { parameters := [.inline booleanUnit] }

def document : Document :=
  { swagger := "2.0", paths := [("/units", { item with get := some op })] }

end Repeated

open Repeated in
/-- The operation overrides the first of two parameters of one key, and the second stays in
force. -/
theorem overridden_stays :
    document.operationParameters item op = .ok [booleanUnit, integerUnit] ∧
      integerUnit ∈ [stringUnit, integerUnit] ∧ integerUnit.key ∈ keys [booleanUnit] ∧
      ¬ Effective [stringUnit, integerUnit] [booleanUnit] [booleanUnit, integerUnit] := by
  refine ⟨rfl, by simp, by decide, fun h => ?_⟩
  exact absurd h.distinct (by decide)

end Document

end ApiContract
