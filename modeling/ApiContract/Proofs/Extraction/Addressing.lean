import ApiContract.Extraction.Apply
import ApiContract.Proofs.Document.StatusCodes

namespace ApiContract.Operation

open Extraction

/-- The responses by status code are those that are looked up by code, one for each code, and a rule
finds the schema of each. -/
structure Addressed (op : Operation) : Prop where
  ascend : (op.statusCodes.map Prod.fst).Pairwise (· < ·)
  found : ∀ code < 65536, (op.response code).isSome ↔ code ∈ op.statusCodes.map Prod.fst
  paired : ∀ q ∈ op.statusCodes, op.response q.1 = some q.2
  schema : ∀ (d : Document) (path : String) (item : PathItem) (method : Method),
    d.paths.find? path = some item → item.operation method = some op →
      ∀ q ∈ op.statusCodes, ∀ property definition,
        responseSchema d ⟨path, method, q.1, property, definition⟩ =
          match q.2.schema with
          | some s => .ok s
          | none => .error (.noSchema path method q.1)

/-- A key that denotes a status code is the digits of the code, with no sign and no zeros in
front. -/
def PlainlyKeyed (op : Operation) : Prop :=
  ∀ key ∈ op.responses.names, ∀ code, statusCode? key = some code → key = toString code

variable {op : Operation} {code : Nat} {r : Response}

/-- What is looked up under a code is a response with this code. -/
theorem mem_statusCodes_of_response (hcode : code < 65536) (h : op.response code = some r) :
    (code, r) ∈ op.statusCodes :=
  mem_statusCodes.mpr ⟨toString code, Members.mem_of_find? h, statusCode?_toString hcode⟩

theorem PlainlyKeyed.response_eq (h : op.PlainlyKeyed) (hkeyed : op.responses.names.Nodup)
    {q : Nat × Response} (hq : q ∈ op.statusCodes) : op.response q.1 = some q.2 := by
  obtain ⟨key, hmem, hcode⟩ := mem_statusCodes.mp hq
  have hkey : key = toString q.1 := h key (List.mem_map_of_mem hmem) q.1 hcode
  rw [response, ← hkey]
  exact Members.find?_of_mem hkeyed hmem

/-- Plain keys of one code are one key. -/
theorem PlainlyKeyed.nodup_codes (h : op.PlainlyKeyed) (hkeyed : op.responses.names.Nodup) :
    op.codes.Nodup := by
  refine List.pairwise_filterMap.mpr (hkeyed.imp_of_mem ?_)
  rintro key other hkey hother hne code hcode _ hsame rfl
  exact hne ((h key hkey code hcode).trans (h other hother code hsame).symm)

theorem PlainlyKeyed.addressed (h : op.PlainlyKeyed) (hkeyed : op.responses.names.Nodup) :
    op.Addressed := by
  constructor
  case ascend =>
    have hcodes := op.map_statusCodes_perm.nodup_iff.mpr (h.nodup_codes hkeyed)
    exact List.pairwise_map.mpr (ascending_of_nodup hcodes)
  case found =>
    intro code hcode
    constructor
    · intro hfound
      obtain ⟨r, hr⟩ := Option.isSome_iff_exists.mp hfound
      exact List.mem_map_of_mem (mem_statusCodes_of_response hcode hr)
    · intro hmem
      obtain ⟨q, hq, rfl⟩ := List.mem_map.mp hmem
      simp [h.response_eq hkeyed hq]
  case paired => exact fun q hq => h.response_eq hkeyed hq
  case schema =>
    intro d path item method hpath hop q hq property definition
    simp only [responseSchema, hpath, hop, h.response_eq hkeyed hq]
    cases q.2.schema <;> rfl

/-- A key with a sign or zeros in front has a code under which another response is looked up or
none. -/
theorem Addressed.plainlyKeyed (h : op.Addressed) : op.PlainlyKeyed := by
  intro key hkey code hcode
  obtain ⟨⟨_, r⟩, hmem, rfl⟩ := List.mem_map.mp hkey
  have hpaired := h.paired (code, r) (mem_statusCodes.mpr ⟨_, hmem, hcode⟩)
  have hplain : toString code ∈ op.responses.names :=
    List.mem_map_of_mem (Members.mem_of_find? hpaired)
  have hlt := (statusCode?_eq_some_iff.mp hcode).1
  by_contra hne
  refine not_nodup_codes hkey hplain hne hcode (statusCode?_toString hlt) ?_
  exact op.map_statusCodes_perm.nodup_iff.mp (h.ascend.imp Nat.ne_of_lt)

/-- The responses by status code come in the order of the codes; they are those whose key spells a
code of sixteen bits, behind zeros or a plus sign or neither, and among them are all that are looked
up by code. That they are no others, under codes that ascend, and that rules find the schema of
each, is so exactly if no key has a sign or zeros in front of a code. -/
theorem responses_addressed (op : Operation) (hkeyed : op.responses.names.Nodup) :
    (op.statusCodes.map Prod.fst).Pairwise (· ≤ ·) ∧
    (∀ q, q ∈ op.statusCodes ↔
      ∃ key, (key, q.2) ∈ op.responses ∧ q.1 < 65536 ∧ SpellsCode key q.1) ∧
    (∀ code < 65536, ∀ r, op.response code = some r → (code, r) ∈ op.statusCodes) ∧
    (op.Addressed ↔ op.PlainlyKeyed) := by
  refine ⟨List.pairwise_map.mpr op.pairwise_statusCodes, ?_, ?_, ?_⟩
  · intro q
    simp only [mem_statusCodes, statusCode?_eq_some_iff]
  · exact fun code hcode r hr => mem_statusCodes_of_response hcode hr
  · exact ⟨Addressed.plainlyKeyed, fun h => h.addressed hkeyed⟩

namespace Harbour

/-- Three status codes, not in their order, and a key that is none. -/
def plain : Operation :=
  { responses := [("422", { description := "bad" }), ("default", {}), ("200", {}),
      ("201", { description := "created" })] }

/-- One status code under two keys. -/
def signed : Operation := { responses := [("200", {}), ("+200", { description := "signed" })] }

theorem keyed : plain.responses.names.Nodup ∧ signed.responses.names.Nodup := by decide

theorem plainlyKeyed : plain.PlainlyKeyed := by
  intro key hkey code hcode
  have hcodes : ∀ key ∈ plain.responses.names,
      statusCode? key = none ∨
        ∃ n ∈ [422, 200, 201], statusCode? key = some n ∧ key = toString n := by
    decide
  rcases hcodes key hkey with hnone | ⟨n, -, hsome, hplain⟩
  · rw [hnone] at hcode
    cases hcode
  · rw [hsome] at hcode
    cases hcode
    exact hplain

end Harbour

open Harbour in
theorem harbour_addressed : plain.responses.names.Nodup ∧ plain.Addressed ∧
    plain.statusCodes.map Prod.fst = [200, 201, 422] := by
  obtain ⟨-, -, -, haddressed⟩ := responses_addressed plain keyed.1
  exact ⟨keyed.1, haddressed.mpr plainlyKeyed, by decide⟩

open Harbour in
/-- Two responses have the code 200, and only one of them is looked up. -/
theorem signed_not_addressed : signed.responses.names.Nodup ∧
    signed.statusCodes.map Prod.fst = [200, 200] ∧
    (∃ q ∈ signed.statusCodes, q.2.description = "signed" ∧
      (signed.response q.1).map Response.description = some "") ∧
    ¬ signed.Addressed := by
  have hcodes : signed.statusCodes.map Prod.fst = [200, 200] := by decide
  refine ⟨keyed.2, hcodes, ⟨(200, { description := "signed" }), ?_, rfl, by decide⟩, ?_⟩
  · exact mem_statusCodes.mpr ⟨"+200", by simp [signed], by decide⟩
  · intro h
    have hascend := h.ascend
    rw [hcodes] at hascend
    exact absurd hascend (by decide)

end ApiContract.Operation
