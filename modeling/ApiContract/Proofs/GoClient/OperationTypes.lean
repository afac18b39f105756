import ApiContract.Proofs.GoClient.SchemaTypes

namespace ApiContract.GoClient

open Emit Naming

variable {d : Document}

/-- The schema of a body that gets a struct of its own: one that is no reference. -/
def inlineBody (body : Option Parameter) : Option Schema :=
  (body.bind Parameter.schema).filter fun s => s.referenceName.isNone

def requestTypeName (operation : String) : String := operation ++ "Req"

/-- The type of a request and the types of the objects within it. -/
def requestTypes (operation : String) (body : Option Parameter) : Members Declaration :=
  match inlineBody body with
  | some s =>
    structs (objectsOfProperties (requestTypeName operation) s.properties) ++
      [(requestTypeName operation, .struct (structOf (requestTypeName operation) s false))]
  | none => []

/-- The Go name of the type that the body of a request is given in. -/
def bodyTypeName (operation : String) (s : Schema) : String :=
  match s.referenceName with
  | some reference => referent reference
  | none => requestTypeName operation

/-- There is a type for a body: the definition it refers to, or a struct for its properties. -/
def FitsBody (known : String → Prop) (p : Parameter) : Prop :=
  ∃ s, p.schema = some s ∧ (∀ name, s.referenceName = some name → known name) ∧
    (s.referenceName = none →
      (s.hasType .object ∨ s.properties ≠ []) ∧ ∀ q ∈ s.properties, Fits known .field q.2)

/-- Without a schema there is no type. -/
theorem declares_bodyType (d : Document) (operation : String) (p : Parameter) :
    Declares (bodyType d operation p) (FitsBody (Known d) p)
      (.pointer (.named (bodyTypeName operation (p.schema.getD {}))))
      (requestTypes operation (some p)) := by
  unfold bodyType
  cases hs : p.schema with
  | none => exact (declares_fail ..).congr (by simp [FitsBody, hs])
  | some s =>
    dsimp only
    cases hr : s.referenceName with
    | some reference =>
      have hbody : FitsBody (Known d) p ↔ Known d reference := by simp [FitsBody, hs, hr]
      have hnone : requestTypes operation (some p) = [] := by
        simp [requestTypes, inlineBody, hs, hr, Option.filter]
      rw [hbody, hnone, Option.getD_some, bodyTypeName, hr]
      apply (declares_definitionType d reference).result
      apply declares_pure
    | none =>
      have hbody : FitsBody (Known d) p ↔ ¬ (¬ s.hasType .object ∧ s.properties.isEmpty) ∧
          ∀ q ∈ s.properties, Fits (Known d) .field q.2 := by
        rw [List.isEmpty_iff, Decidable.not_and_iff_or_not, Decidable.not_not]
        simp [FitsBody, hs, hr]
      have hstruct : requestTypes operation (some p) =
          structs (objectsOfProperties (requestTypeName operation) s.properties) ++
            [(requestTypeName operation,
              .struct (structOf (requestTypeName operation) s false))] := by
        simp [requestTypes, inlineBody, hs, hr, Option.filter]
      rw [hbody, hstruct, Option.getD_some, bodyTypeName, hr]
      dsimp only
      split
      · rename_i hempty
        exact (declares_fail ..).congr (iff_of_false id fun h => h.1 hempty)
      · rename_i hobject
        rw [and_iff_right hobject]
        apply (declares_emitStruct d (requestTypeName operation) s false).result
        apply declares_pure

def FitsResponse (known : String → Prop) (code : Nat) (s : Schema) : Prop :=
  if isSuccess code then Fits known .named s else FitsFailure known s

/-- The type of a response and the types of the objects within it. -/
def responseTypes (operation : String) (successes : Nat) (q : Nat × Response) :
    Members Declaration :=
  let name := responseTypeName operation successes q.1
  structs ((q.2.schema.map (objectsWithin name)).getD []) ++
    [(name, if isSuccess q.1 then successDeclaration name q.2.schema
      else failureDeclaration name q.2.schema)]

def armOf (operation : String) (successes : Nat) (q : Nat × Response) : Arm :=
  ⟨q.1, responseTypeName operation successes q.1⟩

theorem declares_emitResponses (d : Document) (operation : String) (successes : Nat)
    (responses : List (Nat × Response)) :
    Declares (emitResponses d operation successes responses)
      (∀ q ∈ responses, ∀ s, q.2.schema = some s → FitsResponse (Known d) q.1 s)
      (responses.map (armOf operation successes))
      (responses.flatMap (responseTypes operation successes)) := by
  induction responses with
  | nil =>
    rw [emitResponses]
    exact (declares_pure _).congr (by simp)
  | cons q rest ih =>
    obtain ⟨code, r⟩ := q
    have htype : Declares
        (if isSuccess code then
          emitSuccessType d (responseTypeName operation successes code) r.schema
        else emitErrorType d (responseTypeName operation successes code) r.schema)
        (∀ s, r.schema = some s → FitsResponse (Known d) code s) ()
        (responseTypes operation successes (code, r)) := by
      unfold responseTypes FitsResponse
      split
      · exact declares_emitSuccessType d _ r.schema
      · exact declares_emitErrorType d _ r.schema
    rw [emitResponses, List.forall_mem_cons, List.flatMap_cons]
    apply (htype.within _).bind
    apply ih.result
    apply declares_pure

end ApiContract.GoClient
