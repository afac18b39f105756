import ApiContract.Proofs.Document.StatusCodes
import ApiContract.Proofs.Extraction.Factored
import ApiContract.Proofs.GoClient.Generatable

namespace ApiContract

open Extraction

namespace Schema

variable {s child : Schema} {name : String}

/-- Only an object has properties. -/
def Proper (s : Schema) : Prop := s.properties ≠ [] → s.isObject

theorem insert_ne_nil (properties : List (String × Schema)) (name : String) (child : Schema) :
    Members.insert properties name child ≠ [] := by
  intro he
  have hf := Members.find?_insert_self properties name child
  rw [he] at hf
  cases hf

theorem kind_setProperty (hn : s.properties ≠ []) (name : String) (child : Schema) :
    kind { s with properties := Members.insert s.properties name child } = s.kind := by
  simp only [kind, List.isEmpty_eq_false_iff.mpr hn,
    List.isEmpty_eq_false_iff.mpr (insert_ne_nil s.properties name child)]

theorem shallow_proper : Shallow Proper where
  properties s name child h hn _ := by
    rw [isObject, kind_setProperty hn]
    exact h hn
  items _ _ h := h

/-- What has properties is an object, unless it is an array. -/
theorem Proper.kind (h : s.Proper) (hk : s.kind ≠ .array)
    (hc : Members.find? s.properties name = some child) : s.kind = .object := by
  have ho := h (properties_ne_nil_of_find? hc)
  simp only [isObject, Bool.or_eq_true, Bool.and_eq_true, decide_eq_true_eq] at ho
  rcases ho with ho | ⟨hr, ht⟩
  · exact ho
  · have hr : ApiContract.referenceName s.reference = none := hr
    have ht : ApiContract.hasType s.types .object = true := ht
    have ha : ¬ ApiContract.hasType s.types .array = true := fun ha =>
      hk (by simp [Schema.kind, kindOf, hr, ha])
    simp [Schema.kind, kindOf, hr, ha, ht]

end Schema

namespace GoClient

variable {known known' : String → Prop} {position : Position} {s t child new : Schema}
  {slot slot' : Slot} {steps : List String} {route : Route} {name : String} {d d' : Document}
  {root : Root} {properties : List (String × Schema)} {path : String} {item : PathItem}
  {op : Operation} {rule : Rule} {rules : List Rule} {result : Except Extraction.Fault Outcome}
  {options : Options}

theorem Fits.of_array (h : Fits known position s) (hk : s.kind = .array) :
    position ≠ .element ∧ ∃ item, s.singleItems = some item ∧ Fits known .element item := by
  cases h with
  | array hp _ hi hf => exact ⟨hp, _, hi, hf⟩
  | reference hk' | primitive hk' | object hk' | empty hk' =>
    rw [hk] at hk'
    cases hk'

theorem Fits.of_object (h : Fits known position s) (hk : s.kind = .object) :
    ∀ p ∈ s.properties, Fits known .field p.2 := by
  cases h with
  | object _ hp => exact hp
  | reference hk' | primitive hk' | array _ hk' | empty hk' =>
    rw [hk] at hk'
    cases hk'

theorem fits_insert (h : ∀ p ∈ properties, Fits known .field p.2) (hc : Fits known .field child) :
    ∀ p ∈ Members.insert properties name child, Fits known .field p.2 := by
  intro p hp
  rcases Members.mem_of_mem_insert hp with hp | rfl
  · exact h p hp
  · exact hc

theorem exists_of_route_prefix {move : Move} (h : slot.route ++ [move] <+: slot'.route)
    (hr : slot'.route = slot.route ++ route) :
    ∃ rest, route = move :: rest ∧ slot'.route = slot.route ++ [move] ++ rest := by
  obtain ⟨rest, hrest⟩ := h
  refine ⟨rest, ?_, hrest.symm⟩
  rw [hr, List.append_assoc] at hrest
  exact (List.append_cancel_left hrest).symm

/-- A slot holds what fits as a definition, and a reference fits in its place. -/
theorem Fits.located (hl : Located slot s steps slot' t) (hf : Fits known position s)
    (hp : s.Every Schema.Proper) :
    Fits known .named t ∧ ∀ route, slot'.route = slot.route ++ route →
      ∀ new, (∀ position, Fits known position new) → Fits known position (s.put route new) := by
  induction hl generalizing position with
  | stop =>
    refine ⟨hf.named, fun route hr new hnew => ?_⟩
    obtain rfl : route = [] := by simpa using hr
    exact hnew position
  | @items slot slot' s item t steps ha hi hl ih =>
    obtain ⟨hpos, item', hi', hfi⟩ := hf.of_array ha
    obtain rfl := Option.some.inj (hi.symm.trans hi')
    obtain ⟨ht, hput⟩ := ih hfi (hp.ofItems hi)
    refine ⟨ht, fun route hr new hnew => ?_⟩
    obtain ⟨rest, rfl, hrest⟩ := exists_of_route_prefix hl.route_prefix hr
    rw [Schema.put_items hi]
    exact .array hpos ha rfl (hput rest hrest new hnew)
  | @property slot slot' s child t step rest ha hc hl ih =>
    have ho := hp.self.kind ha hc
    have hfields := hf.of_object ho
    obtain ⟨ht, hput⟩ := ih (hfields _ (Members.mem_of_find? hc)) (hp.ofProperty hc)
    refine ⟨ht, fun route hr new hnew => ?_⟩
    obtain ⟨rest, rfl, hrest⟩ := exists_of_route_prefix hl.route_prefix hr
    rw [Schema.put_property hc]
    refine .object ?_ (fits_insert hfields (hput rest hrest new hnew))
    rw [Schema.kind_setProperty (Schema.properties_ne_nil_of_find? hc), ho]

/-- The schema of a failure may be a reference that the generator does not look up. -/
theorem FitsFailure.located (hl : Located {} s steps slot t) (hf : FitsFailure known s)
    (hp : s.Every Schema.Proper) (hr : ∀ name, s.referenceName = some name → known name) :
    Fits known .named t ∧ ∀ new, (∃ name, new.kind = .reference name ∧ known name) →
      FitsFailure known (s.put slot.route new) := by
  have hnamed : Fits known .named s := by
    rcases hf with ⟨name, hk⟩ | ⟨hk, hfields⟩
    · exact .reference hk (hr name (Schema.kind_eq_reference_iff.mp hk))
    · exact .object hk hfields
  obtain ⟨ht, hput⟩ := hnamed.located hl hp
  refine ⟨ht, ?_⟩
  rintro new ⟨name, hk, hn⟩
  have hnew := hput slot.route rfl new fun _ => .reference hk hn
  cases hl with
  | stop => exact Or.inl ⟨name, hk⟩
  | items ha =>
    rcases hf with ⟨other, hk'⟩ | ⟨hk', -⟩
    · rw [ha] at hk'
      cases hk'
    · rw [ha] at hk'
      cases hk'
  | property ha hc hl =>
    obtain ⟨rest, hroute, -⟩ := exists_of_route_prefix hl.route_prefix (List.nil_append _).symm
    have hkind : (s.put slot.route new).kind = .object := by
      rw [hroute, Schema.put_property hc,
        Schema.kind_setProperty (Schema.properties_ne_nil_of_find? hc), hp.self.kind ha hc]
    exact Or.inr ⟨hkind, hnew.of_object hkind⟩

/-- There is a type for the schema at a root, if the root is one that the generator comes by. -/
def FitsRoot (known : String → Prop) (root : Root) (s : Schema) : Prop :=
  match root with
  | .response _ _ key => ∀ code, statusCode? key = some code → FitsResponse known code s
  | .definition _ => Fits known .named s

theorem FitsFailure.mono (h : FitsFailure known s) (hk : ∀ name, known name → known' name) :
    FitsFailure known' s :=
  h.imp_right fun ⟨hkind, hp⟩ => ⟨hkind, fun p hm => (hp p hm).mono hk⟩

theorem FitsResponse.mono {code : Nat} (h : FitsResponse known code s)
    (hk : ∀ name, known name → known' name) : FitsResponse known' code s := by
  unfold FitsResponse at h ⊢
  split
  · rw [if_pos ‹_›] at h
    exact Fits.mono h hk
  · rw [if_neg ‹_›] at h
    exact FitsFailure.mono h hk

theorem FitsOperation.mono (h : FitsOperation known d path item op)
    (hk : ∀ name, known name → known' name) : FitsOperation known' d path item op := by
  obtain ⟨⟨parameters, inputs, hp, hi, hfits⟩, hres⟩ := h
  refine ⟨⟨parameters, inputs, hp, hi, ⟨hfits.url, fun p hb => ?_, hfits.query⟩⟩,
    fun q hq s hs => (hres q hq s hs).mono hk⟩
  obtain ⟨s, hs, hname, hobject⟩ := hfits.body p hb
  refine ⟨s, hs, fun name hn => hk name (hname name hn), fun hn => ?_⟩
  obtain ⟨htype, hfields⟩ := hobject hn
  exact ⟨htype, fun q hq => (hfields q hq).mono hk⟩

/-- Of a document a request needs only the parameters that are shared. -/
theorem FitsRequest.congr {item' : PathItem} {op' : Operation}
    (h : FitsRequest known d path item op) (hd : d'.parameters = d.parameters)
    (hi : item'.parameters = item.parameters) (ho : op'.parameters = op.parameters) :
    FitsRequest known d' path item' op' := by
  obtain ⟨parameters, inputs, hp, hinputs⟩ := h
  refine ⟨parameters, inputs, ?_, hinputs⟩
  rw [← hp, Document.operationParameters, Document.operationParameters, hd, hi, ho]

theorem FitsOperation.congr {item' : PathItem} (h : FitsOperation known d path item op)
    (hd : d'.parameters = d.parameters) (hi : item'.parameters = item.parameters) :
    FitsOperation known d' path item' op :=
  ⟨h.request.congr hd hi rfl, h.responses⟩

theorem Generatable.mono (h : Generatable known d) (hk : ∀ name, known name → known' name) :
    Generatable known' d :=
  ⟨fun p hp => (h.definitions p hp).mono hk,
    fun p hp method op ho => (h.operations p hp method op ho).mono hk⟩

theorem Generatable.fitsRoot (h : Generatable known d) (hs : d.rootSchema? root = some s) :
    FitsRoot known root s := by
  cases root with
  | definition name => exact h.definitions _ (Members.mem_of_find? hs)
  | response path method key =>
    obtain ⟨item, op, r, hi, ho, hr, hs⟩ := Document.rootSchema?_response.mp hs
    intro code hcode
    have hop := h.operations _ (Members.mem_of_find? hi) method op ho
    have hmem : (code, r) ∈ op.statusCodes :=
      Operation.mem_statusCodes.mpr ⟨key, Members.mem_of_find? hr, hcode⟩
    exact hop.responses (code, r) hmem s hs

theorem Generatable.define (h : Generatable known d) (hf : Fits known .named s) (name : String) :
    Generatable known (d.define name s) := by
  refine ⟨fun p hp => ?_, fun p hp method op ho => (h.operations p hp method op ho).congr rfl rfl⟩
  rcases Members.mem_of_mem_insert hp with hp | rfl
  · exact h.definitions p hp
  · exact hf

theorem parameters_setOperation (item : PathItem) (method : Method) (op : Option Operation) :
    (item.setOperation method op).parameters = item.parameters := by
  cases method <;> rfl

theorem Generatable.setRoot (h : Generatable known d) (ht : d.rootSchema? root = some t)
    (hf : FitsRoot known root s) : Generatable known (d.setRoot root s) := by
  cases root with
  | definition name => exact h.define hf name
  | response path method key =>
    obtain ⟨item, op, r, hi, ho, hr, -⟩ := Document.rootSchema?_response.mp ht
    rw [Document.setRoot_response hi ho hr]
    refine ⟨h.definitions, fun p hp other op' ho' => ?_⟩
    rcases Members.mem_of_mem_insert hp with hp | rfl
    · exact (h.operations p hp other op' ho').congr rfl rfl
    · have hitem := h.operations _ (Members.mem_of_find? hi)
      have hparameters := parameters_setOperation item method
      by_cases hm : method = other
      · subst hm
        simp only [PathItem.operation_setOperation, Option.some.injEq] at ho'
        subst ho'
        have hop := hitem method op ho
        refine ⟨hop.request.congr rfl (hparameters _) rfl, fun q hq u hu => ?_⟩
        obtain ⟨code, r'⟩ := q
        obtain ⟨other, hm, hcode⟩ := Operation.mem_statusCodes.mp hq
        rcases Members.mem_of_mem_insert hm with hm | he
        · exact hop.responses (code, r') (Operation.mem_statusCodes.mpr ⟨other, hm, hcode⟩) u hu
        · cases he
          cases hu
          exact hf code hcode
      · simp only [PathItem.operation_setOperation_of_ne _ _ hm] at ho'
        exact (hitem other op' ho').congr rfl (hparameters _)

theorem FitsRoot.located (hl : Located {} s steps slot t) (hf : FitsRoot known root s)
    (hp : s.Every Schema.Proper)
    (hr : ∀ path method key, root = .response path method key →
      (∃ code, statusCode? key = some code) ∧ ∀ name, s.referenceName = some name → known name) :
    Fits known .named t ∧ ∀ new, (∃ name, new.kind = .reference name ∧ known name) →
      FitsRoot known root (s.put slot.route new) := by
  have hnamed : ∀ {s : Schema}, Located {} s steps slot t → Fits known .named s →
      s.Every Schema.Proper → Fits known .named t ∧
        ∀ new, (∃ name, new.kind = .reference name ∧ known name) →
          Fits known .named (s.put slot.route new) := by
    intro s hl hf hp
    obtain ⟨ht, hput⟩ := hf.located hl hp
    refine ⟨ht, ?_⟩
    rintro new ⟨name, hk, hn⟩
    exact hput slot.route rfl new fun _ => .reference hk hn
  cases root with
  | definition name => exact hnamed hl hf hp
  | response path method key =>
    obtain ⟨⟨code, hcode⟩, hknown⟩ := hr path method key rfl
    have hfits := hf code hcode
    have hroot : ∀ s, FitsResponse known code s → FitsRoot known (.response path method key) s := by
      intro s hs other hother
      obtain rfl := Option.some.inj (hcode.symm.trans hother)
      exact hs
    by_cases hsuccess : isSuccess code
    · rw [FitsResponse, if_pos hsuccess] at hfits
      obtain ⟨ht, hput⟩ := hnamed hl hfits hp
      refine ⟨ht, fun new hnew => hroot _ ?_⟩
      rw [FitsResponse, if_pos hsuccess]
      exact hput new hnew
    · rw [FitsResponse, if_neg hsuccess] at hfits
      obtain ⟨ht, hput⟩ := hfits.located hl hp hknown
      refine ⟨ht, fun new hnew => hroot _ ?_⟩
      rw [FitsResponse, if_neg hsuccess]
      exact hput new hnew

/-- A client can be generated from a document, also when any schema that a rule can reach has become
a definition. Only a failure may refer to something that the generator does not look up. -/
structure Movable (d : Document) : Prop where
  generatable : Generatable (Known d) d
  proper : d.Every Schema.Proper
  answers : ∀ path method key s name, d.rootSchema? (.response path method key) = some s →
    s.referenceName = some name → Known d name

theorem Movable.fits {place : Place} (h : Movable d) (hslot : slotOf d rule = .ok place)
    (ht : d.schemaAt? place = some t) (hcode : rule.code < 65536)
    (hk : ∀ name, Known d name → known name) :
    Fits known .named t ∧ ∀ new, (∃ name, new.kind = .reference name ∧ known name) →
      Generatable known (d.put place new) := by
  obtain ⟨last, root, slot, u, hw, hr, hl, rfl⟩ := located_of_slotFrom hslot
  have hr := schema_eq_ok.mp hr
  obtain rfl : u = t := by
    have hu : root.at? slot.route = some u := hl.at? rfl
    simpa [Document.schemaAt?, hr, hu] using ht
  have hgen := h.generatable.mono hk
  obtain ⟨hfits, hput⟩ := (hgen.fitsRoot hr).located hl (h.proper _ _ hr) (by
    intro path method key he
    refine ⟨?_, fun name hn => hk name (h.answers path method key root name (he ▸ hr) hn)⟩
    obtain ⟨definition, offset⟩ := last
    cases definition with
    | none =>
      cases he
      exact ⟨rule.code, statusCode?_toString hcode⟩
    | some name => cases he)
  refine ⟨hfits, fun new hnew => ?_⟩
  rw [Document.put_of_rootSchema? hr]
  exact hgen.setRoot hr (hput new hnew)

/-- The whole schema of a response refers to what it did before, or to what was put there. -/
theorem referenceName_of_put {place : Place} {other : String} (ht : d.schemaAt? place = some t)
    (hn : new.referenceName = some name) (hs : (d.put place new).rootSchema? root = some s)
    (hr : s.referenceName = some other) :
    other = name ∨ ∃ u, d.rootSchema? root = some u ∧ u.referenceName = some other := by
  cases hu : d.rootSchema? root with
  | none =>
    rw [(Document.rootSchema?_put_eq_none ht new).mpr hu] at hs
    cases hs
  | some u =>
    rw [Document.rootSchema?_put ht hu] at hs
    cases hs
    split at hr
    · rename_i he
      subst he
      have hat : u.at? place.route = some t := by simpa [Document.schemaAt?, hu] using ht
      by_cases hroute : place.route = []
      · rw [hroute, Schema.put, hn] at hr
        exact Or.inl (Option.some.inj hr).symm
      · rw [← (Schema.agrees_put hat hroute).referenceName] at hr
        exact Or.inr ⟨u, rfl, hr⟩
    · exact Or.inr ⟨u, rfl, hr⟩

theorem proper_written (place : Place) (s : Schema) (name : String) :
    (written place s name).Proper := by
  unfold written
  split <;> exact fun hn => absurd rfl hn

theorem movable_applies (h : Applies d rule d' result) (hm : Movable d) (hcode : rule.code < 65536)
    (hname : ¬ definitionsRoot.toList <+: rule.definition.toList) : Movable d' := by
  have hk : ∀ name, Known d name → Known d' name := by
    intro name hn
    rw [known_iff] at hn ⊢
    exact h.find?_isSome hn
  have hproper := h.every Schema.shallow_proper hm.proper
    fun place s => proper_written place s rule.definition
  have hthere : ∀ outcome, result = .ok outcome → outcome ≠ .alreadyReferenced →
      Known d' rule.definition := by
    rintro outcome rfl hne
    rw [known_iff, withoutStart_of_not_prefix hname, h.definition_isSome]
    exact fun he => absurd he hne
  have hkind : ∀ place s, (written place s rule.definition).kind = .reference rule.definition :=
    fun place s => Schema.kind_eq_reference_iff.mpr (referenceName_written place s rule.definition)
  cases h with
  | lost | alreadyReferenced | conflict => exact hm
  | @reused place s existing hslot hs hne he ht =>
    have hknown := hthere _ rfl nofun
    obtain ⟨-, hput⟩ := hm.fits hslot hs hcode hk
    refine ⟨hput _ ⟨_, hkind place s, hknown⟩, hproper, ?_⟩
    intro path method key u other hu hr
    rcases referenceName_of_put hs (referenceName_written place s rule.definition) hu hr with
      rfl | ⟨v, hv, hr⟩
    · exact hknown
    · exact hk other (hm.answers path method key v other hv hr)
  | @inserted place s hslot hs hne hn =>
    have hknown := hthere _ rfl nofun
    obtain ⟨hfits, hput⟩ := hm.fits hslot hs hcode hk
    refine ⟨(hput _ ⟨_, hkind place s, hknown⟩).define hfits _, hproper, ?_⟩
    intro path method key u other hu hr
    rw [Document.rootSchema?_define, if_neg nofun] at hu
    rcases referenceName_of_put hs (referenceName_written place s rule.definition) hu hr with
      rfl | ⟨v, hv, hr⟩
    · exact hknown
    · exact hk other (hm.answers path method key v other hv hr)

/-- If a client is generated from a document, one is generated after any list of rules, however far
they get, unless a name would be declared twice. Where only objects have properties this needs no
more than that the generator finds the references that are the whole schema of a response, and takes
the names of the rules as they are. -/
theorem generate_extracted {file : File Declaration} (hproper : d.Every Schema.Proper)
    (hanswers : ∀ path method key s name, d.rootSchema? (.response path method key) = some s →
      s.referenceName = some name → ∃ found, d.definition name = .ok found)
    (hrules : ∀ rule ∈ rules,
      rule.code < 65536 ∧ ¬ definitionsRoot.toList <+: rule.definition.toList)
    (hfile : (generate d options).1 = .ok file) :
    (∃ file, (generate (extract d rules).document options).1 = .ok file) ∨
      ∃ fault name, (generate (extract d rules).document options).1 = .error fault ∧
        fault.cause = .declaredTwice name := by
  have hm : Movable (extract d rules).document := by
    rw [extract_document]
    refine applyRules_keeps_of_mem ?_ ⟨generatable_of_generate hfile, hproper, hanswers⟩
    intro rule hrule d d' result h hd
    exact movable_applies h hd (hrules rule hrule).1 (hrules rule hrule).2
  cases he : (generate (extract d rules).document options).1 with
  | ok file => exact Or.inl ⟨file, rfl⟩
  | error fault =>
    obtain ⟨name, hn⟩ := hm.generatable.declaredTwice he
    exact Or.inr ⟨fault, name, rfl, hn⟩

open Chain in
/-- The load of every link becomes a definition. -/
theorem chain_generates :
    (∃ file, (generate document {}).1 = .ok file) ∧
      ((∃ file, (generate (extract document [take "load" "Load"]).document {}).1 = .ok file) ∨
        ∃ fault name, (generate (extract document [take "load" "Load"]).document {}).1 =
          .error fault ∧ fault.cause = .declaredTwice name) := by
  have hfile : ∃ file, (generate document {}).1 = .ok file := by
    cases hg : (generate document {}).1 with
    | ok file => exact ⟨file, rfl⟩
    | error fault =>
      have hsome : (generate document {}).1.toOption.isSome := by decide +kernel
      rw [hg] at hsome
      cases hsome
  refine ⟨hfile, ?_⟩
  obtain ⟨file, hfile⟩ := hfile
  have hproper : document.Every Schema.Proper :=
    document_every nofun nofun (fun _ => by decide) (fun _ => by decide)
  refine generate_extracted hproper ?_ ?_ hfile
  · intro path method key s name hs hr
    have hclosed := (document_closed _ s hs).self name hr
    obtain rfl : name = "Link" := by
      refine Decidable.byContradiction fun hne => ?_
      simp [document, Members.find?, Ne.symm hne] at hclosed
    exact known_iff.mpr (by decide)
  · intro rule hrule
    obtain rfl := List.mem_singleton.mp hrule
    decide

namespace Prefixed

/-- The failure of an operation refers to a definition whose name begins like the path of a
reference. -/
def failure : Schema := { reference := some "#/definitions/#/definitions/X" }

def document : Document :=
  { swagger := "2.0"
    paths := [("/a", { get := some { responses := [("400", { schema := some failure })] } })]
    definitions := [("#/definitions/X", { types := some (.single .object) })] }

def toB : Rule := ⟨"/a", .get, 400, "", "B"⟩

/-- The failure's reference has become a definition. -/
def extracted : Document := (document.put ⟨toB.root, []⟩ (.referTo "B")).define "B" failure

theorem rootSchema?_toB : document.rootSchema? toB.root = some failure := by
  have hkey : toString 400 = "400" := by decide
  rw [Rule.root, toB, hkey]
  rfl

theorem applies_toB : Applies document toB extracted (.ok .inserted) := by
  have hl : Extraction.Leads document 0 ⟨toB.root, []⟩ failure (splitSteps toB.property)
      ⟨toB.root, []⟩ failure := .stop (by decide)
  have hs : document.schemaAt? ⟨toB.root, []⟩ = some failure := by
    simp [Document.schemaAt?, rootSchema?_toB, Schema.at?]
  exact .inserted (slotOf_of_leads rootSchema?_toB hl) hs (by decide) rfl

theorem document_every {P : Schema → Prop} (hf : P failure)
    (hx : P { types := some (.single .object) }) : document.Every P := by
  have hf : failure.Every P := Schema.every_iff.mpr ⟨hf, nofun, trivial⟩
  have hx : Schema.Every P { types := some (.single .object) } :=
    Schema.every_iff.mpr ⟨hx, nofun, trivial⟩
  refine Document.every_of_forall ?_ (by simp [document, hx])
  intro p hp method op hop r hres s hs
  obtain rfl := List.mem_singleton.mp hp
  cases method <;> cases hop
  obtain rfl := List.mem_singleton.mp hres
  cases hs
  exact hf

end Prefixed

open Prefixed in
/-- Every reference names a definition and only objects have properties, but of the reference that
has become a definition the generator takes the start off twice. -/
theorem prefixed_not_generated :
    document.Closed ∧ document.Every Schema.Proper ∧
      (generate document {}).1.toOption.isSome ∧
      ¬ definitionsRoot.toList <+: toB.definition.toList ∧
      (extract document [toB]).result = .ok () ∧
      (match (generate (extract document [toB]).document {}).1 with
        | .ok _ => none
        | .error fault => some fault) =
          some ⟨[.definition "B"], .unresolved (.unknownDefinition "X")⟩ := by
  obtain ⟨hd, hr⟩ := applies_toB.applyRule_eq
  have hdoc : (extract document [toB]).document = extracted := by
    simp [extract_document, applyRules, hd, hr]
  refine ⟨document_every ?_ ?_, document_every (fun h => absurd rfl h) (fun h => absurd rfl h),
    by decide +kernel, by decide +kernel, by simp [extract_result, applyRules, hd, hr], ?_⟩
  · intro name hname
    cases hname
    decide
  · intro name hname
    cases hname
  · rw [hdoc]
    decide +kernel

end GoClient

end ApiContract
