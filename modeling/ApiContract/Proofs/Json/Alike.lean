import ApiContract.Proofs.Json.Text
import ApiContract.Proofs.Members

namespace ApiContract.Json

mutual

/-- Equal but for numbers, which only have to be written the same. -/
def Alike : Json → Json → Prop
  | null, null => True
  | bool a, bool b => a = b
  | number a, number b => a.text = b.text
  | string a, string b => a = b
  | array as, array bs => AlikeList as bs
  | object as, object bs => AlikeMembers as bs
  | _, _ => False

def AlikeList : List Json → List Json → Prop
  | [], [] => True
  | a :: as, b :: bs => Alike a b ∧ AlikeList as bs
  | _, _ => False

def AlikeMembers : List (String × Json) → List (String × Json) → Prop
  | [], [] => True
  | (k, a) :: as, (l, b) :: bs => k = l ∧ Alike a b ∧ AlikeMembers as bs
  | _, _ => False

end

/-- What may follow a value within a text, if anything does. -/
def EndsValue (r : List Char) : Prop := ∀ c ∈ r.head?, c = ',' ∨ c = '\n'

theorem endsValue_cons {c : Char} {r : List Char} (h : c = ',' ∨ c = '\n') :
    EndsValue (c :: r) := by
  simpa [EndsValue] using h

theorem endsValue_items (depth : Nat) (vs : List Json) (r : List Char) :
    EndsValue (prettyItems depth vs ++ r) := by
  cases vs with
  | nil => exact endsValue_cons (Or.inr rfl)
  | cons v vs =>
    rw [prettyItems]
    exact endsValue_cons (Or.inl rfl)

theorem endsValue_members (depth : Nat) (ms : List (String × Json)) (r : List Char) :
    EndsValue (prettyMembers depth ms ++ r) := by
  cases ms with
  | nil => exact endsValue_cons (Or.inr rfl)
  | cons p ms =>
    rw [prettyMembers]
    exact endsValue_cons (Or.inl rfl)

/-- A run of numeric characters ends where the rest is not numeric. -/
theorem numeric_append_inj {a b r r' : List Char} (ha : ∀ c ∈ a, isNumeric c)
    (hb : ∀ c ∈ b, isNumeric c) (hr : EndsValue r) (hr' : EndsValue r')
    (h : a ++ r = b ++ r') : a = b ∧ r = r' := by
  have stops : ∀ {c : Char} {a r r' : List Char}, isNumeric c → EndsValue r → r ≠ c :: a ++ r' := by
    intro c a r r' hc hr he
    subst he
    rcases hr c rfl with rfl | rfl <;> exact absurd hc (by decide)
  induction a generalizing b with
  | nil =>
    cases b with
    | nil => exact ⟨rfl, h⟩
    | cons d b => exact absurd h (stops (hb d (by simp)) hr)
  | cons c a ih =>
    cases b with
    | nil => exact absurd h.symm (stops (ha c (by simp)) hr')
    | cons d b =>
      obtain ⟨hcd, htail⟩ := List.cons.inj h
      obtain ⟨hab, hrest⟩ := ih (fun c hc => ha c (List.mem_cons_of_mem _ hc))
        (fun c hc => hb c (List.mem_cons_of_mem _ hc)) htail
      exact ⟨by rw [hcd, hab], hrest⟩

/-- The forms of a value that show in the first character of its text. -/
inductive Form where
  | null
  | true
  | false
  | number
  | string
  | array
  | object
deriving DecidableEq

def form : Json → Form
  | null => .null
  | bool true => .true
  | bool false => .false
  | number _ => .number
  | string _ => .string
  | array _ => .array
  | object _ => .object

def formOf (c : Char) : Form :=
  match c with
  | 'n' => .null
  | 't' => .true
  | 'f' => .false
  | '"' => .string
  | '[' => .array
  | '\x7b' => .object
  | _ => .number

theorem formOf_numeric {c : Char} (h : isNumeric c) : formOf c = .number := by
  unfold formOf
  split <;> first | rfl | exact absurd h (by decide)

/-- The form of a value shows in its text, whatever follows. -/
theorem form_prettyText (depth : Nat) (v : Json) {r : List Char} (hr : EndsValue r) :
    ((prettyText depth v ++ r).head?.map formOf).getD .number = v.form := by
  cases v with
  | null => rfl
  | bool b => cases b <;> rfl
  | string s => rfl
  | array vs => cases vs <;> simp [prettyText, form, formOf]
  | object ms => cases ms <;> simp [prettyText, form, formOf]
  | number n =>
    simp only [prettyText, form]
    cases ht : n.text with
    | cons c cs =>
      have hc : c ∈ n.text := by simp [ht]
      simp [formOf_numeric (isNumeric_of_mem_text hc)]
    | nil =>
      cases r with
      | nil => rfl
      | cons c r => rcases hr c rfl with rfl | rfl <;> rfl

/-- A value of each form. -/
theorem of_form (w : Json) :
    match w.form with
    | .null => w = null
    | .true => w = bool true
    | .false => w = bool false
    | .number => ∃ n, w = number n
    | .string => ∃ s, w = string s
    | .array => ∃ ws, w = array ws
    | .object => ∃ ms, w = object ms := by
  match w with
  | null | bool true | bool false => rfl
  | number _ | string _ | array _ | object _ => exact ⟨_, rfl⟩

mutual

/-- Values with one text are alike, and what follows the text is the same too. -/
theorem alike_of_prettyText (depth : Nat) (v w : Json) {r r' : List Char} (hr : EndsValue r)
    (hr' : EndsValue r') (h : prettyText depth v ++ r = prettyText depth w ++ r') :
    Alike v w ∧ r = r' := by
  have hw := of_form w
  rw [← form_prettyText depth w hr', ← h, form_prettyText depth v hr] at hw
  match v with
  | null | bool true | bool false =>
    obtain rfl := hw
    exact ⟨by simp [Alike], by simpa [prettyText] using h⟩
  | number n =>
    obtain ⟨m, rfl⟩ := hw
    rw [prettyText, prettyText] at h
    exact numeric_append_inj (fun _ => isNumeric_of_mem_text) (fun _ => isNumeric_of_mem_text)
      hr hr' h
  | string s =>
    obtain ⟨t, rfl⟩ := hw
    rw [prettyText, prettyText] at h
    exact quoted_append_inj h
  | array vs =>
    obtain ⟨ws, rfl⟩ := hw
    match vs, ws with
    | [], [] => exact ⟨trivial, by simpa [prettyText] using h⟩
    | [], w :: ws | v :: vs, [] => simp [prettyText, newline] at h
    | v :: vs, w :: ws =>
      simp only [prettyText, List.cons_append, List.append_assoc, List.cons.injEq, true_and,
        List.append_cancel_left_eq] at h
      obtain ⟨hv, h⟩ := alike_of_prettyText (depth + 1) v w (endsValue_items depth vs r)
        (endsValue_items depth ws r') h
      obtain ⟨hvs, h⟩ := alike_of_prettyItems depth vs ws h
      exact ⟨⟨hv, hvs⟩, h⟩
  | object ms =>
    obtain ⟨ns, rfl⟩ := hw
    match ms, ns with
    | [], [] => exact ⟨trivial, by simpa [prettyText] using h⟩
    | [], _ :: _ | _ :: _, [] => simp [prettyText, newline] at h
    | (k, v) :: ms, (l, w) :: ns =>
      simp only [prettyText, List.cons_append, List.append_assoc, List.cons.injEq, true_and,
        List.append_cancel_left_eq] at h
      obtain ⟨hk, h⟩ := quoted_append_inj h
      simp only [List.cons.injEq, true_and] at h
      obtain ⟨hv, h⟩ := alike_of_prettyText (depth + 1) v w (endsValue_members depth ms r)
        (endsValue_members depth ns r') h
      obtain ⟨hms, h⟩ := alike_of_prettyMembers depth ms ns h
      exact ⟨⟨hk, hv, hms⟩, h⟩

theorem alike_of_prettyItems (depth : Nat) (vs ws : List Json) {r r' : List Char}
    (h : prettyItems depth vs ++ r = prettyItems depth ws ++ r') : AlikeList vs ws ∧ r = r' := by
  match vs, ws with
  | [], [] => exact ⟨trivial, by simpa [prettyItems] using h⟩
  | [], w :: ws | v :: vs, [] => simp [prettyItems, newline] at h
  | v :: vs, w :: ws =>
    simp only [prettyItems, List.cons_append, List.append_assoc, List.cons.injEq, true_and,
      List.append_cancel_left_eq] at h
    obtain ⟨hv, h⟩ := alike_of_prettyText (depth + 1) v w (endsValue_items depth vs r)
      (endsValue_items depth ws r') h
    obtain ⟨hvs, h⟩ := alike_of_prettyItems depth vs ws h
    exact ⟨⟨hv, hvs⟩, h⟩

theorem alike_of_prettyMembers (depth : Nat) (ms ns : List (String × Json)) {r r' : List Char}
    (h : prettyMembers depth ms ++ r = prettyMembers depth ns ++ r') :
    AlikeMembers ms ns ∧ r = r' := by
  match ms, ns with
  | [], [] => exact ⟨trivial, by simpa [prettyMembers] using h⟩
  | [], _ :: _ | _ :: _, [] => simp [prettyMembers, newline] at h
  | (k, v) :: ms, (l, w) :: ns =>
    simp only [prettyMembers, List.cons_append, List.append_assoc, List.cons.injEq, true_and,
      List.append_cancel_left_eq] at h
    obtain ⟨hk, h⟩ := quoted_append_inj h
    simp only [List.cons.injEq, true_and] at h
    obtain ⟨hv, h⟩ := alike_of_prettyText (depth + 1) v w (endsValue_members depth ms r)
      (endsValue_members depth ns r') h
    obtain ⟨hms, h⟩ := alike_of_prettyMembers depth ms ns h
    exact ⟨⟨hk, hv, hms⟩, h⟩

end

theorem form_of_alike {v w : Json} (h : Alike v w) : v.form = w.form := by
  cases v <;> cases w <;> simp_all [Alike, form]

mutual

theorem prettyText_of_alike (depth : Nat) (v w : Json) (h : Alike v w) :
    prettyText depth v = prettyText depth w := by
  have hw := of_form w
  rw [← form_of_alike h] at hw
  match v with
  | null | bool true | bool false =>
    obtain rfl := hw
    rfl
  | number n =>
    obtain ⟨m, rfl⟩ := hw
    simpa [prettyText, Alike] using h
  | string s =>
    obtain ⟨t, rfl⟩ := hw
    simpa [prettyText, Alike] using congrArg quoted h
  | array vs =>
    obtain ⟨ws, rfl⟩ := hw
    match vs, ws, h with
    | [], [], _ => rfl
    | v :: vs, w :: ws, h =>
      rw [prettyText, prettyText, prettyText_of_alike (depth + 1) v w h.1,
        prettyItems_of_alike depth vs ws h.2]
  | object ms =>
    obtain ⟨ns, rfl⟩ := hw
    match ms, ns, h with
    | [], [], _ => rfl
    | (k, v) :: ms, (l, w) :: ns, h =>
      rw [prettyText, prettyText, h.1, prettyText_of_alike (depth + 1) v w h.2.1,
        prettyMembers_of_alike depth ms ns h.2.2]

theorem prettyItems_of_alike (depth : Nat) (vs ws : List Json) (h : AlikeList vs ws) :
    prettyItems depth vs = prettyItems depth ws := by
  match vs, ws, h with
  | [], [], _ => rfl
  | v :: vs, w :: ws, h =>
    rw [prettyItems, prettyItems, prettyText_of_alike (depth + 1) v w h.1,
      prettyItems_of_alike depth vs ws h.2]

theorem prettyMembers_of_alike (depth : Nat) (ms ns : List (String × Json))
    (h : AlikeMembers ms ns) : prettyMembers depth ms = prettyMembers depth ns := by
  match ms, ns, h with
  | [], [], _ => rfl
  | (k, v) :: ms, (l, w) :: ns, h =>
    rw [prettyMembers, prettyMembers, h.1, prettyText_of_alike (depth + 1) v w h.2.1,
      prettyMembers_of_alike depth ms ns h.2.2]

end

theorem pretty_eq_iff {v w : Json} : v.pretty = w.pretty ↔ Alike v w := by
  constructor
  · intro h
    have ht : prettyText 0 v ++ [] = prettyText 0 w ++ [] := by
      simpa using String.ofList_injective h
    exact (alike_of_prettyText 0 v w (by simp [EndsValue]) (by simp [EndsValue]) ht).1
  · intro h
    exact congrArg String.ofList (prettyText_of_alike 0 v w h)

/-- The text of a value with the members of every object by name. -/
def sortedText (v : Json) : String := v.canonical.pretty

theorem sortedText_eq_iff {v w : Json} :
    v.sortedText = w.sortedText ↔ Alike v.canonical w.canonical :=
  pretty_eq_iff

theorem canonicalList_eq_map (vs : List Json) : canonicalList vs = vs.map canonical := by
  induction vs with
  | nil => rfl
  | cons v vs ih => rw [canonicalList, ih, List.map_cons]

theorem canonicalMembers_eq_map (ms : List (String × Json)) :
    canonicalMembers ms = ms.map fun p => (p.1, p.2.canonical) := by
  induction ms with
  | nil => rfl
  | cons p ms ih =>
    obtain ⟨k, v⟩ := p
    rw [canonicalMembers, ih, List.map_cons]

theorem find?_of_alikeMembers {ms ns : List (String × Json)} (h : AlikeMembers ms ns)
    (name : String) :
    (Members.find? ms name).map pretty = (Members.find? ns name).map pretty := by
  induction ms generalizing ns with
  | nil =>
    cases ns with
    | nil => rfl
    | cons => exact False.elim h
  | cons p ms ih =>
    cases ns with
    | nil => exact False.elim h
    | cons q ns =>
      obtain ⟨k, v⟩ := p
      obtain ⟨l, w⟩ := q
      obtain ⟨rfl, hv, hms⟩ := h
      rw [Members.find?_cons, Members.find?_cons]
      split
      · exact congrArg some (pretty_eq_iff.mpr hv)
      · exact ih hms

/-- Objects with one sorted text hold values with one sorted text under each name. -/
theorem find?_of_sortedText {ms ns : List (String × Json)}
    (h : (object ms).sortedText = (object ns).sortedText) (name : String) :
    (Members.find? ms name).map sortedText = (Members.find? ns name).map sortedText := by
  have key : ∀ ms : List (String × Json), (Members.find? ms name).map sortedText =
      (Members.find? (Members.sorted (canonicalMembers ms)) name).map pretty := by
    intro ms
    rw [Members.find?_sorted, canonicalMembers_eq_map, Members.find?_map, Option.map_map]
    rfl
  rw [sortedText_eq_iff, canonical, canonical] at h
  rw [key, key, find?_of_alikeMembers h]

theorem map_pretty_of_alikeList {vs ws : List Json} (h : AlikeList vs ws) :
    vs.map pretty = ws.map pretty := by
  induction vs generalizing ws with
  | nil =>
    cases ws with
    | nil => rfl
    | cons => exact False.elim h
  | cons v vs ih =>
    cases ws with
    | nil => exact False.elim h
    | cons w ws => rw [List.map_cons, List.map_cons, pretty_eq_iff.mpr h.1, ih h.2]

/-- Lists with one sorted text hold values with one sorted text at each place. -/
theorem map_of_sortedText {vs ws : List Json}
    (h : (array vs).sortedText = (array ws).sortedText) :
    vs.map sortedText = ws.map sortedText := by
  rw [sortedText_eq_iff, canonical, canonical] at h
  have hm := map_pretty_of_alikeList h
  rw [canonicalList_eq_map, canonicalList_eq_map, List.map_map, List.map_map] at hm
  exact hm

theorem string_of_sortedText {s t : String} (h : (string s).sortedText = (string t).sortedText) :
    s = t :=
  sortedText_eq_iff.mp h

theorem bool_of_sortedText {a b : Bool} (h : (bool a).sortedText = (bool b).sortedText) : a = b :=
  sortedText_eq_iff.mp h

theorem form_canonical (v : Json) : v.canonical.form = v.form := by
  cases v with
  | bool b => cases b <;> rfl
  | _ => rfl

/-- Values with one sorted text have one form. -/
theorem form_of_sortedText {v w : Json} (h : v.sortedText = w.sortedText) : v.form = w.form := by
  rw [← form_canonical v, ← form_canonical w, form_of_alike (sortedText_eq_iff.mp h)]

mutual

/-- The number of values that stand in a value, itself among them. -/
def nodes : Json → Nat
  | array vs => 1 + nodesList vs
  | object ms => 1 + nodesMembers ms
  | _ => 1

def nodesList : List Json → Nat
  | [] => 0
  | v :: vs => nodes v + nodesList vs

def nodesMembers : List (String × Json) → Nat
  | [] => 0
  | (_, v) :: ms => nodes v + nodesMembers ms

end

mutual

theorem nodes_of_alike (v w : Json) (h : Alike v w) : nodes v = nodes w := by
  match v, w, h with
  | null, null, _ | bool _, bool _, _ | number _, number _, _ | string _, string _, _ => rfl
  | array vs, array ws, h => rw [nodes, nodes, nodes_of_alikeList vs ws h]
  | object ms, object ns, h => rw [nodes, nodes, nodes_of_alikeMembers ms ns h]

theorem nodes_of_alikeList (vs ws : List Json) (h : AlikeList vs ws) :
    nodesList vs = nodesList ws := by
  match vs, ws, h with
  | [], [], _ => rfl
  | v :: vs, w :: ws, h =>
    rw [nodesList, nodesList, nodes_of_alike v w h.1, nodes_of_alikeList vs ws h.2]

theorem nodes_of_alikeMembers (ms ns : List (String × Json)) (h : AlikeMembers ms ns) :
    nodesMembers ms = nodesMembers ns := by
  match ms, ns, h with
  | [], [], _ => rfl
  | (k, v) :: ms, (l, w) :: ns, h =>
    rw [nodesMembers, nodesMembers, nodes_of_alike v w h.2.1, nodes_of_alikeMembers ms ns h.2.2]

end

theorem nodesMembers_perm {ms ns : List (String × Json)} (h : ms.Perm ns) :
    nodesMembers ms = nodesMembers ns := by
  induction h with
  | nil => rfl
  | cons p _ ih => rw [nodesMembers, nodesMembers, ih]
  | swap p q ms =>
    simp only [nodesMembers]
    omega
  | trans _ _ ih ih' => rw [ih, ih']

theorem nodesMembers_sorted (ms : List (String × Json)) :
    nodesMembers (Members.sorted ms) = nodesMembers ms :=
  nodesMembers_perm (Members.sorted_perm ms)

mutual

theorem nodes_canonical (v : Json) : v.canonical.nodes = v.nodes := by
  match v with
  | null | bool _ | number _ | string _ => rfl
  | array vs => rw [canonical, nodes, nodes, nodesList_canonical vs]
  | object ms => rw [canonical, nodes, nodes, nodesMembers_sorted, nodesMembers_canonical ms]

theorem nodesList_canonical (vs : List Json) : nodesList (canonicalList vs) = nodesList vs := by
  match vs with
  | [] => rfl
  | v :: vs => rw [canonicalList, nodesList, nodesList, nodes_canonical v, nodesList_canonical vs]

theorem nodesMembers_canonical (ms : List (String × Json)) :
    nodesMembers (canonicalMembers ms) = nodesMembers ms := by
  match ms with
  | [] => rfl
  | (k, v) :: ms =>
    rw [canonicalMembers, nodesMembers, nodesMembers, nodes_canonical v, nodesMembers_canonical ms]

end

theorem nodes_of_sortedText {v w : Json} (h : v.sortedText = w.sortedText) :
    v.nodes = w.nodes := by
  rw [← nodes_canonical v, ← nodes_canonical w, nodes_of_alike _ _ (sortedText_eq_iff.mp h)]

theorem nodes_lt_of_mem {ms : List (String × Json)} {name : String} {v : Json}
    (h : (name, v) ∈ ms) : v.nodes < (object ms).nodes := by
  suffices v.nodes ≤ nodesMembers ms by
    rw [nodes]
    omega
  induction ms with
  | nil => cases h
  | cons p ms ih =>
    obtain ⟨k, w⟩ := p
    rw [nodesMembers]
    rcases List.mem_cons.mp h with he | h
    · cases he
      omega
    · have hle := ih h
      omega

mutual

/-- How deep lists and objects stand inside each other. -/
def depth : Json → Nat
  | array vs => depthOfList vs + 1
  | object ms => depthOfMembers ms + 1
  | _ => 0

def depthOfList : List Json → Nat
  | [] => 0
  | v :: vs => max (depth v) (depthOfList vs)

def depthOfMembers : List (String × Json) → Nat
  | [] => 0
  | (_, v) :: ms => max (depth v) (depthOfMembers ms)

end

theorem depthOfList_le_iff {vs : List Json} {n : Nat} :
    depthOfList vs ≤ n ↔ ∀ v ∈ vs, v.depth ≤ n := by
  induction vs with
  | nil => simp [depthOfList]
  | cons v vs ih => rw [depthOfList, Nat.max_le, ih, List.forall_mem_cons]

theorem depthOfMembers_le_iff {ms : List (String × Json)} {n : Nat} :
    depthOfMembers ms ≤ n ↔ ∀ p ∈ ms, p.2.depth ≤ n := by
  induction ms with
  | nil => simp [depthOfMembers]
  | cons p ms ih =>
    obtain ⟨k, v⟩ := p
    rw [depthOfMembers, Nat.max_le, ih, List.forall_mem_cons]

end ApiContract.Json
