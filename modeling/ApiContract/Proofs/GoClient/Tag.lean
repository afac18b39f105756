import ApiContract.Proofs.GoClient.FreeText
import ApiContract.Proofs.GoClient.Literal
import Mathlib.Data.List.TakeWhile

namespace ApiContract.GoClient

open Text

/-- What stands before the backtick that ends a raw string, and what follows it. Carriage returns
are left out. -/
def readRaw? : List Char → Option (List Char × List Char)
  | [] => none
  | c :: cs =>
    if c = '\x60' then some ([], cs)
    else (readRaw? cs).map (behind (if c = '\r' then [] else [c]))

/-- The text of a raw string literal with nothing after it. -/
def rawText? : List Char → Option (List Char)
  | '\x60' :: cs => (readRaw? cs).bind fun (text, rest) => if rest = [] then some text else none
  | _ => none

theorem readRaw?_append {cs : List Char} (h : '\x60' ∉ cs) (rest : List Char) :
    readRaw? (cs ++ '\x60' :: rest) = some (cs.filter (· ≠ '\r'), rest) := by
  induction cs with
  | nil => rw [List.nil_append, readRaw?, if_pos rfl, List.filter_nil]
  | cons c cs ih =>
    obtain ⟨hc, hcs⟩ := not_or.mp (mt List.mem_cons.mpr h)
    rw [List.cons_append, readRaw?, if_neg (Ne.symm hc), ih hcs, List.filter_cons]
    split <;> rename_i hr <;> simp [behind, hr]

/-- A literal is whole if the backtick that ends it is the only one. -/
theorem rawText?_quoted (cs : List Char) :
    rawText? ('\x60' :: (cs ++ ['\x60'])) =
      if '\x60' ∈ cs then none else some (cs.filter (· ≠ '\r')) := by
  rw [rawText?]
  split
  · rename_i h
    obtain ⟨before, after, rfl, hbefore⟩ := List.eq_append_cons_of_mem h
    rw [List.append_assoc, List.cons_append, readRaw?_append hbefore]
    simp
  · rename_i h
    rw [readRaw?_append h]
    simp

/-- The characters of a key; all characters beyond ASCII may stand in it. -/
def isKeyPart (c : Char) : Bool := ' ' < c ∧ c ≠ ':' ∧ c ≠ '"' ∧ c ≠ '\x7f'

/-- What stands before the quote that ends a value, escapes as they are, and what follows it. -/
def quoted? : List Char → Option (List Char × List Char)
  | [] => none
  | '"' :: cs => some ([], cs)
  | '\\' :: c :: cs => (quoted? cs).map (behind ['\\', c])
  | c :: cs => (quoted? cs).map (behind [c])

theorem eq_append_of_quoted? {cs value rest : List Char} (h : quoted? cs = some (value, rest)) :
    cs = value ++ '"' :: rest := by
  induction cs using quoted?.induct generalizing value with
  | case1 => cases h
  | case2 cs =>
    cases h
    rfl
  | case3 c cs ih =>
    rw [quoted?] at h
    obtain ⟨found, hf, he⟩ := Option.map_eq_some_iff.mp h
    cases he
    rw [ih hf]
    rfl
  | case4 c cs hquote hescape ih =>
    rw [quoted?.eq_4 c cs hquote hescape] at h
    obtain ⟨found, hf, he⟩ := Option.map_eq_some_iff.mp h
    cases he
    rw [ih hf]
    rfl

theorem quoted?_append {cs : List Char} (h : ∀ c ∈ cs, c ≠ '"' ∧ c ≠ '\\') (rest : List Char) :
    quoted? (cs ++ '"' :: rest) = some (cs, rest) := by
  induction cs with
  | nil => rfl
  | cons c cs ih =>
    obtain ⟨⟨hquote, hbackslash⟩, hcs⟩ := List.forall_mem_cons.mp h
    rw [List.cons_append, quoted?, ih hcs]
    · rfl
    · exact hquote
    · rintro _ _ rfl
      exact absurd rfl hbackslash

/-- The text that a quoted value denotes. -/
def unquoted? (value : List Char) : Option (List Char) :=
  (readContent? (value ++ ['"'])).bind fun (text, rest) => if rest = [] then some text else none

/-- The key that a tag begins with, its quoted value and what follows. -/
def tagPair? (tag : List Char) : Option (List Char × List Char × List Char) :=
  let pair := tag.dropWhile (· = ' ')
  let key := pair.takeWhile isKeyPart
  match key, pair.dropWhile isKeyPart with
  | _ :: _, ':' :: '"' :: cs => (quoted? cs).map (key, ·)
  | _, _ => none

theorem length_lt_of_tagPair? {tag key value rest : List Char}
    (h : tagPair? tag = some (key, value, rest)) : rest.length < tag.length := by
  unfold tagPair? at h
  dsimp only at h
  split at h
  · rename_i cs _ hcs
    obtain ⟨found, hf, he⟩ := Option.map_eq_some_iff.mp h
    cases he
    have hpair := (List.dropWhile_suffix (· = ' ') (l := tag)).length_le
    have hcolon := (List.dropWhile_suffix isKeyPart (l := tag.dropWhile (· = ' '))).length_le
    rw [hcs, eq_append_of_quoted? hf] at hcolon
    simp at hpair hcolon
    omega
  · cases h

/-- The value of a key; what stands under the keys before it need not denote a text. -/
def tagValue? (key tag : List Char) : Option (List Char) :=
  match h : tagPair? tag with
  | none => none
  | some (other, value, rest) =>
    have : rest.length < tag.length := length_lt_of_tagPair? h
    if other = key then unquoted? value else tagValue? key rest
termination_by tag.length

theorem tagValue?_eq (key tag : List Char) :
    tagValue? key tag =
      (tagPair? tag).bind fun (other, value, rest) =>
        if other = key then unquoted? value else tagValue? key rest := by
  rw [tagValue?]
  split <;> rename_i h <;> simp only [h, Option.bind_none, Option.bind_some]

theorem tagPair?_append {key : List Char} (hne : key ≠ []) (hkey : key.all isKeyPart)
    (cs : List Char) : tagPair? (key ++ ':' :: '"' :: cs) = (quoted? cs).map (key, ·) := by
  have hkey := List.all_eq_true.mp hkey
  obtain ⟨c, rest, rfl⟩ := List.exists_cons_of_ne_nil hne
  have hblank : ((c :: rest) ++ ':' :: '"' :: cs).dropWhile (· = ' ') =
      (c :: rest) ++ ':' :: '"' :: cs := by
    have hc : c ≠ ' ' := by
      rintro rfl
      exact absurd (hkey ' ' List.mem_cons_self) (by decide)
    rw [List.cons_append, List.dropWhile_cons_of_neg (by simpa using hc)]
  have hcolon : isKeyPart ':' = false := by decide
  unfold tagPair?
  dsimp only
  rw [hblank, List.takeWhile_append_of_pos hkey, List.dropWhile_append_of_pos hkey,
    List.takeWhile_cons_of_neg (by simp [hcolon]), List.dropWhile_cons_of_neg (by simp [hcolon]),
    List.append_nil]
  rfl

theorem tagPair?_blank (tag : List Char) : tagPair? (' ' :: tag) = tagPair? tag := by
  unfold tagPair?
  rw [List.dropWhile_cons_of_pos (by decide)]

/-- What a quoted value denotes: each character itself, or what an escape stands for. -/
inductive Denotes : List Char → List Char → Prop
  | nil : Denotes [] []
  | char {c : Char} {source value : List Char} : c ≠ '"' → c ≠ '\n' → c ≠ '\\' →
      Denotes source value → Denotes (c :: source) (c :: value)
  | escape {c : Char} {digits source value : List Char} : digits ≠ [] → ',' ∉ digits →
      ('"' ∈ digits → digits = ['"'] ∧ c = '"') → Denotes source value →
      Denotes ('\\' :: (digits ++ source)) (c :: value)

theorem isSome_hexValue?_of_foldlM {base n m : Nat} {ds : List Char}
    (h : ds.foldlM (fun n c => ((hexValue? c).filter (· < base)).map (base * n + ·)) n = some m) :
    ∀ d ∈ ds, (hexValue? d).isSome := by
  induction ds generalizing n with
  | nil => exact nofun
  | cons d ds ih =>
    rw [List.foldlM_cons] at h
    obtain ⟨k, hk, hrest⟩ := Option.bind_eq_some_iff.mp h
    obtain ⟨value, hvalue, -⟩ := Option.map_eq_some_iff.mp hk
    have hd : hexValue? d = some value := (Option.filter_eq_some_iff.mp hvalue).1
    exact List.forall_mem_cons.mpr ⟨by simp [hd], ih hrest⟩

/-- Digits are no commas and no quotes. -/
theorem digits_of_numberEscape? {base digits bound : Nat} {cs rest : List Char} {c : Char}
    (hpos : 0 < digits) (h : numberEscape? base digits bound cs = some (c, rest)) :
    ∃ ds, cs = ds ++ rest ∧ ds ≠ [] ∧ ',' ∉ ds ∧ '"' ∉ ds := by
  unfold numberEscape? at h
  split at h
  · rename_i hle
    obtain ⟨n, hn, he⟩ := Option.map_eq_some_iff.mp h
    cases he
    have hdigits := isSome_hexValue?_of_foldlM (Option.filter_eq_some_iff.mp hn).1
    have hlength : (cs.take digits).length = digits := List.length_take_of_le hle
    refine ⟨cs.take digits, (List.take_append_drop digits cs).symm, ?_, ?_, ?_⟩
    · exact List.ne_nil_of_length_pos (by omega)
    · exact fun hc => absurd (hdigits _ hc) (by decide)
    · exact fun hc => absurd (hdigits _ hc) (by decide)
  · cases h

/-- An escape takes at least one character, never a comma, and a quote only to denote it. -/
theorem digits_of_escape? {cs rest : List Char} {c : Char} (h : escape? cs = some (c, rest)) :
    ∃ ds, cs = ds ++ rest ∧ ds ≠ [] ∧ ',' ∉ ds ∧ ('"' ∈ ds → ds = ['"'] ∧ c = '"') := by
  cases cs with
  | nil => cases h
  | cons d cs =>
    have hnumber : ∀ {base digits bound}, 0 < digits → d ≠ ',' → d ≠ '"' →
        numberEscape? base digits bound cs = some (c, rest) →
        ∃ ds, d :: cs = ds ++ rest ∧ ds ≠ [] ∧ ',' ∉ ds ∧ ('"' ∈ ds → ds = ['"'] ∧ c = '"') := by
      intro base digits bound hpos hcomma hquote hn
      obtain ⟨ds, rfl, -, hc, hq⟩ := digits_of_numberEscape? hpos hn
      refine ⟨d :: ds, rfl, List.cons_ne_nil _ _, ?_, ?_⟩
      · simp [hc, Ne.symm hcomma]
      · simp [hq, Ne.symm hquote]
    rw [escape?] at h
    split at h
    · subst d
      exact hnumber (by decide) (by decide) (by decide) h
    split at h
    · subst d
      exact hnumber (by decide) (by decide) (by decide) h
    split at h
    · subst d
      exact hnumber (by decide) (by decide) (by decide) h
    split at h
    · obtain ⟨ds, hcs, hne, hc, hq⟩ := digits_of_numberEscape? (by decide) h
      exact ⟨ds, hcs, hne, hc, fun hm => absurd hm hq⟩
    · obtain ⟨e, he, hpair⟩ := Option.map_eq_some_iff.mp h
      cases hpair
      refine ⟨[d], rfl, List.cons_ne_nil _ _, ?_, ?_⟩
      · intro hm
        obtain rfl := List.mem_singleton.mp hm
        cases he
      · intro hm
        obtain rfl := List.mem_singleton.mp hm
        cases he
        exact ⟨rfl, rfl⟩

theorem denotes_of_readContent? {cs value rest : List Char}
    (h : readContent? cs = some (value, rest)) :
    ∃ source, cs = source ++ '"' :: rest ∧ Denotes source value := by
  induction cs using readContent?.induct generalizing value with
  | case1 =>
    rw [readContent?] at h
    cases h
  | case2 cs =>
    rw [readContent?, if_pos rfl] at h
    cases h
    exact ⟨[], rfl, .nil⟩
  | case3 cs hquote =>
    rw [readContent?, if_neg hquote, if_pos rfl] at h
    cases h
  | case4 cs hescape hquote hline =>
    rw [readContent?, if_neg hquote, if_neg hline, if_pos rfl] at h
    split at h <;> simp_all
  | case5 cs d rest' hescape _ hquote hline ih =>
    rw [readContent?_escape hescape] at h
    obtain ⟨found, hf, he⟩ := Option.map_eq_some_iff.mp h
    cases he
    obtain ⟨source, rfl, hd⟩ := ih hf
    obtain ⟨ds, rfl, hne, hcomma, hq⟩ := digits_of_escape? hescape
    exact ⟨'\\' :: (ds ++ source), by simp, .escape hne hcomma hq hd⟩
  | case6 c cs hquote hline hbackslash ih =>
    rw [readContent?, if_neg hquote, if_neg hline, if_neg hbackslash] at h
    obtain ⟨found, hf, he⟩ := Option.map_eq_some_iff.mp h
    cases he
    obtain ⟨source, rfl, hd⟩ := ih hf
    exact ⟨c :: source, rfl, .char hquote hline hbackslash hd⟩

theorem denotes_of_unquoted? {source value : List Char} (h : unquoted? source = some value) :
    Denotes source value := by
  obtain ⟨⟨text, rest⟩, hread, hrest⟩ := Option.bind_eq_some_iff.mp h
  dsimp only at hrest
  split at hrest
  · rename_i hnil
    cases hrest
    obtain ⟨other, he, hd⟩ := denotes_of_readContent? hread
    rw [hnil] at he
    rw [List.append_cancel_right he]
    exact hd
  · cases hrest

theorem unquoted?_self {cs : List Char} (h : ∀ c ∈ cs, c ≠ '"' ∧ c ≠ '\n' ∧ c ≠ '\\') :
    unquoted? cs = some cs := by
  have hread : readContent? (cs ++ ['"']) = some (cs, []) := by
    induction cs with
    | nil => rw [List.nil_append, readContent?, if_pos rfl]
    | cons c cs ih =>
      obtain ⟨⟨hquote, hline, hbackslash⟩, hcs⟩ := List.forall_mem_cons.mp h
      rw [List.cons_append, readContent?, if_neg hquote, if_neg hline, if_neg hbackslash, ih hcs]
      rfl
  rw [unquoted?, hread]
  rfl

namespace Denotes

variable {source value a b : List Char}

theorem length_le (h : Denotes source value) : value.length ≤ source.length := by
  induction h with
  | nil => exact Nat.le_refl _
  | char _ _ _ _ ih => simpa using ih
  | escape _ _ _ _ ih =>
    simp only [List.length_cons, List.length_append]
    omega

/-- Without escapes a value is its source, and escapes are longer than what they denote. -/
theorem eq_of_length_le (h : Denotes source value) (hle : source.length ≤ value.length) :
    value = source ∧ ∀ c ∈ source, c ≠ '"' ∧ c ≠ '\n' ∧ c ≠ '\\' := by
  induction h with
  | nil => exact ⟨rfl, nofun⟩
  | char hquote hline hbackslash _ ih =>
    obtain ⟨rfl, hplain⟩ := ih (by simpa using hle)
    exact ⟨rfl, List.forall_mem_cons.mpr ⟨⟨hquote, hline, hbackslash⟩, hplain⟩⟩
  | escape hne _ _ hd _ =>
    have hlength := hd.length_le
    have hpos := List.length_pos_iff.mpr hne
    simp only [List.length_cons, List.length_append] at hle
    omega

/-- No escape reaches over a comma. -/
theorem exists_comma (h : Denotes (a ++ ',' :: b) value) :
    ∃ x y, value = x ++ ',' :: y ∧ Denotes a x ∧ Denotes b y := by
  generalize hs : a ++ ',' :: b = source at h
  induction h generalizing a with
  | nil => simp at hs
  | @char c source value hquote hline hbackslash hd ih =>
    cases a with
    | nil =>
      cases hs
      exact ⟨[], value, rfl, .nil, hd⟩
    | cons d a =>
      cases hs
      obtain ⟨x, y, rfl, hx, hy⟩ := ih rfl
      exact ⟨c :: x, y, rfl, .char hquote hline hbackslash hx, hy⟩
  | @escape c ds source value hne hcomma hq hd ih =>
    cases a with
    | nil => cases hs
    | cons d a =>
      obtain ⟨rfl, hrest⟩ := List.cons.inj hs
      rcases List.append_eq_append_iff.mp hrest with ⟨z, rfl, hz⟩ | ⟨z, rfl, hz⟩
      · cases z with
        | nil =>
          obtain ⟨x, y, rfl, hx, hy⟩ := ih (a := []) (by simpa using hz)
          refine ⟨c :: x, y, rfl, ?_, hy⟩
          simpa using Denotes.escape hne hcomma hq hx
        | cons e z =>
          cases hz
          simp at hcomma
      · obtain ⟨x, y, rfl, hx, hy⟩ := ih hz.symm
        refine ⟨c :: x, y, rfl, ?_, hy⟩
        simpa using Denotes.escape hne hcomma hq hx

/-- A quote stands right after a backslash, and the two of them denote it. -/
theorem exists_quote (h : Denotes (a ++ '"' :: b) value) :
    ∃ a' x y, a = a' ++ ['\\'] ∧ value = x ++ '"' :: y ∧ Denotes a' x ∧ Denotes b y := by
  generalize hs : a ++ '"' :: b = source at h
  induction h generalizing a with
  | nil => simp at hs
  | @char c source value hquote hline hbackslash hd ih =>
    cases a with
    | nil =>
      cases hs
      exact absurd rfl hquote
    | cons d a =>
      cases hs
      obtain ⟨a', x, y, rfl, rfl, hx, hy⟩ := ih rfl
      exact ⟨c :: a', c :: x, y, rfl, rfl, .char hquote hline hbackslash hx, hy⟩
  | @escape c ds source value hne hcomma hq hd ih =>
    cases a with
    | nil => cases hs
    | cons d a =>
      obtain ⟨rfl, hrest⟩ := List.cons.inj hs
      rcases List.append_eq_append_iff.mp hrest with ⟨z, rfl, hz⟩ | ⟨z, rfl, hz⟩
      · cases z with
        | nil =>
          obtain ⟨a', -, -, hnil, -⟩ := ih (a := []) (by simpa using hz)
          simp at hnil
        | cons e z =>
          cases hz
          obtain ⟨he, rfl⟩ := hq (by simp)
          obtain ⟨rfl, rfl⟩ : a = [] ∧ z = [] := by simpa [List.append_eq_cons_iff] using he
          exact ⟨[], [], value, rfl, rfl, .nil, hd⟩
      · obtain ⟨a', x, y, rfl, rfl, hx, hy⟩ := ih hz.symm
        refine ⟨'\\' :: (ds ++ a'), c :: x, y, by simp, rfl, ?_, hy⟩
        exact .escape hne hcomma hq hx

theorem eq_of_not_mem (h : Denotes source value) (hs : '\\' ∉ source) : value = source := by
  induction h with
  | nil => rfl
  | char _ _ _ _ ih => rw [ih fun hm => hs (List.mem_cons_of_mem _ hm)]
  | escape => exact absurd List.mem_cons_self hs

/-- A value ends at the first quote, unless a backslash stands before this quote or the value ended
earlier. -/
theorem ends {text tail rest : List Char} (h : Denotes source value)
    (hs : text ++ '"' :: tail = source ++ '"' :: rest) :
    source = text ∨ (∃ more, text = source ++ '"' :: more) ∨
      ∃ a x b y, text = a ++ ['\\'] ∧ value = x ++ '"' :: y ∧ Denotes a x ∧ Denotes b y ∧
        tail = b ++ '"' :: rest := by
  rcases List.append_eq_append_iff.mp hs with ⟨z, rfl, hz⟩ | ⟨z, rfl, hz⟩
  · cases z with
    | nil => exact Or.inl (by simp)
    | cons c z =>
      cases hz
      obtain ⟨a, x, y, ha, hv, hx, hy⟩ := h.exists_quote
      exact Or.inr (Or.inr ⟨a, x, z, y, ha, hv, hx, hy, rfl⟩)
  · cases z with
    | nil => exact Or.inl (by simp)
    | cons c z =>
      cases hz
      exact Or.inr (Or.inl ⟨z, rfl⟩)

end Denotes

/-- The name in a value for JSON. -/
def jsonName (value : List Char) : List Char := value.takeWhile (· ≠ ',')

/-- What stands between and after the commas of a value for JSON. -/
def jsonOptions (value : List Char) : List (List Char) := (pieces (· = ',') value).tail

/-- A literal is one tag with the name of a property: the value for the framework is the name, and
that for JSON names it too, with the option to leave out an empty value exactly if the property may
be missing. A value for JSON that is a lone hyphen names nothing. -/
structure Carries (literal name : List Char) (isRequired : Bool) : Prop where
  tfsdk : (rawText? literal).bind (tagValue? "tfsdk".toList) = some name
  json : ∃ value, (rawText? literal).bind (tagValue? "json".toList) = some value ∧
    value ≠ ['-'] ∧ jsonName value = name ∧
    ("omitempty".toList ∈ jsonOptions value ↔ isRequired = false)

/-- What follows the name of a property that may be missing. -/
def omission (isRequired : Bool) : List Char := if isRequired then [] else ",omitempty".toList

/-- What stands between the backticks. -/
def tagText (name omission : List Char) : List Char :=
  "json".toList ++ ':' :: '"' :: (name ++ omission ++ '"' :: ' ' ::
    ("tfsdk".toList ++ ':' :: '"' :: (name ++ ['"'])))

/-- The characters that mean something to a reader of tags: the backtick and the carriage return in
a raw string, the quote, the backslash and the newline in a quoted value, the comma in a value for
JSON. -/
def special : List Char := ['\x60', '\r', '"', '\\', '\n', ',']

variable {name text value : List Char} {isRequired : Bool}

/-- A name that is read from its own source, less the carriage returns, is free of all that quoted
values and lists treat specially. -/
theorem plain_of_denotes (h : Denotes (name.filter (· ≠ '\r')) value)
    (hname : jsonName value = name) :
    value = name ∧ ∀ c ∈ name, c ≠ '\r' ∧ c ≠ '"' ∧ c ≠ '\\' ∧ c ≠ '\n' ∧ c ≠ ',' := by
  have hcut : name.length ≤ value.length := by
    rw [← hname]
    exact (List.takeWhile_prefix _).length_le
  have hfilter := List.length_filter_le (· ≠ '\r') name
  obtain ⟨hvalue, hplain⟩ := h.eq_of_length_le (Nat.le_trans hfilter hcut)
  have hsource : name.filter (· ≠ '\r') = name := by
    apply List.filter_sublist.eq_of_length_le
    rw [hvalue] at hcut
    exact hcut
  rw [hsource] at hvalue hplain
  refine ⟨hvalue, fun c hc => ?_⟩
  obtain ⟨hquote, hline, hbackslash⟩ := hplain c hc
  have hreturn : c ≠ '\r' := by simpa using List.filter_eq_self.mp hsource c hc
  have hcomma : c ≠ ',' := by
    rw [← hname] at hc
    simpa using List.mem_takeWhile_imp hc
  exact ⟨hreturn, hquote, hbackslash, hline, hcomma⟩

/-- A value for JSON that reaches over its own quote is not the name it was made of: what it reaches
over ends otherwise than the name. -/
theorem jsonName_ne_of_reaches {a x b y tail rest : List Char}
    (ha : name.filter (· ≠ '\r') ++ omission isRequired = a ++ ['\\']) (hx : Denotes a x)
    (hy : Denotes b y)
    (htail : ' ' :: ("tfsdk".toList ++ ':' :: '"' :: tail) = b ++ '"' :: rest) :
    jsonName (x ++ '"' :: y) ≠ name := by
  intro hname
  cases isRequired with
  | false =>
    have hlast := congrArg List.getLast? ha
    simp [omission] at hlast
  | true =>
    have hb : b = " tfsdk:".toList := by
      have htail : " tfsdk:".toList ++ '"' :: tail = b ++ '"' :: rest := htail
      rcases hy.ends htail with hb | ⟨more, hm⟩ | hlong
      · exact hb
      · have hmem : '"' ∈ " tfsdk:".toList := by simp [hm]
        exact absurd hmem (by decide)
      · obtain ⟨a', -, -, -, hm, -⟩ := hlong
        have hlast := congrArg List.getLast? hm
        simp at hlast
    obtain rfl : y = b := hy.eq_of_not_mem (by rw [hb]; decide)
    have hsource : name.filter (· ≠ '\r') = a ++ ['\\'] := by simpa [omission] using ha
    have hlength : x.length < name.length := by
      have hfilter := List.length_filter_le (· ≠ '\r') name
      have hle := hx.length_le
      rw [hsource, List.length_append, List.length_singleton] at hfilter
      omega
    have hends : name = x ++ '"' :: " tfsdk:".toList := by
      rw [jsonName, List.takeWhile_append] at hname
      split at hname
      · rw [← hname, hb]
        rfl
      · have hcut := (List.takeWhile_prefix (· ≠ ',') (l := x)).length_le
        rw [hname] at hcut
        omega
    rw [hends, List.filter_append] at hsource
    have hlast := congrArg List.getLast? hsource
    simp at hlast

theorem jsonName_comma (x y : List Char) : jsonName (x ++ ',' :: y) = jsonName x := by
  rw [jsonName, jsonName, List.takeWhile_append]
  split
  · rename_i h
    rw [List.takeWhile_cons_of_neg (by decide), List.append_nil]
    exact ((List.takeWhile_prefix _).eq_of_length h).symm
  · rfl

/-- The name of a value for JSON that is written with an omission or without. -/
theorem plain_of_omission
    (h : Denotes (name.filter (· ≠ '\r') ++ omission isRequired) value)
    (hname : jsonName value = name) :
    value = name ++ omission isRequired ∧
      ∀ c ∈ name, c ≠ '\r' ∧ c ≠ '"' ∧ c ≠ '\\' ∧ c ≠ '\n' ∧ c ≠ ',' := by
  cases isRequired with
  | true =>
    simp only [omission, if_true, List.append_nil] at h ⊢
    exact plain_of_denotes h hname
  | false =>
    obtain ⟨x, y, rfl, hx, hy⟩ := h.exists_comma (b := "omitempty".toList)
    rw [jsonName_comma] at hname
    obtain ⟨rfl, hplain⟩ := plain_of_denotes hx hname
    rw [hy.eq_of_not_mem (by decide)]
    exact ⟨rfl, hplain⟩

theorem plain_of_reads {tail rest source : List Char}
    (hs : name.filter (· ≠ '\r') ++ omission isRequired ++ '"' :: ' ' ::
      ("tfsdk".toList ++ ':' :: '"' :: tail) = source ++ '"' :: rest)
    (h : Denotes source value) (hname : jsonName value = name) :
    value = name ++ omission isRequired ∧
      ∀ c ∈ name, c ≠ '\r' ∧ c ≠ '"' ∧ c ≠ '\\' ∧ c ≠ '\n' ∧ c ≠ ',' := by
  rcases h.ends hs with rfl | ⟨more, hm⟩ | ⟨a, x, b, y, ha, rfl, hx, hy, htail⟩
  · exact plain_of_omission h hname
  · -- the value ends within the name, so it is shorter than the name
    have hshort : source.length < (name.filter (· ≠ '\r')).length := by
      rcases List.append_eq_append_iff.mp hm with ⟨z, hz, ho⟩ | ⟨z, hz, ho⟩
      · have hmem : '"' ∈ omission isRequired := by simp [ho]
        cases isRequired <;> simp [omission] at hmem
      · cases z with
        | nil =>
          have hmem : '"' ∈ omission isRequired := by simp at ho; simp [← ho]
          cases isRequired <;> simp [omission] at hmem
        | cons c z =>
          rw [hz]
          simp
    have hfilter := List.length_filter_le (· ≠ '\r') name
    have hcut := (List.takeWhile_prefix (· ≠ ',') (l := value)).length_le
    have hle := h.length_le
    rw [jsonName] at hname
    rw [hname] at hcut
    omega
  · exact absurd hname (jsonName_ne_of_reaches ha hx hy htail)

theorem tagValue?_json (name omission : List Char) :
    tagValue? "json".toList (tagText name omission) =
      (quoted? (name ++ omission ++ '"' :: ' ' ::
        ("tfsdk".toList ++ ':' :: '"' :: (name ++ ['"'])))).bind fun p => unquoted? p.1 := by
  rw [tagText, tagValue?_eq, tagPair?_append (by decide) (by decide), Option.bind_map]
  rfl

theorem rawText?_tagText :
    rawText? ('\x60' :: (tagText name (omission isRequired) ++ ['\x60'])) =
      if '\x60' ∈ name then none
      else some (tagText (name.filter (· ≠ '\r')) (omission isRequired)) := by
  have hmem : '\x60' ∈ tagText name (omission isRequired) ↔ '\x60' ∈ name := by
    cases isRequired <;> simp [tagText, omission]
  have hfilter : (tagText name (omission isRequired)).filter (· ≠ '\r') =
      tagText (name.filter (· ≠ '\r')) (omission isRequired) := by
    cases isRequired <;> simp [tagText, omission]
  simp only [rawText?_quoted, hmem, hfilter]

theorem jsonName_self (h : ',' ∉ name) : jsonName name = name :=
  List.takeWhile_eq_self_iff.mpr fun c hc => by
    have hne : c ≠ ',' := ne_of_mem_of_not_mem hc h
    simpa using hne

theorem jsonName_omission (h : ',' ∉ name) : jsonName (name ++ omission isRequired) = name := by
  cases isRequired with
  | true => simpa [omission] using jsonName_self h
  | false => exact (jsonName_comma name "omitempty".toList).trans (jsonName_self h)

theorem mem_jsonOptions_omission (h : ',' ∉ name) :
    "omitempty".toList ∈ jsonOptions (name ++ omission isRequired) ↔ isRequired = false := by
  have hpieces : pieces (· = ',') name = [name] := by
    apply pieces_of_not_separates
    intro c hc
    simpa using ne_of_mem_of_not_mem hc h
  cases isRequired with
  | true => simp [omission, jsonOptions, hpieces]
  | false =>
    have hcomma : pieces (· = ',') (name ++ omission false) =
        pieces (· = ',') name ++ pieces (· = ',') "omitempty".toList :=
      pieces_append name "omitempty".toList (by decide)
    have hoptions : jsonOptions (name ++ omission false) = ["omitempty".toList] := by
      rw [jsonOptions, hcomma, hpieces]
      rfl
    simp [hoptions]

theorem plain_of_carries
    (h : Carries ('\x60' :: (tagText name (omission isRequired) ++ ['\x60'])) name isRequired) :
    (∀ c ∈ name, c ∉ special) ∧ ¬ (isRequired = true ∧ name = ['-']) := by
  obtain ⟨value, hjson, hhyphen, hname, -⟩ := h.json
  rw [rawText?_tagText] at hjson
  split at hjson
  · cases hjson
  · rename_i hbacktick
    rw [Option.bind_some, tagValue?_json] at hjson
    obtain ⟨⟨source, rest⟩, hquoted, hvalue⟩ := Option.bind_eq_some_iff.mp hjson
    obtain ⟨rfl, hplain⟩ := plain_of_reads (eq_append_of_quoted? hquoted)
      (denotes_of_unquoted? hvalue) hname
    constructor
    · intro c hc
      have hne : c ≠ '\x60' := ne_of_mem_of_not_mem hc hbacktick
      simp [special, hne, hplain c hc]
    · rintro ⟨rfl, rfl⟩
      exact hhyphen rfl

section Plain

variable (h : ∀ c ∈ name, c ∉ special)
include h

theorem not_mem_of_plain {c : Char} (hc : c ∈ special) : c ∉ name := fun hn => h c hn hc

theorem rawText?_of_plain :
    rawText? ('\x60' :: (tagText name (omission isRequired) ++ ['\x60'])) =
      some (tagText name (omission isRequired)) := by
  have hreturn : name.filter (· ≠ '\r') = name := by
    apply List.filter_eq_self.mpr
    intro c hc
    simpa using ne_of_mem_of_not_mem hc (not_mem_of_plain h (c := '\r') (by decide))
  rw [rawText?_tagText, if_neg (not_mem_of_plain h (by decide)), hreturn]

/-- A name and what follows it are quoted as they are. -/
theorem unquoted_of_plain (isRequired : Bool) :
    ∀ c ∈ name ++ omission isRequired, c ≠ '"' ∧ c ≠ '\n' ∧ c ≠ '\\' := by
  refine List.forall_mem_append.mpr ⟨fun c hc => ?_, ?_⟩
  · have hc := h c hc
    simp only [special, List.mem_cons, not_or] at hc
    exact ⟨hc.2.2.1, hc.2.2.2.2.1, hc.2.2.2.1⟩
  · cases isRequired <;> simp [omission]

theorem quoted?_of_plain (isRequired : Bool) (rest : List Char) :
    quoted? (name ++ omission isRequired ++ '"' :: rest) =
      some (name ++ omission isRequired, rest) :=
  quoted?_append (fun c hc =>
    ⟨(unquoted_of_plain h isRequired c hc).1, (unquoted_of_plain h isRequired c hc).2.2⟩) rest

theorem tagValue?_json_of_plain :
    tagValue? "json".toList (tagText name (omission isRequired)) =
      some (name ++ omission isRequired) := by
  rw [tagValue?_json, quoted?_of_plain h isRequired, Option.bind_some]
  exact unquoted?_self (unquoted_of_plain h isRequired)

theorem tagValue?_tfsdk_of_plain :
    tagValue? "tfsdk".toList (tagText name (omission isRequired)) = some name := by
  have hself : name ++ omission true = name := List.append_nil name
  have hname := quoted?_of_plain h true []
  have hunquoted := unquoted?_self (unquoted_of_plain h true)
  rw [hself] at hname hunquoted
  rw [tagText, tagValue?_eq, tagPair?_append (by decide) (by decide),
    quoted?_of_plain h isRequired]
  simp only [Option.map_some, Option.bind_some]
  rw [if_neg (by decide), tagValue?_eq, tagPair?_blank, tagPair?_append (by decide) (by decide),
    hname]
  simpa using hunquoted

theorem carries_of_plain (hhyphen : ¬ (isRequired = true ∧ name = ['-'])) :
    Carries ('\x60' :: (tagText name (omission isRequired) ++ ['\x60'])) name isRequired := by
  have hcomma : ',' ∉ name := not_mem_of_plain h (by decide)
  constructor
  case tfsdk => rw [rawText?_of_plain h, Option.bind_some, tagValue?_tfsdk_of_plain h]
  case json =>
    refine ⟨name ++ omission isRequired, ?_, ?_, jsonName_omission hcomma,
      mem_jsonOptions_omission hcomma⟩
    · rw [rawText?_of_plain h, Option.bind_some, tagValue?_json_of_plain h]
    · cases isRequired with
      | true => simpa [omission] using hhyphen
      | false =>
        intro he
        have hlength := congrArg List.length he
        simp [omission] at hlength

end Plain

/-- A tag carries the name of a property exactly if the name has no special character and is not
taken for the mark of a field that is left out. -/
theorem carries_iff :
    Carries ('\x60' :: (tagText name (omission isRequired) ++ ['\x60'])) name isRequired ↔
      (∀ c ∈ name, c ∉ special) ∧ ¬ (isRequired = true ∧ name = ['-']) :=
  ⟨plain_of_carries, fun h => carries_of_plain h.1 h.2⟩

end ApiContract.GoClient
