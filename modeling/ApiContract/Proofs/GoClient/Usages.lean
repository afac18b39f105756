import ApiContract.Proofs.GoClient.FreeText
import ApiContract.Proofs.GoClient.Tokens

namespace ApiContract.GoClient

open Reader

/-- The identifiers that Go declares for every program. -/
def predeclared : List String :=
  ["any", "bool", "byte", "comparable", "complex64", "complex128", "error", "float32", "float64",
    "int", "int8", "int16", "int32", "int64", "rune", "string", "uint", "uint8", "uint16", "uint32",
    "uint64", "uintptr", "true", "false", "iota", "nil", "append", "cap", "clear", "close",
    "complex", "copy", "delete", "imag", "len", "make", "max", "min", "new", "panic", "print",
    "println", "real", "recover"]

/-- What a line of code does with a name. -/
inductive Usage where
  /-- The name stands before a dot. -/
  | qualifies (name : String)
  /-- The name is one of those that Go declares. -/
  | builtin (name : String)
  /-- The line declares the name. -/
  | declares (name : String)
deriving DecidableEq

def Usage.ofToken? : Token → Option Usage
  | .qualifier name => some (.qualifies name)
  | .name name => if name ∈ predeclared then some (.builtin name) else none
  | _ => none

/-- The names before `:=`. -/
def assigned? : List Token → Option (List String)
  | [] => none
  | .sign c :: rest =>
    if c = ':' ∧ rest.head? = some (.sign '=') then some [] else assigned? rest
  | .name x :: rest => (assigned? rest).map (x :: ·)
  | _ :: rest => assigned? rest

def Token.name? : Token → Option String
  | name x => some x
  | _ => none

/-- The names that a line declares: the one behind `var`, or those before `:=`. -/
def declaredIn (sentence : List Token) : List String :=
  if sentence.head? = some (.name "var") then (sentence.tail.filterMap Token.name?).take 1
  else ((assigned? sentence).getD []).filter (· ≠ "if")

def usages (sentence : List Token) : List Usage :=
  sentence.filterMap Usage.ofToken? ++ (declaredIn sentence).map .declares

/-- Neither ends a line nor declares anything. -/
def Token.Inner (t : Token) : Prop := t ≠ .line ∧ t ≠ .sign ':'

instance (t : Token) : Decidable t.Inner := inferInstanceAs (Decidable (_ ∧ _))

/-- A part of a line that declares nothing, read to its end if a word does not go on behind it. -/
def Fragment (cs : List Char) (us : List Usage) : Prop :=
  ∃ ts, Pending cs ts ∧ ts.filterMap Usage.ofToken? = us ∧ ∀ t ∈ ts, t.Inner

/-- A fixed part of a line that declares nothing. -/
def Fixed (cs : List Char) (us : List Usage) : Prop :=
  (run between cs).1 = between ∧ (run between cs).2.filterMap Usage.ofToken? = us ∧
    ∀ t ∈ (run between cs).2, t.Inner

instance (cs : List Char) (us : List Usage) : Decidable (Fixed cs us) :=
  inferInstanceAs (Decidable (_ ∧ _ ∧ _))

/-- A fixed part of a line into which no word goes on. -/
def Joint (cs : List Char) (us : List Usage) : Prop := Fixed cs us ∧ Separates cs

instance (cs : List Char) (us : List Usage) : Decidable (Joint cs us) :=
  inferInstanceAs (Decidable (_ ∧ _))

/-- All characters of a name are parts of words. -/
def Spelt (name : String) : Prop := ∀ c ∈ name.toList, isWordPart c

/-- What is done with a name that stands alone. -/
def nameUsages (name : String) : List Usage :=
  (wordToken false false name.toList).filterMap Usage.ofToken?

variable {cs ds es : List Char} {us vs : List Usage} {ts : List Token} {name line : String}

/-- A literal is a list of characters, so that its characters need not be decoded. -/
theorem fixed_ofList (cs : List Char) (h : Fixed cs us) : Fixed (String.ofList cs).toList us := by
  rwa [String.toList_ofList]

theorem joint_ofList (cs : List Char) (h : Joint cs us) : Joint (String.ofList cs).toList us := by
  rwa [String.toList_ofList]

theorem Fixed.lexed (h : Fixed cs us) : Lexed cs (run between cs).2 := Prod.ext h.1 rfl

theorem Fixed.fragment (h : Fixed cs us) : Fragment cs us := ⟨_, h.lexed.pending, h.2.1, h.2.2⟩

theorem Fixed.append (h : Fixed cs us) (hd : Fragment ds vs) : Fragment (cs ++ ds) (us ++ vs) := by
  obtain ⟨ts, hts, rfl, hinner⟩ := hd
  refine ⟨_, h.lexed.append_pending hts, ?_, List.forall_mem_append.mpr ⟨h.2.2, hinner⟩⟩
  rw [List.filterMap_append, h.2.1]

theorem Fragment.append (h : Fragment cs us) (hd : Fragment ds vs) (hs : Separates ds) :
    Fragment (cs ++ ds) (us ++ vs) := by
  obtain ⟨ts, hts, rfl, hinner⟩ := h
  obtain ⟨rest, hrest, rfl, hmore⟩ := hd
  exact ⟨_, hts.append hrest hs, List.filterMap_append, List.forall_mem_append.mpr ⟨hinner, hmore⟩⟩

theorem Fragment.close (h : Fragment cs us) (hj : Joint ds vs) :
    Fragment (cs ++ ds) (us ++ vs) :=
  h.append hj.1.fragment hj.2

theorem Fragment.join (h : Fragment cs us) (hj : Joint ds []) (he : Fragment es vs) :
    Fragment (cs ++ (ds ++ es)) (us ++ vs) :=
  h.append (hj.1.append he) (hj.2.append es)

theorem joint_comma : Joint ", ".toList [] := joint_ofList _ (by decide)

theorem joint_paren : Joint ")".toList [] := joint_ofList _ (by decide)

theorem fragment_nil : Fragment [] [] := ⟨[], lexed_nil.pending, rfl, List.forall_mem_nil _⟩

theorem inner_wordToken {dotted dotBehind : Bool} (word : List Char) :
    ∀ t ∈ wordToken dotted dotBehind word, t.Inner := by
  unfold wordToken
  split
  · exact List.forall_mem_nil _
  · repeat' split
    all_goals simp [Token.Inner]

theorem Spelt.fragment (h : Spelt name) : Fragment name.toList (nameUsages name) :=
  ⟨_, pending_word h, rfl, inner_wordToken _⟩

theorem fragment_stringLiteral (s : String) : Fragment (stringLiteral s).toList [] :=
  ⟨_, (lexed_stringLiteral s).pending, rfl, by simp [Token.Inner]⟩

/-- A list of parts with a fixed separator between each two of them. -/
theorem fragment_intercalate {α : Type} {separator : List Char} (hs : Joint separator [])
    {f : α → List Char} {g : α → List Usage} {as : List α} (h : ∀ a ∈ as, Fragment (f a) (g a)) :
    Fragment (separator.intercalate (as.map f)) (as.flatMap g) := by
  induction as with
  | nil => exact fragment_nil
  | cons a rest ih =>
    obtain ⟨ha, hrest⟩ := List.forall_mem_cons.mp h
    cases rest with
    | nil => simpa using ha
    | cons b rest =>
      rw [List.map_cons, List.map_cons, List.intercalate_cons_cons, ← List.map_cons,
        List.flatMap_cons, List.append_assoc]
      exact ha.join hs (ih hrest)

/-- Lines that are read one by one, and what is done in them. -/
structure Reads (lines : List String) (us : List Usage) : Prop where
  closed : ∀ line ∈ lines, ∃ ts, LexedLine line ts
  usages : ∀ u, u ∈ (lines.flatMap sentences).flatMap usages ↔ u ∈ us

/-- The start of a line that tells what the line declares, whatever follows. -/
def Opening (cs : List Char) (us : List Usage) (names : List String) : Prop :=
  (run between cs).1 = between ∧ (run between cs).2.filterMap Usage.ofToken? = us ∧
    Token.line ∉ (run between cs).2 ∧ (run between cs).2.head?.any (· ≠ .name "var") ∧
    ((assigned? (run between cs).2).map (·.filter (· ≠ "if")) = some names ∨
      Token.sign ':' ∉ (run between cs).2 ∧ names = [])

instance (cs : List Char) (us : List Usage) (names : List String) :
    Decidable (Opening cs us names) :=
  inferInstanceAs (Decidable (_ ∧ _ ∧ _ ∧ _ ∧ (_ ∨ _ ∧ _)))

theorem opening_ofList {names : List String} (cs : List Char) (h : Opening cs us names) :
    Opening (String.ofList cs).toList us names := by
  rwa [String.toList_ofList]

theorem assigned?_append_of_some {rest : List Token} {names : List String}
    (h : assigned? ts = some names) : assigned? (ts ++ rest) = some names := by
  fun_induction assigned? ts generalizing names with
  | case1 => cases h
  | case2 c more hc =>
    obtain ⟨rfl, hmore⟩ := hc
    cases more with
    | nil => cases hmore
    | cons t more =>
      obtain rfl : t = .sign '=' := by simpa using hmore
      rw [← h]
      rfl
  | case3 c more hc ih =>
    cases more with
    | nil => cases h
    | cons t more =>
      rw [List.cons_append, assigned?, if_neg (by simpa using hc)]
      exact ih h
  | case4 x more ih =>
    obtain ⟨xs, hxs, rfl⟩ := Option.map_eq_some_iff.mp h
    rw [List.cons_append, assigned?, ih hxs]
    rfl
  | case5 t more hsign hname ih =>
    rw [List.cons_append, assigned?.eq_4 _ _ hsign hname]
    exact ih h

theorem assigned?_eq_none (h : Token.sign ':' ∉ ts) : assigned? ts = none := by
  fun_induction assigned? ts with
  | case1 => rfl
  | case2 c more hc => exact absurd (by simp [hc.1]) h
  | case3 _ _ _ ih => exact ih (mt (List.mem_cons_of_mem _) h)
  | case4 _ _ ih => rw [ih (mt (List.mem_cons_of_mem _) h), Option.map_none]
  | case5 _ _ _ _ ih => exact ih (mt (List.mem_cons_of_mem _) h)

theorem Reads.congr {lines : List String} (h : Reads lines us) (hu : ∀ u, u ∈ us ↔ u ∈ vs) :
    Reads lines vs :=
  ⟨h.closed, fun u => (h.usages u).trans (hu u)⟩

/-- What is read in a line is told by its start and by the rest of it. -/
theorem Opening.lexedLine {names : List String} (h : Opening cs us names) (hd : Fragment ds vs)
    (hline : line.toList = cs ++ ds) :
    ∃ ts, LexedLine line ts ∧ Token.line ∉ ts ∧ ts.head? = (run between cs).2.head? ∧
      usages ts = us ++ vs ++ names.map .declares := by
  obtain ⟨hstart, rfl, hts, hhead, hnames⟩ := h
  obtain ⟨rest, hpending, rfl, hinner⟩ := hd
  have hlexed : Lexed cs (run between cs).2 := Prod.ext hstart rfl
  obtain ⟨t, ht, hvar⟩ := (Option.any_eq_true _ _).mp hhead
  generalize (run between cs).2 = ts at *
  have hend : Lexed ['\n'] [.line] := rfl
  have hfirst : (ts ++ rest).head? = ts.head? := by
    rw [List.head?_append, ht]
    rfl
  have hdeclared : declaredIn (ts ++ rest) = names := by
    rw [declaredIn, hfirst, if_neg (by simpa [ht] using hvar)]
    rcases hnames with hsome | ⟨hcolon, rfl⟩
    · obtain ⟨xs, hxs, rfl⟩ := Option.map_eq_some_iff.mp hsome
      rw [assigned?_append_of_some hxs]
      rfl
    · rw [assigned?_eq_none]
      · rfl
      · rw [List.mem_append, not_or]
        exact ⟨hcolon, fun hm => (hinner _ hm).2 rfl⟩
  refine ⟨ts ++ rest, ?_, ?_, hfirst, ?_⟩
  · rw [LexedLine, hline, List.append_assoc, List.append_assoc]
    exact hlexed.append (hpending.append_lexed hend rfl)
  · rw [List.mem_append, not_or]
    exact ⟨hts, fun hm => (hinner _ hm).1 rfl⟩
  · rw [usages, hdeclared, List.filterMap_append]

theorem Opening.reads {names : List String} (h : Opening cs us names) (hd : Fragment ds vs)
    (hline : line.toList = cs ++ ds) : Reads [line] (us ++ vs ++ names.map .declares) := by
  obtain ⟨ts, hlex, hnone, -, husages⟩ := h.lexedLine hd hline
  constructor
  · exact List.forall_mem_singleton.mpr ⟨_, hlex⟩
  · intro u
    rw [List.flatMap_singleton, hlex.sentences_eq hnone, List.flatMap_singleton, husages]

theorem reads_nil : Reads [] [] := ⟨List.forall_mem_nil _, fun _ => Iff.rfl⟩

theorem Reads.append {lines more : List String} (h : Reads lines us) (hm : Reads more vs) :
    Reads (lines ++ more) (us ++ vs) := by
  constructor
  · exact List.forall_mem_append.mpr ⟨h.closed, hm.closed⟩
  · intro u
    rw [List.flatMap_append, List.flatMap_append, List.mem_append, h.usages, hm.usages,
      List.mem_append]

theorem Reads.flatMap {α : Type} {as : List α} {f : α → List String} {g : α → List Usage}
    (h : ∀ a ∈ as, Reads (f a) (g a)) : Reads (as.flatMap f) (as.flatMap g) := by
  induction as with
  | nil => exact reads_nil
  | cons a rest ih =>
    obtain ⟨ha, hrest⟩ := List.forall_mem_cons.mp h
    exact ha.append (ih hrest)

/-- A fixed line ends in code. -/
def Closes (cs : List Char) : Prop :=
  (run between (cs ++ ['\n'])).1 = between ∧ (run between (cs ++ ['\n'])).2.getLast? = some .line

instance (cs : List Char) : Decidable (Closes cs) := inferInstanceAs (Decidable (_ ∧ _))

/-- What is done in a fixed line. -/
def usagesIn (cs : List Char) : List Usage :=
  (sentencesFrom [] (run between (cs ++ ['\n'])).2).flatMap usages

theorem reads_ofList (cs : List Char) (h : Closes cs ∧ usagesIn cs = us) :
    Reads [String.ofList cs] us := by
  obtain ⟨⟨hstart, hlast⟩, rfl⟩ := h
  obtain ⟨ts, hts⟩ := List.getLast?_eq_some_iff.mp hlast
  constructor
  · rw [List.forall_mem_singleton]
    refine ⟨ts, ?_⟩
    rw [LexedLine, String.toList_ofList]
    exact Prod.ext hstart hts
  · intro u
    rw [List.flatMap_singleton, sentences, String.toList_ofList, usagesIn]

/-- Fixed lines are read one after the other. -/
theorem Reads.cons_ofList {rest : List String} (cs : List Char) (h : Closes cs)
    (hr : Reads rest us) : Reads (String.ofList cs :: rest) (usagesIn cs ++ us) :=
  (reads_ofList cs ⟨h, rfl⟩).append hr

theorem mem_iff_of_subset (h : (∀ u ∈ us, u ∈ vs) ∧ ∀ u ∈ vs, u ∈ us) (u : Usage) :
    u ∈ us ↔ u ∈ vs :=
  ⟨h.1 u, h.2 u⟩

/-- What is done in fixed lines is computed. -/
theorem Reads.of_subset {lines : List String} (h : Reads lines us)
    (hu : (∀ u ∈ us, u ∈ vs) ∧ ∀ u ∈ vs, u ∈ us) : Reads lines vs :=
  h.congr (mem_iff_of_subset hu)

/-- Lines with nothing in them but comments. -/
def Silent (lines : List String) : Prop :=
  ∀ line ∈ lines, ∃ n, LexedLine line (List.replicate n .line)

theorem Silent.sentences {lines : List String} (h : Silent lines) :
    ∀ s ∈ lines.flatMap sentences, s = [] := by
  have hends : ∀ n, ∀ s ∈ sentencesFrom [] (List.replicate n .line), s = [] := by
    intro n
    induction n with
    | zero => exact List.forall_mem_nil _
    | succ n ih => exact List.forall_mem_cons.mpr ⟨rfl, ih⟩
  intro s hs
  obtain ⟨line, hl, hs⟩ := List.mem_flatMap.mp hs
  obtain ⟨n, hn⟩ := h line hl
  rw [GoClient.sentences, hn, ← List.replicate_succ'] at hs
  exact hends (n + 1) s hs

theorem Silent.reads {lines : List String} (h : Silent lines) : Reads lines [] := by
  constructor
  · exact fun line hl => ⟨_, (h line hl).choose_spec⟩
  · intro u
    refine iff_of_false (fun hu => ?_) List.not_mem_nil
    obtain ⟨s, hs, hu⟩ := List.mem_flatMap.mp hu
    rw [h.sentences s hs] at hu
    cases hu

theorem silent_append {lines more : List String} :
    Silent (lines ++ more) ↔ Silent lines ∧ Silent more :=
  List.forall_mem_append

/-- A comment that is one line. -/
theorem silent_slashes {rest : List Char} (h : '\n' ∉ rest)
    (hline : line.toList = '/' :: '/' :: rest) : Silent [line] := by
  rw [Silent, List.forall_mem_singleton]
  refine ⟨0, ?_⟩
  rw [LexedLine, hline]
  exact lexed_comment h

theorem silent_comment (text : String) : Silent [comment text] := by
  have hlines : ∀ ls : List (List Char), ls ≠ [] →
      (∀ l ∈ ls, ∃ rest, l = '/' :: '/' :: rest ∧ '\n' ∉ rest) →
      Lexed (['\n'].intercalate ls ++ ['\n']) (List.replicate ls.length .line) := by
    intro ls hne hls
    induction ls with
    | nil => exact absurd rfl hne
    | cons l more ih =>
      obtain ⟨⟨rest, rfl, hrest⟩, hmore⟩ := List.forall_mem_cons.mp hls
      cases more with
      | nil => simpa using lexed_comment hrest
      | cons next more =>
        have hall := (lexed_comment hrest).append (ih (List.cons_ne_nil _ _) hmore)
        rw [List.intercalate_cons_cons]
        simpa [List.replicate_succ] using hall
  have hcomments : ∀ l ∈ (Text.lines (Text.trimEnd text.toList)).map commentLine,
      ∃ rest, l = '/' :: '/' :: rest ∧ '\n' ∉ rest := by
    intro l hl
    obtain ⟨source, hsource, rfl⟩ := List.mem_map.mp hl
    have hnone := Text.newline_not_mem_of_mem_lines hsource
    unfold commentLine
    split
    · exact ⟨[], rfl, List.not_mem_nil⟩
    · refine ⟨_, rfl, ?_⟩
      simpa using fun hm => hnone ((Text.trimEnd_isPrefix source).subset hm)
  rw [Silent, List.forall_mem_singleton, comment]
  unfold LexedLine
  rw [String.toList_ofList, Text.joinWith_eq_intercalate]
  generalize (Text.lines (Text.trimEnd text.toList)).map commentLine = ls at hcomments ⊢
  cases ls with
  | nil => exact ⟨0, rfl⟩
  | cons l more =>
    refine ⟨more.length, ?_⟩
    rw [← List.replicate_succ']
    exact hlines _ (List.cons_ne_nil _ _) hcomments

theorem silent_commentLines (description : Option String) :
    Silent (commentLines description) := by
  cases description with
  | none => exact List.forall_mem_nil _
  | some text =>
    unfold commentLines
    dsimp only
    split
    · exact List.forall_mem_nil _
    · exact silent_comment text

/-- A function is headed by a line that begins with `func`. -/
def isHeading (sentence : List Token) : Bool := sentence.head? = some (.name "func")

/-- The sentences behind the heading of the first function. -/
def behindHeading (ss : List (List Token)) : List (List Token) :=
  (ss.dropWhile fun s => !isHeading s).tail

/-- The sentences up to the heading of the first function. -/
def upToHeading (ss : List (List Token)) : List (List Token) :=
  ss.takeWhile (fun s => !isHeading s) ++ (ss.dropWhile fun s => !isHeading s).take 1

theorem headed_append {front : List (List Token)} {heading : List Token}
    (hf : ∀ s ∈ front, isHeading s = false) (hh : isHeading heading) (rest : List (List Token)) :
    upToHeading (front ++ heading :: rest) = front ++ [heading] ∧
      behindHeading (front ++ heading :: rest) = rest := by
  have hdrop : (front ++ heading :: rest).dropWhile (fun s => !isHeading s) = heading :: rest := by
    rw [List.dropWhile_append_of_pos (by simpa using hf),
      List.dropWhile_cons_of_neg (by simpa using hh)]
  have htake : (front ++ heading :: rest).takeWhile (fun s => !isHeading s) = front := by
    rw [List.takeWhile_append_of_pos (by simpa using hf),
      List.takeWhile_cons_of_neg (by simpa using hh), List.append_nil]
  rw [upToHeading, behindHeading, hdrop, htake]
  exact ⟨rfl, rfl⟩

namespace Declaration

/-- What is done with names up to the heading of a function, or anywhere if there is none. -/
def outerUsages (declaration : Declaration) : List Usage :=
  (upToHeading (sentences declaration.text)).flatMap usages

/-- What is done with names in the body of a function. -/
def innerUsages (declaration : Declaration) : List Usage :=
  (behindHeading (sentences declaration.text)).flatMap usages

end Declaration

/-- Lines that are read one by one and are no heading of a function. -/
structure Leads (lines : List String) (us : List Usage) : Prop where
  reads : Reads lines us
  unheaded : ∀ s ∈ lines.flatMap sentences, isHeading s = false

theorem Leads.append {lines more : List String} (h : Leads lines us) (hm : Leads more vs) :
    Leads (lines ++ more) (us ++ vs) := by
  refine ⟨h.reads.append hm.reads, ?_⟩
  rw [List.flatMap_append, List.forall_mem_append]
  exact ⟨h.unheaded, hm.unheaded⟩

theorem Silent.leads {lines : List String} (h : Silent lines) : Leads lines [] := by
  refine ⟨h.reads, fun s hs => ?_⟩
  rw [h.sentences s hs]
  rfl

theorem leads_nil : Leads [] [] := ⟨reads_nil, List.forall_mem_nil _⟩

/-- Fixed lines that lead to a heading. -/
theorem Leads.cons_ofList {rest : List String} (cs : List Char)
    (h : Closes cs ∧ ∀ s ∈ sentencesFrom [] (run between (cs ++ ['\n'])).2, isHeading s = false)
    (hr : Leads rest us) : Leads (String.ofList cs :: rest) (usagesIn cs ++ us) := by
  refine ⟨hr.reads.cons_ofList cs h.1, ?_⟩
  rw [List.flatMap_cons, List.forall_mem_append]
  refine ⟨?_, hr.unheaded⟩
  rw [sentences, String.toList_ofList]
  exact h.2

theorem Leads.of_subset {lines : List String} (h : Leads lines us)
    (hu : (∀ u ∈ us, u ∈ vs) ∧ ∀ u ∈ vs, u ∈ us) : Leads lines vs :=
  ⟨h.reads.of_subset hu, h.unheaded⟩

/-- What is done in a declaration, part by part, if there is a heading among its lines. -/
theorem usages_of_heading {declaration : Declaration} {front body : List String} {heading : String}
    (hlines : declaration.lines = front ++ heading :: body) (hfront : Leads front us)
    (hlex : LexedLine heading ts) (hline : Token.line ∉ ts) (hheading : isHeading ts)
    (hbody : Reads body vs) :
    (∀ u, u ∈ declaration.outerUsages ↔ u ∈ us ∨ u ∈ usages ts) ∧
      ∀ u, u ∈ declaration.innerUsages ↔ u ∈ vs := by
  have hclosed : ∀ line ∈ declaration.lines, ∃ ts, LexedLine line ts := by
    rw [hlines, List.forall_mem_append, List.forall_mem_cons]
    exact ⟨hfront.reads.closed, ⟨ts, hlex⟩, hbody.closed⟩
  have hne : declaration.lines ≠ [] := by
    rw [hlines]
    exact List.append_ne_nil_of_right_ne_nil _ (List.cons_ne_nil _ _)
  have hsentences : sentences declaration.text =
      front.flatMap sentences ++ ts :: body.flatMap sentences := by
    rw [Declaration.text, (sentences_intercalate hne hclosed).1, hlines, List.flatMap_append,
      List.flatMap_cons, hlex.sentences_eq hline]
    rfl
  obtain ⟨hup, hbehind⟩ := headed_append hfront.unheaded hheading (body.flatMap sentences)
  constructor
  · intro u
    rw [Declaration.outerUsages, hsentences, hup, List.flatMap_append, List.mem_append,
      List.flatMap_singleton, hfront.reads.usages]
  · intro u
    rw [Declaration.innerUsages, hsentences, hbehind]
    exact hbody.usages u

/-- A fixed heading of a function, and what is done in it. -/
def Heads (cs : List Char) (us : List Usage) : Prop :=
  (run between cs).1 = between ∧ Token.line ∉ (run between cs).2 ∧ isHeading (run between cs).2 ∧
    usages (run between cs).2 = us

instance (cs : List Char) (us : List Usage) : Decidable (Heads cs us) :=
  inferInstanceAs (Decidable (_ ∧ _ ∧ _ ∧ _))

theorem usages_of_heading_ofList {declaration : Declaration} {front body : List String}
    (cs : List Char) (ws : List Usage)
    (hlines : declaration.lines = front ++ String.ofList cs :: body) (hfront : Leads front us)
    (hheads : Heads cs ws) (hbody : Reads body vs) :
    (∀ u, u ∈ declaration.outerUsages ↔ u ∈ us ∨ u ∈ ws) ∧
      ∀ u, u ∈ declaration.innerUsages ↔ u ∈ vs := by
  obtain ⟨hstart, hline, hheading, rfl⟩ := hheads
  have hlex : Lexed cs (run between cs).2 := Prod.ext hstart rfl
  have hend : Lexed ['\n'] [.line] := rfl
  refine usages_of_heading hlines hfront ?_ hline hheading hbody
  rw [LexedLine, String.toList_ofList]
  exact hlex.append hend

/-- Nothing is done in a declaration but in one of its lines. -/
theorem mem_of_mem_usages {declaration : Declaration} (hne : declaration.lines ≠ [])
    (h : Reads declaration.lines us) {u : Usage}
    (hu : u ∈ declaration.outerUsages ∨ u ∈ declaration.innerUsages) : u ∈ us := by
  have hsubset : ∀ ss : List (List Token), upToHeading ss ⊆ ss ∧ behindHeading ss ⊆ ss := by
    intro ss
    have hdrop : ss.dropWhile (fun s => !isHeading s) ⊆ ss := (List.dropWhile_sublist _).subset
    refine ⟨List.append_subset.mpr ⟨(List.takeWhile_sublist _).subset, ?_⟩, ?_⟩
    · exact fun s hs => hdrop ((List.take_sublist _ _).subset hs)
    · exact fun s hs => hdrop ((List.tail_sublist _).subset hs)
  rw [← h.usages, ← (sentences_intercalate hne h.closed).1]
  rcases hu with hu | hu
  · obtain ⟨s, hs, hu⟩ := List.mem_flatMap.mp hu
    exact List.mem_flatMap.mpr ⟨s, (hsubset _).1 hs, hu⟩
  · obtain ⟨s, hs, hu⟩ := List.mem_flatMap.mp hu
    exact List.mem_flatMap.mpr ⟨s, (hsubset _).2 hs, hu⟩

end ApiContract.GoClient
