/-
FreshTag/Proofs/Database/Lexing.lean

How a server reads the words of a statement.  A bare word is a letter or an
underscore and what may follow it, in lower case whatever the case it stands in.  A
name between double quotes ends at the first quote that is not doubled.  A text
between dollar quotes ends where its tag comes again.

The lexer goes through the text once; a `Mode` says where it stands, and a word or
a name is given out with the first character behind it.  So a text is read piece
by piece (`Reads.append`), where a name that is still open goes over into the next
piece (`Reads.behind`).

`Spells text name` says that a text is an identifier and means the name.  What
`plainOrQuoted` and `doubleQuoted` write spells its name (`spells_plainOrQuoted`,
`spells_doubleQuoted`), and so does what the server writes itself, which quotes a
few names more (`spells_quoteIdent`).
-/
import FreshTag.Catalog.Table

namespace FreshTag.Database

open FreshTag.Catalog (doubleQuotes doubleQuoted isPlain isPlainName keywords plainOrQuoted
  startsPlain)

/-! ### Tokens -/

/-- What a statement is made of. -/
inductive Token where
  /-- a word that stands bare, in lower case -/
  | word (text : String)
  /-- a name that stands between double quotes -/
  | quoted (name : String)
  | symbol (c : Char)
  /-- a text that stands between dollar quotes -/
  | body (text : String)
  deriving DecidableEq, Repr

/-- The name that a token means, if it may be one: a keyword is none unless it is quoted. -/
def Token.name? : Token → Option String
  | .word text => if keywords.contains text then none else some text
  | .quoted name => some name
  | _ => none

/-- Where the reading of a statement stands; what was read comes last first. -/
inductive Mode where
  | between
  | word (read : List Char)
  | quoted (read : List Char)
  /-- behind a quote, which ends the name unless a second one follows -/
  | closing (read : List Char)
  | tag (read : List Char)
  | body (opening read : List Char)
  deriving DecidableEq, Repr

/-- White space. -/
def isBlank (c : Char) : Bool :=
  c == ' ' || (9 ≤ c.toNat && c.toNat ≤ 13)

/-- A character that may start a bare word. -/
def startsWord (c : Char) : Bool :=
  c.isAlpha || c == '_' || 128 ≤ c.toNat

/-- A character that may stand in a bare word. -/
def continuesWord (c : Char) : Bool :=
  startsWord c || c.isDigit || c == '$'

namespace Mode

/-- The token that the next character ends. -/
def pending : Mode → List Token
  | .word read => [.word (String.ofList read.reverse)]
  | .closing read => [.quoted (String.ofList read.reverse)]
  | _ => []

/-- The mode that a character begins. -/
def enter (c : Char) : Option (List Token × Mode) :=
  if isBlank c then some ([], .between)
  else if startsWord c then some ([], .word [c.toLower])
  else if c = '"' then some ([], .quoted [])
  else if c = '$' then some ([], .tag [])
  else if c = '.' ∨ c = '(' ∨ c = ')' then some ([.symbol c], .between)
  else none

/-- The character behind a token ends it and begins the next. -/
def leave (m : Mode) (c : Char) : Option (List Token × Mode) :=
  (enter c).map fun (tokens, next) => (m.pending ++ tokens, next)

/-- Reads a character. -/
def step (m : Mode) (c : Char) : Option (List Token × Mode) :=
  match m with
  | .between => enter c
  | .word read => if continuesWord c then some ([], .word (c.toLower :: read)) else m.leave c
  | .quoted read => if c = '"' then some ([], .closing read) else some ([], .quoted (c :: read))
  | .closing read => if c = '"' then some ([], .quoted (c :: read)) else m.leave c
  | .tag read =>
    if c = '$' then some ([], .body read.reverse [])
    else if continuesWord c then some ([], .tag (c :: read)) else none
  | .body opening read =>
    let mark := '$' :: (opening ++ ['$'])
    if mark.reverse.isPrefixOf (c :: read) then
      some ([.body (String.ofList ((c :: read).drop mark.length).reverse)], .between)
    else some ([], .body opening (c :: read))

/-- Reads a text: the tokens that are complete, and where the reading stands then. -/
def read (m : Mode) : List Char → Option (List Token × Mode)
  | [] => some ([], m)
  | c :: cs => do
    let (tokens, next) ← m.step c
    let (rest, last) ← next.read cs
    return (tokens ++ rest, last)

/-- The tokens at the end of a statement; quotes that are still open are an error. -/
def finish : Mode → Option (List Token)
  | .quoted _ | .tag _ | .body .. => none
  | m => some m.pending

end Mode

/-- The tokens of a statement. -/
def tokens? (text : String) : Option (List Token) := do
  let (tokens, last) ← Mode.between.read text.toList
  return tokens ++ (← last.finish)

/-! ### Reading piece by piece -/

/-- From the one mode the text gives the tokens and leads to the other mode. -/
def Reads (m : Mode) (text : List Char) (tokens : List Token) (next : Mode) : Prop :=
  m.read text = some (tokens, next)

instance (m : Mode) (text : List Char) (tokens : List Token) (next : Mode) :
    Decidable (Reads m text tokens next) :=
  inferInstanceAs (Decidable (_ = _))

/-- The text begins with a character that ends a word or a name. -/
def endsName : List Char → Bool
  | [] => false
  | c :: _ => !continuesWord c && c != '"'

/-- Where a word or a name is open, a character that ends it leaves it. -/
theorem Mode.step_of_endsName {m : Mode} {tok : Token} {c : Char} {cs : List Char}
    (hm : m.pending = [tok]) (hends : endsName (c :: cs) = true) : m.step c = m.leave c := by
  obtain ⟨hword, hquote⟩ := (Bool.and_eq_true _ _).mp hends
  cases m <;> simp_all [Mode.step, Mode.pending]

namespace Reads

variable {m m' m'' : Mode} {p q : List Char} {ts us : List Token}
  {c : Char} {tok : Token}

theorem nil (m : Mode) : Reads m [] [] m :=
  rfl

theorem cons (hstep : m.step c = some (ts, m')) (h : Reads m' p us m'') :
    Reads m (c :: p) (ts ++ us) m'' := by
  rw [Reads, Mode.read, hstep]
  show (m'.read p >>= _) = _
  rw [show m'.read p = _ from h]
  rfl

/-- A character that gives out nothing. -/
theorem skip (hstep : m.step c = some ([], m')) (h : Reads m' p us m'') :
    Reads m (c :: p) us m'' :=
  cons hstep h

/-- The first character is read before the others. -/
theorem uncons (h : Reads m (c :: p) ts m') :
    ∃ first next rest, m.step c = some (first, next) ∧ Reads next p rest m' ∧
      ts = first ++ rest := by
  rw [Reads, Mode.read] at h
  obtain ⟨⟨first, next⟩, hstep, h⟩ := Option.bind_eq_some_iff.mp h
  obtain ⟨⟨rest, last⟩, hrest, h⟩ := Option.bind_eq_some_iff.mp h
  obtain ⟨rfl, rfl⟩ := Prod.mk.inj (Option.some.inj h)
  exact ⟨first, next, rest, hstep, hrest, rfl⟩

theorem append (h : Reads m p ts m') (h' : Reads m' q us m'') :
    Reads m (p ++ q) (ts ++ us) m'' := by
  induction p generalizing m ts with
  | nil =>
    obtain ⟨rfl, rfl⟩ := Prod.mk.inj (Option.some.inj h)
    exact h'
  | cons c p ih =>
    obtain ⟨first, next, rest, hstep, hrest, rfl⟩ := h.uncons
    rw [List.append_assoc]
    exact cons hstep (ih hrest)

/-- A word or a name that is still open is given out with the character behind it. -/
theorem behind (hm : m.pending = [tok]) (hends : endsName p = true)
    (h : Reads .between p ts m') : Reads m p (tok :: ts) m' := by
  rcases p with - | ⟨c, p⟩
  · exact absurd hends Bool.false_ne_true
  obtain ⟨first, next, rest, hstep, hrest, rfl⟩ := h.uncons
  have henter : Mode.enter c = some (first, next) := hstep
  have hleave : m.step c = some (tok :: first, next) := by
    rw [Mode.step_of_endsName hm hends, Mode.leave, hm, henter]
    rfl
  exact cons hleave hrest

end Reads

/-! ### Identifiers -/

/-- The text is an identifier and means the name. -/
def Spells (text name : String) : Prop :=
  ∃ m tok, Reads .between text.toList [] m ∧ m.pending = [tok] ∧ tok.name? = some name

theorem reads_doubleQuotes (read cs : List Char) :
    Reads (.quoted read) (doubleQuotes cs) [] (.quoted (cs.reverse ++ read)) := by
  induction cs generalizing read with
  | nil => exact .nil _
  | cons c cs ih =>
    rw [List.reverse_cons, List.append_assoc]
    -- a quote is doubled, which closes the name and opens it again
    by_cases hc : c = '"'
    · subst hc
      rw [doubleQuotes, if_pos rfl]
      exact .skip rfl (.skip rfl (ih _))
    · rw [doubleQuotes, if_neg hc]
      refine .skip ?_ (ih _)
      rw [Mode.step, if_neg hc]
      rfl

/-- Whatever the name, its quotes cannot end it. -/
theorem spells_doubleQuoted (name : String) : Spells (doubleQuoted name) name := by
  refine ⟨.closing name.toList.reverse, .quoted name, ?_, ?_, rfl⟩
  · rw [doubleQuoted, String.toList_ofList]
    have hname := reads_doubleQuotes [] name.toList
    rw [List.append_nil] at hname
    have hopen : Mode.between.step '"' = some ([], .quoted []) := rfl
    exact .append (.skip hopen hname) (.skip rfl (.nil _))
  · rw [Mode.pending, List.reverse_reverse, String.ofList_toList]

theorem isUpper_of_isPlain {c : Char} (h : isPlain c = true) : c.isUpper = false := by
  simp only [isPlain, Bool.or_eq_true, beq_iff_eq] at h
  rcases h with ((hlower | hdigit) | rfl) | rfl
  · delta Char.isLower at hlower
    delta Char.isUpper
    simp only [Bool.and_eq_true, decide_eq_true_eq] at hlower
    grind
  · delta Char.isDigit at hdigit
    delta Char.isUpper
    simp only [Bool.and_eq_true, decide_eq_true_eq] at hdigit
    grind
  · rfl
  · rfl

theorem toLower_of_isPlain {c : Char} (h : isPlain c = true) : c.toLower = c := by
  have hupper := isUpper_of_isPlain h
  unfold Char.toLower
  exact dif_neg (decide_eq_false_iff_not.mp hupper)

theorem continuesWord_of_isPlain {c : Char} (h : isPlain c = true) : continuesWord c = true := by
  simp only [isPlain, continuesWord, startsWord, Bool.or_eq_true] at h ⊢
  delta Char.isAlpha
  grind

theorem isPlain_of_startsPlain {c : Char} (h : startsPlain c = true) : isPlain c = true := by
  simp only [isPlain, startsPlain, Bool.or_eq_true] at h ⊢
  grind

theorem enter_of_startsPlain {c : Char} (h : startsPlain c = true) :
    Mode.enter c = some ([], .word [c]) := by
  have hstarts : startsWord c = true := by
    simp only [startsPlain, startsWord, Bool.or_eq_true] at h ⊢
    delta Char.isAlpha
    grind
  have hblank : isBlank c = false := by
    rcases (Bool.or_eq_true _ _).mp h with hlower | hline
    · have hletter : 97 ≤ c.toNat := by
        delta Char.isLower at hlower
        simp only [Bool.and_eq_true, decide_eq_true_eq] at hlower
        exact UInt32.le_iff_toNat_le.mp hlower.1
      have hspace : c ≠ ' ' := by
        rintro rfl
        exact absurd hletter (by decide)
      simp only [isBlank, Bool.or_eq_false_iff, beq_eq_false_iff_ne, Bool.and_eq_false_imp,
        decide_eq_true_eq, decide_eq_false_iff_not]
      exact ⟨hspace, fun _ => by omega⟩
    · obtain rfl := beq_iff_eq.mp hline
      rfl
  rw [Mode.enter, if_neg (by simp [hblank]), if_pos hstarts,
    toLower_of_isPlain (isPlain_of_startsPlain h)]

theorem reads_plain {cs : List Char} (h : cs.all isPlain = true) (read : List Char) :
    Reads (.word read) cs [] (.word (cs.reverse ++ read)) := by
  induction cs generalizing read with
  | nil => exact .nil _
  | cons c cs ih =>
    obtain ⟨hc, hcs⟩ := (Bool.and_eq_true _ _).mp h
    rw [List.reverse_cons, List.append_assoc]
    refine .skip ?_ (ih hcs _)
    rw [Mode.step, if_pos (continuesWord_of_isPlain hc), toLower_of_isPlain hc]
    rfl

/-- A plain name that is no keyword spells itself. -/
theorem spells_plain {name : String} (h : isPlainName name = true)
    (hkeyword : keywords.contains name = false) : Spells name name := by
  unfold isPlainName at h
  split at h
  · exact absurd h Bool.false_ne_true
  · next c cs hname =>
    obtain ⟨hc, hall⟩ := (Bool.and_eq_true _ _).mp h
    obtain ⟨-, hcs⟩ := (Bool.and_eq_true _ _).mp hall
    refine ⟨.word (c :: cs).reverse, .word name, ?_, ?_, ?_⟩
    · rw [hname, List.reverse_cons]
      exact .skip (enter_of_startsPlain hc) (reads_plain hcs [c])
    · rw [Mode.pending, List.reverse_reverse, ← hname, String.ofList_toList]
    · rw [Token.name?, hkeyword]
      rfl

theorem spells_plainOrQuoted (name : String) : Spells (plainOrQuoted name) name := by
  unfold plainOrQuoted
  split
  · next h =>
    simp only [Bool.and_eq_true, Bool.not_eq_true'] at h
    exact spells_plain h.1 h.2
  · exact spells_doubleQuoted name

/-! ### The server's own quotes -/

/-- A name as the server quotes it, which leaves bare only what starts in lower case and goes on
in lower case, with digits and underscores, and is no keyword. -/
def quoteIdent (name : String) : String :=
  if isPlainName name && !name.toList.contains '$' && !keywords.contains name then name
  else doubleQuoted name

theorem spells_quoteIdent (name : String) : Spells (quoteIdent name) name := by
  unfold quoteIdent
  split
  · next h =>
    simp only [Bool.and_eq_true, Bool.not_eq_true'] at h
    exact spells_plain h.1.1 h.2
  · exact spells_doubleQuoted name

/-! ### Forms -/

/-- A part of the form of a statement. -/
inductive Part where
  | keyword (word : String)
  | symbol (c : Char)
  /-- the place of a name -/
  | name
  /-- the place of a text between dollar quotes -/
  | body
  deriving DecidableEq, Repr

/-- The names that stand in the places of a form. -/
def fill : List Part → List Token → Option (List String)
  | [], [] => some []
  | .keyword w :: parts, .word w' :: tokens => if w' = w then fill parts tokens else none
  | .symbol c :: parts, .symbol c' :: tokens => if c' = c then fill parts tokens else none
  | .name :: parts, tok :: tokens => do return (← tok.name?) :: (← fill parts tokens)
  | .body :: parts, .body _ :: tokens => fill parts tokens
  | _, _ => none

theorem fill_append {form rest : List Part} {ts us : List Token} {names others : List String}
    (h : fill form ts = some names) (h' : fill rest us = some others) :
    fill (form ++ rest) (ts ++ us) = some (names ++ others) := by
  induction form, ts using fill.induct generalizing names with
  | case1 =>
    obtain rfl := Option.some.inj h
    exact h'
  | case2 w parts tokens ih =>
    rw [fill, if_pos rfl] at h
    rw [List.cons_append, List.cons_append, fill, if_pos rfl]
    exact ih h
  | case3 w parts w' tokens hne => rw [fill, if_neg hne] at h; cases h
  | case4 c parts tokens ih =>
    rw [fill, if_pos rfl] at h
    rw [List.cons_append, List.cons_append, fill, if_pos rfl]
    exact ih h
  | case5 c parts c' tokens hne => rw [fill, if_neg hne] at h; cases h
  | case6 parts tok tokens ih =>
    rw [fill] at h
    obtain ⟨name, hname, h⟩ := Option.bind_eq_some_iff.mp h
    obtain ⟨names, hfill, h⟩ := Option.bind_eq_some_iff.mp h
    obtain rfl := Option.some.inj h
    rw [List.cons_append, List.cons_append, fill, hname, ih hfill]
    rfl
  | case7 parts text tokens ih =>
    rw [fill] at h
    rw [List.cons_append, List.cons_append, fill]
    exact ih h
  | case8 form ts => rw [fill] at h <;> first | cases h | assumption

/-- The text reads as a piece of a statement of this form, with these names in its places. -/
def Phrase (text : List Char) (form : List Part) (names : List String) : Prop :=
  ∃ ts m last, Reads .between text ts m ∧ m.finish = some last ∧ fill form (ts ++ last) = some names

/-- Keywords one after the other. -/
def keywordParts (words : List String) : List Part :=
  words.map .keyword

theorem fill_keywordParts (words : List String) :
    fill (keywordParts words) (words.map .word) = some [] := by
  induction words with
  | nil => rfl
  | cons w words ih =>
    rw [keywordParts, List.map_cons, List.map_cons, fill, if_pos rfl]
    exact ih

theorem Mode.finish_of_pending {m : Mode} {tok : Token} (h : m.pending = [tok]) :
    m.finish = some [tok] := by
  cases m <;> simp_all [Mode.finish, Mode.pending]

namespace Phrase

variable {p q : List Char} {f g : List Part} {names others : List String}

/-- An identifier stands in the place of a name. -/
theorem name {text name : String} (h : Spells text name) : Phrase text.toList [.name] [name] := by
  obtain ⟨m, tok, hreads, hm, htok⟩ := h
  refine ⟨[], m, [tok], hreads, Mode.finish_of_pending hm, ?_⟩
  rw [List.nil_append, fill, htok]
  rfl

/-- What follows an identifier begins with a character that ends it. -/
theorem name_append {text name : String} (h : Spells text name) (hends : endsName q = true)
    (hq : Phrase q g others) : Phrase (text.toList ++ q) (.name :: g) (name :: others) := by
  obtain ⟨m, tok, hreads, hm, htok⟩ := h
  obtain ⟨us, m', last, hq, hlast, hfill⟩ := hq
  refine ⟨tok :: us, m', last, hreads.append (.behind hm hends hq), hlast, ?_⟩
  rw [List.cons_append, fill, htok, hfill]
  rfl

/-- Words and symbols that are complete, and what comes behind them. -/
theorem words_append (ts : List Token) (h : Reads .between p ts .between)
    (hfill : fill f ts = some []) (hq : Phrase q g others) :
    Phrase (p ++ q) (f ++ g) others := by
  obtain ⟨us, m', last, hq, hlast, hrest⟩ := hq
  refine ⟨ts ++ us, m', last, h.append hq, hlast, ?_⟩
  rw [List.append_assoc]
  exact fill_append hfill hrest

/-- Keywords that are followed by a blank, and what comes behind them. -/
theorem keywords_append (words : List String) (h : Reads .between p (words.map .word) .between)
    (hq : Phrase q g others) : Phrase (p ++ q) (keywordParts words ++ g) others :=
  words_append _ h (fill_keywordParts words) hq

/-- The tokens of a statement fill its form. -/
theorem tokens {text : String} (h : Phrase text.toList f names) :
    ∃ ts, tokens? text = some ts ∧ fill f ts = some names := by
  obtain ⟨ts, m, last, hreads, hlast, hfill⟩ := h
  refine ⟨ts ++ last, ?_, hfill⟩
  rw [tokens?, show Mode.between.read text.toList = _ from hreads]
  show (m.finish >>= _) = _
  rw [hlast]
  rfl

end Phrase

end FreshTag.Database
