import Mathlib.Data.Nat.Notation
import Mathlib.Logic.Basic

/-!
# The lexical syntax of generated Rust

Words, punctuation, plain string literals and comments, read character by character. A text that
the compiler refuses, or that leaves this fragment, has no tokens.
-/
namespace RustLexer

inductive Token where
  | word (text : List Char)
  | punct (c : Char)
  | pathSep
  | literal (text : List Char)
  | innerDoc
  | outerDoc
  deriving DecidableEq

/-- Where the reader stands. A block comment remembers how deep it is nested and its last
character, a blank behind a delimiter. -/
inductive Mode where
  | idle
  | word (text : List Char)
  | colon
  | slash
  | lineStart
  | docStart
  | line
  | doc (token : Token) (cr : Bool)
  | blockStart
  | block (depth : ℕ) (last : Char)
  | literal (text : List Char)
  deriving DecidableEq

/-! ## Characters -/

def isWordChar (c : Char) : Bool := c.isAlphanum || c == '_'

def isBlank (c : Char) : Bool := c == ' ' || c == '\n' || c == '\t' || c == '\r'

def isPunct (c : Char) : Bool := "\x7b\x7d[](),;=&<>#!.-+*|^%?@$~".toList.contains c

/-- The characters that change the direction of text, refused in comments and literals. -/
def isDirection (c : Char) : Bool :=
  (0x202A ≤ c.toNat && c.toNat ≤ 0x202E) || (0x2066 ≤ c.toNat && c.toNat ≤ 0x2069)

/-! ## Reading -/

abbrev Result := Option (List Token × Mode)

def emit (ts : List Token) (r : Result) : Result := r.map fun p => (ts ++ p.1, p.2)

def start (c : Char) : Result :=
  if isWordChar c then some ([], .word [c])
  else if isBlank c then some ([], .idle)
  else if c = ':' then some ([], .colon)
  else if c = '/' then some ([], .slash)
  else if c = '"' then some ([], .literal [])
  else if isPunct c then some ([.punct c], .idle)
  else none

def inLine (c : Char) : Result :=
  if c = '\n' then some ([], .idle)
  else if isDirection c then none
  else some ([], .line)

/-- A carriage return is part of a doc comment only right before the end of the line. -/
def inDoc (token : Token) (cr : Bool) (c : Char) : Result :=
  if c = '\n' then some ([token], .idle)
  else if cr || isDirection c then none
  else some ([], .doc token (c == '\r'))

def inBlock (depth : ℕ) (last c : Char) : Result :=
  if isDirection c then none
  else if last = '/' ∧ c = '*' then some ([], .block (depth + 1) ' ')
  else if last = '*' ∧ c = '/' then
    some ([], if depth ≤ 1 then .idle else .block (depth - 1) ' ')
  else some ([], .block depth c)

def step : Mode → Char → Result
  | .idle, c => start c
  | .word text, c =>
    if isWordChar c then some ([], .word (text ++ [c])) else emit [.word text] (start c)
  | .colon, c => if c = ':' then some ([.pathSep], .idle) else emit [.punct ':'] (start c)
  | .slash, c =>
    if c = '/' then some ([], .lineStart)
    else if c = '*' then some ([], .blockStart)
    else emit [.punct '/'] (start c)
  | .lineStart, c =>
    if c = '/' then some ([], .docStart)
    else if c = '!' then some ([], .doc .innerDoc false)
    else inLine c
  | .docStart, c => if c = '/' then some ([], .line) else inDoc .outerDoc false c
  | .line, c => inLine c
  | .doc token cr, c => inDoc token cr c
  -- a block comment may be documentation too
  | .blockStart, c => if c = '*' ∨ c = '!' then none else inBlock 1 ' ' c
  | .block depth last, c => inBlock depth last c
  | .literal text, c =>
    if c = '"' then some ([.literal text], .idle)
    -- escapes are left out
    else if c = '\\' ∨ c = '\r' ∨ isDirection c then none
    else some ([], .literal (text ++ [c]))

def feed : List Char → Mode → Result
  | [], mode => some ([], mode)
  | c :: cs, mode => (step mode c).bind fun p => emit p.1 (feed cs p.2)

/-- What the end of the file leaves behind. -/
def finish : Mode → Option (List Token)
  | .idle | .lineStart | .line => some []
  | .word text => some [.word text]
  | .colon => some [.punct ':']
  | .slash => some [.punct '/']
  | .docStart => some [.outerDoc]
  | .doc token false => some [token]
  | _ => none

def lex (text : List Char) : Option (List Token) :=
  (feed text .idle).bind fun p => (finish p.2).map (p.1 ++ ·)

/-- The tokens of a piece of code. -/
def code (text : String) : List Token := (lex text.toList).getD []

/-! ## Runs of the reader -/

/-- Reading the text yields these tokens and ends in the second mode. -/
def Lexes (m : Mode) (text : List Char) (ts : List Token) (n : Mode) : Prop :=
  feed text m = some (ts, n)

instance (m n : Mode) (text : List Char) (ts : List Token) : Decidable (Lexes m text ts n) :=
  inferInstanceAs (Decidable (feed text m = some (ts, n)))

@[simp] theorem emit_some (ts us : List Token) (m : Mode) :
    emit ts (some (us, m)) = some (ts ++ us, m) := rfl

theorem emit_emit (ts us : List Token) (r : Result) : emit ts (emit us r) = emit (ts ++ us) r := by
  cases r <;> simp [emit]

theorem feed_append (a b : List Char) (m : Mode) :
    feed (a ++ b) m = (feed a m).bind fun p => emit p.1 (feed b p.2) := by
  induction a generalizing m with
  | nil =>
    cases h : feed b m <;> simp [feed, emit, h]
  | cons c a ih =>
    rw [List.cons_append, feed, feed]
    cases step m c with
    | none => rfl
    | some p =>
      rw [Option.bind_some, Option.bind_some, ih]
      cases feed a p.2 with
      | none => rfl
      | some q =>
        rw [Option.bind_some, emit_emit]
        rfl

theorem Lexes.append {m n k : Mode} {a b : List Char} {ts us : List Token} (ha : Lexes m a ts n)
    (hb : Lexes n b us k) : Lexes m (a ++ b) (ts ++ us) k := by
  rw [Lexes] at ha hb
  rw [Lexes, feed_append, ha, Option.bind_some, hb, emit_some]

theorem lexes_nil (m : Mode) : Lexes m [] [] m := rfl

/-- A literal is read character by character. -/
theorem Lexes.text {m n : Mode} {cs : List Char} {ts : List Token} (h : Lexes m cs ts n) :
    Lexes m (String.ofList cs).toList ts n := by
  rwa [String.toList_ofList]

theorem Lexes.code {m n : Mode} {cs ds : List Char} (h : Lexes m cs ((lex ds).getD []) n) :
    Lexes m (String.ofList cs).toList (RustLexer.code (String.ofList ds)) n := by
  rwa [RustLexer.code, String.toList_ofList, String.toList_ofList]

theorem Lexes.lex_eq {text : List Char} {ts : List Token} (h : Lexes .idle text ts .idle) :
    lex text = some ts := by
  rw [Lexes] at h
  rw [lex, h]
  simp [finish]

/-- A word grows as long as word characters come. -/
theorem lexes_word (w : List Char) {text : List Char} (h : ∀ c ∈ text, isWordChar c = true) :
    Lexes (.word w) text [] (.word (w ++ text)) := by
  induction text generalizing w with
  | nil =>
    rw [List.append_nil]
    exact lexes_nil _
  | cons c text ih =>
    have hfirst : Lexes (.word w) [c] [] (.word (w ++ [c])) := by
      rw [Lexes, feed, step, if_pos (h c (by simp))]
      rfl
    have hrest := ih (w ++ [c]) fun d hd => h d (by simp [hd])
    rw [List.append_assoc] at hrest
    exact hfirst.append hrest

/-- The text starts with a character that ends a word. -/
def EndsWord (text : List Char) : Prop := ∃ c ∈ text.head?, isWordChar c = false

instance (text : List Char) : Decidable (EndsWord text) :=
  text.head?.decidableExistsMem

theorem EndsWord.text {c : Char} {cs : List Char} (h : isWordChar c = false) :
    EndsWord (String.ofList (c :: cs)).toList := by
  rw [String.toList_ofList]
  exact ⟨c, rfl, h⟩

theorem EndsWord.append {a : List Char} (h : EndsWord a) (b : List Char) : EndsWord (a ++ b) := by
  obtain ⟨c, hc, hword⟩ := h
  refine ⟨c, ?_, hword⟩
  cases a with
  | nil => cases hc
  | cons d a => exact hc

theorem Lexes.behind_word {text : List Char} {ts : List Token} {m : Mode}
    (h : Lexes .idle text ts m) (hends : EndsWord text) (w : List Char) :
    Lexes (.word w) text (.word w :: ts) m := by
  obtain ⟨c, hc, hword⟩ := hends
  cases text with
  | nil => cases hc
  | cons d text =>
    cases hc
    rw [Lexes, feed, step] at h
    rw [Lexes, feed, step, if_neg (by simp [hword])]
    cases hstart : start c with
    | none =>
      rw [hstart] at h
      cases h
    | some p =>
      rw [hstart, Option.bind_some] at h
      have hall : emit [.word w] (emit p.1 (feed text p.2)) = emit [.word w] (some (ts, m)) :=
        congrArg (emit [.word w]) h
      rw [emit_emit] at hall
      exact hall

/-- The first character of a word starts it. -/
theorem lexes_word_start {text : List Char} (hne : text ≠ [])
    (h : ∀ c ∈ text, isWordChar c = true) : Lexes .idle text [] (.word text) := by
  cases text with
  | nil => exact absurd rfl hne
  | cons c text =>
    have hfirst : Lexes .idle [c] [] (.word [c]) := by
      rw [Lexes, feed, step, start, if_pos (h c (by simp))]
      rfl
    exact hfirst.append (lexes_word [c] fun d hd => h d (by simp [hd]))

theorem lexes_flatMap {α : Type} {items : List α} {text : α → List Char} {ts : α → List Token}
    (h : ∀ a ∈ items, Lexes .idle (text a) (ts a) .idle) :
    Lexes .idle (items.flatMap text) (items.flatMap ts) .idle := by
  induction items with
  | nil => exact lexes_nil _
  | cons a items ih =>
    rw [List.flatMap_cons, List.flatMap_cons]
    exact (h a (by simp)).append (ih fun b hb => h b (by simp [hb]))

/-! ## Text inside a comment -/

/-- The text says nothing where the reader stands in a line comment: it adds no token and ends
inside a line comment again. -/
def SilentInLine (text : List Char) : Prop := Lexes .line text [] .line

instance (text : List Char) : Decidable (SilentInLine text) :=
  inferInstanceAs (Decidable (feed text .line = some ([], .line)))

theorem SilentInLine.text {cs : List Char} (h : SilentInLine cs) :
    SilentInLine (String.ofList cs).toList :=
  Lexes.text h

theorem silentInLine_of_plain {text : List Char}
    (h : ∀ c ∈ text, c ≠ '\n' ∧ isDirection c = false) : SilentInLine text := by
  induction text with
  | nil => exact lexes_nil _
  | cons c text ih =>
    obtain ⟨hline, hdirection⟩ := h c (by simp)
    have hfirst : Lexes .line [c] [] .line := by
      simp [Lexes, feed, step, inLine, hline, hdirection, emit]
    exact hfirst.append (ih fun d hd => h d (by simp [hd]))

theorem isWordChar_iff {c : Char} : isWordChar c = true ↔
    ((('A' ≤ c ∧ c ≤ 'Z') ∨ ('a' ≤ c ∧ c ≤ 'z')) ∨ ('0' ≤ c ∧ c ≤ '9')) ∨ c = '_' := by
  delta isWordChar Char.isAlphanum Char.isAlpha Char.isUpper Char.isLower Char.isDigit
  simp only [Bool.or_eq_true, Bool.and_eq_true, decide_eq_true_eq, beq_iff_eq, ge_iff_le,
    Char.le_def]

theorem toNat_le_of_isWordChar {c : Char} (h : isWordChar c = true) : c.toNat ≤ 122 := by
  have hval : c.toNat = c.val.toNat := rfl
  simp only [isWordChar_iff, Char.le_def, UInt32.le_iff_toNat_le] at h
  rcases h with ((⟨-, h⟩ | ⟨-, h⟩) | ⟨-, h⟩) | rfl
  · simp at h
    omega
  · simp at h
    omega
  · simp at h
    omega
  · decide

/-- Text that is the same in every comment and in a string literal. -/
def Plain (text : List Char) : Prop :=
  ∀ c ∈ text, c ≠ '\n' ∧ c ≠ '\r' ∧ c ≠ '"' ∧ c ≠ '\\' ∧ isDirection c = false

instance (text : List Char) : Decidable (Plain text) := List.decidableBAll _ text

theorem Plain.text {cs : List Char} (h : Plain cs) : Plain (String.ofList cs).toList := by
  rwa [String.toList_ofList]

theorem Plain.silentInLine {text : List Char} (h : Plain text) : SilentInLine text :=
  silentInLine_of_plain fun c hc => ⟨(h c hc).1, (h c hc).2.2.2.2⟩

theorem Plain.lexes_doc {text : List Char} (h : Plain text) (token : Token) :
    Lexes (.doc token false) text [] (.doc token false) := by
  induction text with
  | nil => exact lexes_nil _
  | cons c text ih =>
    obtain ⟨hline, hreturn, -, -, hdirection⟩ := h c (by simp)
    have hfirst : Lexes (.doc token false) [c] [] (.doc token false) := by
      simp [Lexes, feed, step, inDoc, hline, hreturn, hdirection, emit]
    exact hfirst.append (ih fun d hd => h d (by simp [hd]))

theorem Plain.append {a b : List Char} (ha : Plain a) (hb : Plain b) : Plain (a ++ b) := by
  intro c hc
  rcases List.mem_append.mp hc with hc | hc
  · exact ha c hc
  · exact hb c hc

/-- A line of documentation around the text. -/
theorem Plain.lexes_docLine {front text back : List Char} {token : Token} {ts : List Token}
    {m : Mode} (h : Plain text) (hfront : Lexes .idle front [] (.doc token false))
    (hback : Lexes (.doc token false) back ts m) : Lexes .idle (front ++ (text ++ back)) ts m :=
  hfront.append ((h.lexes_doc token).append hback)

theorem Plain.lexes_literal {text : List Char} (h : Plain text) (front : List Char) :
    Lexes (.literal front) text [] (.literal (front ++ text)) := by
  induction text generalizing front with
  | nil =>
    rw [List.append_nil]
    exact lexes_nil _
  | cons c text ih =>
    obtain ⟨-, hreturn, hquote, hescape, hdirection⟩ := h c (by simp)
    have hfirst : Lexes (.literal front) [c] [] (.literal (front ++ [c])) := by
      simp [Lexes, feed, step, hreturn, hquote, hescape, hdirection, emit]
    have hrest := ih (fun d hd => h d (by simp [hd])) (front ++ [c])
    rw [List.append_assoc] at hrest
    exact hfirst.append hrest

theorem plain_of_word {text : List Char} (h : ∀ c ∈ text, isWordChar c = true) : Plain text := by
  intro c hc
  have hword := h c hc
  have hle := toNat_le_of_isWordChar hword
  have hne : ∀ d, isWordChar d = false → c ≠ d := by
    rintro d hd rfl
    rw [hword] at hd
    cases hd
  refine ⟨hne _ (by decide), hne _ (by decide), hne _ (by decide), hne _ (by decide), ?_⟩
  simp only [isDirection, Bool.or_eq_false_iff, Bool.and_eq_false_iff, decide_eq_false_iff_not]
  omega

theorem silentInLine_of_word {text : List Char} (h : ∀ c ∈ text, isWordChar c = true) :
    SilentInLine text :=
  (plain_of_word h).silentInLine

def staysInBlock : Result → Bool
  | some ([], .block 1 _) => true
  | _ => false

/-- The same for a block comment, behind an opening parenthesis. -/
def SilentInBlock (text : List Char) : Prop := staysInBlock (feed text (.block 1 '(')) = true

instance (text : List Char) : Decidable (SilentInBlock text) :=
  inferInstanceAs (Decidable (_ = _))

theorem SilentInBlock.lexes {text : List Char} (h : SilentInBlock text) :
    ∃ last, Lexes (.block 1 '(') text [] (.block 1 last) := by
  rw [SilentInBlock, staysInBlock.eq_def] at h
  split at h
  · rename_i last heq
    exact ⟨last, heq⟩
  · cases h

end RustLexer
