import Mathlib.Tactic.Choose
import Sipahi.RustLexer

/-!
# Reading values out of tokens

Readers for the literals of generated tables. What `Reads` a value does so in front of any other
tokens, and such readers compose.
-/
namespace RustReader

open RustLexer

abbrev Reader (α : Type) := StateT (List Token) Option α

variable {α β : Type}

/-- The reader takes these tokens for the value, whatever follows them. -/
def Reads (p : Reader α) (ts : List Token) (a : α) : Prop := ∀ rest, p (ts ++ rest) = some (a, rest)

theorem Reads.pure (a : α) : Reads (Pure.pure a : Reader α) [] a := fun _ => rfl

theorem Reads.bind {p : Reader α} {k : α → Reader β} {ts us : List Token} {a : α} {b : β}
    (hp : Reads p ts a) (hk : Reads (k a) us b) : Reads (p >>= k) (ts ++ us) b := by
  intro rest
  have hstep : (p >>= k) (ts ++ us ++ rest) = (p (ts ++ (us ++ rest))).bind fun r => k r.1 r.2 := by
    rw [List.append_assoc]
    rfl
  rw [hstep, hp, Option.bind_some, hk]

theorem Reads.orElse {p : Reader α} {ts : List Token} {a : α} (hp : Reads p ts a) (q : Reader α) :
    Reads (p <|> q) ts a := by
  intro rest
  have hor : (p <|> q) (ts ++ rest) = (p (ts ++ rest) <|> q (ts ++ rest)) := rfl
  rw [hor, hp]
  rfl

theorem Reads.orElse_right {q : Reader α} {ts : List Token} {a : α} (hq : Reads q ts a)
    {p : Reader α} (hp : ∀ rest, p (ts ++ rest) = none) : Reads (p <|> q) ts a := by
  intro rest
  have hor : (p <|> q) (ts ++ rest) = (p (ts ++ rest) <|> q (ts ++ rest)) := rfl
  rw [hor, hp, hq]
  rfl

/-! ## Fixed tokens -/

def expect : List Token → Reader Unit
  | [], input => some ((), input)
  | t :: ts, u :: input => if t = u then expect ts input else none
  | _ :: _, [] => none

theorem reads_expect (ts : List Token) : Reads (expect ts) ts () := by
  intro rest
  induction ts with
  | nil => rfl
  | cons t ts ih => rw [List.cons_append, expect, if_pos rfl, ih]

theorem expect_some {ts input : List Token} {r : Unit × List Token} (h : expect ts input = some r) :
    input = ts ++ r.2 := by
  induction ts generalizing input with
  | nil =>
    cases h
    rfl
  | cons t ts ih =>
    cases input with
    | nil => cases h
    | cons u input =>
      rw [expect] at h
      split at h
      · rename_i heq
        rw [heq, List.cons_append, ← ih h]
      · cases h

theorem expect_bind_isSome {ts : List Token} {k : Unit → Reader β} {input : List Token}
    (h : ((expect ts >>= k) input).isSome) : ∃ rest, input = ts ++ rest := by
  have hbind : (expect ts >>= k) input = (expect ts input).bind fun r => k r.1 r.2 := rfl
  rw [hbind] at h
  cases hexpect : expect ts input with
  | none =>
    rw [hexpect] at h
    cases h
  | some r => exact ⟨r.2, expect_some hexpect⟩

/-- Nothing but the value stands in the file. -/
def whole (p : Reader α) (ts : List Token) : Option α :=
  match p ts with
  | some (a, []) => some a
  | _ => none

theorem Reads.whole_eq {p : Reader α} {ts : List Token} {a : α} (h : Reads p ts a) :
    whole p ts = some a := by
  have hall := h []
  rw [List.append_nil] at hall
  rw [whole, hall]

/-! ## Words -/

/-- A word of the table, and what it stands for. -/
def oneOf (table : List (List Char × α)) : Reader α
  | .word text :: input => (table.lookup text).map (·, input)
  | _ => none

theorem reads_oneOf {table : List (List Char × α)} {text : List Char} {a : α}
    (h : table.lookup text = some a) : Reads (oneOf table) [.word text] a := by
  intro rest
  rw [List.singleton_append, oneOf, h]
  rfl

/-- Any word. -/
def word : Reader (List Char)
  | .word text :: input => some (text, input)
  | _ => none

theorem reads_word (text : List Char) : Reads word [.word text] text := fun _ => rfl

/-- The words that name nothing. -/
def keywords : List (List Char) :=
  ["as", "break", "const", "continue", "crate", "dyn", "else", "enum", "extern", "false", "fn",
    "for", "if", "impl", "in", "let", "loop", "match", "mod", "move", "mut", "pub", "ref",
    "return", "self", "Self", "static", "struct", "super", "trait", "true", "type", "unsafe",
    "use", "where", "while", "async", "await", "abstract", "become", "box", "do", "final",
    "macro", "override", "priv", "try", "typeof", "unsized", "virtual", "yield", "_"].map
      String.toList

/-- A word that the program may declare. -/
def IsIdentifier (text : List Char) : Prop :=
  (∃ c ∈ text.head?, c.isDigit = false) ∧ text ∉ keywords

instance (text : List Char) : Decidable (IsIdentifier text) :=
  have : Decidable (∃ c ∈ text.head?, c.isDigit = false) := text.head?.decidableExistsMem
  inferInstanceAs (Decidable (_ ∧ _))

/-! ## Literals -/

def literal : Reader (List Char)
  | .literal text :: input => some (text, input)
  | _ => none

theorem reads_literal (text : List Char) : Reads literal [.literal text] text := fun _ => rfl

/-! ## Numerals -/

def digitValue (c : Char) : Option ℕ :=
  if c.isDigit then some (c.toNat - 48)
  else if 'a' ≤ c ∧ c ≤ 'f' then some (c.toNat - 87)
  else if 'A' ≤ c ∧ c ≤ 'F' then some (c.toNat - 55)
  else none

def digitsValue (base : ℕ) (text : List Char) : Option ℕ :=
  text.foldlM (fun n c => (digitValue c).bind fun d =>
    if d < base then some (base * n + d) else none) 0

/-- Decimal and hexadecimal numerals without separators and suffixes. -/
def numeral : List Char → Option ℕ
  | '0' :: 'x' :: c :: text => digitsValue 16 (c :: text)
  | c :: text => digitsValue 10 (c :: text)
  | [] => none

/-- An integer literal of a type with this largest value. -/
def number (bound : ℕ) : Reader ℕ
  | .word text :: input => (numeral text).bind fun n => if n ≤ bound then some (n, input) else none
  | _ => none

def decimal (n : ℕ) : List Char := Nat.toDigits 10 n

def hexadecimal (n : ℕ) : List Char := '0' :: 'x' :: Nat.toDigits 16 n

theorem digitValue_digitChar {d : ℕ} (h : d < 16) : digitValue (Nat.digitChar d) = some d := by
  revert d
  decide

theorem digitsValue_toDigits {base : ℕ} (hone : 1 < base) (hbase : base ≤ 16) (n : ℕ) :
    digitsValue base (Nat.toDigits base n) = some n := by
  induction n using Nat.strongRecOn with
  | ind n ih =>
    rw [Nat.toDigits_eq_if hone]
    split
    · rename_i hlt
      simp [digitsValue, digitValue_digitChar (Nat.lt_of_lt_of_le hlt hbase), hlt]
    · rename_i hge
      have hsmall : n / base < n := Nat.div_lt_self (by omega) hone
      have hdigit : n % base < base := Nat.mod_lt n (by omega)
      have hprefix := ih _ hsmall
      rw [digitsValue] at hprefix
      rw [digitsValue, List.foldlM_append, hprefix]
      simp [digitValue_digitChar (Nat.lt_of_lt_of_le hdigit hbase), hdigit, Nat.div_add_mod]

theorem isWordChar_digitChar {d : ℕ} (h : d < 16) : isWordChar (Nat.digitChar d) = true := by
  revert d
  decide

theorem isWordChar_toDigits {base : ℕ} (hone : 1 < base) (hbase : base ≤ 16) (n : ℕ) :
    ∀ c ∈ Nat.toDigits base n, isWordChar c = true := by
  induction n using Nat.strongRecOn with
  | ind n ih =>
    rw [Nat.toDigits_eq_if hone]
    intro c hc
    split at hc
    · rename_i hlt
      rw [List.mem_singleton.mp hc]
      exact isWordChar_digitChar (Nat.lt_of_lt_of_le hlt hbase)
    · rename_i hge
      have hsmall : n / base < n := Nat.div_lt_self (by omega) hone
      rcases List.mem_append.mp hc with hc | hc
      · exact ih _ hsmall c hc
      · rw [List.mem_singleton.mp hc]
        have hdigit : n % base < base := Nat.mod_lt n (by omega)
        exact isWordChar_digitChar (Nat.lt_of_lt_of_le hdigit hbase)

theorem lexes_decimal (n : ℕ) : Lexes .idle (decimal n) [] (.word (decimal n)) :=
  lexes_word_start Nat.toDigits_ne_nil (isWordChar_toDigits (by decide) (by decide) n)

theorem lexes_hexadecimal (n : ℕ) : Lexes .idle (hexadecimal n) [] (.word (hexadecimal n)) := by
  apply lexes_word_start (by simp [hexadecimal])
  intro c hc
  rw [hexadecimal] at hc
  rcases List.mem_cons.mp hc with rfl | hc
  · rfl
  · rcases List.mem_cons.mp hc with rfl | hc
    · rfl
    · exact isWordChar_toDigits (by decide) (by decide) n c hc

theorem numeral_hexadecimal (n : ℕ) : numeral (hexadecimal n) = some n := by
  have hvalue : digitsValue 16 (Nat.toDigits 16 n) = some n :=
    digitsValue_toDigits (by decide) (by decide) n
  cases hdigits : Nat.toDigits 16 n with
  | nil => exact absurd hdigits Nat.toDigits_ne_nil
  | cons c text =>
    rw [hdigits] at hvalue
    rw [hexadecimal, hdigits, numeral, hvalue]

theorem plain_decimal (n : ℕ) : Plain (decimal n) :=
  plain_of_word (isWordChar_toDigits (by decide) (by decide) n)

theorem numeral_of_digits {text : List Char} (hne : text ≠ [])
    (h : ∀ c ∈ text, c.isDigit = true) : numeral text = digitsValue 10 text := by
  rw [numeral.eq_def]
  split
  · rename_i c rest
    exact absurd (h 'x' (by simp)) (by decide)
  · rfl
  · exact absurd rfl hne

theorem numeral_decimal (n : ℕ) : numeral (decimal n) = some n := by
  rw [decimal, numeral_of_digits Nat.toDigits_ne_nil
    fun c hc => Nat.isDigit_of_mem_toDigits (by decide) (by decide) hc]
  exact digitsValue_toDigits (by decide) (by decide) n

theorem reads_number {text : List Char} {n bound : ℕ} (hvalue : numeral text = some n)
    (hn : n ≤ bound) : Reads (number bound) [.word text] n := by
  intro rest
  rw [List.singleton_append, number, hvalue, Option.bind_some, if_pos hn]

/-! ## Sequences -/

/-- This many elements. -/
def items (p : Reader α) : ℕ → Reader (List α)
  | 0 => pure []
  | n + 1 => do
    let a ← p
    let rest ← items p n
    pure (a :: rest)

theorem getD_map_finRange {n : ℕ} (f : Fin n → α) (i : Fin n) (d : α) :
    ((List.finRange n).map f).getD i.val d = f i := by
  rw [List.getD_eq_getElem?_getD, List.getElem?_eq_getElem (by simp), Option.getD_some]
  simp

/-- As many elements as the reader finds. -/
def manyFuel (p : Reader α) : ℕ → Reader (List α)
  | 0, input => some ([], input)
  | fuel + 1, input =>
    match p input with
    | some (a, rest) => (manyFuel p fuel rest).map fun r => (a :: r.1, r.2)
    | none => some ([], input)

def many (p : Reader α) : Reader (List α) := fun input => manyFuel p input.length input

theorem manyFuel_eq {p : Reader α} {xs : List β} {ts : β → List Token} {f : β → α}
    (h : ∀ x ∈ xs, Reads p (ts x) (f x)) {rest : List Token} (hrest : p rest = none) {fuel : ℕ}
    (hfuel : xs.length ≤ fuel) :
    manyFuel p fuel (xs.flatMap ts ++ rest) = some (xs.map f, rest) := by
  induction xs generalizing fuel with
  | nil =>
    cases fuel with
    | zero => rfl
    | succ fuel =>
      rw [List.flatMap_nil, List.nil_append, manyFuel, hrest]
      rfl
  | cons x xs ih =>
    cases fuel with
    | zero => cases hfuel
    | succ fuel =>
      have hxs := ih (fun y hy => h y (by simp [hy])) (Nat.le_of_succ_le_succ hfuel)
      rw [List.flatMap_cons, List.append_assoc, manyFuel, h x (by simp)]
      dsimp only
      rw [hxs]
      rfl

theorem length_le_flatMap {xs : List β} {ts : β → List Token} (h : ∀ x ∈ xs, ts x ≠ []) :
    xs.length ≤ (xs.flatMap ts).length := by
  induction xs with
  | nil => exact Nat.zero_le _
  | cons x xs ih =>
    have hx := List.length_pos_iff.mpr (h x (by simp))
    have hxs := ih fun y hy => h y (by simp [hy])
    rw [List.flatMap_cons, List.length_append, List.length_cons]
    omega

/-- Such a sequence ends at the first tokens that are no element. -/
theorem many_eq {p : Reader α} {xs : List β} {ts : β → List Token} {f : β → α}
    (h : ∀ x ∈ xs, Reads p (ts x) (f x)) {rest : List Token} (hrest : p rest = none) :
    many p (xs.flatMap ts ++ rest) = some (xs.map f, rest) := by
  have hnonempty : ∀ x ∈ xs, ts x ≠ [] := by
    intro x hx hnil
    have hread := h x hx rest
    rw [hnil, List.nil_append, hrest] at hread
    cases hread
  have hlength := length_le_flatMap hnonempty
  apply manyFuel_eq h hrest
  rw [List.length_append]
  omega

/-! ## From the text to the value -/

/-- What the compiler makes of a file, as far as the reader knows it. -/
def compile (p : Reader α) (text : List Char) : Option α := (lex text).bind (whole p)

/-- The text, read from its start to its end, is the value. -/
def Writes (text : List Char) (p : Reader α) (a : α) : Prop :=
  ∃ ts, Lexes .idle text ts .idle ∧ Reads p ts a

theorem Writes.compile_eq {text : List Char} {p : Reader α} {a : α} (h : Writes text p a) :
    compile p text = some a := by
  obtain ⟨ts, htext, hread⟩ := h
  rw [compile, htext.lex_eq, Option.bind_some, hread.whole_eq]

theorem writes_nil (a : α) : Writes [] (pure a) a := ⟨[], lexes_nil _, .pure a⟩

theorem Writes.bind {text more : List Char} {p : Reader α} {k : α → Reader β} {a : α} {b : β}
    (hp : Writes text p a) (hk : Writes more (k a) b) : Writes (text ++ more) (p >>= k) b := by
  obtain ⟨ts, htext, hread⟩ := hp
  obtain ⟨us, hmore, hrest⟩ := hk
  exact ⟨ts ++ us, htext.append hmore, hread.bind hrest⟩

theorem Writes.comment {piece text : List Char} {p : Reader α} {a : α} (h : Writes text p a)
    (hpiece : Lexes .idle piece [] .idle) : Writes (piece ++ text) p a := by
  obtain ⟨ts, htext, hread⟩ := h
  exact ⟨ts, hpiece.append htext, hread⟩

theorem Writes.orElse {text : List Char} {p : Reader α} {a : α} (h : Writes text p a)
    (q : Reader α) : Writes text (p <|> q) a := by
  obtain ⟨ts, htext, hread⟩ := h
  exact ⟨ts, htext, hread.orElse q⟩

/-- The second alternative, where the first one never reads what the second does. -/
theorem Writes.orElse_right {text : List Char} {p q : Reader α} {a : α} (h : Writes text q a)
    (hapart : ∀ input, (q input).isSome → p input = none) : Writes text (p <|> q) a := by
  obtain ⟨ts, htext, hread⟩ := h
  refine ⟨ts, htext, hread.orElse_right ?_⟩
  intro rest
  apply hapart
  rw [hread rest]
  rfl

theorem Writes.expect {piece text : List Char} {ts : List Token} {k : Unit → Reader β} {b : β}
    (h : Writes text (k ()) b) (hpiece : Lexes .idle piece ts .idle) :
    Writes (piece ++ text) (RustReader.expect ts >>= k) b :=
  .bind ⟨ts, hpiece, reads_expect ts⟩ h

/-- Text that ends in a word, and the code behind it, which ends the word. -/
theorem Writes.word {path w piece text : List Char} {us ts : List Token} {p : Reader α} {a : α}
    {k : α → Reader β} {b : β} (h : Writes text (k a) b) (hw : Lexes .idle path us (.word w))
    (hread : Reads p (us ++ [.word w]) a) (hpiece : Lexes .idle piece ts .idle)
    (hends : EndsWord piece) :
    Writes (path ++ (piece ++ text))
      (p >>= fun x => RustReader.expect ts >>= fun _ => k x) b := by
  obtain ⟨vs, htext, hrest⟩ := h
  refine ⟨us ++ [.word w] ++ (ts ++ vs), ?_, hread.bind ((reads_expect ts).bind hrest)⟩
  have hall := hw.append ((hpiece.behind_word hends w).append htext)
  rwa [List.append_assoc]

/-- Code at the end of a text. -/
theorem Writes.expectLast {piece : List Char} {ts : List Token} (hpiece : Lexes .idle piece ts .idle)
    (b : β) : Writes piece (RustReader.expect ts >>= fun _ => pure b) b := by
  have hall := Writes.expect (k := fun _ => pure b) (writes_nil b) hpiece
  rwa [List.append_nil] at hall

theorem Writes.wordLast {path w piece : List Char} {us ts : List Token} {p : Reader α} {a : α}
    (f : α → β) (hw : Lexes .idle path us (.word w)) (hread : Reads p (us ++ [.word w]) a)
    (hpiece : Lexes .idle piece ts .idle) (hends : EndsWord piece) :
    Writes (path ++ piece)
      (p >>= fun x => RustReader.expect ts >>= fun _ => pure (f x)) (f a) := by
  have hall := Writes.word (k := fun x => pure (f x)) (writes_nil (f a)) hw hread hpiece hends
  rwa [List.append_nil] at hall

theorem Writes.literal {text : List Char} (h : Plain text) :
    Writes ("\"".toList ++ (text ++ "\"".toList)) RustReader.literal text := by
  have hopen : Lexes .idle "\"".toList [] (.literal []) := by decide +kernel
  have hclose : Lexes (.literal text) "\"".toList [.literal text] .idle := by
    simp [Lexes, feed, step, emit]
  exact ⟨[.literal text], hopen.append ((h.lexes_literal []).append hclose), reads_literal text⟩

theorem Writes.items {xs : List β} {text : β → List Char} {p : Reader α} {f : β → α}
    (h : ∀ x ∈ xs, Writes (text x) p (f x)) :
    Writes (xs.flatMap text) (RustReader.items p xs.length) (xs.map f) := by
  induction xs with
  | nil => exact writes_nil []
  | cons x xs ih =>
    have hrest := ih fun y hy => h y (by simp [hy])
    have hall := (h x (by simp)).bind (k := fun a => RustReader.items p xs.length >>= fun rest =>
      pure (a :: rest)) (hrest.bind (writes_nil _))
    rwa [List.append_nil] at hall

/-- Elements up to the code behind the last one, which starts no element. -/
theorem Writes.manyLast {γ : Type} {xs : List β} {text : β → List Char} {p : Reader α} {f : β → α}
    {piece : List Char} {ts : List Token} (g : List α → γ)
    (h : ∀ x ∈ xs, Writes (text x) p (f x)) (hpiece : Lexes .idle piece ts .idle)
    (hstop : ∀ us, p (ts ++ us) = none) :
    Writes (xs.flatMap text ++ piece)
      (RustReader.many p >>= fun as => RustReader.expect ts >>= fun _ => pure (g as))
      (g (xs.map f)) := by
  choose! tokens htokens using h
  refine ⟨xs.flatMap tokens ++ ts, (lexes_flatMap fun x hx => (htokens x hx).1).append hpiece, ?_⟩
  intro rest
  have hmany := many_eq (fun x hx => (htokens x hx).2) (hstop rest)
  have hstep : ∀ input, (RustReader.many p >>= fun as => RustReader.expect ts >>= fun _ =>
      pure (g as)) input = (RustReader.many p input).bind fun r =>
        (RustReader.expect ts r.2).bind fun q => some (g r.1, q.2) := fun _ => rfl
  rw [List.append_assoc, hstep, hmany, Option.bind_some, reads_expect ts rest]
  rfl

/-- Elements to the end of the file. -/
theorem compile_manyLast {xs : List β} {text : β → List Char} {p : Reader α} {f : β → α}
    {piece : List Char} {ts : List Token} (hpiece : Lexes .idle piece ts .idle)
    (h : ∀ x ∈ xs, Writes (text x) p (f x)) (hstop : p [] = none) :
    compile (RustReader.expect ts >>= fun _ => many p) (piece ++ xs.flatMap text) =
      some (xs.map f) := by
  choose! tokens htokens using h
  have hlex := hpiece.append (lexes_flatMap fun x hx => (htokens x hx).1)
  have hmany := many_eq (fun x hx => (htokens x hx).2) hstop
  rw [List.append_nil] at hmany
  have hread : (RustReader.expect ts >>= fun _ => many p) (ts ++ xs.flatMap tokens) =
      (RustReader.expect ts (ts ++ xs.flatMap tokens)).bind fun q => many p q.2 := rfl
  rw [compile, hlex.lex_eq, Option.bind_some, whole, hread, reads_expect ts, Option.bind_some,
    hmany]

end RustReader
