import Mathlib.Data.Nat.Notation

/-! # Lines of a text and numbers in them

Texts are lists of characters. `lines` and `fromStrRadix` are the operations of the Rust standard
library that line-oriented formats are read with.
-/
namespace TextLines

/-- A carriage return in front of the line feed belongs to the line ending. `current` is the
line read so far, last character first. -/
def endLine (current : List Char) : List Char :=
  match current with
  | [] => []
  | c :: rest => if c = '\r' then rest.reverse else (c :: rest).reverse

def linesFrom (current : List Char) : List Char → List (List Char)
  | [] => if current.isEmpty then [] else [current.reverse]
  | c :: rest => if c = '\n' then endLine current :: linesFrom [] rest
      else linesFrom (c :: current) rest

def lines (text : List Char) : List (List Char) := linesFrom [] text

theorem linesFrom_append_newline (current before after : List Char) :
    linesFrom current (before ++ '\n' :: after) =
      linesFrom current (before ++ ['\n']) ++ linesFrom [] after := by
  induction before generalizing current with
  | nil => simp [linesFrom]
  | cons c before ih =>
    by_cases hc : c = '\n'
    · simp [linesFrom, hc, ih]
    · simp [linesFrom, hc, ih]

/-- What stands before a line feed does not change the lines behind it. -/
theorem lines_append_newline (before after : List Char) :
    lines (before ++ '\n' :: after) = lines (before ++ ['\n']) ++ lines after :=
  linesFrom_append_newline [] before after

theorem linesFrom_line (current line after : List Char) (hline : '\n' ∉ line) :
    linesFrom current (line ++ '\n' :: after) =
      endLine (line.reverse ++ current) :: linesFrom [] after := by
  induction line generalizing current with
  | nil => simp [linesFrom]
  | cons c line ih =>
    simp only [List.mem_cons, not_or] at hline
    have hc : c ≠ '\n' := fun h => hline.1 h.symm
    simp [linesFrom, hc, ih (c :: current) hline.2]

theorem lines_line (line after : List Char) (hline : '\n' ∉ line)
    (hlast : line.getLast? ≠ some '\r') :
    lines (line ++ '\n' :: after) = line :: lines after := by
  have hend : endLine line.reverse = line := by
    rw [List.getLast?_eq_head?_reverse] at hlast
    cases hrev : line.reverse with
    | nil =>
      have hnil : line = [] := by simpa using hrev
      simp [endLine, hnil]
    | cons c rest =>
      have hc : c ≠ '\r' := by simpa [hrev] using hlast
      simp only [endLine, hc, if_false]
      rw [← hrev, List.reverse_reverse]
  rw [lines, linesFrom_line [] line after hline, List.append_nil, hend, lines]

/-! ## Numbers -/

inductive ParseIntError where
  | empty | invalidDigit | posOverflow
  deriving DecidableEq, Repr

def ParseIntError.display : ParseIntError → String
  | .empty => "cannot parse integer from empty string"
  | .invalidDigit => "invalid digit found in string"
  | .posOverflow => "number too large to fit in target type"

/-- `to_digit` for a radix up to 36. -/
def toDigit (radix : ℕ) (c : Char) : Option ℕ :=
  let value :=
    if '0' ≤ c ∧ c ≤ '9' then some (c.toNat - '0'.toNat)
    else if 'a' ≤ c ∧ c ≤ 'z' then some (c.toNat - 'a'.toNat + 10)
    else if 'A' ≤ c ∧ c ≤ 'Z' then some (c.toNat - 'A'.toNat + 10)
    else none
  value.filter (· < radix)

/-- The digits of a number that must stay at or below `max`. -/
def digitsFrom (max radix : ℕ) (value : ℕ) : List Char → Except ParseIntError ℕ
  | [] => .ok value
  | c :: rest =>
    match toDigit radix c with
    | none => .error .invalidDigit
    | some d => if value * radix + d ≤ max then digitsFrom max radix (value * radix + d) rest
        else .error .posOverflow

/-- `from_str_radix` of an unsigned type: one plus sign may stand in front of the digits. -/
def fromStrRadix (max radix : ℕ) : List Char → Except ParseIntError ℕ
  | [] => .error .empty
  | ['+'] => .error .invalidDigit
  | '+' :: digits => digitsFrom max radix 0 digits
  | digits => digitsFrom max radix 0 digits

theorem toNat_of_isDigit {c : Char} (h : c.isDigit = true) : 48 ≤ c.toNat ∧ c.toNat ≤ 57 := by
  simpa using Char.isDigit_iff_toNat.mp h

theorem toDigit_of_isDigit {c : Char} (h : c.isDigit = true) :
    toDigit 10 c = some (c.toNat - '0'.toNat) := by
  obtain ⟨hlow, hhigh⟩ := toNat_of_isDigit h
  have hrange : '0' ≤ c ∧ c ≤ '9' := ⟨hlow, hhigh⟩
  have hlt : c.toNat - '0'.toNat < 10 := by
    have hzero : '0'.toNat = 48 := by decide
    omega
  simp only [toDigit, hrange, and_self, if_true, Option.filter_some, hlt, decide_true]

theorem digitsFrom_decimal {max value m : ℕ} {digits : List Char}
    (hdigits : ∀ c ∈ digits, c.isDigit = true) (h : digitsFrom max 10 value digits = .ok m) :
    m = Nat.ofDigitChars 10 digits value := by
  induction digits generalizing value with
  | nil => simpa [digitsFrom] using h.symm
  | cons c digits ih =>
    rw [digitsFrom, toDigit_of_isDigit (hdigits c (by simp))] at h
    simp only at h
    split at h
    · rw [Nat.ofDigitChars_cons, Nat.mul_comm]
      exact ih (fun c hc => hdigits c (by simp [hc])) h
    · simp at h

/-- Reading back the decimal text of a number, if it is accepted, gives the number. -/
theorem fromStrRadix_toDigits {max n m : ℕ}
    (h : fromStrRadix max 10 (Nat.toDigits 10 n) = .ok m) : m = n := by
  have hdigits : ∀ c ∈ Nat.toDigits 10 n, c.isDigit = true := by
    intro c hc
    exact Nat.isDigit_of_mem_toDigits (by decide) (by decide) hc
  have hplain : fromStrRadix max 10 (Nat.toDigits 10 n) =
      digitsFrom max 10 0 (Nat.toDigits 10 n) := by
    cases hds : Nat.toDigits 10 n with
    | nil => exact absurd hds Nat.toDigits_ne_nil
    | cons c rest =>
      have hc : c ≠ '+' := by
        intro he
        have hplus := hdigits c (by simp [hds])
        simp [he] at hplus
      simp [fromStrRadix, hc]
  rw [hplain] at h
  rw [digitsFrom_decimal hdigits h, Nat.ofDigitChars_ten_toDigits]

end TextLines
