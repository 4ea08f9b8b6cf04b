import Mathlib.Data.List.Basic
import Mathlib.Data.Fin.Basic

/-!
# Standard base64

Three bytes are four digits of six bits. A chunk of one or two bytes at the end is written with as
many digits as it needs and filled up with `=`.
-/
namespace Base64

def alphabet : List Char :=
  "ABCDEFGHIJKLMNOPQRSTUVWXYZabcdefghijklmnopqrstuvwxyz0123456789+/".toList

theorem length_alphabet : alphabet.length = 64 := by decide

def digit (v : Fin 64) : Char := alphabet.get (v.cast length_alphabet.symm)

/-- The values of the digits. -/
def sextets : List UInt8 → List (Fin 64)
  | [] => []
  | [a] => [Fin.ofNat 64 (a.toNat / 4), Fin.ofNat 64 (a.toNat % 4 * 16)]
  | [a, b] =>
    [Fin.ofNat 64 (a.toNat / 4), Fin.ofNat 64 (a.toNat % 4 * 16 + b.toNat / 16),
      Fin.ofNat 64 (b.toNat % 16 * 4)]
  | a :: b :: c :: rest =>
    Fin.ofNat 64 (a.toNat / 4) :: Fin.ofNat 64 (a.toNat % 4 * 16 + b.toNat / 16) ::
      Fin.ofNat 64 (b.toNat % 16 * 4 + c.toNat / 64) :: Fin.ofNat 64 (c.toNat % 64) ::
      sextets rest

def padding (bytes : List UInt8) : ℕ := (3 - bytes.length % 3) % 3

def encode (bytes : List UInt8) : List Char :=
  (sextets bytes).map digit ++ List.replicate (padding bytes) '='

theorem digit_mem (v : Fin 64) : digit v ∈ alphabet := List.get_mem _ _

/-- A digit is one byte of UTF-8. -/
def digitByte (v : Fin 64) : UInt8 := UInt8.ofNat (digit v).toNat

theorem utf8EncodeChar_digit (v : Fin 64) :
    String.utf8EncodeChar (digit v) = [digitByte v] := by
  have hascii : alphabet.all (fun c => decide (c.toNat ≤ 127)) = true := by decide +kernel
  have hdigit := of_decide_eq_true (List.all_eq_true.mp hascii _ (digit_mem v))
  simp [String.utf8EncodeChar, digitByte, hdigit]

/-- Every character is of the alphabet or fills up. -/
theorem forall_mem_encode {p : Char → Prop} (hdigit : ∀ v, p (digit v)) (hpadding : p '=')
    {bytes : List UInt8} : ∀ c ∈ encode bytes, p c := by
  intro c hc
  simp only [encode, List.mem_append, List.mem_map] at hc
  rcases hc with ⟨v, -, rfl⟩ | hc
  · exact hdigit v
  · have hfill := List.eq_of_mem_replicate hc
    subst hfill
    exact hpadding

theorem utf8_digits (l : List (Fin 64)) :
    (l.map digit).flatMap String.utf8EncodeChar = l.map digitByte := by
  induction l with
  | nil => rfl
  | cons v l ih => simp [ih, utf8EncodeChar_digit]

theorem ofFn_digit : List.ofFn digit = alphabet := by
  apply List.ext_getElem
  · rw [List.length_ofFn, length_alphabet]
  · intro i hi halphabet
    rw [List.getElem_ofFn]
    rfl

theorem utf8_encode (bytes : List UInt8) :
    (encode bytes).flatMap String.utf8EncodeChar =
      (sextets bytes).map digitByte ++ List.replicate (padding bytes) 61 := by
  have hequals : String.utf8EncodeChar '=' = [61] := by decide +kernel
  have hfill : ∀ n, (List.replicate n '=').flatMap String.utf8EncodeChar =
      List.replicate n 61 := by
    intro n
    induction n with
    | zero => rfl
    | succ n ih => simp [List.replicate_succ, ih, hequals]
  rw [encode, List.flatMap_append, utf8_digits, hfill]

example : encode [102, 111, 111, 98] = "Zm9vYg==".toList := by decide

end Base64
