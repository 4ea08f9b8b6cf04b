import Sipahi.Occurrence
import Sipahi.SntmManifest

/-! # Key files of the signing tools

`sntm-image` and `sntm-cert-gen` read keys out of PEM text, by search for the two marker lines and
a base64 decoder of their own.
-/
namespace SntmPem

open AlignedLayout Occurrence
open SntmManifest (isWhitespace)

/-- How a function of a host tool ends without its result. -/
inductive Fault where
  | panic
  | error (text : String)
  deriving DecidableEq, Repr

/-- `map_err` of a message; a panic stays one. -/
def Fault.context (text : String) : Fault → Fault
  | .panic => .panic
  | .error e => .error (text ++ e)

/-- `&items[start..stop]`. -/
def slice {α : Type*} (items : List α) (start stop : ℕ) : Except Fault (List α) :=
  if start ≤ stop ∧ stop ≤ items.length then .ok ((items.drop start).take (stop - start))
  else .error .panic

/-- `str::find`. -/
def find (pattern : List Char) : List Char → Option ℕ
  | [] => if pattern = [] then some 0 else none
  | c :: rest => if pattern <+: c :: rest then some 0 else (find pattern rest).map (· + 1)

def base64Alphabet : List UInt8 :=
  "ABCDEFGHIJKLMNOPQRSTUVWXYZabcdefghijklmnopqrstuvwxyz0123456789+/".toUTF8.data.toList

/-- `buf` keeps the low 32 bits of all digits; `bits` of them are not written yet. -/
def base64From (buf bits : ℕ) : List UInt8 → Except Fault (List UInt8)
  | [] => .ok []
  | b :: rest =>
    if b = 61 then .ok []
    else match base64Alphabet.idxOf? b with
      | none =>
        .error (.error ("invalid base64 char: " ++ String.singleton (Char.ofNat b.toNat)))
      | some v =>
        let buf := buf * 2 ^ 6 % 2 ^ 32 + v
        if bits + 6 < 8 then base64From buf (bits + 6) rest
        else do
          let out ← base64From buf (bits + 6 - 8) rest
          .ok (UInt8.ofNat (buf / 2 ^ (bits + 6 - 8)) :: out)

def base64Decode (s : List Char) : Except Fault (List UInt8) :=
  base64From 0 0 (s.flatMap String.utf8EncodeChar)

/-- Both tools have this function; `missing` begins their message about an absent marker. -/
def decodePem (missing : String) (pem label : String) : Except Fault (List UInt8) :=
  let opening := s!"-----BEGIN {label}-----"
  let closing := s!"-----END {label}-----"
  match find opening.toList pem.toList with
  | none => .error (.error (missing ++ opening))
  | some start =>
    match find closing.toList pem.toList with
    | none => .error (.error (missing ++ closing))
    | some stop => do
      let body ← slice pem.toList (start + opening.toList.length) stop
      base64Decode (body.filter fun c => !isWhitespace c)

/-! ## Where the markers stand -/

def beginMarker (label : String) : List Char := (s!"-----BEGIN {label}-----").toList

def endMarker (label : String) : List Char := (s!"-----END {label}-----").toList

/-- Both markers are there, and the first END begins before the first BEGIN ends. -/
def Misplaced (label : String) (pem : List Char) : Prop :=
  ∃ start stop, FirstAt (beginMarker label) pem start ∧ FirstAt (endMarker label) pem stop ∧
    stop < start + (beginMarker label).length

variable {pattern text : List Char} {k start stop : ℕ} {missing pem label : String}

theorem find_eq_some_iff : find pattern text = some k ↔ FirstAt pattern text k := by
  induction text generalizing k with
  | nil =>
    simp only [find]
    constructor
    · intro h
      split at h
      · rename_i hempty
        subst hempty
        cases h
        exact firstAt_zero_iff.mpr List.prefix_rfl
      · cases h
    · intro h
      have hempty : pattern = [] := by simpa [OccursAt] using h.occurs
      subst hempty
      have hzero : FirstAt ([] : List Char) [] 0 := firstAt_zero_iff.mpr List.prefix_rfl
      exact congrArg some (hzero.unique h)
  | cons c rest ih =>
    simp only [find]
    split
    · rename_i hstands
      have hzero := firstAt_zero_iff.mpr hstands
      constructor
      · intro h
        cases h
        exact hzero
      · intro h
        exact congrArg some (hzero.unique h)
    · rename_i hstands
      cases k with
      | zero => simp [firstAt_zero_iff, hstands]
      | succ k => simp [firstAt_succ_iff, ← ih, hstands]

theorem beginMarker_eq (label : String) :
    beginMarker label = "-----BEGIN ".toList ++ label.toList ++ "-----".toList := by
  rw [← String.toList_append, ← String.toList_append]
  rfl

theorem endMarker_eq (label : String) :
    endMarker label = "-----END ".toList ++ label.toList ++ "-----".toList := by
  rw [← String.toList_append, ← String.toList_append]
  rfl

theorem endMarker_ne_nil (label : String) : endMarker label ≠ [] := by
  simp only [endMarker_eq]
  exact List.cons_ne_nil _ _

theorem decodePem_of_first (hstart : FirstAt (beginMarker label) pem.toList start)
    (hstop : FirstAt (endMarker label) pem.toList stop) :
    decodePem missing pem label =
      if start + (beginMarker label).length ≤ stop then
        base64Decode (((pem.toList.drop (start + (beginMarker label).length)).take
          (stop - (start + (beginMarker label).length))).filter fun c => !isWhitespace c)
      else .error .panic := by
  have hinside := hstop.occurs.add_length_le (endMarker_ne_nil label)
  have hbegin := find_eq_some_iff.mpr hstart
  have hend := find_eq_some_iff.mpr hstop
  simp only [beginMarker, endMarker] at hbegin hend
  simp only [decodePem, hbegin, hend]
  rw [slice, ← beginMarker]
  split
  · rename_i hslice
    simp only [Bind.bind, Except.bind, hslice.1, if_true]
  · rename_i hslice
    rw [if_neg (by omega)]
    rfl

theorem base64Alphabet_nodup : base64Alphabet.Nodup := by
  have h : (base64Alphabet.map UInt8.toNat).Nodup := by decide +kernel
  exact h.of_map UInt8.toNat

theorem base64From_ne_panic {buf bits : ℕ} {bytes : List UInt8} :
    base64From buf bits bytes ≠ .error .panic := by
  fun_induction base64From buf bits bytes with
  | case1 | case2 | case3 => simp
  | case4 buf bits b rest _ v _ _ _ ih => exact ih
  | case5 buf bits b rest _ v _ _ _ ih =>
    cases hrest : base64From _ _ rest with
    | ok out => simp [Bind.bind, Except.bind]
    | error fault =>
      intro h
      rw [hrest] at ih
      cases h
      exact ih rfl

theorem decodePem_panic_iff :
    decodePem missing pem label = .error .panic ↔ Misplaced label pem.toList := by
  cases hbegin : find (beginMarker label) pem.toList with
  | none =>
    simp only [Misplaced, ← find_eq_some_iff, hbegin]
    simp only [beginMarker] at hbegin
    simp only [decodePem, hbegin, Except.error.injEq, reduceCtorEq, false_and, exists_false]
  | some start =>
    cases hend : find (endMarker label) pem.toList with
    | none =>
      simp only [Misplaced, ← find_eq_some_iff, hend]
      simp only [beginMarker, endMarker] at hbegin hend
      simp only [decodePem, hbegin, hend, Except.error.injEq, reduceCtorEq, false_and, and_false,
        exists_false]
    | some stop =>
      have hstart := find_eq_some_iff.mp hbegin
      have hstop := find_eq_some_iff.mp hend
      rw [decodePem_of_first hstart hstop]
      split
      · rename_i horder
        constructor
        · intro h
          exact absurd h base64From_ne_panic
        · rintro ⟨start', stop', hstart', hstop', hearly⟩
          have hsame := hstart'.unique hstart
          have hsame' := hstop'.unique hstop
          omega
      · rename_i horder
        constructor
        · intro _
          exact ⟨start, stop, hstart, hstop, Nat.not_le.mp horder⟩
        · intro _
          rfl

end SntmPem
