import Sipahi.SntmPem

/-! # The decoder of `sntm-cert-gen`

`chain.rs` has its own copy of the functions that read a key file. The machine words of the loop
are kept here, with the checks that a build with overflow checks makes.
-/
namespace SntmCertGen

open SntmPem
open SntmManifest (isWhitespace)

def alpha : List UInt8 :=
  "ABCDEFGHIJKLMNOPQRSTUVWXYZabcdefghijklmnopqrstuvwxyz0123456789+/".toUTF8.data.toList

/-- `table`, which holds an `i8` for each byte. -/
def table : List ℤ :=
  alpha.zipIdx.foldl (fun t p => t.set p.1.toNat p.2) (List.replicate 256 (-1))

def checkedAdd (x y : UInt32) : Except Fault UInt32 :=
  if x.toNat + y.toNat < 2 ^ 32 then .ok (x + y) else .error .panic

def checkedSub (x y : UInt32) : Except Fault UInt32 :=
  if y ≤ x then .ok (x - y) else .error .panic

def checkedShr (x y : UInt32) : Except Fault UInt32 :=
  if y < 32 then .ok (x >>> y) else .error .panic

def base64Loop (out : List UInt8) (buf bits : UInt32) : List UInt8 → Except Fault (List UInt8)
  | [] => .ok out
  | b :: rest =>
    if b = 61 then .ok out
    else
      let v := table.getD b.toNat (-1)
      if v < 0 then
        .error (.error ("invalid base64 char: " ++ String.singleton (Char.ofNat b.toNat)))
      else do
        let buf := (buf <<< 6) ||| UInt32.ofNat v.toNat
        let bits ← checkedAdd bits 6
        if 8 ≤ bits then do
          let bits ← checkedSub bits 8
          let word ← checkedShr buf bits
          base64Loop (out ++ [(word &&& 0xFF).toUInt8]) buf bits rest
        else base64Loop out buf bits rest

def base64Decode (s : List Char) : Except Fault (List UInt8) :=
  base64Loop [] 0 0 (s.flatMap String.utf8EncodeChar)

def decodePemBlock (pem label : String) : Except Fault (List UInt8) :=
  let opening := s!"-----BEGIN {label}-----"
  let closing := s!"-----END {label}-----"
  match find opening.toList pem.toList with
  | none => .error (.error ("PEM missing " ++ opening))
  | some startIdx =>
    match find closing.toList pem.toList with
    | none => .error (.error ("PEM missing " ++ closing))
    | some endIdx => do
      let body ← slice pem.toList (startIdx + opening.toList.length) endIdx
      base64Decode (body.filter fun c => !isWhitespace c)

/-! ## The two copies agree -/

/-- The loop writes for each byte the place where it first stands, if no byte stands twice. -/
theorem fill_getD {l : List UInt8} (hnodup : l.Nodup) {t : List ℤ} (ht : t.length = 256) (k : ℕ)
    (b : UInt8) :
    ((l.zipIdx k).foldl (fun t p => t.set p.1.toNat p.2) t).getD b.toNat (-1) =
      (l.idxOf? b).elim (t.getD b.toNat (-1)) fun v => ((v + k : ℕ) : ℤ) := by
  induction l generalizing t k with
  | nil => rfl
  | cons a l ih =>
    obtain ⟨hfresh, hrest⟩ := List.nodup_cons.mp hnodup
    have hlength : (t.set a.toNat (k : ℤ)).length = 256 := by simp [ht]
    rw [List.zipIdx_cons, List.foldl_cons, ih hrest hlength, List.idxOf?_cons]
    by_cases hab : a = b
    · subst hab
      have hinside : a.toNat < t.length := ht ▸ a.toNat_lt
      have habsent : l.idxOf? a = none := List.idxOf?_eq_none_iff.mpr hfresh
      simp [habsent, List.getElem?_set_self hinside]
    · have hne : a.toNat ≠ b.toNat := by
        intro h
        exact hab (UInt8.toNat_inj.mp h)
      rw [if_neg (beq_iff_eq.not.mpr hab)]
      cases l.idxOf? b with
      | none =>
        simp only [Option.elim_none, Option.map_none, List.getD_eq_getElem?_getD,
          List.getElem?_set_ne hne]
      | some v =>
        simp only [Option.elim_some, Option.map_some]
        rw [Nat.add_right_comm, Nat.add_assoc]

theorem table_eq (b : UInt8) :
    table.getD b.toNat (-1) = (base64Alphabet.idxOf? b).elim (-1) Int.ofNat := by
  have hlength : (List.replicate 256 (-1 : ℤ)).length = 256 := List.length_replicate
  have hfree : (List.replicate 256 (-1 : ℤ)).getD b.toNat (-1) = -1 := by
    rw [List.getD_eq_getElem?_getD, List.getElem?_replicate_of_lt b.toNat_lt, Option.getD_some]
  have hfill := fill_getD base64Alphabet_nodup hlength 0 b
  rw [hfree] at hfill
  exact hfill

theorem idxOf_lt {b : UInt8} {v : ℕ} (h : base64Alphabet.idxOf? b = some v) : v < 64 := by
  obtain ⟨hlt, -⟩ := List.idxOf?_eq_some_iff.mp h
  exact hlt

/-- A digit goes into the six low bits that the shift has cleared. -/
theorem word_toNat {buf : UInt32} {v : ℕ} (hv : v < 64) :
    ((buf <<< 6) ||| UInt32.ofNat v).toNat = buf.toNat * 2 ^ 6 % 2 ^ 32 + v := by
  have hlow : v < 2 ^ 6 := hv
  have hword : v % 2 ^ 32 = v := Nat.mod_eq_of_lt (by omega)
  have hsix : (6 : UInt32).toNat % 32 = 6 := by decide
  have hshift : buf.toNat * 2 ^ 6 % 2 ^ 32 = 2 ^ 6 * (buf.toNat % 2 ^ 26) := by omega
  rw [UInt32.toNat_or, UInt32.toNat_shiftLeft, UInt32.toNat_ofNat', Nat.shiftLeft_eq, hsix,
    hword, hshift, Nat.two_pow_add_eq_or_of_lt hlow]

theorem byte_eq {word bits : UInt32} (hbits : bits.toNat < 8) :
    ((word >>> bits) &&& 0xFF).toUInt8 = UInt8.ofNat (word.toNat / 2 ^ bits.toNat) := by
  have hmask : (0xFF : UInt32).toNat = 2 ^ 8 - 1 := by decide
  have hshift : bits.toNat % 32 = bits.toNat := Nat.mod_eq_of_lt (by omega)
  apply UInt8.toNat_inj.mp
  rw [UInt32.toNat_toUInt8, UInt32.toNat_and, UInt32.toNat_shiftRight, hmask,
    Nat.and_two_pow_sub_one_eq_mod, Nat.mod_mod, UInt8.toNat_ofNat', Nat.shiftRight_eq_div_pow,
    hshift]

theorem checkedAdd_six {bits : UInt32} (hbits : bits.toNat < 8) :
    ∃ bits', checkedAdd bits 6 = .ok bits' ∧ bits'.toNat = bits.toNat + 6 := by
  have hsix : (6 : UInt32).toNat = 6 := by decide
  refine ⟨bits + 6, if_pos (by omega), ?_⟩
  rw [UInt32.toNat_add, hsix]
  omega

theorem checkedSub_eight {bits : UInt32} (hbits : 8 ≤ bits) :
    ∃ bits', checkedSub bits 8 = .ok bits' ∧ bits'.toNat = bits.toNat - 8 := by
  exact ⟨bits - 8, if_pos hbits, UInt32.toNat_sub_of_le _ _ hbits⟩

/-- The count of unwritten bits stays below eight, so no operation overflows. -/
theorem base64Loop_eq {out : List UInt8} {buf bits : UInt32} {bytes : List UInt8}
    (hbits : bits.toNat < 8) :
    base64Loop out buf bits bytes =
      (base64From buf.toNat bits.toNat bytes).map (out ++ ·) := by
  induction bytes generalizing out buf bits with
  | nil => simp [base64Loop, base64From, Except.map]
  | cons b rest ih =>
    have htable := table_eq b
    rw [base64Loop, base64From]
    by_cases hequals : b = 61
    · simp [hequals, Except.map]
    · rw [if_neg hequals, if_neg hequals]
      cases hindex : base64Alphabet.idxOf? b with
      | none =>
        simp only [hindex, Option.elim_none] at htable
        simp only [htable, Except.map]
        rw [if_pos (by decide)]
      | some v =>
        simp only [hindex, Option.elim_some] at htable
        have hword : ((buf <<< 6) ||| UInt32.ofNat v).toNat = buf.toNat * 2 ^ 6 % 2 ^ 32 + v :=
          word_toNat (idxOf_lt hindex)
        obtain ⟨bits', hadd, hsum⟩ := checkedAdd_six hbits
        simp only [htable, Int.ofNat_eq_natCast, Int.toNat_natCast, hadd, ← hword, ← hsum]
        rw [if_neg (by omega)]
        simp only [Bind.bind, Except.bind]
        by_cases hfull : 8 ≤ bits'
        · have hnat : ¬bits'.toNat < 8 := Nat.not_lt.mpr (UInt32.le_iff_toNat_le.mp hfull)
          obtain ⟨left, hsub, hleft⟩ := checkedSub_eight hfull
          have hsmall : left.toNat < 8 := by omega
          have hshift : checkedShr ((buf <<< 6) ||| UInt32.ofNat v) left =
              .ok (((buf <<< 6) ||| UInt32.ofNat v) >>> left) := by
            apply if_pos
            exact UInt32.lt_iff_toNat_lt.mpr (hsmall.trans (by decide))
          rw [if_pos hfull, if_neg hnat, hsub]
          simp only [hshift]
          rw [ih hsmall, byte_eq hsmall, ← hleft]
          cases base64From ((buf <<< 6) ||| UInt32.ofNat v).toNat left.toNat rest with
          | error fault => rfl
          | ok bytes => simp [Except.map]
        · have hnat : bits'.toNat < 8 := Nat.not_le.mp (UInt32.le_iff_toNat_le.not.mp hfull)
          rw [if_neg hfull, if_pos hnat, ih hnat]

theorem base64Decode_eq (s : List Char) : base64Decode s = SntmPem.base64Decode s := by
  have hstart : (0 : UInt32).toNat < 8 := by decide
  rw [base64Decode, base64Loop_eq hstart]
  change (base64From 0 0 _).map _ = base64From 0 0 _
  cases base64From 0 0 (s.flatMap String.utf8EncodeChar) with
  | error fault => rfl
  | ok bytes => rfl

/-- Only the text about a missing marker is the tool's own. -/
theorem decodePemBlock_eq (pem label : String) :
    decodePemBlock pem label = decodePem "PEM missing " pem label := by
  have hdecode : base64Decode = SntmPem.base64Decode := funext base64Decode_eq
  rw [decodePemBlock, hdecode]
  rfl

end SntmCertGen
