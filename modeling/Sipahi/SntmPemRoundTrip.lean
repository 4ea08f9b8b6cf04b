import Mathlib.Tactic.IntervalCases
import Sipahi.Base64
import Sipahi.SntmCertGen
import Sipahi.SntmImageSign

/-! # What was written as PEM text is read back -/
namespace SntmPemRoundTrip

open AlignedLayout Base64 Occurrence SntmPem
open SntmManifest (isWhitespace)

/-! ## The digits -/

theorem utf8_toList (s : String) :
    s.toUTF8.data.toList = s.toList.flatMap String.utf8EncodeChar := by
  rw [String.toUTF8_eq_toByteArray, ← String.utf8Encode_toList, List.utf8Encode,
    List.toList_data_toByteArray]

theorem base64Alphabet_eq : base64Alphabet = List.ofFn digitByte := by
  have hutf8 : base64Alphabet = alphabet.flatMap String.utf8EncodeChar := utf8_toList _
  rw [hutf8, ← ofFn_digit, List.ofFn_eq_map, List.ofFn_eq_map, utf8_digits]

theorem digitByte_ne_equals (v : Fin 64) : digitByte v ≠ 61 := by
  have hmem : digitByte v ∈ base64Alphabet := by
    rw [base64Alphabet_eq]
    exact List.mem_ofFn.mpr ⟨v, rfl⟩
  have hequals : 61 ∉ base64Alphabet := by decide +kernel
  exact fun h => hequals (h ▸ hmem)

theorem idxOf_digitByte (v : Fin 64) : base64Alphabet.idxOf? (digitByte v) = some v.val := by
  have hv : v.val < base64Alphabet.length := by
    rw [base64Alphabet_eq, List.length_ofFn]
    exact v.isLt
  have hat : base64Alphabet[v.val] = digitByte v := by
    simp only [base64Alphabet_eq, List.getElem_ofFn]
  rw [List.idxOf?_eq_some_iff]
  refine ⟨hv, hat, ?_⟩
  intro j hj heq
  have hsame := (base64Alphabet_nodup.getElem_inj_iff).mp (heq.trans hat.symm)
  omega

section Digits

variable {buf bits : ℕ} {v : Fin 64} {rest : List UInt8}

theorem base64From_wait (hbits : bits + 6 < 8) :
    base64From buf bits (digitByte v :: rest) =
      base64From (buf * 2 ^ 6 % 2 ^ 32 + v.val) (bits + 6) rest := by
  rw [base64From, if_neg (digitByte_ne_equals v), idxOf_digitByte]
  exact if_pos hbits

theorem base64From_emit {out : List UInt8} (hbits : 8 ≤ bits + 6)
    (hrest : base64From (buf * 2 ^ 6 % 2 ^ 32 + v.val) (bits + 6 - 8) rest = .ok out) :
    base64From buf bits (digitByte v :: rest) =
      .ok (UInt8.ofNat ((buf * 2 ^ 6 % 2 ^ 32 + v.val) / 2 ^ (bits + 6 - 8)) :: out) := by
  rw [base64From, if_neg (digitByte_ne_equals v), idxOf_digitByte]
  simp only
  rw [if_neg (by omega), hrest]
  rfl

theorem base64From_equals {n : ℕ} : base64From buf bits (List.replicate n 61) = .ok [] := by
  cases n with
  | zero => rfl
  | succ n =>
    rw [List.replicate_succ, base64From, if_pos rfl]

end Digits

theorem emitted_byte {x v w k : ℕ} {b : UInt8} (hk : k ≤ 4)
    (hb : (v * 64 + w) / 2 ^ k % 256 = b.toNat) :
    UInt8.ofNat (((x * 2 ^ 6 % 2 ^ 32 + v) * 2 ^ 6 % 2 ^ 32 + w) / 2 ^ k) = b := by
  apply UInt8.toNat_inj.mp
  rw [UInt8.toNat_ofNat']
  interval_cases k
  all_goals omega

theorem base64From_sextets {bytes : List UInt8} {buf n : ℕ} :
    base64From buf 0 ((sextets bytes).map digitByte ++ List.replicate n 61) = .ok bytes := by
  fun_induction sextets bytes generalizing buf with
  | case1 => exact base64From_equals
  | case2 a =>
    have ha := a.toNat_lt
    simp only [List.map_cons, List.map_nil, List.cons_append, List.nil_append]
    rw [base64From_wait (by decide), base64From_emit (by decide) base64From_equals,
      emitted_byte (b := a) (by decide)]
    simp only [Fin.val_ofNat]
    omega
  | case3 a b =>
    have ha := a.toNat_lt
    have hb := b.toNat_lt
    simp only [List.map_cons, List.map_nil, List.cons_append, List.nil_append]
    rw [base64From_wait (by decide), base64From_emit (by decide)
      (base64From_emit (by decide) base64From_equals), emitted_byte (b := a) (by decide),
      emitted_byte (b := b) (by decide)]
    all_goals
      simp only [Fin.val_ofNat]
      omega
  | case4 a b c rest ih =>
    have ha := a.toNat_lt
    have hb := b.toNat_lt
    have hc := c.toNat_lt
    simp only [List.map_cons, List.cons_append]
    rw [base64From_wait (by decide), base64From_emit (by decide)
      (base64From_emit (by decide) (base64From_emit (by decide) ih)),
      emitted_byte (b := a) (by decide), emitted_byte (b := b) (by decide),
      emitted_byte (b := c) (by decide)]
    all_goals
      simp only [Fin.val_ofNat]
      omega

/-! ## The block -/

/-- The text of the bytes, broken with whitespace in any way. -/
def Wraps (body : List Char) (bytes : List UInt8) : Prop :=
  (body.filter fun c => !isWhitespace c) = encode bytes

/-- A block at the beginning of a text. -/
def pemText (label : String) (body after : List Char) : String :=
  String.ofList (beginMarker label ++ (body ++ (endMarker label ++ after)))

/-- An END marker begins inside the BEGIN marker. -/
def EndsEarly (label : String) (body : List Char) : Prop :=
  ∃ k < (beginMarker label).length,
    OccursAt (beginMarker label ++ (body ++ endMarker label)) k (endMarker label)

variable {bytes : List UInt8} {label : String} {body after : List Char} {k : ℕ}

theorem base64Decode_wrapped (h : Wraps body bytes) :
    base64Decode (body.filter fun c => !isWhitespace c) = .ok bytes := by
  rw [base64Decode, h, utf8_encode]
  exact base64From_sextets

theorem dash_notMem (h : Wraps body bytes) : '-' ∉ body := by
  intro hmem
  have hkept : '-' ∈ body.filter fun c => !isWhitespace c :=
    List.mem_filter.mpr ⟨hmem, by decide⟩
  rw [h] at hkept
  have hdash : '-' ∉ alphabet := by decide +kernel
  have hdigit : ∀ v, digit v ≠ '-' := fun v h => hdash (h ▸ digit_mem v)
  exact forall_mem_encode (p := (· ≠ '-')) hdigit (by decide) '-' hkept rfl

theorem firstAt_begin : FirstAt (beginMarker label) (pemText label body after).toList 0 := by
  simp only [pemText, String.toList_ofList, firstAt_zero_iff]
  exact List.prefix_append _ _

theorem endMarker_dash (label : String) : ∃ rest, endMarker label = '-' :: rest := by
  exact ⟨_, (endMarker_eq label).trans rfl⟩

theorem occursAt_text_iff (hk : k ≤ (beginMarker label).length + body.length) :
    OccursAt (pemText label body after).toList k (endMarker label) ↔
      OccursAt (beginMarker label ++ (body ++ endMarker label)) k (endMarker label) := by
  have hsplit : (pemText label body after).toList =
      beginMarker label ++ (body ++ endMarker label) ++ after := by
    simp only [pemText, String.toList_ofList, List.append_assoc]
  simp only [hsplit]
  apply occursAt_append_iff
  simp only [List.length_append]
  omega

theorem occursAt_end :
    OccursAt (beginMarker label ++ (body ++ endMarker label))
      ((beginMarker label).length + body.length) (endMarker label) := by
  rw [← List.append_assoc, ← List.length_append]
  exact occursAt_append _ _

theorem not_occursAt_body (hbody : '-' ∉ body) (hbegin : (beginMarker label).length ≤ k)
    (hend : k < (beginMarker label).length + body.length) :
    ¬OccursAt (beginMarker label ++ (body ++ endMarker label)) k (endMarker label) := by
  intro hoccurs
  obtain ⟨rest, hdash⟩ := endMarker_dash label
  have hpos : 0 < (endMarker label).length := by simp [hdash]
  have hchar := hoccurs.getElem? hpos
  have hfirst : (endMarker label)[0]? = some '-' := by simp [hdash]
  rw [hfirst, Nat.add_zero, List.getElem?_append_right hbegin,
    List.getElem?_append_left (by omega)] at hchar
  exact hbody (List.mem_of_getElem? hchar)

theorem firstAt_end (hbody : '-' ∉ body) (hend : ¬EndsEarly label body) :
    FirstAt (endMarker label) (pemText label body after).toList
      ((beginMarker label).length + body.length) := by
  constructor
  · exact (occursAt_text_iff le_rfl).mpr occursAt_end
  · intro j hj hoccurs
    have hblock := (occursAt_text_iff hj.le).mp hoccurs
    by_cases hinside : j < (beginMarker label).length
    · exact hend ⟨j, hinside, hblock⟩
    · exact not_occursAt_body hbody (Nat.not_lt.mp hinside) hj hblock

theorem misplaced_of_endsEarly (h : EndsEarly label body) :
    Misplaced label (pemText label body after).toList := by
  obtain ⟨k, hk, hoccurs⟩ := h
  have htext : OccursAt (pemText label body after).toList k (endMarker label) :=
    (occursAt_text_iff (by omega)).mpr hoccurs
  obtain ⟨stop, hstop, hfirst⟩ := exists_firstAt htext
  exact ⟨0, stop, firstAt_begin, hfirst, by omega⟩

theorem decodePem_block {missing : String} (hbody : Wraps body bytes) :
    decodePem missing (pemText label body after) label = .ok bytes ↔ ¬EndsEarly label body := by
  constructor
  · intro hok hearly
    cases hok.symm.trans (decodePem_panic_iff.mpr (misplaced_of_endsEarly hearly))
  · intro hend
    have hstop : FirstAt (endMarker label) (pemText label body after).toList
        ((beginMarker label).length + body.length) := firstAt_end (dash_notMem hbody) hend
    rw [decodePem_of_first firstAt_begin hstop, Nat.zero_add, if_pos (Nat.le_add_right _ _),
      Nat.add_sub_cancel_left, pemText, String.toList_ofList, List.drop_left, List.take_left]
    exact base64Decode_wrapped hbody

theorem beginMarker_delimited (label : String) :
    beginMarker label = delimited '-' 5 ("BEGIN ".toList ++ label.toList) :=
  (beginMarker_eq label).trans rfl

theorem endMarker_delimited (label : String) :
    endMarker label = delimited '-' 5 ("END ".toList ++ label.toList) :=
  (endMarker_eq label).trans rfl

theorem endsEarly_iff (hlabel : '-' ∉ label.toList) (hbody : '-' ∉ body) :
    EndsEarly label body ↔ body = "END ".toList ++ label.toList := by
  have hx : '-' ∉ "BEGIN ".toList ++ label.toList := by
    simp only [List.mem_append, not_or]
    exact ⟨by decide, hlabel⟩
  have hy : '-' ∉ "END ".toList ++ label.toList := by
    simp only [List.mem_append, not_or]
    exact ⟨by decide, hlabel⟩
  rw [EndsEarly, beginMarker_delimited, endMarker_delimited]
  constructor
  · rintro ⟨k, hk, hoccurs⟩
    refine eq_of_occursAt_delimited hx hy hbody ?_ ?_ ?_ (by decide) hk hoccurs
    · intro h
      cases h
    · exact List.cons_ne_nil _ _
    · exact List.cons_ne_nil _ _
  · rintro rfl
    refine ⟨_, ?_, occursAt_delimited⟩
    simp only [length_delimited]
    omega

/-- Both tools give back the bytes of a block exactly if its END marker does not begin inside its
BEGIN marker; their base64 decoders are the same function. -/
theorem pem_round_trip (label : String) :
    (∀ bytes body after, Wraps body bytes →
      (SntmImageSign.decodePemBlock (pemText label body after) label = .ok bytes ↔
        ¬EndsEarly label body) ∧
      (SntmCertGen.decodePemBlock (pemText label body after) label = .ok bytes ↔
        ¬EndsEarly label body)) ∧
    ∀ s, SntmCertGen.base64Decode s = SntmPem.base64Decode s := by
  constructor
  · intro bytes body after hbody
    rw [SntmCertGen.decodePemBlock_eq, SntmImageSign.decodePemBlock]
    exact ⟨decodePem_block hbody, decodePem_block hbody⟩
  · exact SntmCertGen.base64Decode_eq

/-- A key broken into three lines. -/
theorem wrapped_key_decodes :
    SntmImageSign.decodePemBlock (pemText "PUBLIC KEY" "\nZm9v\r\nYg=\n=\n".toList "\n".toList)
      "PUBLIC KEY" = .ok [102, 111, 111, 98] ∧
    SntmCertGen.decodePemBlock (pemText "PUBLIC KEY" "\nZm9v\r\nYg=\n=\n".toList "\n".toList)
      "PUBLIC KEY" = .ok [102, 111, 111, 98] := by
  have hwraps : Wraps "\nZm9v\r\nYg=\n=\n".toList [102, 111, 111, 98] := by
    unfold Wraps
    decide +kernel
  have hend : ¬EndsEarly "PUBLIC KEY" "\nZm9v\r\nYg=\n=\n".toList :=
    mt (endsEarly_iff (by decide) (by decide)).mp (by decide)
  obtain ⟨himage, hcert⟩ := (pem_round_trip "PUBLIC KEY").1 _ _ "\n".toList hwraps
  exact ⟨himage.mpr hend, hcert.mpr hend⟩

/-- Nine bytes whose base64 text, broken at the right places, is the text of the END marker. -/
theorem end_in_body_panics :
    Wraps "END PUBLIC KEY".toList [16, 208, 207, 80, 18, 200, 8, 161, 24] ∧
    SntmImageSign.decodePemBlock (pemText "PUBLIC KEY" "END PUBLIC KEY".toList []) "PUBLIC KEY" =
      .error .panic ∧
    SntmCertGen.decodePemBlock (pemText "PUBLIC KEY" "END PUBLIC KEY".toList []) "PUBLIC KEY" =
      .error .panic := by
  have hearly : EndsEarly "PUBLIC KEY" "END PUBLIC KEY".toList :=
    (endsEarly_iff (by decide) (by decide)).mpr (by decide)
  rw [SntmCertGen.decodePemBlock_eq, SntmImageSign.decodePemBlock, decodePem_panic_iff,
    decodePem_panic_iff]
  refine ⟨?_, misplaced_of_endsEarly hearly, misplaced_of_endsEarly hearly⟩
  unfold Wraps
  decide +kernel

end SntmPemRoundTrip
