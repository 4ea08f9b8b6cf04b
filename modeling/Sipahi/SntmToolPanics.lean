import Sipahi.SntmCertGen
import Sipahi.SntmImageSign

/-! # Where the tools panic

`verify_image` and the PEM readers are meant to answer every file with a result or an error. They
panic on two kinds of input: a tail offset whose sum with the size of a signature leaves the machine
word, and a PEM text whose END marker comes too early.
-/
namespace SntmToolPanics

open GuardedExecution SntmPem SntmImageFormat SntmImageSign

/-- What `verify_image` gets past its checks and then panics on. An addition with overflow checks
panics where the sum wraps, a wrapped sum makes the slice behind it a reversed one. -/
def VerifyPanics (image : List UInt8) (pubKeyPem : String) : Prop :=
  headerSize + tailSigSize ≤ image.length ∧ image.take 5 = imageMagic ∧
    (2 ^ 64 ≤ tailOffset image + tailSigSize ∨
      tailOffset image + tailSigSize ≤ image.length ∧ Misplaced "PUBLIC KEY" pubKeyPem.toList)

variable {ed : Ed25519} {image : List UInt8} {pubKeyPem label : String}

theorem mapError_ne_panic {α : Type} {x : Except String α} {text : String → String} :
    (x.mapError fun e => Fault.error (text e)) ≠ .error .panic := by
  cases x with
  | error e => simp [Except.mapError]
  | ok a => simp [Except.mapError]

theorem slice_panic_iff {α : Type} {items : List α} {start stop : ℕ} :
    slice items start stop = .error .panic ↔ stop < start ∨ items.length < stop := by
  rw [slice]
  split
  · rename_i h
    simp only [reduceCtorEq, false_iff]
    omega
  · rename_i h
    simp only [true_iff]
    omega

theorem keyBytes_panic_iff :
    keyBytes pubKeyPem label = .error .panic ↔ Misplaced label pubKeyPem.toList := by
  rw [keyBytes, bind_eq_error, SntmImageSign.decodePemBlock, decodePem_panic_iff, or_iff_left]
  rintro ⟨der, -, h⟩
  split at h
  · cases h
  · cases h

theorem parseEd25519PubPem_panic_iff :
    parseEd25519PubPem ed pubKeyPem = .error .panic ↔
      Misplaced "PUBLIC KEY" pubKeyPem.toList := by
  rw [parseEd25519PubPem, bind_eq_error, keyBytes_panic_iff, or_iff_left]
  rintro ⟨key, -, h⟩
  exact mapError_ne_panic h

theorem fromBytes_ne_panic {bytes : List UInt8} : Header.fromBytes bytes ≠ .error .panic := by
  rw [Header.fromBytes]
  split
  · simp
  · split
    · simp
    · simp

theorem verifyTail_panic_iff {tailOff : ℕ} (hlength : tailSigSize ≤ image.length)
    (hmagic : image.take 5 = imageMagic) (hoff : tailOff < 2 ^ 64) :
    verifyTail ed image tailOff pubKeyPem = .error .panic ↔
      2 ^ 64 ≤ tailOff + tailSigSize ∨
        tailOff + tailSigSize ≤ image.length ∧ Misplaced "PUBLIC KEY" pubKeyPem.toList := by
  have hsize : tailSigSize = 64 := rfl
  rw [verifyTail]
  by_cases hwrap : 2 ^ 64 ≤ tailOff + tailSigSize
  · have hend : (tailOff + tailSigSize) % 2 ^ 64 = tailOff + tailSigSize - 2 ^ 64 := by omega
    rw [hend, if_neg (by omega), if_neg (not_not.mpr hmagic), bind_eq_error]
    constructor
    · intro _
      exact .inl hwrap
    · intro _
      by_cases hbody : tailOff ≤ image.length
      · right
        refine ⟨_, slice_take hbody, bind_eq_error.mpr (.inl (slice_panic_iff.mpr ?_))⟩
        omega
      · exact .inl (slice_panic_iff.mpr (by omega))
  · rw [Nat.mod_eq_of_lt (Nat.not_le.mp hwrap), or_iff_right hwrap]
    by_cases hinside : tailOff + tailSigSize ≤ image.length
    · rw [if_neg (Nat.not_lt.mpr hinside), if_neg (not_not.mpr hmagic),
        slice_take (by omega), slice_fieldBytes hinside]
      simp only [bind_eq_error, reduceCtorEq, false_or, Except.ok.injEq, exists_eq_left',
        parseEd25519PubPem_panic_iff, mapError_ne_panic, and_false, exists_false, or_false]
      exact (and_iff_right hinside).symm
    · rw [if_pos (Nat.not_le.mp hinside)]
      constructor
      · intro h
        cases h
      · intro h
        exact absurd h.1 hinside

/-- A header is read if the magic is right, and then the tail decides. -/
theorem verifyImage_panic_iff :
    verifyImage ed image pubKeyPem = .error .panic ↔ VerifyPanics image pubKeyPem := by
  have hheader : headerSize = 64 := rfl
  rw [verifyImage, VerifyPanics]
  split
  · rename_i hshort
    constructor
    · intro h
      cases h
    · intro h
      omega
  rename_i hlong
  rw [and_iff_right (Nat.not_lt.mp hlong), bind_eq_error, or_iff_right fromBytes_ne_panic]
  constructor
  · rintro ⟨header, hread, h⟩
    have hmagic : image.take 5 = imageMagic := by
      simpa [List.take_take, headerSize] using (fromBytes_ok hread).1
    obtain ⟨header', hread', htail⟩ := fromBytes_take_ok (by omega) hmagic
    obtain rfl := Except.ok.inj (hread.symm.trans hread')
    simp only [htail] at h
    exact ⟨hmagic, (verifyTail_panic_iff (by omega) hmagic (readU64 image 56).toNat_lt).mp h⟩
  · rintro ⟨hmagic, h⟩
    obtain ⟨header, hread, htail⟩ := fromBytes_take_ok (by omega) hmagic
    refine ⟨header, hread, ?_⟩
    simp only [htail]
    exact (verifyTail_panic_iff (by omega) hmagic (readU64 image 56).toNat_lt).mpr h

/-- The tools answer with a result or an error on exactly the inputs that are not of the two
kinds. -/
theorem tools_answer_iff (ed : Ed25519) (image : List UInt8) (pem label : String) :
    (verifyImage ed image pem ≠ .error .panic ↔ ¬VerifyPanics image pem) ∧
    (SntmImageSign.decodePemBlock pem label ≠ .error .panic ↔ ¬Misplaced label pem.toList) ∧
    (SntmCertGen.decodePemBlock pem label ≠ .error .panic ↔ ¬Misplaced label pem.toList) := by
  rw [SntmCertGen.decodePemBlock_eq, SntmImageSign.decodePemBlock, ne_eq, ne_eq, ne_eq,
    verifyImage_panic_iff, decodePem_panic_iff, decodePem_panic_iff]
  exact ⟨Iff.rfl, Iff.rfl, Iff.rfl⟩

/-- A header with the last offset there is. -/
def lastOffsetHeader : Header := { bareHeader with tailSigOffset := 0xFFFFFFFFFFFFFFFF }

theorem hostile_files_panic :
    verifyImage checksumScheme (lastOffsetHeader.toBytes ++ List.replicate tailSigSize 0)
      (keyPem "PUBLIC KEY") = .error .panic ∧
    SntmImageSign.decodePemBlock "-----END KEY----------BEGIN KEY-----" "KEY" = .error .panic ∧
    SntmCertGen.decodePemBlock "-----END KEY----------BEGIN KEY-----" "KEY" = .error .panic := by
  refine ⟨?_, ?_, ?_⟩
  · apply verifyImage_panic_iff.mpr
    refine ⟨by decide +kernel, by decide +kernel, .inl ?_⟩
    decide +kernel
  · decide +kernel
  · decide +kernel

end SntmToolPanics
