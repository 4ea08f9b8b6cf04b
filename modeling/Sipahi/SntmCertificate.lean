import Sipahi.PlainRecord
import Sipahi.SntmCertGen
import Sipahi.SntmImageSign
import Sipahi.SntmStackReport

/-!
# Certificates of tasks

`sntm-cert-gen` writes what was known of a task when it was built as one `repr(C)` structure, and
signs its bytes.
-/
namespace SntmCertificate

open GuardedExecution PlainRecord SntmPem SntmManifest SntmStackReport
open SntmImageSign (Ed25519 mapError_eq_ok)

/-! ## The structure -/

def abiVersion : UInt32 := 1

structure Range64 where
  base : UInt64
  size : UInt64
  deriving DecidableEq, Repr

structure TaskCertificate where
  taskId : UInt8
  pad1 : List.Vector UInt8 7
  taskNameHash : List.Vector UInt8 32
  sourceCommit : List.Vector UInt8 32
  toolchainHash : List.Vector UInt8 32
  manifestHash : List.Vector UInt8 32
  pmpProfileHash : List.Vector UInt8 32
  /-- One bit for each syscall. -/
  allowedSyscalls : UInt8
  pad2 : List.Vector UInt8 7
  /-- `0xFF` stands for an empty slot. -/
  allowedChannels : List.Vector UInt8 8
  allowedMmio : List.Vector Range64 4
  maxStackBytes : UInt32
  /-- One if the scan found nothing. -/
  forbiddenOpcodeScan : UInt8
  pad3 : UInt8
  unsafeCount : UInt16
  textHash : List.Vector UInt8 32
  rodataHash : List.Vector UInt8 32
  dataHash : List.Vector UInt8 32
  kaniProofIds : List.Vector UInt32 16
  abiVersion : UInt32
  pad4 : UInt32
  deriving DecidableEq

def certSize : ℕ := 424

abbrev Bytes (n : ℕ) := List.Vector UInt8 n

def bytes (n : ℕ) : Plain (Bytes n) := Plain.byte.array n

def rangeRecord : Record (UInt64 × UInt64 × Unit) := .cons .u64 (.cons .u64 .nil)

theorem rangeRecord_solid : rangeRecord.Solid := ⟨by decide, by decide⟩

def range64 : Plain Range64 :=
  (rangeRecord.toPlain rangeRecord_solid).equiv
    { toFun := fun (base, size, _) => ⟨base, size⟩
      invFun := fun r => (r.base, r.size, ())
      left_inv := fun _ => rfl
      right_inv := fun _ => rfl }

/-- The fields in the order of the declaration. -/
abbrev Fields : Type :=
  UInt8 × Bytes 7 × Bytes 32 × Bytes 32 × Bytes 32 × Bytes 32 × Bytes 32 × UInt8 × Bytes 7 ×
    Bytes 8 × List.Vector Range64 4 × UInt32 × UInt8 × UInt8 × UInt16 × Bytes 32 × Bytes 32 ×
    Bytes 32 × List.Vector UInt32 16 × UInt32 × UInt32 × Unit

def certRecord : Record Fields :=
  .cons .byte <| .cons (bytes 7) <| .cons (bytes 32) <| .cons (bytes 32) <| .cons (bytes 32) <|
    .cons (bytes 32) <| .cons (bytes 32) <| .cons .byte <| .cons (bytes 7) <| .cons (bytes 8) <|
    .cons (range64.array 4) <| .cons .u32 <| .cons .byte <| .cons .byte <| .cons .u16 <|
    .cons (bytes 32) <| .cons (bytes 32) <| .cons (bytes 32) <| .cons (Plain.u32.array 16) <|
    .cons .u32 <| .cons .u32 .nil

def TaskCertificate.fields : TaskCertificate ≃ Fields where
  toFun c := (c.taskId, c.pad1, c.taskNameHash, c.sourceCommit, c.toolchainHash, c.manifestHash,
    c.pmpProfileHash, c.allowedSyscalls, c.pad2, c.allowedChannels, c.allowedMmio,
    c.maxStackBytes, c.forbiddenOpcodeScan, c.pad3, c.unsafeCount, c.textHash, c.rodataHash,
    c.dataHash, c.kaniProofIds, c.abiVersion, c.pad4, ())
  invFun := fun (taskId, pad1, taskNameHash, sourceCommit, toolchainHash, manifestHash,
    pmpProfileHash, allowedSyscalls, pad2, allowedChannels, allowedMmio, maxStackBytes,
    forbiddenOpcodeScan, pad3, unsafeCount, textHash, rodataHash, dataHash, kaniProofIds,
    abiVersion, pad4, _) =>
    ⟨taskId, pad1, taskNameHash, sourceCommit, toolchainHash, manifestHash, pmpProfileHash,
      allowedSyscalls, pad2, allowedChannels, allowedMmio, maxStackBytes, forbiddenOpcodeScan,
      pad3, unsafeCount, textHash, rodataHash, dataHash, kaniProofIds, abiVersion, pad4⟩
  left_inv _ := rfl
  right_inv _ := rfl

/-- The cast reads every byte of the structure; one without a value is undefined behaviour. -/
def TaskCertificate.asBytes (c : TaskCertificate) : Option (List UInt8) :=
  initialized (certRecord.memory c.fields)

/-- `from_bytes` of the slice at an address. The pointer it reads through must be aligned. -/
def TaskCertificate.fromBytes (address : ℕ) (slice : List UInt8) :
    Except Fault (Option TaskCertificate) :=
  if slice.length ≠ certSize then .ok none
  else if certRecord.layout.align ∣ address then
    .ok (some (TaskCertificate.fields.symm (certRecord.read 0 slice)))
  else .error .panic

/-! ## The chain -/

/-- `hex_nibble` -/
def hexNibble (c : UInt8) : Option UInt8 :=
  if 48 ≤ c ∧ c ≤ 57 then some (c - 48)
  else if 97 ≤ c ∧ c ≤ 102 then some (c - 97 + 10)
  else if 65 ≤ c ∧ c ≤ 70 then some (c - 65 + 10)
  else none

def hexPairs : List UInt8 → Option (List UInt8)
  | hi :: lo :: rest => do
    let high ← hexNibble hi
    let low ← hexNibble lo
    let out ← hexPairs rest
    some (((high <<< 4) ||| low) :: out)
  | _ => some []

def hexDecode (s : List Char) : Option (List UInt8) :=
  let text := s.flatMap String.utf8EncodeChar
  if text.length % 2 ≠ 0 then none else hexPairs text

/-- The commit that `HEAD` names, or the one that the file it refers to holds, behind it zeros. -/
def gitHeadBytes (gitFile : String → Option String) : Option (Bytes 32) := do
  let head ← gitFile "HEAD"
  let head := trim head.toList
  let hashHex ← if "ref: ".toList <+: head then
      (gitFile (String.ofList (head.drop "ref: ".toList.length))).map fun text => trim text.toList
    else some head
  let raw ← hexDecode hashHex
  some (.ofFn fun i => raw.getD i 0)

def zeroHash : Bytes 32 := .replicate 32 0

section Tool

variable (hash : List UInt8 → Bytes 32) (ed : Ed25519) (escaped : Char → Bool)

def buildCert (taskId : UInt8) (taskName : String)
    (sourceCommit toolchainHash manifestHash pmpProfileHash : Bytes 32) (allowedSyscalls : UInt8)
    (allowedChannels : Bytes 8) (allowedMmio : List.Vector Range64 4) (maxStackBytes : UInt32)
    (forbiddenOpcodeScan : UInt8) (unsafeCount : UInt16) (textHash rodataHash dataHash : Bytes 32)
    (kaniProofIds : List.Vector UInt32 16) : TaskCertificate where
  taskId
  pad1 := .replicate 7 0
  taskNameHash := hash taskName.toUTF8.data.toList
  sourceCommit
  toolchainHash
  manifestHash
  pmpProfileHash
  allowedSyscalls
  pad2 := .replicate 7 0
  allowedChannels
  allowedMmio
  maxStackBytes
  forbiddenOpcodeScan
  unsafeCount
  pad3 := 0
  textHash
  rodataHash
  dataHash
  kaniProofIds
  abiVersion := SntmCertificate.abiVersion
  pad4 := 0

/-- The last 32 bytes of a key file. -/
def keyBytes (pem label : String) : Except Fault (List UInt8) := do
  let der ← SntmCertGen.decodePemBlock pem label
  if der.length < 32 then .error (.error s!"PEM too short: {der.length} bytes")
  else .ok (der.drop (der.length - 32))

def parseEd25519PrivPem (pem : String) : Except Fault ed.SecretKey := do
  let seed ← keyBytes pem "PRIVATE KEY"
  (ed.keyFromSeed seed).mapError (Fault.context "seed parse: ")

def parseEd25519PubPem (pem : String) : Except Fault ed.PublicKey := do
  let key ← keyBytes pem "PUBLIC KEY"
  (ed.publicKeyFromSlice key).mapError fun e => .error s!"pubkey parse: {e}"

def signCert (certBytes : List UInt8) (privKeyPem : String) : Except Fault (List UInt8) := do
  let key ← parseEd25519PrivPem ed privKeyPem
  let sigBytes := ed.signatureBytes (ed.sign key certBytes)
  if sigBytes.length = 64 then .ok sigBytes
  else .error (.error "ed25519 signature length mismatch")

def verifyCert (certBytes sigBytes : List UInt8) (pubKeyPem : String) : Except Fault Unit := do
  let pubkey ← parseEd25519PubPem ed pubKeyPem
  let sig ← (ed.signatureFromSlice sigBytes).mapError fun e => .error s!"signature parse: {e}"
  (ed.verify pubkey certBytes sig).mapError fun e => .error s!"ed25519 verify FAIL: {e}"

/-! ## The command -/

/-- What the command line gives. A file is `none` if it cannot be read, and an optional one is
`none` also if it is not asked for. -/
structure Args where
  taskId : UInt8
  taskName : String
  manifest : Option (List UInt8)
  toolchain : Option (List UInt8)
  gitFile : String → Option String
  textBin : Option (Option (List UInt8))
  rodataBin : Option (Option (List UInt8))
  dataBin : Option (Option (List UInt8))
  signingKey : Option String
  callStackReport : Option (Option String)

/-- How the command ends without its two files. -/
inductive Exit where
  | code (n : UInt8)
  | panic
  | undefined
  deriving DecidableEq, Repr

def orExit {α : Type} (e : Exit) (x : Option α) : Except Exit α := x.elim (.error e) .ok

def exitOf : Fault → Exit
  | .panic => .panic
  | .error _ => .code 2

def fileHash : Option (Option (List UInt8)) → Option (Bytes 32)
  | none => some zeroHash
  | some file => file.map hash

def maxStackBytes : Option (Option String) → UInt32
  | some (some text) => .ofNat (CertGen.parseMaxStackOrUnknown escaped text)
  | _ => .ofNat CertGen.unknownSentinel

def certificateOf (args : Args) : Except Exit TaskCertificate := do
  let manifest ← orExit (.code 1) args.manifest
  let toolchainHash ← orExit (.code 1) (args.toolchain.map hash)
  let sourceCommit := (gitHeadBytes args.gitFile).getD zeroHash
  let textHash ← orExit (.code 1) (fileHash hash args.textBin)
  let rodataHash ← orExit (.code 1) (fileHash hash args.rodataBin)
  let dataHash ← orExit (.code 1) (fileHash hash args.dataBin)
  .ok (buildCert hash args.taskId args.taskName sourceCommit toolchainHash (hash manifest) zeroHash
    0x3F (.replicate 8 0xFF) (.replicate 4 ⟨0, 0⟩) (maxStackBytes escaped args.callStackReport) 1 0
    textHash rodataHash dataHash (.replicate 16 0))

/-- `main`, up to the writing of the certificate and its signature. -/
def generate (args : Args) : Except Exit (List UInt8 × List UInt8) := do
  let cert ← certificateOf hash escaped args
  let certBytes ← orExit .undefined cert.asBytes
  let privPem ← orExit (.code 2) args.signingKey
  let sig ← (signCert ed certBytes privPem).mapError exitOf
  .ok (certBytes, sig)

end Tool

/-! ## The format -/

theorem certRecord_solid : certRecord.Solid := ⟨by decide +kernel, by decide +kernel⟩

theorem certRecord_size : certRecord.layout.size = certSize := by decide +kernel

theorem certRecord_align : certRecord.layout.align = 8 := by decide +kernel

theorem asBytes_readable (c : TaskCertificate) :
    ∃ slice, c.asBytes = some slice ∧ slice.length = certSize ∧ ∀ address,
      TaskCertificate.fromBytes address slice =
        if 8 ∣ address then .ok (some c) else .error .panic := by
  obtain ⟨slice, hmemory, hlength, hread⟩ := certRecord_solid.memory_eq c.fields
  rw [certRecord_size] at hlength
  refine ⟨slice, ?_, hlength, fun address => ?_⟩
  · rw [TaskCertificate.asBytes, hmemory, initialized_map_some]
  · rw [TaskCertificate.fromBytes, if_neg (not_not_intro hlength), certRecord_align, hread,
      Equiv.symm_apply_apply]

/-- Certificates are the strings of 424 bytes. No byte of one is padding of the compiler, each comes
back from its bytes unless they lie at an odd place, and every string of that length is one. -/
theorem certificate_format :
    (∀ c : TaskCertificate, ∃ slice, c.asBytes = some slice ∧ slice.length = certSize ∧
      ∀ address, TaskCertificate.fromBytes address slice =
        if 8 ∣ address then .ok (some c) else .error .panic) ∧
    (∀ address slice, slice.length ≠ certSize ↔
      TaskCertificate.fromBytes address slice = .ok none) ∧
    ∀ address slice c, TaskCertificate.fromBytes address slice = .ok (some c) →
      c.asBytes = some slice := by
  refine ⟨asBytes_readable, fun address slice => ?_, fun address slice c h => ?_⟩
  · rw [TaskCertificate.fromBytes]
    split
    · rename_i hlength
      simpa using hlength
    · rename_i hlength
      split
      · simpa using hlength
      · simpa using hlength
  · rw [TaskCertificate.fromBytes] at h
    split at h
    · cases h
    · rename_i hlength
      split at h
      · cases h
        have hsize : slice.length = certRecord.layout.size :=
          (not_not.mp hlength).trans certRecord_size.symm
        rw [TaskCertificate.asBytes, Equiv.apply_symm_apply,
          certRecord_solid.memory_read hsize, initialized_map_some]
      · cases h

/-! ## What a certificate says -/

variable {hash : List UInt8 → Bytes 32} {ed : Ed25519} {escaped : Char → Bool} {args : Args}
  {c : TaskCertificate} {certBytes sigBytes : List UInt8} {privKeyPem pubKeyPem : String}

/-- Every file that is asked for can be read. -/
structure Readable (args : Args) : Prop where
  manifest : args.manifest.isSome
  toolchain : args.toolchain.isSome
  text : args.textBin ≠ some none
  rodata : args.rodataBin ≠ some none
  data : args.dataBin ≠ some none

/-- The certificate is about the files of the command line, and a bound on the stack in it is one
that a report of the analyser gives. -/
structure Describes (hash : List UInt8 → Bytes 32) (escaped : Char → Bool) (args : Args)
    (c : TaskCertificate) : Prop where
  taskId : c.taskId = args.taskId
  taskNameHash : c.taskNameHash = hash args.taskName.toUTF8.data.toList
  sourceCommit : c.sourceCommit = (gitHeadBytes args.gitFile).getD zeroHash
  toolchainHash : some c.toolchainHash = args.toolchain.map hash
  manifestHash : some c.manifestHash = args.manifest.map hash
  textHash : some c.textHash = fileHash hash args.textBin
  rodataHash : some c.rodataHash = fileHash hash args.rodataBin
  dataHash : some c.dataHash = fileHash hash args.dataBin
  unreported : args.callStackReport.join = none →
    c.maxStackBytes.toNat = CertGen.unknownSentinel
  reported : ∀ (report : SntmStackAnalysis.AnalysisReport) (path : String),
    report.maxStackBytes < 2 ^ 32 → args.callStackReport = some (some (render report path)) →
    c.maxStackBytes.toNat ≠ CertGen.unknownSentinel →
      report.status = .pass ∧ c.maxStackBytes.toNat = report.maxStackBytes

theorem orExit_ok {α : Type} {e : Exit} {x : Option α} {a : α} :
    orExit e x = .ok a ↔ x = some a := by
  cases x with
  | none => simp [orExit]
  | some b => simp [orExit]

theorem fileHash_isSome (hash : List UInt8 → Bytes 32) {file : Option (Option (List UInt8))} :
    (∃ h, fileHash hash file = some h) ↔ file ≠ some none := by
  cases file with
  | none => simp [fileHash]
  | some content =>
    cases content with
    | none => simp [fileHash]
    | some text => simp [fileHash]

/-- A bound that comes out of a rendered report is the one of the report. -/
theorem maxStackBytes_render {report : SntmStackAnalysis.AnalysisReport} {path : String}
    (hmax : report.maxStackBytes < 2 ^ 32)
    (h : (maxStackBytes escaped (some (some (render report path)))).toNat ≠
      CertGen.unknownSentinel) :
    report.status = .pass ∧
      (maxStackBytes escaped (some (some (render report path)))).toNat = report.maxStackBytes := by
  have hunknown : (UInt32.ofNat CertGen.unknownSentinel).toNat = CertGen.unknownSentinel := by
    decide
  by_cases hread : CertGen.parseMaxStackOrUnknown escaped (render report path) =
      CertGen.unknownSentinel
  · rw [maxStackBytes, hread] at h
    exact absurd hunknown h
  · obtain ⟨p, hp, hpass, hn, -⟩ := parseMaxStackBytes_ok.mp
      (parseMaxStackOrUnknown_iff.mp ⟨rfl, hread⟩)
    obtain ⟨hstatus, hbound⟩ := parse_render hp
    rw [hpass] at hstatus
    refine ⟨of_decide_eq_true hstatus.symm, ?_⟩
    rw [maxStackBytes, ← hn, hbound]
    exact UInt32.toNat_ofNat_of_lt' hmax

theorem certificateOf_describes (h : certificateOf hash escaped args = .ok c) :
    Describes hash escaped args c := by
  obtain ⟨manifest, hmanifest, h⟩ := bind_eq_ok.mp h
  obtain ⟨toolchainHash, htoolchain, h⟩ := bind_eq_ok.mp h
  obtain ⟨textHash, htext, h⟩ := bind_eq_ok.mp h
  obtain ⟨rodataHash, hrodata, h⟩ := bind_eq_ok.mp h
  obtain ⟨dataHash, hdata, h⟩ := bind_eq_ok.mp h
  cases h
  rw [orExit_ok] at hmanifest htoolchain htext hrodata hdata
  constructor
  case taskId => rfl
  case taskNameHash => rfl
  case sourceCommit => rfl
  case toolchainHash => exact htoolchain.symm
  case manifestHash =>
    rw [hmanifest]
    rfl
  case textHash => exact htext.symm
  case rodataHash => exact hrodata.symm
  case dataHash => exact hdata.symm
  case unreported =>
    intro hnone
    have hvalue : maxStackBytes escaped args.callStackReport =
        .ofNat CertGen.unknownSentinel := by
      rcases hreport : args.callStackReport with _ | _ | text
      · rfl
      · rfl
      · rw [hreport] at hnone
        cases hnone
    change (maxStackBytes escaped args.callStackReport).toNat = _
    rw [hvalue]
    decide
  case reported =>
    intro report path hmax hreport hknown
    change (maxStackBytes escaped args.callStackReport).toNat ≠ _ at hknown
    change _ ∧ (maxStackBytes escaped args.callStackReport).toNat = _
    rw [hreport] at hknown ⊢
    exact maxStackBytes_render hmax hknown

theorem Describes.readable (h : Describes hash escaped args c) : Readable args where
  manifest := by simpa using congrArg Option.isSome h.manifestHash.symm
  toolchain := by simpa using congrArg Option.isSome h.toolchainHash.symm
  text := (fileHash_isSome hash).mp ⟨_, h.textHash.symm⟩
  rodata := (fileHash_isSome hash).mp ⟨_, h.rodataHash.symm⟩
  data := (fileHash_isSome hash).mp ⟨_, h.dataHash.symm⟩

theorem certificateOf_ok (hash : List UInt8 → Bytes 32) (escaped : Char → Bool)
    (h : Readable args) : ∃ c, certificateOf hash escaped args = .ok c := by
  obtain ⟨manifest, hmanifest⟩ := Option.isSome_iff_exists.mp h.manifest
  obtain ⟨toolchain, htoolchain⟩ := Option.isSome_iff_exists.mp h.toolchain
  obtain ⟨textHash, htext⟩ := (fileHash_isSome hash).mpr h.text
  obtain ⟨rodataHash, hrodata⟩ := (fileHash_isSome hash).mpr h.rodata
  obtain ⟨dataHash, hdata⟩ := (fileHash_isSome hash).mpr h.data
  rw [certificateOf, hmanifest, htoolchain, htext, hrodata, hdata]
  exact ⟨_, rfl⟩

/-- A signature made with one half of a key pair is accepted with the other. -/
theorem verifyCert_signCert {publicKey : ed.SecretKey → ed.PublicKey} (hed : ed.Lawful publicKey)
    {key : ed.SecretKey} (hpriv : parseEd25519PrivPem ed privKeyPem = .ok key)
    (hpub : parseEd25519PubPem ed pubKeyPem = .ok (publicKey key)) (certBytes : List UInt8) :
    ∃ sigBytes, signCert ed certBytes privKeyPem = .ok sigBytes ∧
      verifyCert ed certBytes sigBytes pubKeyPem = .ok () := by
  refine ⟨ed.signatureBytes (ed.sign key certBytes), ?_, ?_⟩
  · rw [signCert, bind_eq_ok]
    exact ⟨key, hpriv, if_pos (hed.signature_length _)⟩
  · rw [verifyCert, bind_eq_ok]
    refine ⟨_, hpub, bind_eq_ok.mpr ⟨_, mapError_eq_ok.mpr (hed.signature_reads_back _), ?_⟩⟩
    exact mapError_eq_ok.mpr (hed.verify_sign _ _)

theorem generate_ok (hkey : args.signingKey = some privKeyPem) :
    generate hash ed escaped args = .ok (certBytes, sigBytes) ↔
      ∃ c, certificateOf hash escaped args = .ok c ∧ c.asBytes = some certBytes ∧
        signCert ed certBytes privKeyPem = .ok sigBytes := by
  rw [generate, bind_eq_ok]
  constructor
  · rintro ⟨c, hc, h⟩
    obtain ⟨slice, hslice, h⟩ := bind_eq_ok.mp h
    obtain ⟨privPem, hprivPem, h⟩ := bind_eq_ok.mp h
    obtain ⟨sig, hsig, h⟩ := bind_eq_ok.mp h
    cases h
    rw [orExit_ok] at hslice hprivPem
    rw [hkey] at hprivPem
    cases hprivPem
    exact ⟨c, hc, hslice, mapError_eq_ok.mp hsig⟩
  · rintro ⟨c, hc, hslice, hsig⟩
    refine ⟨c, hc, bind_eq_ok.mpr ⟨certBytes, orExit_ok.mpr hslice, ?_⟩⟩
    refine bind_eq_ok.mpr ⟨privKeyPem, orExit_ok.mpr hkey, ?_⟩
    exact bind_eq_ok.mpr ⟨sigBytes, mapError_eq_ok.mpr hsig, rfl⟩

/-- A command line that leaves out what it may. -/
def bareArgs : Args where
  taskId := 2
  taskName := "task_hello"
  manifest := some []
  toolchain := some []
  gitFile _ := none
  textBin := some (some [0x82, 0x80])
  rodataBin := none
  dataBin := none
  signingKey := some (SntmImageSign.keyPem "PRIVATE KEY")
  callStackReport := none

theorem keyPem_keyBytes {label : String} (h : label ∈ ["PRIVATE KEY", "PUBLIC KEY"]) :
    keyBytes (SntmImageSign.keyPem label) label = .ok SntmImageSign.pemKey := by
  refine bind_eq_ok.mpr ⟨SntmImageSign.pemKey, ?_, rfl⟩
  rw [SntmCertGen.decodePemBlock_eq]
  simp only [decodePem, SntmImageSign.keyPem, String.toList_ofList]
  revert label
  decide +kernel

end SntmCertificate
