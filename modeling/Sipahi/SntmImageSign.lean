import Sipahi.SntmImageFormat

/-!
# The signature of an image

`sign_image` signs the assembled bytes and `verify_image` checks the signature that stands at the
offset the header gives. The signature scheme is the crate `ed25519-compact`.
-/
namespace SntmImageSign

open GuardedExecution LittleEndian Occurrence SntmPem SntmImageFormat

/-- What the tool calls of the crate. Errors are given by their `Debug` text; making a key pair
panics on a seed of zeros. -/
structure Ed25519 where
  SecretKey : Type
  PublicKey : Type
  Signature : Type
  keyFromSeed : List UInt8 → Except Fault SecretKey
  publicKeyFromSlice : List UInt8 → Except String PublicKey
  sign : SecretKey → List UInt8 → Signature
  signatureBytes : Signature → List UInt8
  signatureFromSlice : List UInt8 → Except String Signature
  verify : PublicKey → List UInt8 → Signature → Except String Unit

/-- A signature has 64 bytes, is read back from them, and is accepted with the public half of the
key that made it. -/
structure Ed25519.Lawful (ed : Ed25519) (publicKey : ed.SecretKey → ed.PublicKey) : Prop where
  signature_length : ∀ sig, (ed.signatureBytes sig).length = tailSigSize
  signature_reads_back : ∀ sig, ed.signatureFromSlice (ed.signatureBytes sig) = .ok sig
  verify_sign : ∀ key message, ed.verify (publicKey key) message (ed.sign key message) = .ok ()

section Tool

variable (ed : Ed25519)

def decodePemBlock (pem label : String) : Except Fault (List UInt8) :=
  decodePem "missing " pem label

/-- The last 32 bytes of a key file. -/
def keyBytes (pem label : String) : Except Fault (List UInt8) := do
  let der ← decodePemBlock pem label
  if der.length < 32 then .error (.error "PEM too short")
  else .ok (der.drop (der.length - 32))

def parseEd25519PrivPem (pem : String) : Except Fault ed.SecretKey := do
  let seed ← keyBytes pem "PRIVATE KEY"
  (ed.keyFromSeed seed).mapError (Fault.context "seed parse: ")

def parseEd25519PubPem (pem : String) : Except Fault ed.PublicKey := do
  let key ← keyBytes pem "PUBLIC KEY"
  (ed.publicKeyFromSlice key).mapError fun e => .error s!"pubkey parse: {e}"

def signImage (bodyBytes : List UInt8) (privKeyPem : String) : Except Fault (List UInt8) := do
  let key ← parseEd25519PrivPem ed privKeyPem
  let sigBytes := ed.signatureBytes (ed.sign key bodyBytes)
  if sigBytes.length = tailSigSize then .ok sigBytes
  else .error (.error "ed25519 sig length mismatch")

/-- `verify_image` once it has read the header. -/
def verifyTail (image : List UInt8) (tailOff : ℕ) (pubKeyPem : String) : Except Fault Unit :=
  -- the sum wraps; a slice below then fails
  let sigEnd := (tailOff + tailSigSize) % 2 ^ 64
  if image.length < sigEnd then
    .error (.error (s!"tail offset {tailOff} + sig {tailSigSize} > image len {image.length}"))
  else if image.take 5 ≠ imageMagic then .error (.error "magic mismatch")
  else do
    let body ← slice image 0 tailOff
    let sigBytes ← slice image tailOff sigEnd
    let pubkey ← parseEd25519PubPem ed pubKeyPem
    let sig ← (ed.signatureFromSlice sigBytes).mapError fun e => .error s!"sig parse: {e}"
    (ed.verify pubkey body sig).mapError fun e => .error s!"ed25519 verify FAIL: {e}"

def verifyImage (image : List UInt8) (pubKeyPem : String) : Except Fault Unit :=
  if image.length < headerSize + tailSigSize then
    .error (.error s!"image too short: {image.length} bytes")
  else do
    let header ← Header.fromBytes (image.take headerSize)
    verifyTail ed image header.tailSigOffset.toNat pubKeyPem

end Tool

/-! ## What `verify_image` accepts -/

/-- `tail_sig_offset`, the last field of the header. -/
def tailOffset (image : List UInt8) : ℕ := (readU64 image 56).toNat

/-- The bytes the signature is checked against. -/
def signedMessage (image : List UInt8) : List UInt8 := image.take (tailOffset image)

def tailSignature (image : List UInt8) : List UInt8 :=
  fieldBytes image (tailOffset image) tailSigSize

/-- The key accepts the signature for the message. -/
def Verified (ed : Ed25519) (pubKeyPem : String) (message sigBytes : List UInt8) : Prop :=
  ∃ pubkey sig, parseEd25519PubPem ed pubKeyPem = .ok pubkey ∧
    ed.signatureFromSlice sigBytes = .ok sig ∧ ed.verify pubkey message sig = .ok ()

variable {ed : Ed25519} {image : List UInt8} {pubKeyPem privKeyPem : String}

theorem mapError_eq_ok {α ε ε' : Type} {x : Except ε α} {f : ε → ε'} {a : α} :
    x.mapError f = .ok a ↔ x = .ok a := by
  cases x with
  | error e => simp [Except.mapError]
  | ok b => simp [Except.mapError]

theorem slice_ok_iff {α : Type} {items part : List α} {start stop : ℕ} :
    slice items start stop = .ok part ↔
      start ≤ stop ∧ stop ≤ items.length ∧ (items.drop start).take (stop - start) = part := by
  rw [slice]
  split
  · rename_i h
    simp [h.1, h.2]
  · rename_i h
    simp only [reduceCtorEq, false_iff]
    intro hpart
    exact h ⟨hpart.1, hpart.2.1⟩

theorem slice_take {image : List UInt8} {stop : ℕ} (hstop : stop ≤ image.length) :
    slice image 0 stop = .ok (image.take stop) :=
  slice_ok_iff.mpr ⟨Nat.zero_le _, hstop, by rw [List.drop_zero, Nat.sub_zero]⟩

theorem slice_fieldBytes {image : List UInt8} {start width : ℕ}
    (hinside : start + width ≤ image.length) :
    slice image start (start + width) = .ok (fieldBytes image start width) :=
  slice_ok_iff.mpr ⟨Nat.le_add_right _ _, hinside, by rw [Nat.add_sub_cancel_left, fieldBytes]⟩

theorem readU64_take (image : List UInt8) {start : ℕ} (hstart : start + 8 ≤ headerSize) :
    readU64 (image.take headerSize) start = readU64 image start := by
  have hfield : fieldBytes (image.take headerSize) start 8 = fieldBytes image start 8 := by
    rw [fieldBytes, fieldBytes, List.drop_take, List.take_take]
    congr 1
    omega
  rw [readU64, readU64, hfield]

theorem fromBytes_take_ok (hlength : headerSize ≤ image.length)
    (hmagic : image.take 5 = imageMagic) :
    ∃ header, Header.fromBytes (image.take headerSize) = .ok header ∧
      header.tailSigOffset = readU64 image 56 := by
  have hsize : ¬(image.take headerSize).length < headerSize := by
    simp only [List.length_take]
    omega
  have htake : (image.take headerSize).take 5 = imageMagic := by
    simpa [List.take_take, headerSize] using hmagic
  rw [Header.fromBytes, dif_neg hsize, if_neg (not_not.mpr htake)]
  exact ⟨_, rfl, readU64_take image (by decide)⟩

theorem verifyTail_iff {tailOff : ℕ} :
    verifyTail ed image tailOff pubKeyPem = .ok () ↔
      image.take 5 = imageMagic ∧ tailOff + tailSigSize < 2 ^ 64 ∧
        tailOff + tailSigSize ≤ image.length ∧
        Verified ed pubKeyPem (image.take tailOff) (fieldBytes image tailOff tailSigSize) := by
  have hsize : tailSigSize = 64 := rfl
  rw [verifyTail]
  constructor
  · intro h
    split at h
    · cases h
    split at h
    · cases h
    rename_i hend hmagic
    obtain ⟨body, hbody, h⟩ := bind_eq_ok.mp h
    obtain ⟨sigBytes, hsigBytes, h⟩ := bind_eq_ok.mp h
    obtain ⟨pubkey, hpubkey, h⟩ := bind_eq_ok.mp h
    obtain ⟨sig, hsig, hverify⟩ := bind_eq_ok.mp h
    obtain ⟨-, -, rfl⟩ := slice_ok_iff.mp hbody
    obtain ⟨horder, hinside, rfl⟩ := slice_ok_iff.mp hsigBytes
    have hnowrap : tailOff + tailSigSize < 2 ^ 64 := by omega
    rw [Nat.mod_eq_of_lt hnowrap] at hsig hinside
    rw [Nat.add_sub_cancel_left] at hsig
    exact ⟨not_not.mp hmagic, hnowrap, hinside, pubkey, sig, hpubkey, mapError_eq_ok.mp hsig,
      mapError_eq_ok.mp hverify⟩
  · rintro ⟨hmagic, hnowrap, hinside, pubkey, sig, hpubkey, hsig, hverify⟩
    rw [Nat.mod_eq_of_lt hnowrap, if_neg (by omega), if_neg (not_not.mpr hmagic)]
    have hbody : slice image 0 tailOff = .ok (image.take tailOff) := slice_take (by omega)
    exact bind_eq_ok.mpr ⟨_, hbody, bind_eq_ok.mpr ⟨_, slice_fieldBytes hinside,
      bind_eq_ok.mpr ⟨pubkey, hpubkey,
      bind_eq_ok.mpr ⟨sig, mapError_eq_ok.mpr hsig, mapError_eq_ok.mpr hverify⟩⟩⟩⟩

/-- `verify_image` accepts exactly the images with the right magic whose header points at a
signature inside the image that verifies over the bytes before it. -/
theorem verifyImage_iff :
    verifyImage ed image pubKeyPem = .ok () ↔
      headerSize + tailSigSize ≤ image.length ∧ image.take 5 = imageMagic ∧
        tailOffset image + tailSigSize < 2 ^ 64 ∧ tailOffset image + tailSigSize ≤ image.length ∧
        Verified ed pubKeyPem (signedMessage image) (tailSignature image) := by
  rw [verifyImage]
  split
  · rename_i hshort
    simp only [reduceCtorEq, false_iff]
    omega
  rename_i hlong
  rw [bind_eq_ok]
  constructor
  · rintro ⟨header, hheader, h⟩
    have hmagic := (verifyTail_iff.mp h).1
    obtain ⟨read, hread, htail⟩ := fromBytes_take_ok (by omega) hmagic
    rw [hheader, Except.ok.injEq] at hread
    rw [hread, htail] at h
    exact ⟨by omega, verifyTail_iff.mp h⟩
  · rintro ⟨hlength, h⟩
    obtain ⟨header, hheader, htail⟩ := fromBytes_take_ok (by omega) h.1
    refine ⟨header, hheader, ?_⟩
    rw [htail]
    exact verifyTail_iff.mpr h

/-! ## Assembled images verify -/

theorem signImage_ok {publicKey : ed.SecretKey → ed.PublicKey} (hed : ed.Lawful publicKey)
    {key : ed.SecretKey} (hkey : parseEd25519PrivPem ed privKeyPem = .ok key)
    (body : List UInt8) :
    signImage ed body privKeyPem = .ok (ed.signatureBytes (ed.sign key body)) := by
  rw [signImage, bind_eq_ok]
  exact ⟨key, hkey, if_pos (hed.signature_length _)⟩

theorem verifyImage_append {header : Header} {body sigBytes : List UInt8}
    (hheader : header.toBytes <+: body) (htail : header.tailSigOffset.toNat = body.length)
    (hfits : body.length ≤ isizeMax) (hlength : sigBytes.length = tailSigSize)
    (hverified : Verified ed pubKeyPem body sigBytes) :
    verifyImage ed (body ++ sigBytes) pubKeyPem = .ok () := by
  obtain ⟨rest, rfl⟩ := hheader
  have hread := fromBytes_toBytes header (rest ++ sigBytes)
  rw [← List.append_assoc] at hread
  obtain ⟨hmagic, hfield⟩ := fromBytes_ok hread
  have hheaderLength := length_toBytes header
  generalize hbody : header.toBytes ++ rest = body at *
  have hbodyLength : headerSize ≤ body.length := by
    rw [← hbody, List.length_append]
    omega
  have hoffset : tailOffset (body ++ sigBytes) = body.length := by
    rw [tailOffset, ← hfield, htail]
  have hmessage : signedMessage (body ++ sigBytes) = body := by
    rw [signedMessage, hoffset, List.take_left]
  have hsignature : tailSignature (body ++ sigBytes) = sigBytes := by
    rw [tailSignature, hoffset, fieldBytes, List.drop_left, ← hlength, List.take_length]
  rw [verifyImage_iff, hmessage, hsignature, hoffset, List.length_append, hlength]
  refine ⟨by omega, hmagic, ?_, le_rfl, hverified⟩
  rw [isizeMax] at hfits
  rw [tailSigSize]
  omega

theorem verifyImage_signed {publicKey : ed.SecretKey → ed.PublicKey} (hed : ed.Lawful publicKey)
    {key : ed.SecretKey} (hpub : parseEd25519PubPem ed pubKeyPem = .ok (publicKey key))
    {inputs : ImageInputs} (himage : assemble inputs = .ok image) :
    verifyImage ed (image ++ ed.signatureBytes (ed.sign key image)) pubKeyPem = .ok () := by
  obtain ⟨out, header, -, hheader, -, hconsistent⟩ := assemble_consistent himage
  exact verifyImage_append hheader hconsistent.tail_at_end hconsistent.fits
    (hed.signature_length _)
    ⟨publicKey key, _, hpub, hed.signature_reads_back _, hed.verify_sign _ _⟩

/-- Sixty-four copies of a checksum over the key and the message. -/
def checksumTag (key message : List UInt8) : List UInt8 :=
  List.replicate tailSigSize (message.foldl (· + ·) (key.foldl (· + ·) 0))

/-- The public key is the secret one. -/
def checksumScheme : Ed25519 where
  SecretKey := List UInt8
  PublicKey := List UInt8
  Signature := List.Vector UInt8 tailSigSize
  keyFromSeed seed :=
    if seed.length ≠ 32 then .error (.error "InvalidSeed")
    else if seed.all (· == 0) then .error .panic
    else .ok seed
  publicKeyFromSlice key := if key.length = 32 then .ok key else .error "InvalidPublicKey"
  sign key message := ⟨checksumTag key message, List.length_replicate⟩
  signatureBytes sig := sig.toList
  signatureFromSlice bytes := if h : bytes.length = tailSigSize then .ok ⟨bytes, h⟩
    else .error "InvalidSignature"
  verify key message sig := if sig.toList = checksumTag key message then .ok ()
    else .error "SignatureMismatch"

theorem checksumScheme_lawful : checksumScheme.Lawful id where
  signature_length sig := sig.2
  signature_reads_back sig := dif_pos sig.2
  verify_sign _ _ := if_pos rfl

/-- A key file whose body is the letter `B` forty-three times. -/
def keyPem (label : String) : String :=
  String.ofList (s!"-----BEGIN {label}-----\n".toList ++ List.replicate 43 'B' ++
    s!"=\n-----END {label}-----\n".toList)

/-- The thirty-two bytes in it. -/
def pemKey : List UInt8 := ((List.replicate 11 [0x04, 0x10, 0x41]).flatten).take 32

theorem keyPem_toList (label : String) : (keyPem label).toList = beginMarker label ++
    ('\n' :: List.replicate 43 'B' ++ ['=', '\n'] ++ (endMarker label ++ ['\n'])) := by
  rw [keyPem, String.toList_ofList, beginMarker_eq, endMarker_eq]
  simp only [toString, String.toList_append, List.append_assoc]
  rfl

theorem keyPem_decodes {label : String} (h : label ∈ ["PRIVATE KEY", "PUBLIC KEY"]) :
    decodePemBlock (keyPem label) label = .ok pemKey := by
  have hbegin : FirstAt (beginMarker label) (keyPem label).toList 0 := by
    rw [keyPem_toList]
    exact firstAt_zero_iff.mpr (List.prefix_append _ _)
  have hend : FirstAt (endMarker label) (keyPem label).toList
      ((beginMarker label).length + 46) := by
    apply find_eq_some_iff.mp
    simp only [List.mem_cons, List.not_mem_nil, or_false] at h
    rcases h with rfl | rfl
    all_goals
      rw [keyPem_toList, beginMarker_eq, endMarker_eq]
      repeat rw [String.toList_ofList]
      rfl
  have hbody : ((keyPem label).toList.drop (beginMarker label).length).take 46 =
      '\n' :: List.replicate 43 'B' ++ ['=', '\n'] := by
    rw [keyPem_toList, List.drop_left]
    exact List.take_left' rfl
  rw [decodePemBlock, decodePem_of_first hbegin hend, if_pos (by omega), Nat.zero_add,
    Nat.add_sub_cancel_left, hbody]
  rfl

theorem keyPem_keyBytes {label : String} (h : label ∈ ["PRIVATE KEY", "PUBLIC KEY"]) :
    keyBytes (keyPem label) label = .ok pemKey :=
  bind_eq_ok.mpr ⟨_, keyPem_decodes h, rfl⟩

theorem keyPem_privKey :
    parseEd25519PrivPem checksumScheme (keyPem "PRIVATE KEY") = .ok pemKey :=
  bind_eq_ok.mpr ⟨_, keyPem_keyBytes (by decide), rfl⟩

theorem keyPem_pubKey : parseEd25519PubPem checksumScheme (keyPem "PUBLIC KEY") = .ok pemKey :=
  bind_eq_ok.mpr ⟨_, keyPem_keyBytes (by decide), rfl⟩

/-- Assembly succeeds on everything that fits in memory; the image gives back its header, the
header is right about every part, and the appended signature verifies. -/
theorem assembled_image_verifies (inputs : ImageInputs) :
    (imageRoom inputs ≤ isizeMax → ∃ image, assemble inputs = .ok image) ∧
    ∀ image, assemble inputs = .ok image →
      (∃ out header, layout inputs = .ok (out, header) ∧ header.toBytes <+: image ∧
        Header.fromBytes image = .ok header ∧ SelfConsistent inputs image header) ∧
      ∀ (ed : Ed25519) (publicKey : ed.SecretKey → ed.PublicKey), ed.Lawful publicKey →
        ∀ (key : ed.SecretKey) (privKeyPem pubKeyPem : String),
          parseEd25519PrivPem ed privKeyPem = .ok key →
          parseEd25519PubPem ed pubKeyPem = .ok (publicKey key) →
          ∃ sig, signImage ed image privKeyPem = .ok sig ∧
            verifyImage ed (image ++ sig) pubKeyPem = .ok () := by
  refine ⟨assemble_total, ?_⟩
  intro image himage
  refine ⟨assemble_consistent himage, ?_⟩
  intro ed publicKey hed key privKeyPem pubKeyPem hpriv hpub
  exact ⟨_, signImage_ok hed hpriv image, verifyImage_signed hed hpub himage⟩

/-- One small task behind a kernel of two instructions. -/
def smallInputs : ImageInputs where
  manifestHash := ⟨List.replicate 32 0xCC, List.length_replicate⟩
  kernel := [0x13, 0, 0, 0, 0x13, 0, 0, 0]
  tasks := [⟨[0x82, 0x80], [], [1, 2, 3], List.replicate 424 0xDD, List.replicate 64 0xEE⟩]

theorem smallInputs_image_verifies :
    ∃ image sig, assemble smallInputs = .ok image ∧
      signImage checksumScheme image (keyPem "PRIVATE KEY") = .ok sig ∧
      verifyImage checksumScheme (image ++ sig) (keyPem "PUBLIC KEY") = .ok () := by
  obtain ⟨htotal, hverifies⟩ := assembled_image_verifies smallInputs
  obtain ⟨image, himage⟩ := htotal (by decide +kernel)
  obtain ⟨sig, hsig, hverify⟩ := (hverifies image himage).2 checksumScheme id
    checksumScheme_lawful pemKey (keyPem "PRIVATE KEY") (keyPem "PUBLIC KEY")
    keyPem_privKey keyPem_pubKey
  exact ⟨image, sig, himage, hsig, hverify⟩

/-! ## What the signature covers -/

/-- Every byte of the image is signed or belongs to the signature, the header among the signed
ones, and no other accepted image has this message and this signature. -/
structure Covered (ed : Ed25519) (pubKeyPem : String) (image : List UInt8) : Prop where
  header_signed : headerSize ≤ tailOffset image
  length_eq : image.length = tailOffset image + tailSigSize
  tamper_evident : ∀ other, verifyImage ed other pubKeyPem = .ok () → other ≠ image →
    signedMessage other ≠ signedMessage image ∨ tailSignature other ≠ tailSignature image

/-- The bytes from the start of the image to the end of its signature. -/
def checkedPart (image : List UInt8) : List UInt8 := image.take (tailOffset image + tailSigSize)

theorem checkedPart_eq (image : List UInt8) :
    checkedPart image = signedMessage image ++ tailSignature image := by
  rw [checkedPart, signedMessage, tailSignature, fieldBytes, List.take_add]

theorem tailOffset_take (image : List UInt8) {n : ℕ} (hn : headerSize ≤ n) :
    tailOffset (image.take n) = tailOffset image := by
  rw [tailOffset, tailOffset, ← readU64_take (image.take n) (by decide), List.take_take,
    Nat.min_eq_left hn, readU64_take image (by decide)]

theorem verifyImage_extra (haccepted : verifyImage ed image pubKeyPem = .ok ())
    (extra : List UInt8) :
    verifyImage ed (image ++ extra) pubKeyPem = .ok () ∧
      signedMessage (image ++ extra) = signedMessage image ∧
      tailSignature (image ++ extra) = tailSignature image := by
  obtain ⟨hlength, hmagic, hnowrap, hinside, hverified⟩ := verifyImage_iff.mp haccepted
  have hheader : headerSize = 64 := rfl
  have hsig : tailSigSize = 64 := rfl
  have hoffset : tailOffset (image ++ extra) = tailOffset image := by
    rw [tailOffset, tailOffset, ← readU64_take (image ++ extra) (by decide),
      ← readU64_take image (by decide), List.take_append_of_le_length (by omega)]
  have hmessage : signedMessage (image ++ extra) = signedMessage image := by
    rw [signedMessage, signedMessage, hoffset, List.take_append_of_le_length (by omega)]
  have hsignature : tailSignature (image ++ extra) = tailSignature image := by
    rw [tailSignature, tailSignature, hoffset, fieldBytes, fieldBytes,
      List.drop_append_of_le_length (by omega), List.take_append_of_le_length]
    rw [List.length_drop]
    omega
  refine ⟨verifyImage_iff.mpr ?_, hmessage, hsignature⟩
  rw [hmessage, hsignature, hoffset, List.length_append,
    List.take_append_of_le_length (by omega)]
  exact ⟨by omega, hmagic, hnowrap, by omega, hverified⟩

/-- Accepted images with the same message and signature are those that agree up to the end of the
signature. -/
theorem checkedPart_eq_iff {other : List UInt8} (himage : verifyImage ed image pubKeyPem = .ok ())
    (hother : verifyImage ed other pubKeyPem = .ok ()) :
    checkedPart other = checkedPart image ↔
      signedMessage other = signedMessage image ∧ tailSignature other = tailSignature image := by
  obtain ⟨-, -, -, hinside, -⟩ := verifyImage_iff.mp himage
  obtain ⟨-, -, -, hotherInside, -⟩ := verifyImage_iff.mp hother
  have hheader : headerSize = 64 := rfl
  have hsig : tailSigSize = 64 := rfl
  constructor
  · intro hsame
    have hoffset : tailOffset other = tailOffset image := by
      rw [← tailOffset_take other (n := tailOffset other + tailSigSize) (by omega),
        ← tailOffset_take image (n := tailOffset image + tailSigSize) (by omega)]
      exact congrArg tailOffset hsame
    rw [checkedPart_eq, checkedPart_eq] at hsame
    refine List.append_inj hsame ?_
    rw [signedMessage, signedMessage, List.length_take, List.length_take]
    omega
  · rintro ⟨hmessage, hsignature⟩
    rw [checkedPart_eq, checkedPart_eq, hmessage, hsignature]

/-- No accepted image is covered by its signature: what stands behind the signature is free, and
exactly that. -/
theorem signature_never_covers (ed : Ed25519) (pubKeyPem : String) (image : List UInt8)
    (haccepted : verifyImage ed image pubKeyPem = .ok ()) :
    ¬Covered ed pubKeyPem image ∧
      ∀ other, verifyImage ed other pubKeyPem = .ok () →
        (signedMessage other = signedMessage image ∧ tailSignature other = tailSignature image ↔
          checkedPart other = checkedPart image) := by
  refine ⟨?_, fun other hother => (checkedPart_eq_iff haccepted hother).symm⟩
  intro hcovered
  obtain ⟨hextra, hmessage, hsignature⟩ := verifyImage_extra haccepted [0]
  rcases hcovered.tamper_evident _ hextra (by simp) with hne | hne
  · exact hne hmessage
  · exact hne hsignature

/-- The header of an image without kernel and tasks. -/
def bareHeader : Header where
  abiVersion := imageAbiVersion
  manifestHash8 := ⟨List.replicate 8 0, List.length_replicate⟩
  kernelOffset := 64
  kernelSize := 0
  bodyOffset := 64
  bodySize := 0
  tailSigOffset := 64

def sealedImage : List UInt8 :=
  bareHeader.toBytes ++
    checksumScheme.signatureBytes (checksumScheme.sign pemKey bareHeader.toBytes)

theorem sealedImage_accepted :
    verifyImage checksumScheme sealedImage (keyPem "PUBLIC KEY") = .ok () := by
  apply verifyImage_append List.prefix_rfl rfl (by decide)
    (checksumScheme_lawful.signature_length _)
  exact ⟨pemKey, checksumScheme.sign pemKey bareHeader.toBytes,
    keyPem_pubKey, checksumScheme_lawful.signature_reads_back _,
    checksumScheme_lawful.verify_sign _ _⟩

theorem sealedImage_not_covered :
    verifyImage checksumScheme sealedImage (keyPem "PUBLIC KEY") = .ok () ∧
      ¬Covered checksumScheme (keyPem "PUBLIC KEY") sealedImage :=
  ⟨sealedImage_accepted, (signature_never_covers _ _ _ sealedImage_accepted).1⟩

/-- A zero byte behind the signature: the length is wrong, and message and signature are those of
the image without it. -/
theorem unsigned_byte_accepted :
    verifyImage checksumScheme (sealedImage ++ [0]) (keyPem "PUBLIC KEY") = .ok () ∧
      (sealedImage ++ [0]).length ≠ tailOffset (sealedImage ++ [0]) + tailSigSize ∧
      signedMessage (sealedImage ++ [0]) = signedMessage sealedImage ∧
      tailSignature (sealedImage ++ [0]) = tailSignature sealedImage ∧
      ¬Covered checksumScheme (keyPem "PUBLIC KEY") (sealedImage ++ [0]) := by
  obtain ⟨haccepted, hmessage, hsignature⟩ := verifyImage_extra sealedImage_accepted [0]
  have hlength : (sealedImage ++ [0]).length ≠ tailOffset (sealedImage ++ [0]) + tailSigSize := by
    decide +kernel
  exact ⟨haccepted, hlength, hmessage, hsignature, fun hcovered => hlength hcovered.length_eq⟩

end SntmImageSign
