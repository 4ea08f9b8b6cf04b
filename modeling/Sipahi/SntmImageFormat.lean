import Sipahi.AlignedLayout
import Sipahi.GuardedExecution
import Sipahi.LittleEndian
import Sipahi.SntmPem
import Mathlib.Data.Vector.Basic

/-!
# The image format

`assemble` lays the kernel and the sections of the tasks out behind a header of 64 bytes, pads
with zeros in between, and patches the header once all offsets are known.
-/
namespace SntmImageFormat

open AlignedLayout GuardedExecution LittleEndian SntmPem

def imageMagic : List UInt8 := [0x53, 0x49, 0x50, 0x49, 0x31]
def imageAbiVersion : UInt32 := 1
def headerSize : ℕ := 64
def tailSigSize : ℕ := 64
def align : ℕ := 64

structure Header where
  abiVersion : UInt32
  manifestHash8 : List.Vector UInt8 8
  kernelOffset : UInt64
  kernelSize : UInt64
  bodyOffset : UInt64
  bodySize : UInt64
  tailSigOffset : UInt64
  deriving DecidableEq

def u64Bytes (n : UInt64) : List UInt8 := toLeBytes 8 n.toNat

/-- Bytes 5 to 7 and 12 to 15 are reserved. -/
def Header.toBytes (h : Header) : List UInt8 :=
  imageMagic ++ [0, 0, 0] ++ toLeBytes 4 h.abiVersion.toNat ++ [0, 0, 0, 0] ++
    h.manifestHash8.toList ++ u64Bytes h.kernelOffset ++ u64Bytes h.kernelSize ++
    u64Bytes h.bodyOffset ++ u64Bytes h.bodySize ++ u64Bytes h.tailSigOffset

/-- The bytes from `start` on, as many as the field has. -/
def fieldBytes (bytes : List UInt8) (start width : ℕ) : List UInt8 := (bytes.drop start).take width

theorem length_fieldBytes {bytes : List UInt8} {start width : ℕ}
    (h : start + width ≤ bytes.length) : (fieldBytes bytes start width).length = width := by
  simp only [fieldBytes, List.length_take, List.length_drop]
  omega

def readU64 (bytes : List UInt8) (start : ℕ) : UInt64 :=
  UInt64.ofNat (ofLeBytes (fieldBytes bytes start 8))

/-- `{:?}` of a byte slice. -/
def debugBytes (bytes : List UInt8) : String :=
  "[" ++ ", ".intercalate (bytes.map fun b => toString b.toNat) ++ "]"

theorem length_manifestHash8 {bytes : List UInt8} (h : ¬bytes.length < headerSize) :
    (fieldBytes bytes 16 8).length = 8 := by
  apply length_fieldBytes
  rw [headerSize] at h
  omega

def Header.fromBytes (bytes : List UInt8) : Except Fault Header :=
  if h : bytes.length < headerSize then
    .error (.error s!"header truncated: {bytes.length} bytes")
  else if bytes.take 5 ≠ imageMagic then
    .error (.error (s!"magic mismatch: expected {debugBytes imageMagic}, " ++
      s!"got {debugBytes (bytes.take 5)}"))
  else .ok
    { abiVersion := UInt32.ofNat (ofLeBytes (fieldBytes bytes 8 4))
      manifestHash8 := ⟨fieldBytes bytes 16 8, length_manifestHash8 h⟩
      kernelOffset := readU64 bytes 24
      kernelSize := readU64 bytes 32
      bodyOffset := readU64 bytes 40
      bodySize := readU64 bytes 48
      tailSigOffset := readU64 bytes 56 }

structure TaskPayload where
  textBin : List UInt8
  rodataBin : List UInt8
  dataBin : List UInt8
  certBin : List UInt8
  certSig : List UInt8

structure ImageInputs where
  manifestHash : List.Vector UInt8 32
  kernel : List UInt8
  tasks : List TaskPayload

/-! ## Assembly -/

/-- `isize::MAX`, the longest vector there is. -/
def isizeMax : ℕ := 2 ^ 63 - 1

def extendFromSlice (out bytes : List UInt8) : Except Fault (List UInt8) :=
  if out.length + bytes.length ≤ isizeMax then .ok (out ++ bytes) else .error .panic

/-- The loop of `align_to`, which pushes at most `alignment - 1` bytes. -/
def alignRounds (alignment : ℕ) : ℕ → List UInt8 → Except Fault (List UInt8)
  | 0, out => .ok out
  | rounds + 1, out =>
    if out.length % alignment ≠ 0 then do
      let out ← extendFromSlice out [0]
      alignRounds alignment rounds out
    else .ok out

def alignTo (out : List UInt8) (alignment : ℕ) : Except Fault (List UInt8) :=
  alignRounds alignment alignment out

def appendTask (out : List UInt8) (task : TaskPayload) : Except Fault (List UInt8) := do
  let out ← alignTo out align
  let out ← extendFromSlice out task.textBin
  let out ← alignTo out align
  let out ← extendFromSlice out task.rodataBin
  let out ← alignTo out align
  let out ← extendFromSlice out task.dataBin
  let out ← alignTo out align
  let out ← extendFromSlice out task.certBin
  extendFromSlice out task.certSig

theorem length_hashStart (hash : List.Vector UInt8 32) : (hash.toList.take 8).length = 8 := by
  simp

def manifestHash8 (inputs : ImageInputs) : List.Vector UInt8 8 :=
  ⟨inputs.manifestHash.toList.take 8, length_hashStart inputs.manifestHash⟩

/-- Everything `assemble` does before it patches the header: the bytes, with zeros for the
header, and the header to write over them. -/
def layout (inputs : ImageInputs) : Except Fault (List UInt8 × Header) := do
  if isizeMax < 64 + inputs.kernel.length + 4096 then .error .panic
  let out := List.replicate headerSize 0
  let kernelStart ← alignTo out align
  let out ← extendFromSlice kernelStart inputs.kernel
  let bodyStart ← alignTo out align
  let bodyEnd ← inputs.tasks.foldlM appendTask bodyStart
  let out ← alignTo bodyEnd align
  .ok (out,
    { abiVersion := imageAbiVersion
      manifestHash8 := manifestHash8 inputs
      kernelOffset := UInt64.ofNat kernelStart.length
      kernelSize := UInt64.ofNat inputs.kernel.length
      bodyOffset := UInt64.ofNat bodyStart.length
      bodySize := UInt64.ofNat (bodyEnd.length - bodyStart.length)
      tailSigOffset := UInt64.ofNat out.length })

def assemble (inputs : ImageInputs) : Except Fault (List UInt8) := do
  let (out, header) ← layout inputs
  .ok (header.toBytes ++ out.drop headerSize)

/-! ## The header -/

section Header

variable (h : Header) (rest : List UInt8)

theorem fieldBytes_skip {front back : List UInt8} {start width : ℕ}
    (h : front.length ≤ start) :
    fieldBytes (front ++ back) start width = fieldBytes back (start - front.length) width := by
  rw [fieldBytes, fieldBytes, List.drop_append, List.drop_of_length_le h, List.nil_append]

theorem fieldBytes_here {field back : List UInt8} {width : ℕ} (h : field.length = width) :
    fieldBytes (field ++ back) 0 width = field := by
  rw [fieldBytes, List.drop_zero, ← h, List.take_left]

@[simp] theorem length_u64Bytes (n : UInt64) : (u64Bytes n).length = 8 := length_toLeBytes 8 n.toNat

theorem u64_u64Bytes (n : UInt64) : UInt64.ofNat (ofLeBytes (u64Bytes n)) = n := by
  have hn : n.toNat < 256 ^ 8 := n.toNat_lt
  rw [u64Bytes, ofLeBytes_toLeBytes, Nat.mod_eq_of_lt hn, UInt64.ofNat_toNat]

theorem u32_toLeBytes (n : UInt32) : UInt32.ofNat (ofLeBytes (toLeBytes 4 n.toNat)) = n := by
  have hn : n.toNat < 256 ^ 4 := n.toNat_lt
  rw [ofLeBytes_toLeBytes, Nat.mod_eq_of_lt hn, UInt32.ofNat_toNat]

theorem length_toBytes : h.toBytes.length = headerSize := by
  simp [Header.toBytes, imageMagic, headerSize]

/-- What is read of a header: its magic is right and its last field gives the tail. -/
theorem fromBytes_ok {h : Header} {bytes : List UInt8} (hread : Header.fromBytes bytes = .ok h) :
    bytes.take 5 = imageMagic ∧ h.tailSigOffset = readU64 bytes 56 := by
  rw [Header.fromBytes] at hread
  split at hread
  · cases hread
  split at hread
  · cases hread
  · rename_i hmagic
    cases hread
    exact ⟨not_not.mp hmagic, rfl⟩

/-- A header parses back out of any byte string it begins. -/
theorem fromBytes_toBytes : Header.fromBytes (h.toBytes ++ rest) = .ok h := by
  have hlength : ¬(h.toBytes ++ rest).length < headerSize := by
    rw [List.length_append, length_toBytes]
    omega
  have hmagic : (h.toBytes ++ rest).take 5 = imageMagic := rfl
  rw [Header.fromBytes, dif_neg hlength, if_neg (not_not.mpr hmagic), Except.ok.injEq]
  obtain ⟨abiVersion, manifestHash8, kernelOffset, kernelSize, bodyOffset, bodySize, tail⟩ := h
  have hmagicLength : imageMagic.length = 5 := rfl
  simp (disch := simp [imageMagic]) only [readU64, Header.toBytes, List.append_assoc,
    fieldBytes_skip, fieldBytes_here, hmagicLength, length_u64Bytes, length_toLeBytes,
    List.length_cons, List.length_nil, List.Vector.toList_length, u64_u64Bytes, u32_toLeBytes,
    Nat.reduceSub, Nat.reduceAdd]
  rfl

end Header

/-! ## The sections -/

variable {out out' mid bytes : List UInt8} {secs secs' : List (List UInt8)}

/-- What `assemble` writes for a task, each piece at an aligned offset; the signature stands
directly behind its certificate. -/
def sections (task : TaskPayload) : List (List UInt8) :=
  [task.textBin, task.rodataBin, task.dataBin, task.certBin ++ task.certSig]

/-- `out'` continues `out` with the sections. -/
structure Continues (out : List UInt8) (secs : List (List UInt8)) (out' : List UInt8) : Prop where
  extends_front : out <+: out'
  placed : Placed align out' out.length secs out'.length
  fits : out'.length ≤ isizeMax

theorem Continues.trans (h : Continues out secs mid) (h' : Continues mid secs' out') :
    Continues out (secs ++ secs') out' where
  extends_front := h.extends_front.trans h'.extends_front
  placed := (h.placed.mono h'.extends_front).append h'.placed
  fits := h'.fits

theorem extendFromSlice_ok (h : extendFromSlice out bytes = .ok out') :
    out' = out ++ bytes ∧ out'.length ≤ isizeMax := by
  rw [extendFromSlice] at h
  split at h
  · rename_i hfits
    cases h
    exact ⟨rfl, by rwa [List.length_append]⟩
  · cases h

/-- The rounds are enough: what is missing to the next multiple is at most their number. -/
theorem alignRounds_ok {rounds : ℕ} (h : alignRounds align rounds out = .ok out')
    (hfits : out.length ≤ isizeMax)
    (hrounds : out.length % align = 0 ∨ align ≤ rounds + out.length % align) :
    out <+: out' ∧ align ∣ out'.length ∧ out'.length ≤ isizeMax := by
  induction rounds generalizing out with
  | zero =>
    obtain rfl : out = out' := Except.ok.inj h
    have hmod : out.length % align < align := Nat.mod_lt _ (by decide)
    exact ⟨List.prefix_rfl, Nat.dvd_of_mod_eq_zero (by omega), hfits⟩
  | succ rounds ih =>
    rw [alignRounds] at h
    split at h
    · rename_i hmisaligned
      obtain ⟨next, hnext, hrest⟩ := bind_eq_ok.mp h
      obtain ⟨rfl, hlength⟩ := extendFromSlice_ok hnext
      have hmissing : (out ++ [0]).length % align = 0 ∨
          align ≤ rounds + (out ++ [0]).length % align := by
        simp only [align, List.length_append, List.length_singleton] at hrounds hmisaligned ⊢
        omega
      obtain ⟨hfront, haligned⟩ := ih hrest hlength hmissing
      exact ⟨(List.prefix_append out [0]).trans hfront, haligned⟩
    · rename_i haligned
      cases h
      exact ⟨List.prefix_rfl, Nat.dvd_of_mod_eq_zero (not_not.mp haligned), hfits⟩

theorem alignTo_ok (h : alignTo out align = .ok out') (hfits : out.length ≤ isizeMax) :
    out <+: out' ∧ align ∣ out'.length ∧ out'.length ≤ isizeMax :=
  alignRounds_ok h hfits (Or.inr (Nat.le_add_right _ _))

theorem section_continues (hmid : alignTo out align = .ok mid) (hfits : out.length ≤ isizeMax)
    (hlength : (mid ++ bytes).length ≤ isizeMax) : Continues out [bytes] (mid ++ bytes) := by
  obtain ⟨hfront, haligned, -⟩ := alignTo_ok hmid hfits
  refine ⟨hfront.trans (List.prefix_append mid bytes), ?_, hlength⟩
  have hnil : Placed align (mid ++ bytes) (mid.length + bytes.length) [] (mid ++ bytes).length := by
    rw [List.length_append]
    exact .nil _
  exact .cons hfront.length_le haligned (occursAt_append mid bytes) hnil

theorem appendTask_continues {task : TaskPayload} (h : appendTask out task = .ok out')
    (hfits : out.length ≤ isizeMax) : Continues out (sections task) out' := by
  obtain ⟨textStart, htext, h⟩ := bind_eq_ok.mp h
  obtain ⟨textEnd, htextEnd, h⟩ := bind_eq_ok.mp h
  obtain ⟨rodataStart, hrodata, h⟩ := bind_eq_ok.mp h
  obtain ⟨rodataEnd, hrodataEnd, h⟩ := bind_eq_ok.mp h
  obtain ⟨dataStart, hdata, h⟩ := bind_eq_ok.mp h
  obtain ⟨dataEnd, hdataEnd, h⟩ := bind_eq_ok.mp h
  obtain ⟨certStart, hcert, h⟩ := bind_eq_ok.mp h
  obtain ⟨certEnd, hcertEnd, h⟩ := bind_eq_ok.mp h
  obtain ⟨rfl, hlength⟩ := extendFromSlice_ok htextEnd
  have htexts := section_continues htext hfits hlength
  obtain ⟨rfl, hlength⟩ := extendFromSlice_ok hrodataEnd
  have hrodatas := section_continues hrodata htexts.fits hlength
  obtain ⟨rfl, hlength⟩ := extendFromSlice_ok hdataEnd
  have hdatas := section_continues hdata hrodatas.fits hlength
  obtain ⟨rfl, -⟩ := extendFromSlice_ok hcertEnd
  obtain ⟨rfl, hlength⟩ := extendFromSlice_ok h
  rw [List.append_assoc] at hlength ⊢
  have hcerts := section_continues hcert hdatas.fits hlength
  exact ((htexts.trans hrodatas).trans hdatas).trans hcerts

theorem tasks_continue {tasks : List TaskPayload} (h : tasks.foldlM appendTask out = .ok out')
    (hfits : out.length ≤ isizeMax) : Continues out (tasks.flatMap sections) out' := by
  induction tasks generalizing out with
  | nil =>
    cases h
    exact ⟨List.prefix_rfl, .nil _, hfits⟩
  | cons task tasks ih =>
    rw [List.foldlM_cons] at h
    obtain ⟨next, hnext, hrest⟩ := bind_eq_ok.mp h
    have htask := appendTask_continues hnext hfits
    rw [List.flatMap_cons]
    exact htask.trans (ih hrest htask.fits)

/-! ## The whole image -/

/-- The header of an image tells where its parts are. -/
structure SelfConsistent (inputs : ImageInputs) (image : List UInt8) (header : Header) :
    Prop where
  kernel_aligned : align ∣ header.kernelOffset.toNat
  body_aligned : align ∣ header.bodyOffset.toNat
  tail_aligned : align ∣ header.tailSigOffset.toNat
  kernel_behind_header : headerSize ≤ header.kernelOffset.toNat
  body_behind_kernel :
    header.kernelOffset.toNat + header.kernelSize.toNat ≤ header.bodyOffset.toNat
  tail_behind_body :
    header.bodyOffset.toNat + header.bodySize.toNat ≤ header.tailSigOffset.toNat
  tail_at_end : header.tailSigOffset.toNat = image.length
  fits : image.length ≤ isizeMax
  kernel_verbatim :
    (image.drop header.kernelOffset.toNat).take header.kernelSize.toNat = inputs.kernel
  sections_verbatim : Placed align image header.bodyOffset.toNat
    (inputs.tasks.flatMap sections) (header.bodyOffset.toNat + header.bodySize.toNat)

variable {inputs : ImageInputs} {header : Header} {image : List UInt8}

theorem toNat_ofNat_of_fits {n : ℕ} (h : n ≤ isizeMax) : (UInt64.ofNat n).toNat = n := by
  rw [UInt64.toNat_ofNat']
  apply Nat.mod_eq_of_lt
  rw [isizeMax] at h
  omega

/-- The four lengths that the header is built from. -/
theorem layout_ok (h : layout inputs = .ok (out, header)) :
    ∃ kernelStart bodyStart bodyEnd : List UInt8,
      alignTo (List.replicate headerSize 0) align = .ok kernelStart ∧
      (kernelStart ++ inputs.kernel).length ≤ isizeMax ∧
      alignTo (kernelStart ++ inputs.kernel) align = .ok bodyStart ∧
      inputs.tasks.foldlM appendTask bodyStart = .ok bodyEnd ∧
      alignTo bodyEnd align = .ok out ∧
      header.kernelOffset = UInt64.ofNat kernelStart.length ∧
      header.kernelSize = UInt64.ofNat inputs.kernel.length ∧
      header.bodyOffset = UInt64.ofNat bodyStart.length ∧
      header.bodySize = UInt64.ofNat (bodyEnd.length - bodyStart.length) ∧
      header.tailSigOffset = UInt64.ofNat out.length := by
  rw [layout] at h
  split at h
  · cases h
  obtain ⟨kernelStart, hkernelStart, h⟩ := bind_eq_ok.mp h
  obtain ⟨kernelEnd, hkernelEnd, h⟩ := bind_eq_ok.mp h
  obtain ⟨bodyStart, hbodyStart, h⟩ := bind_eq_ok.mp h
  obtain ⟨bodyEnd, hbodyEnd, h⟩ := bind_eq_ok.mp h
  obtain ⟨final, hfinal, h⟩ := bind_eq_ok.mp h
  cases h
  obtain ⟨rfl, hlength⟩ := extendFromSlice_ok hkernelEnd
  exact ⟨kernelStart, bodyStart, bodyEnd, hkernelStart, hlength, hbodyStart, hbodyEnd, hfinal,
    rfl, rfl, rfl, rfl, rfl⟩

theorem layout_consistent (h : layout inputs = .ok (out, header)) :
    SelfConsistent inputs out header := by
  obtain ⟨kernelStart, bodyStart, bodyEnd, hkernel, hkernelFits, hbody, hbodyEnd, hend,
    hkernelOffset, hkernelSize, hbodyOffset, hbodySize, htail⟩ := layout_ok h
  obtain ⟨hheader, hkernelAligned, hkernelStartFits⟩ := alignTo_ok hkernel (by decide)
  obtain ⟨hkernelBytes, hbodyAligned, hbodyFits⟩ := alignTo_ok hbody hkernelFits
  have htasks := tasks_continue hbodyEnd hbodyFits
  obtain ⟨hbodyBytes, htailAligned, htailFits⟩ := alignTo_ok hend htasks.fits
  have hheaderLength := hheader.length_le
  have hkernelLength := hkernelBytes.length_le
  have hbodyLength := htasks.placed.le
  have htailLength := hbodyBytes.length_le
  rw [List.length_replicate] at hheaderLength
  rw [List.length_append] at hkernelFits hkernelLength
  have hko : header.kernelOffset.toNat = kernelStart.length := by
    rw [hkernelOffset, toNat_ofNat_of_fits hkernelStartFits]
  have hks : header.kernelSize.toNat = inputs.kernel.length := by
    rw [hkernelSize, toNat_ofNat_of_fits (by omega)]
  have hbo : header.bodyOffset.toNat = bodyStart.length := by
    rw [hbodyOffset, toNat_ofNat_of_fits hbodyFits]
  have hbs : header.bodyOffset.toNat + header.bodySize.toNat = bodyEnd.length := by
    have hfits := htasks.fits
    rw [hbo, hbodySize, toNat_ofNat_of_fits (by omega)]
    omega
  have hts : header.tailSigOffset.toNat = out.length := by
    rw [htail, toNat_ofNat_of_fits htailFits]
  have hkernelOccurs : OccursAt out kernelStart.length inputs.kernel :=
    (occursAt_append kernelStart inputs.kernel).mono
      ((hkernelBytes.trans htasks.extends_front).trans hbodyBytes)
  constructor
  · rwa [hko]
  · rwa [hbo]
  · rwa [hts]
  · rwa [hko]
  · rwa [hko, hks, hbo]
  · rwa [hbs, hts]
  · exact hts
  · exact htailFits
  · rw [hko, hks]
    exact hkernelOccurs.slice
  · rw [hbs, hbo]
    exact htasks.placed.mono hbodyBytes

/-- Writing the header over the first 64 bytes leaves all parts in place. -/
theorem SelfConsistent.patch (h : SelfConsistent inputs out header) :
    SelfConsistent inputs (header.toBytes ++ out.drop headerSize) header := by
  have hdrop : (header.toBytes ++ out.drop headerSize).drop headerSize = out.drop headerSize := by
    rw [← length_toBytes header, List.drop_left]
  have hkernel := h.kernel_behind_header
  have hbody := h.body_behind_kernel
  have htail := h.tail_behind_body
  have hlength : (header.toBytes ++ out.drop headerSize).length = out.length := by
    rw [List.length_append, length_toBytes, List.length_drop, ← h.tail_at_end]
    omega
  refine { h with tail_at_end := ?_, fits := ?_, kernel_verbatim := ?_, sections_verbatim := ?_ }
  · rw [h.tail_at_end, hlength]
  · rw [hlength]
    exact h.fits
  · have hoffset : header.kernelOffset.toNat =
        headerSize + (header.kernelOffset.toNat - headerSize) := by omega
    rw [hoffset, ← List.drop_drop, hdrop, List.drop_drop, ← hoffset]
    exact h.kernel_verbatim
  · exact h.sections_verbatim.of_drop_eq (by omega) hdrop

/-- An assembled image gives back the header that `assemble` wrote, and the header is right. -/
theorem assemble_consistent (h : assemble inputs = .ok image) :
    ∃ out header, layout inputs = .ok (out, header) ∧ header.toBytes <+: image ∧
      Header.fromBytes image = .ok header ∧ SelfConsistent inputs image header := by
  obtain ⟨⟨out, header⟩, hlayout, himage⟩ := bind_eq_ok.mp h
  cases himage
  exact ⟨out, header, hlayout, List.prefix_append _ _, fromBytes_toBytes header _,
    (layout_consistent hlayout).patch⟩

/-! ## Assembly succeeds -/

/-- The operation appends at most `room` bytes and succeeds where they fit. -/
def Grows (f : List UInt8 → Except Fault (List UInt8)) (room : ℕ) : Prop :=
  ∀ out, out.length + room ≤ isizeMax → ∃ out', f out = .ok out' ∧ out'.length ≤ out.length + room

theorem Grows.bind {f g : List UInt8 → Except Fault (List UInt8)} {m n : ℕ} (hf : Grows f m)
    (hg : Grows g n) : Grows (fun out => f out >>= g) (m + n) := by
  intro out hroom
  obtain ⟨mid, hmid, hmidLength⟩ := hf out (by omega)
  obtain ⟨out', hout', hlength⟩ := hg mid (by omega)
  exact ⟨out', bind_eq_ok.mpr ⟨mid, hmid, hout'⟩, by omega⟩

theorem extendFromSlice_grows (bytes : List UInt8) :
    Grows (fun out => extendFromSlice out bytes) bytes.length := by
  intro out hroom
  exact ⟨out ++ bytes, if_pos hroom, le_of_eq List.length_append⟩

theorem alignRounds_grows (rounds : ℕ) : Grows (alignRounds align rounds) rounds := by
  induction rounds with
  | zero => exact fun out _ => ⟨out, rfl, le_rfl⟩
  | succ rounds ih =>
    intro out hroom
    rw [alignRounds]
    split
    · have hround := (extendFromSlice_grows [0]).bind ih
      rw [List.length_singleton, Nat.add_comm] at hround
      exact hround out hroom
    · exact ⟨out, rfl, Nat.le_add_right _ _⟩

theorem alignTo_grows : Grows (fun out => alignTo out align) align := alignRounds_grows align

/-- The bytes of a task with the longest padding. -/
def taskRoom (task : TaskPayload) : ℕ :=
  4 * align + task.textBin.length + task.rodataBin.length + task.dataBin.length +
    task.certBin.length + task.certSig.length

theorem appendTask_grows (task : TaskPayload) :
    Grows (fun out => appendTask out task) (taskRoom task) := by
  have hroom : taskRoom task = align + (task.textBin.length + (align + (task.rodataBin.length +
      (align + (task.dataBin.length + (align + (task.certBin.length +
        task.certSig.length))))))) := by
    rw [taskRoom]
    omega
  have hcert := alignTo_grows.bind
    ((extendFromSlice_grows task.certBin).bind (extendFromSlice_grows task.certSig))
  have hdata := alignTo_grows.bind ((extendFromSlice_grows task.dataBin).bind hcert)
  have hrodata := alignTo_grows.bind ((extendFromSlice_grows task.rodataBin).bind hdata)
  rw [hroom]
  exact alignTo_grows.bind ((extendFromSlice_grows task.textBin).bind hrodata)

theorem tasks_grow (tasks : List TaskPayload) :
    Grows (fun out => tasks.foldlM appendTask out) (tasks.map taskRoom).sum := by
  induction tasks with
  | nil => exact fun out _ => ⟨out, rfl, le_rfl⟩
  | cons task tasks ih =>
    simp only [List.foldlM_cons, List.map_cons, List.sum_cons]
    exact (appendTask_grows task).bind ih

/-- An upper bound on the size of the image and of the vector reserved for it. -/
def imageRoom (inputs : ImageInputs) : ℕ :=
  inputs.kernel.length + (inputs.tasks.map taskRoom).sum + 4160

theorem assemble_total (h : imageRoom inputs ≤ isizeMax) :
    ∃ image, assemble inputs = .ok image := by
  rw [imageRoom] at h
  have halign : align = 64 := rfl
  have hzeros : (List.replicate headerSize (0 : UInt8)).length = 64 := rfl
  obtain ⟨kernelStart, hkernelStart, hkernelRoom⟩ :=
    alignTo_grows (List.replicate headerSize 0) (by omega)
  obtain ⟨kernelEnd, hkernelEnd, hendRoom⟩ :=
    extendFromSlice_grows inputs.kernel kernelStart (by omega)
  obtain ⟨bodyStart, hbodyStart, hbodyRoom⟩ := alignTo_grows kernelEnd (by omega)
  obtain ⟨bodyEnd, hbodyEnd, htasksRoom⟩ := tasks_grow inputs.tasks bodyStart (by omega)
  obtain ⟨out, hout, -⟩ := alignTo_grows bodyEnd (by omega)
  have hcapacity : ¬isizeMax < 64 + inputs.kernel.length + 4096 := by omega
  have hlayout : ∃ header, layout inputs = .ok (out, header) := by
    rw [layout, if_neg hcapacity]
    exact ⟨_, bind_eq_ok.mpr ⟨kernelStart, hkernelStart, bind_eq_ok.mpr ⟨kernelEnd, hkernelEnd,
      bind_eq_ok.mpr ⟨bodyStart, hbodyStart, bind_eq_ok.mpr ⟨bodyEnd, hbodyEnd,
        bind_eq_ok.mpr ⟨out, hout, rfl⟩⟩⟩⟩⟩⟩
  obtain ⟨header, hlayout⟩ := hlayout
  exact ⟨_, bind_eq_ok.mpr ⟨(out, header), hlayout, rfl⟩⟩

end SntmImageFormat
