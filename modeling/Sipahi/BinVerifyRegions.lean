import Sipahi.BinVerifyOpcodes

/-!
# The region check of the binary verifier

`check_regions` holds the symbols of a task's ELF file against the regions of its manifest entry
and looks for jumps into the kernel. The manifest is the part of `sipahi.toml` that this tool
reads.
-/
namespace BinVerifyRegions

open KernelTypes RiscvEncoding RiscvListing BinVerifyOpcodes
open SntmManifest (RegionEntry hex saturatingAdd)

structure TaskEntry where
  name : String
  regions : List RegionEntry := []

/-- `reservedSize` is `[kernel] reserved_size`. -/
structure Manifest where
  reservedSize : ℕ := 0x600000
  tasks : List TaskEntry := []
  reservedSize_le : reservedSize ≤ usizeMax := by decide

def TaskEntry.containsAddr (task : TaskEntry) (addr : ℕ) : Bool :=
  task.regions.any fun r => decide (r.base ≤ addr) && decide (addr < saturatingAdd r.base r.size)

def Manifest.task? (manifest : Manifest) (taskName : String) : Option TaskEntry :=
  manifest.tasks.find? fun t => t.name == taskName

/-! ## The file -/

inductive SymSection where
  | index (idx : ℕ)
  | undef | absolute | common | reserved
  deriving DecidableEq, Repr

inductive SymType where
  | func | object | elfSection | file | noType | other
  deriving DecidableEq, Repr

structure ParsedSection extends ElfSection where
  shFlags : ℕ

structure ParsedSymbol where
  name : String
  stValue : ℕ
  stShndx : SymSection
  stType : SymType

structure ParsedElf where
  sections : List ParsedSection
  symbols : List ParsedSymbol := []

def ParsedElf.textWords (parsed : ParsedElf) : List TextInstr :=
  BinVerifyOpcodes.textWords (parsed.sections.map ParsedSection.toElfSection)

/-- `SHF_ALLOC` is bit 1. -/
def sectionIsAlloc (parsed : ParsedElf) (idx : ℕ) : Bool :=
  if idx = 0 then false
  else match parsed.sections[idx - 1]? with
    | some s => s.shFlags.testBit 1
    | none => false

/-! ## The check -/

def edgeSymbols : List String :=
  ["_end", "_etext", "_edata", "__bss_start", "__bss_end", "_data_start", "_data_end",
    "_rodata_start", "_rodata_end", "_sdata", "_sbss", "_estack", "__global_pointer$"]

def shouldCheckSymbol (parsed : ParsedElf) (sym : ParsedSymbol) : Bool :=
  if sym.stValue = 0 then false
  else match sym.stType with
    | .file | .elfSection => false
    | _ => match sym.stShndx with
      | .undef | .absolute | .common | .reserved => false
      | .index idx => sectionIsAlloc parsed idx && !edgeSymbols.contains sym.name

def symbolViolation (parsed : ParsedElf) (task : TaskEntry) (taskName : String)
    (sym : ParsedSymbol) : Option Violation :=
  if shouldCheckSymbol parsed sym then
    if task.containsAddr sym.stValue then none
    else some ⟨.regionBoundary,
      s!"symbol '{sym.name}' at 0x{hex sym.stValue} outside task '{taskName}' region map"⟩
  else none

def kernelBase : ℕ := 0x80000000

/-- The addition wraps in the release build. -/
def kernelEnd (manifest : Manifest) : ℕ := (kernelBase + manifest.reservedSize) % 2 ^ 64

/-- The body of the loop over the text; compressed instructions are skipped. -/
def jalViolation (manifest : Manifest) (i : TextInstr) : Option Violation :=
  if i.isRvc then none
  else match decode32 i.raw32 i.absAddr with
    | .jal target =>
      if kernelBase ≤ target ∧ target < kernelEnd manifest then
        some ⟨.kernelRangeJal,
          s!"jal at 0x{hex i.absAddr} targets kernel range 0x{hex target} (forward-edge CFI)"⟩
      else none
    | _ => none

def checkRegions (parsed : ParsedElf) (manifest : Manifest) (taskName : String) :
    List Violation :=
  match manifest.task? taskName with
  | none => [⟨.parseError, s!"task '{taskName}' not found in manifest [[task]] entries"⟩]
  | some task =>
    parsed.symbols.filterMap (symbolViolation parsed task taskName) ++
      parsed.textWords.filterMap (jalViolation manifest)

/-! ## Which jumps are refused -/

/-- The instruction jumps into the kernel's range. -/
def JumpsIntoKernel (manifest : Manifest) (i : TextInstr) : Prop :=
  ∃ target ∈ directTarget i.absAddr i.instr,
    kernelBase ≤ target ∧ target < kernelBase + manifest.reservedSize

/-- The check does not look at the instruction: it is compressed, or the end of the range
overflows. -/
def Unchecked (manifest : Manifest) (i : TextInstr) : Prop :=
  i.isRvc = true ∨ 2 ^ 64 ≤ kernelBase + manifest.reservedSize

instance (manifest : Manifest) (i : TextInstr) : Decidable (JumpsIntoKernel manifest i) :=
  inferInstanceAs (Decidable (∃ target ∈ directTarget i.absAddr i.instr, _))

instance (manifest : Manifest) (i : TextInstr) : Decidable (Unchecked manifest i) :=
  inferInstanceAs (Decidable (_ ∨ _))

theorem jalViolation_category {manifest : Manifest} {i : TextInstr} {v : Violation}
    (h : jalViolation manifest i = some v) : v.category = .kernelRangeJal := by
  unfold jalViolation at h
  split at h
  · cases h
  · split at h
    · split at h
      · cases h
        rfl
      · cases h
    · cases h

theorem symbolViolation_category {parsed : ParsedElf} {task : TaskEntry} {taskName : String}
    {sym : ParsedSymbol} {v : Violation} (h : symbolViolation parsed task taskName sym = some v) :
    v.category = .regionBoundary := by
  unfold symbolViolation at h
  split at h
  · split at h
    · cases h
    · cases h
      rfl
  · cases h

/-- A word is refused when its jump falls between the two ends. -/
theorem jalViolation_isSome {manifest : Manifest} {i : TextInstr} :
    (jalViolation manifest i).isSome = true ↔ i.isRvc = false ∧
      ∃ target ∈ directTarget i.absAddr i.instr,
        kernelBase ≤ target ∧ target < kernelEnd manifest := by
  cases hrvc : i.isRvc with
  | true => simp [jalViolation, hrvc]
  | false =>
    have hinstr : i.instr = .word i.raw32 := by simp [TextInstr.instr, hrvc]
    by_cases hjal : opcode i.raw32 = opJal
    · simp [jalViolation, hrvc, hinstr, directTarget, hjal, decode32_jal hjal,
        decodeJalTarget_eq, apply_ite Option.isSome]
    · have hnone : jalViolation manifest i = none := by
        unfold jalViolation
        split
        · rfl
        · split
          · rename_i target hop
            exact absurd hop (decode32_ne_jal hjal target)
          · rfl
      simp [hnone, hinstr, directTarget, hjal]

/-- A jump is reported exactly when some word's target lies between the two ends. -/
theorem kernelRangeJal_reported_iff {parsed : ParsedElf} {manifest : Manifest} {taskName : String}
    {task : TaskEntry} (hfound : manifest.task? taskName = some task) :
    (∃ v ∈ checkRegions parsed manifest taskName, v.category = .kernelRangeJal) ↔
      ∃ i ∈ parsed.textWords, i.isRvc = false ∧ ∃ target ∈ directTarget i.absAddr i.instr,
        kernelBase ≤ target ∧ target < kernelEnd manifest := by
  rw [checkRegions, hfound]
  constructor
  · rintro ⟨v, hv, hcategory⟩
    rcases List.mem_append.mp hv with hv | hv
    · obtain ⟨sym, -, hsym⟩ := List.mem_filterMap.mp hv
      rw [symbolViolation_category hsym] at hcategory
      cases hcategory
    · obtain ⟨i, hi, hword⟩ := List.mem_filterMap.mp hv
      exact ⟨i, hi, jalViolation_isSome.mp (Option.isSome_iff_exists.mpr ⟨v, hword⟩)⟩
  · rintro ⟨i, hi, hrefused⟩
    obtain ⟨v, hword⟩ := Option.isSome_iff_exists.mp (jalViolation_isSome.mpr hrefused)
    have hmem : v ∈ parsed.textWords.filterMap (jalViolation manifest) :=
      List.mem_filterMap.mpr ⟨i, hi, hword⟩
    exact ⟨v, List.mem_append_right _ hmem, jalViolation_category hword⟩

/-- Without a report, no jump goes into the kernel exactly when none of those does that the check
does not look at. -/
theorem no_kernel_jump_iff (parsed : ParsedElf) (manifest : Manifest) (taskName : String)
    (hfound : (manifest.task? taskName).isSome = true)
    (hquiet : ∀ v ∈ checkRegions parsed manifest taskName, v.category ≠ .kernelRangeJal) :
    (∀ i ∈ parsed.textWords, ¬ JumpsIntoKernel manifest i) ↔
      ∀ i ∈ parsed.textWords, Unchecked manifest i → ¬ JumpsIntoKernel manifest i := by
  constructor
  · intro hnone i hi _
    exact hnone i hi
  · intro hunchecked i hi hjumps
    by_cases hskipped : Unchecked manifest i
    · exact hunchecked i hi hskipped hjumps
    · obtain ⟨task, htask⟩ := Option.isSome_iff_exists.mp hfound
      obtain ⟨hrvc, hfits⟩ := not_or.mp hskipped
      have hend : kernelEnd manifest = kernelBase + manifest.reservedSize :=
        Nat.mod_eq_of_lt (by omega)
      have hreported : ∃ v ∈ checkRegions parsed manifest taskName, v.category = .kernelRangeJal := by
        rw [kernelRangeJal_reported_iff htask, hend]
        exact ⟨i, hi, Bool.eq_false_of_not_eq_true hrvc, hjumps⟩
      obtain ⟨v, hv, hcategory⟩ := hreported
      exact hquiet v hv hcategory

/-- The part of `sipahi.toml` about its first task. -/
def helloManifest : Manifest where
  tasks := [⟨"task_hello", SntmManifest.taskHello.regions⟩]

/-- A text section alone. -/
def textAt (address : ℕ) (bytes : List UInt8) : ParsedElf where
  sections := [⟨⟨".text", address, some bytes⟩, 6⟩]

/-- `jal x0, 4` and a `c.j` to itself. -/
def forwardJumps : ParsedElf := textAt 0x80600000 [0x6F, 0x00, 0x40, 0x00, 0x01, 0xA0]

theorem forward_jumps_stay : (helloManifest.task? "task_hello").isSome = true ∧
    checkRegions forwardJumps helloManifest "task_hello" = [] ∧
    ∀ i ∈ forwardJumps.textWords, ¬ JumpsIntoKernel helloManifest i := by
  have hfound : (helloManifest.task? "task_hello").isSome = true := by decide +kernel
  have hnone : checkRegions forwardJumps helloManifest "task_hello" = [] := by decide +kernel
  have hquiet : ∀ v ∈ checkRegions forwardJumps helloManifest "task_hello",
      v.category ≠ .kernelRangeJal := by simp [hnone]
  exact ⟨hfound, hnone, (no_kernel_jump_iff forwardJumps helloManifest "task_hello" hfound
    hquiet).mpr (by decide +kernel)⟩

/-- The first instruction of the task is a `c.j` two bytes back, into the kernel. -/
theorem backward_cj_passes :
    ¬ ∀ parsed manifest taskName, (manifest.task? taskName).isSome = true →
      (∀ v ∈ checkRegions parsed manifest taskName, v.category ≠ .kernelRangeJal) →
        ∀ i ∈ parsed.textWords, ¬ JumpsIntoKernel manifest i := by
  intro hall
  have hnone := hall (textAt 0x80600000 [0xFD, 0xBF]) helloManifest "task_hello"
    (by decide +kernel) (by decide +kernel)
  exact hnone ⟨0x80600000, 0xBFFD, true⟩ (by decide +kernel) (by decide +kernel)

end BinVerifyRegions
