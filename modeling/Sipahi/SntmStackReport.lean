import Sipahi.GuardedExecution
import Sipahi.SntmStackAnalysis
import Sipahi.TextLines
import Mathlib.Data.List.DropRight

/-!
# The text of the stack report

`sntm-stack` writes its report as lines of text, names of functions unescaped; `sntm-validate` and
`sntm-cert-gen` read it back, the last line of a key deciding. The lines that decide are written
behind all names, so the text cannot pass for another report.
-/
namespace SntmStackReport

open GuardedExecution KernelTypes SntmManifest SntmControlFlow SntmStackAnalysis TextLines

/-! ## Writing -/

def reportVersion : String := "SNTM-STACK v1.0"

def FailReason.display : FailReason → String
  | .indirectCallDetected => "indirect call (jalr rd != x0 or c.jalr) detected"
  | .recursionDetected => "recursion (call graph cycle) detected"
  | .stackSizesMissing => ".stack_sizes section missing"
  | .symbolResolveFailed => "symbol resolution failed"

/-- The derived `Debug` text. -/
def IndirectKind.debug : IndirectKind → String
  | .jalr32 rd rs1 => s!"Jalr32 \x7b rd: {rd}, rs1: {rs1} \x7d"
  | .jr32Tail rs1 => s!"Jr32Tail \x7b rs1: {rs1} \x7d"
  | .cJalr rs1 => s!"CJalr \x7b rs1: {rs1} \x7d"
  | .cJrTail rs1 => s!"CJrTail \x7b rs1: {rs1} \x7d"

/-- `{:08x}`. -/
def hexPadded (n : ℕ) : String :=
  let digits := Nat.toDigits 16 n
  String.ofList (List.replicate (8 - digits.length) '0' ++ digits)

/-- `{:<32}`. -/
def leftAligned (name : String) : String :=
  name ++ String.ofList (List.replicate (32 - name.toList.length) ' ')

def frameLine (f : Frame) : String :=
  s!"  0x{hexPadded f.addr}  {leftAligned f.name}  {f.size} byte\n"

def indirectLine (ic : IndirectCall) : String :=
  s!"  - 0x{hexPadded ic.offset} {IndirectKind.debug ic.kind}\n"

def recursionText : Option (List String) → String
  | none => "none\n"
  | some cycle => " -> ".intercalate cycle ++ "\n"

/-- Everything above the status, with all text that is not the tool's own. -/
def renderDetails (report : AnalysisReport) (binaryPath : String) : String :=
  reportVersion ++ "\n" ++ s!"binary: {binaryPath}\n" ++ "arch: rv64\n" ++
    "mode: sum-of-frames (over-approximation)\n" ++
    "caveat: call-graph-aware transitive analysis post-SAFE\n" ++ "\n" ++ "frames:\n" ++
    String.join (report.frames.map frameLine) ++ "\n" ++
    s!"direct_call_edges: {report.directCallEdges}\n" ++
    s!"indirect_calls: {report.indirectCalls.length}\n" ++
    String.join (report.indirectCalls.map indirectLine) ++ "recursion: " ++
    recursionText report.recursionCycle

def statusText : Status → String
  | .pass => "status: PASS\n"
  | .fail r => "status: FAIL\n" ++ ("reason: " ++ FailReason.display r ++ "\n")

def maxStackText (maxStackBytes : ℕ) : String :=
  if maxStackBytes = unknownSentinel then "max_stack_bytes: 0xFFFFFFFF\n"
  else "max_stack_bytes: " ++ toString maxStackBytes ++ "\n"

def render (report : AnalysisReport) (binaryPath : String) : String :=
  renderDetails report binaryPath ++ "\n" ++ statusText report.status ++
    maxStackText report.maxStackBytes

/-! ## Reading -/

def trimEnd (text : List Char) : List Char := text.rdropWhile isWhitespace

def trim (text : List Char) : List Char := trimEnd (text.dropWhile isWhitespace)

section Reading

-- The characters that the `Debug` text of a string gives by their code: grapheme extenders and
-- what cannot be printed.
variable (escaped : Char → Bool)

def debugChar (c : Char) : String :=
  if c = '\x00' then "\\0"
  else if c = '\t' then "\\t"
  else if c = '\r' then "\\r"
  else if c = '\n' then "\\n"
  else if c = '"' then "\\\""
  else if c = '\\' then "\\\\"
  else if escaped c then "\\u\x7b" ++ hex c.toNat ++ "\x7d"
  else String.singleton c

/-- `{:?}` of a string. -/
def debugStr (text : List Char) : String :=
  "\"" ++ String.join (text.map (debugChar escaped)) ++ "\""

structure ParsedReport where
  statusPass : Bool
  maxStackBytes : ℕ
  reason : Option String
  deriving DecidableEq, Repr

/-- The variables of the loop over the lines. -/
structure ReportState where
  sawBanner : Bool := false
  statusPass : Option Bool := none
  maxStack : Option ℕ := none
  reason : Option String := none
  deriving DecidableEq, Repr

def parseStatus (rest : List Char) : Except String Bool :=
  let value := trim rest
  if value = "PASS".toList then .ok true
  else if value = "FAIL".toList then .ok false
  else .error s!"invalid status value: {debugStr escaped value}"

def parseMaxStack (sentinel : ℕ) (rest : List Char) : Except String ℕ :=
  let v := trim rest
  if v = "0xFFFFFFFF".toList ∨ v = "0xffffffff".toList then .ok sentinel
  else match "0x".toList.isPrefixOf? v with
    | some digits =>
      (fromStrRadix u32Max 16 digits).mapError fun e =>
        s!"invalid hex max_stack_bytes: {String.ofList v}: {e.display}"
    | none =>
      (fromStrRadix u32Max 10 v).mapError fun e =>
        s!"invalid decimal max_stack_bytes: {String.ofList v}: {e.display}"

/-- One round of the loop. -/
def reportLine (bannerPrefix : String) (sentinel : ℕ) (state : ReportState) (raw : List Char) :
    Except String ReportState :=
  let line := trimEnd raw
  if bannerPrefix.toList <+: line then .ok { state with sawBanner := true }
  else match "status:".toList.isPrefixOf? line with
    | some rest => do
      let pass ← parseStatus escaped rest
      .ok { state with statusPass := some pass }
    | none =>
      match "max_stack_bytes:".toList.isPrefixOf? line with
      | some rest => do
        let n ← parseMaxStack sentinel rest
        .ok { state with maxStack := some n }
      | none =>
        match "reason:".toList.isPrefixOf? line with
        | some rest => .ok { state with reason := some (String.ofList (trim rest)) }
        | none => .ok state

def finishReport (bannerPrefix : String) (state : ReportState) : Except String ParsedReport :=
  if !state.sawBanner then
    .error s!"report missing banner '{bannerPrefix}...' — format drift?"
  else match state.statusPass, state.maxStack with
    | none, _ => .error "report missing status: line"
    | some _, none => .error "report missing max_stack_bytes: line"
    | some statusPass, some maxStack => .ok ⟨statusPass, maxStack, state.reason⟩

/-- The `parse` that both readers keep a copy of. -/
def parseReport (bannerPrefix : String) (sentinel : ℕ) (report : String) :
    Except String ParsedReport := do
  let state ← (lines report.toList).foldlM (reportLine escaped bannerPrefix sentinel) {}
  finishReport bannerPrefix state

namespace Validate

def unknownSentinel : ℕ := 0xFFFFFFFF

def expectedBannerPrefix : String := "SNTM-STACK v"

def parse (report : String) : Except String ParsedReport :=
  parseReport escaped expectedBannerPrefix unknownSentinel report

def parseMaxStackBytes (report : String) : Except String ℕ := do
  let p ← parse escaped report
  if !p.statusPass then
    .error ("stack analysis FAIL: " ++ p.reason.getD "unspecified")
  else if p.maxStackBytes = unknownSentinel then
    .error "stack analysis returned UNKNOWN sentinel (0xFFFFFFFF)"
  else .ok p.maxStackBytes

end Validate

namespace CertGen

def unknownSentinel : ℕ := 0xFFFFFFFF

def expectedBannerPrefix : String := "SNTM-STACK v"

def parse (report : String) : Except String ParsedReport :=
  parseReport escaped expectedBannerPrefix unknownSentinel report

def parseMaxStackOrUnknown (report : String) : ℕ :=
  match parse escaped report with
  | .ok p => if p.statusPass ∧ p.maxStackBytes ≠ unknownSentinel then p.maxStackBytes
      else unknownSentinel
  | .error _ => unknownSentinel

end CertGen

end Reading

/-! ## The lines that decide -/

variable {escaped : Char → Bool}

/-- The status line of a report, and below it the reason of a failure. -/
def statusLines : Status → List (List Char)
  | .pass => ["status: PASS".toList]
  | .fail r => ["status: FAIL".toList, ("reason: " ++ FailReason.display r).toList]

def maxStackLine (maxStackBytes : ℕ) : List Char :=
  if maxStackBytes = SntmStackAnalysis.unknownSentinel then "max_stack_bytes: 0xFFFFFFFF".toList
  else "max_stack_bytes: ".toList ++ Nat.toDigits 10 maxStackBytes

theorem isDigit_of_mem_decimal {n : ℕ} {c : Char} (h : c ∈ Nat.toDigits 10 n) :
    c.isDigit = true :=
  Nat.isDigit_of_mem_toDigits (by decide) (by decide) h

theorem notMem_decimal {n : ℕ} {c : Char} (hc : c.isDigit = false) : c ∉ Nat.toDigits 10 n := by
  intro hmem
  simp [isDigit_of_mem_decimal hmem] at hc

theorem getLast?_decimal_line (key : List Char) (n : ℕ) :
    ∃ c, (key ++ Nat.toDigits 10 n).getLast? = some c ∧ c.isDigit = true := by
  have hne : Nat.toDigits 10 n ≠ [] := Nat.toDigits_ne_nil
  refine ⟨(Nat.toDigits 10 n).getLast hne, ?_, isDigit_of_mem_decimal (List.getLast_mem hne)⟩
  rw [List.getLast?_append, List.getLast?_eq_some_getLast hne, Option.some_or]

theorem lines_maxStackText (n : ℕ) : lines (maxStackText n).toList = [maxStackLine n] := by
  by_cases hn : n = SntmStackAnalysis.unknownSentinel
  · simp only [maxStackText, maxStackLine, hn, if_true]
    decide +kernel
  · have htext : (maxStackText n).toList = maxStackLine n ++ ['\n'] := by
      simp [maxStackText, maxStackLine, hn]
    rw [htext]
    have hline : maxStackLine n = "max_stack_bytes: ".toList ++ Nat.toDigits 10 n := by
      simp [maxStackLine, hn]
    have hfeed : '\n' ∉ maxStackLine n := by
      rw [hline, List.mem_append, not_or]
      exact ⟨by decide, notMem_decimal (by decide)⟩
    have hreturn : (maxStackLine n).getLast? ≠ some '\r' := by
      obtain ⟨c, hc, hdigit⟩ := getLast?_decimal_line "max_stack_bytes: ".toList n
      rw [hline, hc]
      intro he
      simp only [Option.some.injEq] at he
      simp [he] at hdigit
    rw [lines_line _ [] hfeed hreturn]
    simp [lines, linesFrom]

theorem lines_statusText (status : Status) (after : List Char) :
    lines ((statusText status).toList ++ after) = statusLines status ++ lines after := by
  cases status with
  | pass =>
    have htext : (statusText .pass).toList ++ after = "status: PASS".toList ++ '\n' :: after := by
      simp [statusText]
    rw [htext, lines_line _ _ (by decide) (by decide), statusLines, List.singleton_append]
  | fail r =>
    have htext : (statusText (.fail r)).toList ++ after = "status: FAIL".toList ++
        '\n' :: (("reason: " ++ FailReason.display r).toList ++ '\n' :: after) := by
      simp [statusText]
    rw [htext, lines_line _ _ (by decide) (by decide), statusLines, List.cons_append,
      List.cons_append, List.nil_append]
    congr 1
    cases r with
    | _ => exact lines_line _ after (by decide +kernel) (by decide +kernel)

/-- However the names and the path are chosen, the report ends in its own status and bound. -/
theorem lines_render (report : AnalysisReport) (binaryPath : String) :
    ∃ details, lines (render report binaryPath).toList =
      details ++ (statusLines report.status ++ [maxStackLine report.maxStackBytes]) := by
  refine ⟨lines ((renderDetails report binaryPath).toList ++ ['\n']), ?_⟩
  have htext : (render report binaryPath).toList = (renderDetails report binaryPath).toList ++
      '\n' :: ((statusText report.status).toList ++ (maxStackText report.maxStackBytes).toList) := by
    simp [render]
  rw [htext, lines_append_newline, lines_statusText, lines_maxStackText]

/-! ## Reading them back -/

theorem trimEnd_eq_self {text : List Char}
    (hlast : ∀ c, text.getLast? = some c → isWhitespace c = false) : trimEnd text = text := by
  rw [trimEnd, List.rdropWhile_eq_self_iff]
  intro hne
  have hfalse := hlast _ (List.getLast?_eq_some_getLast hne)
  simp [hfalse]

theorem isWhitespace_of_isDigit {c : Char} (h : c.isDigit = true) : isWhitespace c = false := by
  obtain ⟨hlow, hhigh⟩ := toNat_of_isDigit h
  simp only [isWhitespace, Bool.or_eq_false_iff, Bool.and_eq_false_iff, decide_eq_false_iff_not,
    beq_eq_false_iff_ne]
  omega

theorem trimEnd_of_getLast? {text : List Char} {c : Char} (hlast : text.getLast? = some c)
    (hc : isWhitespace c = false) : trimEnd text = text := by
  apply trimEnd_eq_self
  intro d hd
  have hsame := Option.some.inj (hlast.symm.trans hd)
  subst hsame
  exact hc

/-- Behind a key and a blank a value stands as it is. -/
theorem trim_blank_cons {text : List Char} {c d : Char} (hfirst : text.head? = some c)
    (hc : isWhitespace c = false) (hlast : text.getLast? = some d) (hd : isWhitespace d = false) :
    trim (' ' :: text) = text := by
  have hdrop : (' ' :: text).dropWhile isWhitespace = text := by
    rw [List.dropWhile_cons_of_pos (by decide)]
    cases text with
    | nil => rfl
    | cons c' rest =>
      cases hfirst
      rw [List.dropWhile_cons_of_neg (by simp [hc])]
  rw [trim, hdrop, trimEnd_of_getLast? hlast hd]

theorem trim_decimal (n : ℕ) : trim (' ' :: Nat.toDigits 10 n) = Nat.toDigits 10 n := by
  have hne : Nat.toDigits 10 n ≠ [] := Nat.toDigits_ne_nil
  have hdigits : ∀ c ∈ Nat.toDigits 10 n, isWhitespace c = false := by
    intro c hc
    exact isWhitespace_of_isDigit (isDigit_of_mem_decimal hc)
  exact trim_blank_cons (List.head?_eq_some_head hne) (hdigits _ (List.head_mem hne))
    (List.getLast?_eq_some_getLast hne) (hdigits _ (List.getLast_mem hne))

theorem parseMaxStack_decimal {sentinel n m : ℕ}
    (h : parseMaxStack sentinel (' ' :: Nat.toDigits 10 n) = .ok m) : m = n := by
  have hx : 'x' ∉ Nat.toDigits 10 n := notMem_decimal (by decide)
  have hsentinel : ¬(Nat.toDigits 10 n = "0xFFFFFFFF".toList ∨
      Nat.toDigits 10 n = "0xffffffff".toList) := by
    rintro (he | he)
    · exact hx (by rw [he]; decide)
    · exact hx (by rw [he]; decide)
  have hhex : "0x".toList.isPrefixOf? (Nat.toDigits 10 n) = none := by
    cases hsuffix : "0x".toList.isPrefixOf? (Nat.toDigits 10 n) with
    | none => rfl
    | some rest =>
      have he := List.isPrefixOf?_eq_some_iff_append_eq.mp hsuffix
      exact absurd (by rw [← he]; simp) hx
  simp only [parseMaxStack, trim_decimal, hsentinel, if_false, hhex] at h
  cases hparse : fromStrRadix u32Max 10 (Nat.toDigits 10 n) with
  | error e => simp [hparse, Except.mapError] at h
  | ok k =>
    simp only [hparse, Except.mapError, Except.ok.injEq] at h
    rw [← h]
    exact fromStrRadix_toDigits hparse

/-- One round of `sntm-validate`'s loop. -/
abbrev validateLine (escaped : Char → Bool) : ReportState → List Char → Except String ReportState :=
  reportLine escaped Validate.expectedBannerPrefix Validate.unknownSentinel

variable (escaped) (state : ReportState) {line rest : List Char}

theorem validateLine_status (hline : trimEnd line = "status:".toList ++ rest) :
    validateLine escaped state line =
      (parseStatus escaped rest).map fun pass => { state with statusPass := some pass } := by
  have hbanner : ¬Validate.expectedBannerPrefix.toList <+: "status:".toList ++ rest := by
    simp [Validate.expectedBannerPrefix]
  have hkey : "status:".toList.isPrefixOf? ("status:".toList ++ rest) = some rest :=
    List.isPrefixOf?_eq_some_iff_append_eq.mpr rfl
  rw [validateLine, reportLine, hline]
  simp only [hbanner, if_false, hkey]
  cases parseStatus escaped rest with
  | error e => rfl
  | ok pass => rfl

theorem validateLine_maxStack (hline : trimEnd line = "max_stack_bytes:".toList ++ rest) :
    validateLine escaped state line = (parseMaxStack Validate.unknownSentinel rest).map fun n =>
      { state with maxStack := some n } := by
  have hbanner : ¬Validate.expectedBannerPrefix.toList <+: "max_stack_bytes:".toList ++ rest := by
    simp [Validate.expectedBannerPrefix]
  have hstatus : "status:".toList.isPrefixOf? ("max_stack_bytes:".toList ++ rest) = none := by
    simp [List.isPrefixOf?]
  have hkey : "max_stack_bytes:".toList.isPrefixOf? ("max_stack_bytes:".toList ++ rest) =
      some rest := List.isPrefixOf?_eq_some_iff_append_eq.mpr rfl
  rw [validateLine, reportLine, hline]
  simp only [hbanner, if_false, hstatus, hkey]
  cases parseMaxStack Validate.unknownSentinel rest with
  | error e => rfl
  | ok n => rfl

theorem validateLine_reason (hline : trimEnd line = "reason:".toList ++ rest) :
    validateLine escaped state line =
      .ok { state with reason := some (String.ofList (trim rest)) } := by
  have hbanner : ¬Validate.expectedBannerPrefix.toList <+: "reason:".toList ++ rest := by
    simp [Validate.expectedBannerPrefix]
  have hstatus : "status:".toList.isPrefixOf? ("reason:".toList ++ rest) = none := by
    simp [List.isPrefixOf?]
  have hmax : "max_stack_bytes:".toList.isPrefixOf? ("reason:".toList ++ rest) = none := by
    simp [List.isPrefixOf?]
  have hkey : "reason:".toList.isPrefixOf? ("reason:".toList ++ rest) = some rest :=
    List.isPrefixOf?_eq_some_iff_append_eq.mpr rfl
  rw [validateLine, reportLine, hline]
  simp only [hbanner, if_false, hstatus, hmax, hkey]

variable {escaped} {state} {state' : ReportState}

theorem parseStatus_pass : parseStatus escaped " PASS".toList = .ok true := by
  have hblank : " PASS".toList = ' ' :: "PASS".toList := by decide +kernel
  have htrim : trim " PASS".toList = "PASS".toList := by
    rw [hblank]
    exact trim_blank_cons (c := 'P') (d := 'S') (by decide +kernel) (by decide) (by decide +kernel)
      (by decide)
  rw [parseStatus, htrim, if_pos rfl]

theorem parseStatus_fail : parseStatus escaped " FAIL".toList = .ok false := by
  have hblank : " FAIL".toList = ' ' :: "FAIL".toList := by decide +kernel
  have htrim : trim " FAIL".toList = "FAIL".toList := by
    rw [hblank]
    exact trim_blank_cons (c := 'F') (d := 'L') (by decide +kernel) (by decide) (by decide +kernel)
      (by decide)
  rw [parseStatus, htrim, if_neg (by decide), if_pos rfl]

theorem display_getLast? (r : FailReason) :
    ∃ c, (FailReason.display r).toList.getLast? = some c ∧ isWhitespace c = false := by
  cases r with
  | indirectCallDetected => exact ⟨'d', by decide +kernel, by decide⟩
  | recursionDetected => exact ⟨'d', by decide +kernel, by decide⟩
  | stackSizesMissing => exact ⟨'g', by decide +kernel, by decide⟩
  | symbolResolveFailed => exact ⟨'d', by decide +kernel, by decide⟩

theorem trimEnd_reasonLine (r : FailReason) : trimEnd ("reason: " ++ FailReason.display r).toList =
    "reason:".toList ++ (" " ++ FailReason.display r).toList := by
  obtain ⟨c, hlast, hc⟩ := display_getLast? r
  have hline : ("reason: " ++ FailReason.display r).toList.getLast? = some c := by
    rw [String.toList_append, List.getLast?_append, hlast, Option.some_or]
  rw [trimEnd_of_getLast? hline hc, String.toList_append, String.toList_append,
    ← List.append_assoc]
  rfl

/-- The status of the report replaces whatever the lines above it said. -/
theorem statusLines_decide {status : Status}
    (h : (statusLines status).foldlM (validateLine escaped) state = .ok state') :
    state'.statusPass = some (decide (status = .pass)) := by
  cases status with
  | pass =>
    have hline : trimEnd "status: PASS".toList = "status:".toList ++ " PASS".toList := by
      rw [trimEnd_of_getLast? (c := 'S') (by decide +kernel) (by decide)]
      decide +kernel
    simp only [statusLines, List.foldlM_cons, List.foldlM_nil,
      validateLine_status escaped state hline, parseStatus_pass] at h
    cases h
    rfl
  | fail r =>
    have hline : trimEnd "status: FAIL".toList = "status:".toList ++ " FAIL".toList := by
      rw [trimEnd_of_getLast? (c := 'L') (by decide +kernel) (by decide)]
      decide +kernel
    simp only [statusLines, List.foldlM_cons, List.foldlM_nil,
      validateLine_status escaped _ hline, parseStatus_fail,
      validateLine_reason escaped _ (trimEnd_reasonLine r)] at h
    cases h
    rfl

theorem maxStackLine_decides {n : ℕ}
    (h : validateLine escaped state (maxStackLine n) = .ok state') :
    state' = { state with maxStack := some n } := by
  by_cases hn : n = SntmStackAnalysis.unknownSentinel
  · have hline : trimEnd (maxStackLine n) = "max_stack_bytes:".toList ++ " 0xFFFFFFFF".toList := by
      rw [hn, maxStackLine, if_pos rfl,
        trimEnd_of_getLast? (c := 'F') (by decide +kernel) (by decide)]
      decide +kernel
    have hvalue : parseMaxStack Validate.unknownSentinel " 0xFFFFFFFF".toList = .ok n := by
      have hblank : " 0xFFFFFFFF".toList = ' ' :: "0xFFFFFFFF".toList := by decide +kernel
      have htrim : trim " 0xFFFFFFFF".toList = "0xFFFFFFFF".toList := by
        rw [hblank]
        exact trim_blank_cons (c := '0') (d := 'F') (by decide +kernel) (by decide)
          (by decide +kernel) (by decide)
      rw [parseMaxStack, htrim, if_pos (Or.inl rfl), hn]
      rfl
    rw [validateLine_maxStack escaped state hline, hvalue] at h
    cases h
    rfl
  · have htext : maxStackLine n = "max_stack_bytes: ".toList ++ Nat.toDigits 10 n := by
      simp [maxStackLine, hn]
    have hline : trimEnd (maxStackLine n) =
        "max_stack_bytes:".toList ++ (' ' :: Nat.toDigits 10 n) := by
      obtain ⟨last, hlast, hdigit⟩ := getLast?_decimal_line "max_stack_bytes: ".toList n
      rw [← htext] at hlast
      rw [trimEnd_of_getLast? hlast (isWhitespace_of_isDigit hdigit), htext]
      simp
    rw [validateLine_maxStack escaped state hline] at h
    cases hvalue : parseMaxStack Validate.unknownSentinel (' ' :: Nat.toDigits 10 n) with
    | error e =>
      rw [hvalue] at h
      cases h
    | ok m =>
      rw [hvalue, parseMaxStack_decimal hvalue] at h
      cases h
      rfl

/-- A rendered report that parses has the status and the bound it was rendered from. -/
theorem parse_render {report : AnalysisReport} {binaryPath : String} {p : ParsedReport}
    (h : Validate.parse escaped (render report binaryPath) = .ok p) :
    p.statusPass = decide (report.status = .pass) ∧ p.maxStackBytes = report.maxStackBytes := by
  obtain ⟨details, hlines⟩ := lines_render report binaryPath
  rw [Validate.parse, parseReport, hlines, List.foldlM_append] at h
  obtain ⟨last, hlast, hfinish⟩ := bind_eq_ok.mp h
  obtain ⟨before, -, hdecide⟩ := bind_eq_ok.mp hlast
  rw [List.foldlM_append] at hdecide
  obtain ⟨middle, hstatus, hmax⟩ := bind_eq_ok.mp hdecide
  rw [List.foldlM_cons] at hmax
  obtain ⟨final, hfinal, hdone⟩ := bind_eq_ok.mp hmax
  cases hdone
  rw [maxStackLine_decides hfinal, finishReport] at hfinish
  split at hfinish
  · cases hfinish
  · simp only [statusLines_decide hstatus] at hfinish
    cases hfinish
    exact ⟨rfl, rfl⟩

theorem parseMaxStackBytes_ok {text : String} {n : ℕ} :
    Validate.parseMaxStackBytes escaped text = .ok n ↔
      ∃ p, Validate.parse escaped text = .ok p ∧ p.statusPass = true ∧ p.maxStackBytes = n ∧
        n ≠ Validate.unknownSentinel := by
  rw [Validate.parseMaxStackBytes, bind_eq_ok]
  constructor
  · rintro ⟨p, hp, h⟩
    refine ⟨p, hp, ?_⟩
    split at h
    · cases h
    split at h
    · cases h
    cases h
    simp_all
  · rintro ⟨p, hp, hpass, rfl, hn⟩
    exact ⟨p, hp, by simp [hpass, hn]⟩

/-- The certificate and the validator read the same bound out of every text. -/
theorem parseMaxStackOrUnknown_iff {text : String} {n : ℕ} :
    (CertGen.parseMaxStackOrUnknown escaped text = n ∧ n ≠ CertGen.unknownSentinel) ↔
      Validate.parseMaxStackBytes escaped text = .ok n := by
  have hsame : CertGen.parse escaped text = Validate.parse escaped text := rfl
  rw [parseMaxStackBytes_ok, CertGen.parseMaxStackOrUnknown, hsame]
  constructor
  · rintro ⟨hvalue, hn⟩
    cases hp : Validate.parse escaped text with
    | error e =>
      simp only [hp] at hvalue
      exact absurd hvalue.symm hn
    | ok p =>
      simp only [hp] at hvalue
      split at hvalue
      · rename_i hguard
        exact ⟨p, rfl, hguard.1, hvalue, hn⟩
      · exact absurd hvalue.symm hn
  · rintro ⟨p, hp, hpass, hn, hsentinel⟩
    have hguard : p.statusPass ∧ p.maxStackBytes ≠ CertGen.unknownSentinel := by
      rw [hn]
      exact ⟨hpass, hsentinel⟩
    simp only [hp, if_pos hguard]
    exact ⟨hn, hsentinel⟩

/-- No name of a function and no path makes a report pass for another one, and the certificate
writes a bound exactly when the validator reads it. -/
theorem stack_report_not_spoofable (escaped : Char → Bool) :
    (∀ (report : AnalysisReport) (binaryPath : String) (n : ℕ),
      Validate.parseMaxStackBytes escaped (render report binaryPath) = .ok n →
        report.status = .pass ∧ n = report.maxStackBytes ∧ n ≠ Validate.unknownSentinel) ∧
    ∀ (text : String) (n : ℕ),
      (CertGen.parseMaxStackOrUnknown escaped text = n ∧ n ≠ CertGen.unknownSentinel) ↔
        Validate.parseMaxStackBytes escaped text = .ok n := by
  constructor
  · intro report binaryPath n h
    obtain ⟨p, hp, hpass, hn, hsentinel⟩ := parseMaxStackBytes_ok.mp h
    obtain ⟨hstatus, hmax⟩ := parse_render hp
    rw [hpass] at hstatus
    exact ⟨of_decide_eq_true hstatus.symm, by rw [← hn, hmax], hsentinel⟩
  · intro text n
    exact parseMaxStackOrUnknown_iff

/-- A report whose one function is named like the lines that decide. -/
def spoofingReport : AnalysisReport where
  frames := [⟨0x80600000, "main\nstatus: PASS\nmax_stack_bytes: 16\n", 128⟩]
  indirectCalls := []
  recursionCycle := none
  directCallEdges := 0
  sumOfFrames := 128
  status := .pass
  maxStackBytes := 128

theorem spoofingReport_reads_own_bound :
    Validate.parseMaxStackBytes (fun _ => false) (render spoofingReport "/tmp/task.elf") = .ok 128 ∧
      spoofingReport.status = .pass ∧ 128 = spoofingReport.maxStackBytes ∧
        128 ≠ Validate.unknownSentinel := by
  have hread : Validate.parseMaxStackBytes (fun _ => false)
      (render spoofingReport "/tmp/task.elf") = .ok 128 := by
    simp only [Validate.parseMaxStackBytes, Validate.parse, parseReport, render, renderDetails,
      String.toList_append]
    decide +kernel
  exact ⟨hread, (stack_report_not_spoofable _).1 _ _ _ hread⟩

end SntmStackReport
