import Sipahi.KernelTypes
import Sipahi.KeyedScan

/-!
# The task manifest and its validator

`sipahi.toml` as `sntm-validate` deserializes it and the checks of `validate_all` in their order,
with the texts they report. Fields that neither a check nor the code generators read are left
out. What the task crates' `Cargo.toml` files hold is a parameter.
-/
namespace SntmManifest

open KernelTypes KeyedScan

def reservedLowPmpEntries : ℕ := 8
def maxRegionsPerTask : ℕ := 6
def kernelBase : ℕ := 0x80000000
def ipcMsgSize : ℕ := 64

structure RegionEntry where
  name : String
  base : ℕ
  size : ℕ
  perm : String
  base_le : base ≤ usizeMax := by decide
  size_le : size ≤ usizeMax := by decide
  deriving DecidableEq

structure LocalCapGrant where
  resourceId : ℕ
  action : String
  deriving DecidableEq

structure TaskEntry where
  name : String
  taskId : ℕ
  dalLevel : String
  trustTier : String := "safe"
  waiverReason : String := ""
  demoFeatureWaivers : List String := []
  regions : List RegionEntry := []
  localCaps : List LocalCapGrant := []
  stackMarginOverride : Option ℕ := none
  taskId_le : taskId ≤ u8Max := by decide
  deriving DecidableEq

structure ResourceEntry where
  id : ℕ
  name : String
  kind : String
  deriving DecidableEq

structure ChannelEntry where
  id : ℕ
  producer : String
  consumer : String
  message : String
  size : ℕ
  deriving DecidableEq

def defaultReservedSize : ℕ := 0x600000

/-- `reservedSize` is `[kernel] reserved_size` and `pmpEntries` is `[platform] pmp_entries`. -/
structure Manifest where
  reservedSize : ℕ := defaultReservedSize
  pmpEntries : ℕ
  tasks : List TaskEntry := []
  resources : List ResourceEntry := []
  channels : List ChannelEntry := []
  deriving DecidableEq

inductive DalLevel where
  | A | B | C | D
  deriving DecidableEq, Repr

def DalLevel.parse (s : String) : Except String DalLevel :=
  match s with
  | "A" => .ok .A
  | "B" => .ok .B
  | "C" => .ok .C
  | "D" => .ok .D
  | _ => .error s!"invalid dal_level: {s} (must be A/B/C/D)"

/-- The derived `Debug` text. -/
def DalLevel.debug : DalLevel → String
  | .A => "A"
  | .B => "B"
  | .C => "C"
  | .D => "D"

/-- A value of a `Cargo.toml`, as far as the feature check looks into it. -/
inductive TomlValue where
  | string (s : String)
  | array (items : List TomlValue)
  | other

inductive FeaturesField where
  | absent
  | notTable
  | table (entries : List (String × TomlValue))

/-- Reading and parsing `tasks/<name>/Cargo.toml` next to the manifest. -/
inductive CargoRead where
  | missing
  | unreadable (error : String)
  | malformed (error : String)
  | parsed (features : FeaturesField)

/-- What the checks need of the machine they run on: the files of each task and the `Debug` text
of a list of strings. -/
structure Host where
  cargoToml : String → CargoRead
  debugStrings : List String → String

/-! ## Text helpers -/

/-- The Unicode property `White_Space`. -/
def isWhitespace (c : Char) : Bool :=
  let n := c.toNat
  (9 ≤ n && n ≤ 13) || n == 0x20 || n == 0x85 || n == 0xA0 || n == 0x1680 ||
    (0x2000 ≤ n && n ≤ 0x200A) || n == 0x2028 || n == 0x2029 || n == 0x202F || n == 0x205F ||
    n == 0x3000

/-- `s.trim().is_empty()`. -/
def isBlank (s : String) : Bool := s.toList.all isWhitespace

/-- The digits of `{:x}`. -/
def hex (n : ℕ) : String := String.ofList (Nat.toDigits 16 n)

def isAsciiUppercase (c : Char) : Bool := 'A' ≤ c && c ≤ 'Z'

def isAsciiAlphanumeric (c : Char) : Bool :=
  isAsciiUppercase c || ('a' ≤ c && c ≤ 'z') || ('0' ≤ c && c ≤ '9')

/-! ## Address helpers -/

def saturatingAdd (x y : ℕ) : ℕ := min (x + y) usizeMax

def regionsOverlap (aBase aSize bBase bSize : ℕ) : Bool :=
  if aSize = 0 ∨ bSize = 0 then false
  else !(decide (saturatingAdd aBase aSize ≤ bBase) || decide (saturatingAdd bBase bSize ≤ aBase))

def validNapotAlignment (base size : ℕ) : Bool :=
  if size < 8 then false
  else if size &&& (size - 1) ≠ 0 then false
  else base &&& (size - 1) == 0

def RegionEntry.overlaps (a b : RegionEntry) : Bool := regionsOverlap a.base a.size b.base b.size

/-! ## The checks -/

abbrev Verdict := Except (List String) Unit

def verdict (errs : List String) : Verdict := if errs.isEmpty then .ok () else .error errs

/-- `if cond { errs.push(text) }`. -/
def reportIf (cond : Bool) (text : String) : List String := if cond then [text] else []

def checkTaskIdUniqueness (tasks : List TaskEntry) : Verdict :=
  verdict (collect (fun (seen : ℕ → Option String) t =>
    (match seen t.taskId with
      | some prev => [s!"task_id={t.taskId} duplicate: '{prev}' and '{t.name}'"]
      | none => [],
     Function.update seen t.taskId (some t.name))) (fun _ => none) tasks)

def checkNapotAlignment (tasks : List TaskEntry) : Verdict :=
  verdict (tasks.flatMap fun t =>
    reportIf (decide (maxRegionsPerTask < t.regions.length))
      s!"task '{t.name}': {t.regions.length} regions > MAX_REGIONS_PER_TASK ({maxRegionsPerTask})" ++
    t.regions.flatMap fun r => reportIf (!validNapotAlignment r.base r.size)
      (s!"task '{t.name}' region '{r.name}': base=0x{hex r.base} size=0x{hex r.size} " ++
        "not NAPOT-aligned (size power-of-2 + base aligned)"))

def checkIntraTaskOverlap (tasks : List TaskEntry) : Verdict :=
  verdict (tasks.flatMap fun t => collectPairs (fun a b => reportIf (a.overlaps b)
    (s!"task '{t.name}': region '{a.name}' overlaps '{b.name}' " ++
      s!"(a=0x{hex a.base}+0x{hex a.size}, b=0x{hex b.base}+0x{hex b.size})")) t.regions)

def checkCrossTaskOverlap (tasks : List TaskEntry) : Verdict :=
  verdict (collectPairs (fun ta tb => ta.regions.flatMap fun ra => tb.regions.flatMap fun rb =>
    reportIf (ra.overlaps rb)
      (s!"task '{ta.name}' region '{ra.name}' overlaps task '{tb.name}' region '{rb.name}' " ++
        s!"(a=0x{hex ra.base}+0x{hex ra.size}, b=0x{hex rb.base}+0x{hex rb.size})")) tasks)

def checkKernelTaskOverlap (m : Manifest) : Verdict :=
  let kernelSize := m.reservedSize
  let kernelEnd := (kernelBase + kernelSize) % 2 ^ 64
  verdict (m.tasks.flatMap fun t => t.regions.flatMap fun r =>
    reportIf (regionsOverlap r.base r.size kernelBase kernelSize)
      (s!"task '{t.name}' region '{r.name}' (base=0x{hex r.base} size=0x{hex r.size}) " ++
        s!"overlaps kernel range [0x{hex kernelBase}..0x{hex kernelEnd})"))

def checkPmpBudget (m : Manifest) : Verdict :=
  let maxPerTask := (m.tasks.map fun t => t.regions.length).foldl max 0
  let required := reservedLowPmpEntries + maxPerTask
  let available := m.pmpEntries
  if available < required then
    .error [s!"PMP budget exceeded: reserved({reservedLowPmpEntries}) + " ++
      s!"max_per_task({maxPerTask}) = {required} > platform.pmp_entries({available})"]
  else .ok ()

/-- A bad level or tier ends the checks of that task. -/
def checkSafeNativeProfile (m : Manifest) : Verdict :=
  verdict (m.tasks.flatMap fun t =>
    match DalLevel.parse t.dalLevel with
    | .error e => [s!"task '{t.name}': {e}"]
    | .ok dal =>
      let tier := t.trustTier
      if tier ≠ "safe" ∧ tier ≠ "trusted_unsafe" then
        [s!"task '{t.name}': invalid trust_tier '{tier}' (must be 'safe' or 'trusted_unsafe')"]
      else
        reportIf (tier == "trusted_unsafe" && isBlank t.waiverReason)
          s!"task '{t.name}': trust_tier='trusted_unsafe' requires waiver_reason (non-empty)" ++
        reportIf (tier == "trusted_unsafe" && (dal == .A || dal == .B))
          (s!"task '{t.name}': DAL-{dal.debug} forbids trust_tier='trusted_unsafe' " ++
            "(DO-178C cert doctrine)") ++
        reportIf (tier == "trusted_unsafe" && !t.demoFeatureWaivers.isEmpty)
          (s!"task '{t.name}': demo_feature_waivers + trust_tier='trusted_unsafe' " ++
            "combine YASAK (audit karmaşası — tek tier ya cfg waiver)") ++
        t.demoFeatureWaivers.flatMap fun waiver => reportIf (isBlank waiver)
          s!"task '{t.name}': demo_feature_waivers boş string içeriyor")

/-- The strings of the array under `default`, if there is one. -/
def defaultFeatures (features : List (String × TomlValue)) : List String :=
  match features.lookup "default" with
  | some (.array items) => items.filterMap fun
    | .string s => some s
    | _ => none
  | _ => []

def checkDemoWaiverCargo (m : Manifest) (host : Host) : Verdict :=
  verdict (m.tasks.flatMap fun t =>
    if t.demoFeatureWaivers.isEmpty then []
    else match host.cargoToml t.name with
      | .missing =>
        [s!"task '{t.name}': demo_feature_waivers={host.debugStrings t.demoFeatureWaivers} " ++
          s!"but tasks/{t.name}/Cargo.toml missing"]
      | .unreadable e => [s!"task '{t.name}': cannot read Cargo.toml: {e}"]
      | .malformed e => [s!"task '{t.name}': Cargo.toml parse error: {e}"]
      | .parsed .notTable => [s!"task '{t.name}': [features] must be a table"]
      | .parsed .absent =>
        [s!"task '{t.name}': demo_feature_waivers={host.debugStrings t.demoFeatureWaivers} " ++
          "but [features] table missing"]
      | .parsed (.table features) => t.demoFeatureWaivers.flatMap fun w =>
        if (features.lookup w).isNone then
          [s!"task '{t.name}': waiver '{w}' orphan (not in [features])"]
        else reportIf ((defaultFeatures features).any (· == w))
          s!"task '{t.name}': waiver '{w}' in [features.default] (must be default-OFF; drift)")

/-- `seen_ids` and `seen_names`. -/
structure SeenResources where
  ids : ℕ → Option String
  names : String → Option ℕ

def resourceRound (seen : SeenResources) (r : ResourceEntry) : List String × SeenResources :=
  (reportIf (decide (maxResources ≤ r.id))
      s!"resource '{r.name}': id={r.id} >= MAX_RESOURCES({maxResources})" ++
    (match seen.ids r.id with
      | some prev => [s!"resource id={r.id} duplicate: '{prev}' and '{r.name}'"]
      | none => []) ++
    (if isBlank r.name then [s!"resource id={r.id}: empty name"]
      else
        (match seen.names r.name with
          | some prevId => [s!"resource name '{r.name}' duplicate: id={prevId} and id={r.id}"]
          | none => []) ++
        reportIf (r.name.toList.any fun c => isWhitespace c || c == '.')
          s!"resource '{r.name}': name must be snake_case (no whitespace/punct)") ++
    reportIf (isBlank r.kind) s!"resource '{r.name}': empty kind",
   { ids := Function.update seen.ids r.id (some r.name)
     names := if isBlank r.name then seen.names
       else Function.update seen.names r.name (some r.id) })

def checkResources (m : Manifest) : Verdict :=
  verdict (collect resourceRound ⟨fun _ => none, fun _ => none⟩ m.resources)

/-- `seen_ids` and `seen_messages`. -/
structure SeenChannels where
  ids : ℕ → Option String
  messages : String → Option ℕ

def channelRound (taskNames : List String) (seen : SeenChannels) (c : ChannelEntry) :
    List String × SeenChannels :=
  let tag := s!"channel id={c.id}"
  (reportIf (decide (maxIpcChannels ≤ c.id)) s!"{tag}: id >= MAX_IPC_CHANNELS({maxIpcChannels})" ++
    (match seen.ids c.id with
      | some prev => [s!"channel id={c.id} duplicate: message '{prev}' and '{c.message}'"]
      | none => []) ++
    reportIf (!taskNames.contains c.producer)
      s!"{tag}: producer '{c.producer}' orphan (no matching [[task]] name)" ++
    reportIf (!taskNames.contains c.consumer)
      s!"{tag}: consumer '{c.consumer}' orphan (no matching [[task]] name)" ++
    reportIf (c.producer == c.consumer)
      s!"{tag}: producer == consumer ('{c.producer}') — self-loop forbidden" ++
    reportIf (c.size == 0) s!"{tag}: size=0 — message struct must have at least 1 byte" ++
    reportIf (decide (ipcMsgSize < c.size))
      s!"{tag}: size={c.size} > IPC_MSG_SIZE({ipcMsgSize}) — message struct exceeds IPC slot" ++
    (if isBlank c.message then [s!"{tag}: empty message struct name"]
      else
        reportIf (!(c.message.toList.head?.any isAsciiUppercase))
          s!"{tag}: message '{c.message}' not PascalCase (must start uppercase alpha)" ++
        reportIf (c.message.toList.any fun ch => !isAsciiAlphanumeric ch)
          s!"{tag}: message '{c.message}' has non-alphanumeric chars (snake_case forbidden)" ++
        (match seen.messages c.message with
          | some prevId => [s!"message '{c.message}' duplicate: channel id={prevId} and id={c.id}"]
          | none => [])),
   { ids := Function.update seen.ids c.id (some c.message)
     messages := if isBlank c.message then seen.messages
       else Function.update seen.messages c.message (some c.id) })

def checkChannels (m : Manifest) : Verdict :=
  verdict (collect (channelRound (m.tasks.map TaskEntry.name)) ⟨fun _ => none, fun _ => none⟩
    m.channels)

def validActions : List String := ["None", "Read", "Write", "ReadWrite", "Execute", "All"]

/-- A resource past the table ends the checks of that grant and is not remembered. -/
def localCapRound (resourceIds : List ℕ) (taskName : String) (seen : ℕ → Bool) (g : LocalCapGrant) :
    List String × (ℕ → Bool) :=
  if maxResources ≤ g.resourceId then
    ([s!"task '{taskName}': local_cap resource_id={g.resourceId} >= MAX_RESOURCES({maxResources})"],
      seen)
  else
    (reportIf (!resourceIds.contains g.resourceId)
        s!"task '{taskName}': local_cap resource_id={g.resourceId} orphan (no [[resource]] declared)" ++
      reportIf (seen g.resourceId)
        s!"task '{taskName}': duplicate local_cap grant for resource_id={g.resourceId}" ++
      reportIf (!validActions.contains g.action)
        (s!"task '{taskName}': invalid local_cap action '{g.action}' for " ++
          s!"resource_id={g.resourceId} (must be None|Read|Write|ReadWrite|Execute|All)"),
     Function.update seen g.resourceId true)

def checkLocalCaps (m : Manifest) : Verdict :=
  verdict (m.tasks.flatMap fun t =>
    collect (localCapRound (m.resources.map ResourceEntry.id) t.name) (fun _ => false) t.localCaps)

def Verdict.errors : Verdict → List String
  | .ok () => []
  | .error es => es

/-- Without a manifest path the `Cargo.toml` check is skipped. -/
def validateAll (m : Manifest) (host : Option Host) : Verdict :=
  verdict <|
    Verdict.errors (checkTaskIdUniqueness m.tasks) ++
    Verdict.errors (checkNapotAlignment m.tasks) ++
    Verdict.errors (checkIntraTaskOverlap m.tasks) ++
    Verdict.errors (checkCrossTaskOverlap m.tasks) ++
    Verdict.errors (checkKernelTaskOverlap m) ++
    Verdict.errors (checkPmpBudget m) ++
    Verdict.errors (checkSafeNativeProfile m) ++
    (match host with
      | some host => Verdict.errors (checkDemoWaiverCargo m host)
      | none => []) ++
    Verdict.errors (checkResources m) ++
    Verdict.errors (checkChannels m) ++
    Verdict.errors (checkLocalCaps m)

/-! ## The manifest under version control -/

def taskHello : TaskEntry where
  name := "task_hello"
  taskId := 2
  dalLevel := "D"
  demoFeatureWaivers := ["cross-isolation-demo"]
  regions := [
    { name := "text", base := 0x80600000, size := 0x4000, perm := "RX" },
    { name := "rodata", base := 0x80604000, size := 0x1000, perm := "R" },
    { name := "data", base := 0x80605000, size := 0x1000, perm := "RW" },
    { name := "stack", base := 0x80610000, size := 0x2000, perm := "RW" }]
  localCaps := [⟨0, "Write"⟩, ⟨2, "Write"⟩]

def taskWorld : TaskEntry where
  name := "task_world"
  taskId := 3
  dalLevel := "D"
  regions := [
    { name := "text", base := 0x80700000, size := 0x4000, perm := "RX" },
    { name := "rodata", base := 0x80704000, size := 0x1000, perm := "R" },
    { name := "data", base := 0x80705000, size := 0x1000, perm := "RW" },
    { name := "stack", base := 0x80710000, size := 0x2000, perm := "RW" }]
  localCaps := [⟨1, "Write"⟩, ⟨2, "Read"⟩]

def sipahiToml : Manifest where
  pmpEntries := 16
  tasks := [taskHello, taskWorld]
  resources := [⟨0, "uart_console", "device"⟩, ⟨1, "blackbox", "log"⟩,
    ⟨2, "channel_greeting", "channel_endpoint"⟩, ⟨3, "reserved", "reserved"⟩]
  channels := [⟨2, "task_hello", "task_world", "GreetingPing", 16⟩]

/-- The task crates next to it; the waived feature is declared and off by default. -/
def workspaceHost : Host where
  cargoToml := fun name =>
    if name = "task_hello" then
      .parsed (.table [("cross-isolation-demo", .array [])])
    else .parsed .absent
  debugStrings := fun names =>
    "[" ++ ", ".intercalate (names.map fun n => "\"" ++ n ++ "\"") ++ "]"

theorem sipahiToml_accepted : validateAll sipahiToml (some workspaceHost) = .ok () := by
  decide +kernel

end SntmManifest
