import Sipahi.KernelCapability
import Sipahi.KernelPmpReload
import Sipahi.RustReader
import Sipahi.SntmManifest

/-!
# Generating the kernel's tables

The files that `sntm-validate` writes for `PMP_PROFILES`, `LOCAL_CAP_TABLE` and `BOOT_CHANNELS`,
comments included, and what the compiler reads in them.
-/
namespace SntmCodegen

open KernelTypes KernelPmp KernelPmpReload KernelCapability KeyedScan SntmManifest
open RustLexer RustReader

def maxRegions : ℕ := 6

/-! ## NAPOT encoding -/

def napotSizeLog2 (base size : ℕ) : Option ℕ :=
  if size < 8 then none
  else if size &&& (size - 1) ≠ 0 then none
  else if base &&& (size - 1) ≠ 0 then none
  else some size.log2

def napotPmpaddr (base sizeLog2 : ℕ) : ℕ :=
  let mask := (1 <<< (sizeLog2 - 3)) - 1
  (base >>> 2) ||| mask

/-! ## `PMP_PROFILES` -/

def header : List Char :=
  "//! GENERATED FILE — DO NOT EDIT.\n".toList ++
  "//!\n".toList ++
  "//! Source: sipahi.toml (run `bash scripts/regen_pmp_profiles.sh` or\n".toList ++
  "//! `make regen-pmp` to regenerate).\n".toList ++
  "//! U-25 SNTM Phase 3 codegen — sntm-validate --output-rs output.\n".toList ++
  "//!\n".toList ++
  "//! Drift detection: CI runs sntm-validate again + git diff.\n".toList ++
  "\n".toList ++
  "use crate::arch::pmp::PmpEncoding;\n".toList ++
  "use crate::kernel::pmp::profile::\x7bPermission, PmpProfile, Region\x7d;\n".toList ++
  "\n".toList

/-- Unknown permissions deny. -/
def parsePerm (s : String) : String :=
  match s with
  | "RX" => "Permission::RX"
  | "R" => "Permission::R"
  | "RW" => "Permission::RW"
  | _ => "Permission::NONE"

def emitEncoding (r : RegionEntry) : List Char :=
  match napotSizeLog2 r.base r.size with
  | some log2 =>
    "PmpEncoding::Napot \x7b addr: ".toList ++ hexadecimal (napotPmpaddr r.base log2) ++
      ", size_log2: ".toList ++ decimal log2 ++ " \x7d".toList
  | none =>
    "PmpEncoding::Tor \x7b lo: ".toList ++ hexadecimal r.base ++ ", hi: ".toList ++
      hexadecimal ((r.base + r.size) % 2 ^ 64) ++ " \x7d".toList

def emitRegion (r : RegionEntry) : List Char :=
  "            Region \x7b base: ".toList ++ hexadecimal r.base ++ ", size: ".toList ++
    hexadecimal r.size ++ ", encoding: ".toList ++ emitEncoding r ++ ", perm: ".toList ++
    (parsePerm r.perm).toList ++ " \x7d,\n".toList

def paddingRegion : List Char :=
  "            Region \x7b base: 0, size: 0, encoding: ".toList ++
  "PmpEncoding::Napot \x7b addr: 0, size_log2: 0 \x7d, perm: Permission::NONE \x7d,\n".toList

def emitTaskProfile (t : TaskEntry) : List Char :=
  "    // Task ".toList ++ decimal t.taskId ++ " (".toList ++ t.name.toList ++ ")\n".toList ++
    "    PmpProfile \x7b\n".toList ++ "        region_count: ".toList ++
    decimal t.regions.length ++ ",\n".toList ++ "        regions: [\n".toList ++
    t.regions.flatMap emitRegion ++
    (List.replicate (maxRegions - t.regions.length) paddingRegion).flatten ++
    "        ],\n".toList ++ "    \x7d,\n".toList

/-- `tid_map`. -/
def tidMap (m : Manifest) : ℕ → Option TaskEntry := table TaskEntry.taskId id m.tasks

def emitSlot (m : Manifest) (slot : TaskIndex) : List Char :=
  match tidMap m slot.val with
  | some t => emitTaskProfile t
  | none => "    PmpProfile::EMPTY,\n".toList

def generatePmpProfilesRs (m : Manifest) : List Char :=
  header ++ "pub static PMP_PROFILES: [PmpProfile; 8] = [\n".toList ++
    (List.finRange maxTasks).flatMap (emitSlot m) ++ "];\n".toList

/-! ## Compiling the profiles -/

/-- The associated constants of `Permission`. -/
def permissions : List (List Char × Permission) :=
  [("RX".toList, .RX), ("R".toList, .R), ("RW".toList, .RW), ("NONE".toList, .NONE)]

def napot : Reader PmpEncoding := do
  expect (code "PmpEncoding::Napot \x7b addr:")
  let addr ← number usizeMax
  expect (code ", size_log2:")
  let sizeLog2 ← number u8Max
  expect (code "\x7d")
  pure (.napot addr sizeLog2)

def tor : Reader PmpEncoding := do
  expect (code "PmpEncoding::Tor \x7b lo:")
  let lo ← number usizeMax
  expect (code ", hi:")
  let hi ← number usizeMax
  expect (code "\x7d")
  pure (.tor lo hi)

def permission : Reader Permission := do
  expect (code "Permission::")
  oneOf permissions

def region : Reader Region := do
  expect (code "Region \x7b base:")
  let base ← number usizeMax
  expect (code ", size:")
  let size ← number usizeMax
  expect (code ", encoding:")
  let encoding ← napot <|> tor
  expect (code ", perm:")
  let perm ← permission
  expect (code "\x7d,")
  pure ⟨base, size, encoding, perm⟩

def emptyRegion : Region := ⟨0, 0, .napot 0 0, .NONE⟩

def emptyProfile : Reader ProfileImage := do
  expect (code "PmpProfile::EMPTY,")
  pure ⟨0, fun _ => emptyRegion⟩

/-- The array type fixes six regions and `region_count` is a byte. -/
def taskProfile : Reader ProfileImage := do
  expect (code "PmpProfile \x7b region_count:")
  let regionCount ← number u8Max
  expect (code ", regions: [")
  let regions ← items region 6
  expect (code "], \x7d,")
  pure ⟨regionCount, fun i => regions.getD i.val emptyRegion⟩

def pmpProfiles : Reader (TaskIndex → ProfileImage) := do
  expect (List.replicate 7 .innerDoc ++ code "use crate::arch::pmp::PmpEncoding;" ++
    code "use crate::kernel::pmp::profile::\x7bPermission, PmpProfile, Region\x7d;")
  expect (code "pub static PMP_PROFILES: [PmpProfile; 8] = [")
  let profiles ← items (emptyProfile <|> taskProfile) maxTasks
  expect (code "];")
  pure fun i => profiles.getD i.val ⟨0, fun _ => emptyRegion⟩

/-- The static `PMP_PROFILES`, if the file compiles. -/
def compileProfiles (text : List Char) : Option (TaskIndex → ProfileImage) :=
  compile pmpProfiles text

/-! ## `LOCAL_CAP_TABLE` and `BOOT_CHANNELS` -/

def capHeader : List Char :=
  "//! GENERATED FILE — DO NOT EDIT.\n".toList ++
  "//!\n".toList ++
  "//! Source: sipahi.toml [[resource]] + [[task.local_cap]] + [[channel]] entries.\n".toList ++
  "//! Run `bash scripts/regen_safe_codegen.sh` to regenerate.\n".toList ++
  "//! SAFE-2 (sprint-u31): static local capability table + boot channel ownership.\n".toList ++
  "//!\n".toList ++
  "//! Drift detection: CI runs sntm-validate --output-cap-table + git diff.\n".toList ++
  "\n".toList ++
  "use crate::kernel::capability::cap_action::CapAction;\n".toList ++
  "\n".toList

def actionToVariant (a : String) : String :=
  match a with
  | "None" => "CapAction::None"
  | "Read" => "CapAction::Read"
  | "Write" => "CapAction::Write"
  | "ReadWrite" => "CapAction::ReadWrite"
  | "Execute" => "CapAction::Execute"
  | "All" => "CapAction::All"
  | _ => "CapAction::None"

abbrev CapRow := Fin maxResources → String

def denyRow : CapRow := fun _ => "CapAction::None"

/-- Grants past the last column are dropped, later grants overwrite earlier ones. -/
def grantRow (grants : List LocalCapGrant) : CapRow :=
  grants.foldl (fun r g =>
    if h : g.resourceId < maxResources then
      Function.update r ⟨g.resourceId, h⟩ (actionToVariant g.action)
    else r) denyRow

def capRow (m : Manifest) (slot : TaskIndex) : CapRow :=
  match tidMap m slot.val with
  | some t => grantRow t.localCaps
  | none => denyRow

def slotLabel (m : Manifest) (slot : TaskIndex) : List Char :=
  match tidMap m slot.val with
  | some t => t.name.toList
  | none => "<empty slot>".toList

def emitCapRow (m : Manifest) (slot : TaskIndex) : List Char :=
  "    /* task ".toList ++ decimal slot.val ++ " (".toList ++ slotLabel m slot ++ ") */ [".toList ++
    (capRow m slot ⟨0, by decide⟩).toList ++ ", ".toList ++
    (capRow m slot ⟨1, by decide⟩).toList ++ ", ".toList ++
    (capRow m slot ⟨2, by decide⟩).toList ++ ", ".toList ++
    (capRow m slot ⟨3, by decide⟩).toList ++ "],\n".toList

def nameToId (m : Manifest) : String → Option ℕ := table TaskEntry.name TaskEntry.taskId m.tasks

/-- Channel, producer and consumer. -/
def bootChannel (m : Manifest) (c : ChannelEntry) : ℕ × ℕ × ℕ :=
  (c.id, (nameToId m c.producer).getD 0xFF, (nameToId m c.consumer).getD 0xFF)

def channelComment (c : ChannelEntry) : List Char :=
  "  // channel ".toList ++ decimal c.id ++ " \"".toList ++ c.message.toList ++ "\" ".toList ++
    c.producer.toList ++ " → ".toList ++ c.consumer.toList ++ "\n".toList

def emitBootChannel (m : Manifest) (c : ChannelEntry) : List Char :=
  "    (".toList ++ decimal (bootChannel m c).1 ++ ", ".toList ++ decimal (bootChannel m c).2.1 ++
    ", ".toList ++ decimal (bootChannel m c).2.2 ++ "),".toList ++ channelComment c

def bootChannelsDoc : List Char :=
  "/// SAFE-2 (CR-5): boot.rs iterates this table to call\n".toList ++
  "/// `ipc::assign_channel(id, producer, consumer)` for each entry.\n".toList ++
  "/// Drift guard: manifest [[channel]] + this table = single source.\n".toList

def generateCapTableRs (m : Manifest) : List Char :=
  capHeader ++ "pub static LOCAL_CAP_TABLE: [[CapAction; 4]; 8] = [\n".toList ++
    (List.finRange maxTasks).flatMap (emitCapRow m) ++ "];\n\n".toList ++
    bootChannelsDoc ++ "pub static BOOT_CHANNELS: &[(u8, u8, u8)] = &[\n".toList ++
    m.channels.flatMap (emitBootChannel m) ++ "];\n".toList

/-! ## Compiling the capability tables -/

structure CapTables where
  localCapTable : CapTable
  bootChannels : List (ℕ × ℕ × ℕ)

/-- The variants of `CapAction`. -/
def capActions : List (List Char × CapAction) :=
  [("None".toList, .none), ("Read".toList, .read), ("Write".toList, .write),
    ("ReadWrite".toList, .readWrite), ("Execute".toList, .execute), ("All".toList, .all)]

def capAction : Reader CapAction := do
  expect (code "CapAction::")
  oneOf capActions

def cells (a b c d : CapAction) : Fin maxResources → CapAction := fun j => [a, b, c, d].getD j.val .none

def capActionRow : Reader (Fin maxResources → CapAction) := do
  expect (code "[")
  let a ← capAction
  expect (code ",")
  let b ← capAction
  expect (code ",")
  let c ← capAction
  expect (code ",")
  let d ← capAction
  expect (code "],")
  pure (cells a b c d)

def channelOwners : Reader (ℕ × ℕ × ℕ) := do
  expect (code "(")
  let id ← number u8Max
  expect (code ",")
  let producer ← number u8Max
  expect (code ",")
  let consumer ← number u8Max
  expect (code "),")
  pure (id, producer, consumer)

def capTables : Reader CapTables := do
  expect (List.replicate 7 .innerDoc ++
    code "use crate::kernel::capability::cap_action::CapAction;")
  expect (code "pub static LOCAL_CAP_TABLE: [[CapAction; 4]; 8] = [")
  let rows ← items capActionRow maxTasks
  expect (code "];")
  expect (List.replicate 3 .outerDoc ++ code "pub static BOOT_CHANNELS: &[(u8, u8, u8)] = &[")
  let channels ← many channelOwners
  expect (code "];")
  pure ⟨fun i => rows.getD i.val fun _ => .none, channels⟩

/-- The statics `LOCAL_CAP_TABLE` and `BOOT_CHANNELS`, if the file compiles. -/
def compileCapTable (text : List Char) : Option CapTables := compile capTables text

end SntmCodegen
