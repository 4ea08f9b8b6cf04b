import Sipahi.KernelTypes
import Mathlib.Logic.Function.Basic

/-!
# PMP registers, task profiles and the shadow check

`pmpaddr0-7` and `pmpcfg0` are set up at boot; `pmpaddr8-15` and `pmpcfg2` belong to the task
that runs. Every write is mirrored in a shadow that the timer tick compares with the registers.
-/
namespace KernelPmp

open KernelTypes

def pmpR : ℕ := 0x01
def pmpW : ℕ := 0x02
def pmpX : ℕ := 0x04
def pmpTor : ℕ := 0x08
def pmpNapot : ℕ := 0x18
def pmpL : ℕ := 0x80
def pmpNapotRw : ℕ := 0x1B
def pmpNapotMask8kb : ℕ := 0x3FF
def pmpDynamicStartEntry : ℕ := 8
def maxPmpEntries : ℕ := 16
def uartBase : ℕ := 0x10000000
def uartEnd : ℕ := uartBase + 0x100

inductive PmpEncoding where
  | napot (addr sizeLog2 : ℕ)
  | tor (lo hi : ℕ)
  deriving DecidableEq

structure Permission where
  r : Bool
  w : Bool
  x : Bool
  deriving DecidableEq

def Permission.RX : Permission := ⟨true, false, true⟩
def Permission.R : Permission := ⟨true, false, false⟩
def Permission.RW : Permission := ⟨true, true, false⟩
def Permission.NONE : Permission := ⟨false, false, false⟩

inductive Access where
  | read | write | execute
  deriving DecidableEq

def Access.matches : Access → Permission → Bool
  | .read, perm => perm.r
  | .write, perm => perm.w
  | .execute, perm => perm.x

structure Region where
  base : ℕ
  size : ℕ
  encoding : PmpEncoding
  perm : Permission
  deriving DecidableEq

/-- `regions[..region_count]` of a profile; at most six. -/
structure PmpProfile where
  activeRegions : List Region
  length_le : activeRegions.length ≤ 6

def PmpProfile.EMPTY : PmpProfile := ⟨[], by decide⟩

def napotRegion (base size addr sizeLog2 : ℕ) (perm : Permission) : Region :=
  ⟨base, size, .napot addr sizeLog2, perm⟩

/-- The generated `PMP_PROFILES` of the manifest under version control. -/
def generatedPmpProfiles : TaskIndex → PmpProfile := fun task =>
  match task.val with
  | 2 => ⟨[napotRegion 0x80600000 0x4000 0x201807ff 14 .RX,
      napotRegion 0x80604000 0x1000 0x201811ff 12 .R,
      napotRegion 0x80605000 0x1000 0x201815ff 12 .RW,
      napotRegion 0x80610000 0x2000 0x201843ff 13 .RW], by decide⟩
  | 3 => ⟨[napotRegion 0x80700000 0x4000 0x201c07ff 14 .RX,
      napotRegion 0x80704000 0x1000 0x201c11ff 12 .R,
      napotRegion 0x80705000 0x1000 0x201c15ff 12 .RW,
      napotRegion 0x80710000 0x2000 0x201c43ff 13 .RW], by decide⟩
  | _ => .EMPTY

structure Pmp where
  cfg0 : ℕ
  cfg2 : ℕ
  addr : Fin 16 → ℕ
  shadow : ℕ
  shadowAddrs : Fin 8 → ℕ
  shadowAddr8 : ℕ
  shadowCfg2 : ℕ
  shadowDynAddrs : Fin 8 → ℕ

/-- Registers and shadows at reset. -/
def Pmp.reset : Pmp where
  cfg0 := 0
  cfg2 := 0
  addr := fun _ => 0
  shadow := 0
  shadowAddrs := fun _ => 0
  shadowAddr8 := 0
  shadowCfg2 := 0
  shadowDynAddrs := fun _ => 0

def packPmpcfg (configs : Fin 8 → ℕ) : ℕ :=
  (List.finRange 8).foldl (fun result i => result ||| (configs i <<< (i.val * 8))) 0

/-- The linker symbols that bound the kernel's sections; `uartMapped` holds in builds with
`debug-boot`, `trace` or `self-test`. -/
structure SectionBounds where
  textStart : ℕ
  textEnd : ℕ
  rodataStart : ℕ
  rodataEnd : ℕ
  dataStart : ℕ
  pmpDataEnd : ℕ
  uartMapped : Bool

def SectionBounds.addrs (b : SectionBounds) : Fin 8 → ℕ := fun i =>
  match i.val with
  | 0 => b.textStart
  | 1 => b.textEnd
  | 2 => b.rodataStart
  | 3 => b.rodataEnd
  | 4 => b.dataStart
  | 5 => b.pmpDataEnd
  | 6 => if b.uartMapped then uartBase else 0
  | _ => if b.uartMapped then uartEnd else 0

def SectionBounds.configs (b : SectionBounds) : Fin 8 → ℕ := fun i =>
  match i.val with
  | 1 => pmpTor ||| pmpR ||| pmpX ||| pmpL
  | 3 => pmpTor ||| pmpR ||| pmpL
  | 5 => pmpTor ||| pmpR ||| pmpW ||| pmpL
  | 7 => if b.uartMapped then pmpTor ||| pmpR ||| pmpW ||| pmpL else 0
  | _ => 0

/-- `pmpaddr8` is left alone here. -/
def Pmp.initPmp (b : SectionBounds) (p : Pmp) : Pmp :=
  let packed := packPmpcfg b.configs
  { p with
    addr := fun i =>
      if h : i.val < 8 then b.addrs ⟨i.val, h⟩ >>> 2 else if i.val = 8 then p.addr i else 0
    cfg0 := packed
    shadow := packed
    shadowAddrs := fun i => b.addrs i >>> 2 }

def Pmp.writePerTaskNapot (p : Pmp) (napotAddr cfgVal : ℕ) : Pmp :=
  { p with
    addr := fun i => if i.val = 8 then napotAddr else if 8 < i.val then 0 else p.addr i
    cfg2 := cfgVal }

def Pmp.updateTaskPmpShadow (p : Pmp) (addr cfg : ℕ) : Pmp :=
  { p with
    shadowAddr8 := addr
    shadowCfg2 := cfg
    shadowDynAddrs := fun i => if i.val = 0 then addr else 0 }

def Pmp.updateDynamicPmpShadow (p : Pmp) (addrs : Fin 8 → ℕ) (cfg2 : ℕ) : Pmp :=
  { p with shadowCfg2 := cfg2, shadowAddr8 := addrs 0, shadowDynAddrs := addrs }

def permToCfg (p : Permission) : ℕ :=
  (if p.r then pmpR else 0) ||| (if p.w then pmpW else 0) ||| (if p.x then pmpX else 0)

/-- The PMP entries a region takes, as `(pmpaddr, cfg byte)`. -/
def Region.entries (r : Region) : List (ℕ × ℕ) :=
  match r.encoding with
  | .napot addr _ => [(addr, permToCfg r.perm ||| pmpNapot)]
  | .tor lo hi => [(lo >>> 2, 0), (hi >>> 2, permToCfg r.perm ||| pmpTor)]

/-- Entries 8 to 15 are filled in order and what does not fit is dropped. -/
def PmpProfile.dynamicEntries (p : PmpProfile) : List (ℕ × ℕ) :=
  (p.activeRegions.flatMap Region.entries).take (maxPmpEntries - pmpDynamicStartEntry)

def dynamicAddrs (entries : List (ℕ × ℕ)) : Fin 8 → ℕ := fun i => (entries.getD i.val (0, 0)).1

def dynamicCfg2 (entries : List (ℕ × ℕ)) : ℕ :=
  packPmpcfg fun i => (entries.getD i.val (0, 0)).2

/-- Entries past the profile are zeroed; the shadow gets what the registers get. -/
def Pmp.reloadPmpProfile (p : Pmp) (profile : PmpProfile) : Pmp :=
  let newAddrs := dynamicAddrs profile.dynamicEntries
  let newCfg2 := dynamicCfg2 profile.dynamicEntries
  Pmp.updateDynamicPmpShadow
    { p with
      addr := fun i => if h : 8 ≤ i.val then newAddrs ⟨i.val - 8, by omega⟩ else p.addr i
      cfg2 := newCfg2 }
    newAddrs newCfg2

def Pmp.verifyPmpIntegrity (p : Pmp) : Bool :=
  p.cfg0 == p.shadow &&
    (List.finRange 8).all (fun i => p.addr ⟨i.val, by omega⟩ == p.shadowAddrs i) &&
    p.cfg2 == p.shadowCfg2 &&
    (List.finRange 8).all (fun i => p.addr ⟨8 + i.val, by omega⟩ == p.shadowDynAddrs i)

end KernelPmp
