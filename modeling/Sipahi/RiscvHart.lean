import Mathlib.Algebra.Order.Ring.Int
import Mathlib.Algebra.Order.Ring.Nat
import Mathlib.Data.List.Basic
import Mathlib.Logic.Function.Basic

/-!
# Straight-line RV64 code on one hart

The instructions that trap entry, context switch and trap exit sequences are made of. The
location type of loads and stores is a parameter: a program resolves base register plus
displacement to a location when it is written down.
-/
namespace RiscvHart

inductive Reg where
  | ra | sp | gp | tp | t0 | t1 | t2 | t3 | t4 | t5 | t6
  | a0 | a1 | a2 | a3 | a4 | a5 | a6 | a7
  | s0 | s1 | s2 | s3 | s4 | s5 | s6 | s7 | s8 | s9 | s10 | s11
  deriving DecidableEq, Repr

inductive Csr where
  | mstatus | mepc | mcause | mtval | mscratch
  deriving DecidableEq, Repr

/-- Registers that a callee has to leave as it found them, the stack pointer apart. -/
def Reg.calleeSaved : Reg → Bool
  | .s0 | .s1 | .s2 | .s3 | .s4 | .s5 | .s6 | .s7 | .s8 | .s9 | .s10 | .s11 => true
  | _ => false

/-- Registers that compiled code does not allocate. -/
def Reg.reserved : Reg → Bool
  | .gp | .tp => true
  | _ => false

def xlen : ℕ := 2 ^ 64

/-- Two's complement addition of an immediate, with the wrap at 64 bits. -/
def addImm (x : ℕ) (imm : ℤ) : ℕ := ((x + imm) % (xlen : ℤ)).toNat

inductive Instr (Loc : Type*) where
  | sd (rs : Reg) (dst : Loc)
  | ld (rd : Reg) (src : Loc)
  | csrr (rd : Reg) (c : Csr)
  | csrw (c : Csr) (rs : Reg)
  | csrwZero (c : Csr)
  | csrrw (rd : Reg) (c : Csr) (rs : Reg)
  | addi (rd rs : Reg) (imm : ℤ)
  | mv (rd rs : Reg)
  | li (rd : Reg) (imm : ℕ)

structure Hart (Loc : Type*) where
  regs : Reg → ℕ
  csrs : Csr → ℕ
  mem : Loc → ℕ
  pc : ℕ
  userMode : Bool

variable {Loc : Type*}

def Hart.setReg (h : Hart Loc) (r : Reg) (v : ℕ) : Hart Loc :=
  { h with regs := Function.update h.regs r v }

def Hart.setCsr (h : Hart Loc) (c : Csr) (v : ℕ) : Hart Loc :=
  { h with csrs := Function.update h.csrs c v }

def Hart.store [DecidableEq Loc] (h : Hart Loc) (l : Loc) (v : ℕ) : Hart Loc :=
  { h with mem := Function.update h.mem l v }

def exec [DecidableEq Loc] (h : Hart Loc) : Instr Loc → Hart Loc
  | .sd rs dst => h.store dst (h.regs rs)
  | .ld rd src => h.setReg rd (h.mem src)
  | .csrr rd c => h.setReg rd (h.csrs c)
  | .csrw c rs => h.setCsr c (h.regs rs)
  | .csrwZero c => h.setCsr c 0
  | .csrrw rd c rs => (h.setCsr c (h.regs rs)).setReg rd (h.csrs c)
  | .addi rd rs imm => h.setReg rd (addImm (h.regs rs) imm)
  | .mv rd rs => h.setReg rd (h.regs rs)
  | .li rd imm => h.setReg rd imm

def execAll [DecidableEq Loc] (h : Hart Loc) (code : List (Instr Loc)) : Hart Loc :=
  code.foldl exec h

theorem execAll_append [DecidableEq Loc] (h : Hart Loc) (a b : List (Instr Loc)) :
    execAll h (a ++ b) = execAll (execAll h a) b :=
  List.foldl_append

/-- Machine previous privilege, bits 12:11 of `mstatus`. -/
def mppOf (mstatus : ℕ) : ℕ := (mstatus >>> 11) &&& 3

/-- Trap return: continue at `mepc` in the previous privilege mode. -/
def Hart.mret (h : Hart Loc) : Hart Loc :=
  { h with pc := h.csrs .mepc, userMode := mppOf (h.csrs .mstatus) == 0 }

end RiscvHart
