import Sipahi.KernelRevocation

/-!
# The local capability path

`sys_cap_invoke` accepts a 16-bit resource and hands its low byte to `local_cap_check`.
-/
namespace KernelLocalCap

open KernelTypes KernelCapability KernelState KernelScheduler KernelSyscall KernelTrap
open KernelSelection KernelRevocation KernelReference GuardedExecution

/-- The resource is a column of the table, the action a known one, and the cell allows it. -/
def TableAllows (table : CapTable) (caller : TaskIndex) (resource action : ℕ) : Prop :=
  ∃ (hr : resource < maxResources) (requested : CapAction),
    CapAction.fromU8 action = some requested ∧ (table caller ⟨resource, hr⟩).allows requested = true

/-- The call on the local path comes back with `E_OK`. -/
def LocalCallOk (P : Platform) (s : Sys) (resource action : ℕ) : Prop :=
  ∃ u, dispatch P s sysCapInvokeId 0x80 resource action = .ok (u, some errOk)

/-- A resource of two bytes whose low byte is a granted one. -/
def Aliased (P : Platform) (caller : TaskIndex) (resource action : ℕ) : Prop :=
  u8Max < resource ∧ resource ≤ u16Max ∧
    TableAllows P.localCapTable caller (resource % 2 ^ 8) action

theorem localCapCheck_iff (table : CapTable) (caller : TaskIndex) (resource action : ℕ) :
    localCapCheck table caller.val resource action = true ↔
      TableAllows table caller resource action := by
  rw [localCapCheck, dif_pos caller.isLt, TableAllows]
  split
  · rename_i hr
    constructor
    · intro hallow
      cases hreq : CapAction.fromU8 action with
      | none =>
        rw [hreq] at hallow
        cases hallow
      | some requested =>
        rw [hreq] at hallow
        exact ⟨hr, requested, rfl, hallow⟩
    · rintro ⟨_, requested, hreq, hallow⟩
      rw [hreq]
      exact hallow
  · rename_i hr
    simp only [Bool.false_eq_true, false_iff]
    intro h
    exact hr h.1

theorem TableAllows.action_le {table : CapTable} {caller : TaskIndex} {resource action : ℕ}
    (h : TableAllows table caller resource action) : action ≤ u8Max := by
  obtain ⟨-, requested, hreq, -⟩ := h
  rw [CapAction.fromU8.eq_def] at hreq
  split at hreq
  all_goals first
    | decide
    | cases hreq

theorem sysCapInvoke_local_iff (P : Platform) (s : Sys) (resource action : ℕ) :
    (∃ u, sysCapInvoke P s 0x80 resource action = .ok (u, errOk)) ↔
      resource ≤ u16Max ∧
        TableAllows P.localCapTable s.currentTask (resource % 2 ^ 8) action := by
  have hgranted : capabilityGranted P s 0x80 resource action =
      some (localCapCheck P.localCapTable s.currentTask.val (resource % 2 ^ 8) action) := by
    simp [capabilityGranted]
  rw [sysCapInvoke, hgranted, ← localCapCheck_iff]
  constructor
  · rintro ⟨u, hu⟩
    split at hu
    · simp [errInvalidArg, errOk, usizeMax] at hu
    · rename_i hrange
      refine ⟨by omega, ?_⟩
      obtain ⟨v, -, hu⟩ := bind_eq_ok.mp hu
      by_contra hdenied
      rw [if_neg hdenied] at hu
      simp [errNoCapability, errOk, usizeMax] at hu
  · rintro ⟨hres, hallow⟩
    have hact := ((localCapCheck_iff ..).mp hallow).action_le
    rw [if_neg (by simp only [u8Max] at hact ⊢; omega), hallow]
    exact ⟨_, rfl⟩

theorem dispatch_local_iff (P : Platform) (s : Sys) (resource action : ℕ) :
    LocalCallOk P s resource action ↔
      resource ≤ u16Max ∧
        TableAllows P.localCapTable s.currentTask (resource % 2 ^ 8) action := by
  rw [← incrementSyscallCount_currentTask s, ← sysCapInvoke_local_iff, LocalCallOk, dispatch,
    if_neg (by decide)]
  constructor
  · rintro ⟨u, hu⟩
    obtain ⟨⟨v, x⟩, hv, hu⟩ := bind_eq_ok.mp hu
    obtain ⟨⟨w, r⟩, hw, hv⟩ := bind_eq_ok.mp hv
    cases hv
    have hr : hideKernelPointer P r = errOk :=
      Option.some.inj (congrArg Prod.snd (Except.ok.inj hu))
    rw [(hideKernelPointer_ok P r).mp hr] at hw
    exact ⟨_, hw⟩
  · rintro ⟨u, hu⟩
    have hkept := (hideKernelPointer_ok P errOk).mpr rfl
    exact ⟨u, bind_eq_ok.mpr ⟨(u, some errOk), bind_eq_ok.mpr ⟨_, hu, rfl⟩,
      congrArg (fun r => Except.ok (u, some r)) hkept⟩⟩

/-- A resource of one byte is its own low byte, and a larger one is outside the table. -/
theorem local_call_exact_iff (P : Platform) (s : Sys) (resource action : ℕ) :
    (LocalCallOk P s resource action ↔
        TableAllows P.localCapTable s.currentTask resource action) ↔
      ¬ Aliased P s.currentTask resource action := by
  rw [dispatch_local_iff, Aliased]
  by_cases hbyte : resource ≤ u8Max
  · have hmod : resource % 2 ^ 8 = resource := by
      simp only [u8Max] at hbyte
      omega
    have hshort : resource ≤ u16Max := by
      simp only [u8Max, u16Max] at hbyte ⊢
      omega
    rw [hmod]
    simp only [hshort, true_and, true_iff]
    intro h
    omega
  · have hoff : ¬ TableAllows P.localCapTable s.currentTask resource action := by
      rintro ⟨hr, -⟩
      simp only [u8Max, maxResources] at hbyte hr
      omega
    simp only [hoff, iff_false, not_le.mp hbyte, true_and]

/-- Task 2 holds a write grant on resource 0 and is let through to resource 256. -/
theorem resource_alias_granted : ¬ ∀ (P : Platform) (s : Sys),
    Reachable (kernel P) anyStep s → ∀ resource action, resource ≤ usizeMax → action ≤ usizeMax →
      (LocalCallOk P s resource action ↔
        TableAllows P.localCapTable s.currentTask resource action) := by
  intro h
  obtain ⟨s, hs, ht⟩ := endsWith_iff.mp (show endsWith (scenario [nativeTask 2 6 3 500000 50] [])
    (fun s => decide (s.currentTask = 2)) = true by decide +kernel)
  have hcaller := of_decide_eq_true ht
  have hexact := h referencePlatform s (booted_reachable hs) 256 2 (by decide) (by decide)
  rw [dispatch_local_iff, hcaller] at hexact
  obtain ⟨hoff, -⟩ := hexact.mp ⟨by decide, by decide, .write, rfl, by decide⟩
  exact absurd hoff (by decide)

end KernelLocalCap
