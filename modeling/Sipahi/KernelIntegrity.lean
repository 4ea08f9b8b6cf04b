import Sipahi.KernelSpatial
import Sipahi.KernelMessages
import Sipahi.KernelCreation

/-!
# No task writes into the memory of another one

The hart stores where the PMP lets it, the kernel where the check of the pointer lets it. Both stay
within the slot of the current task, as long as nobody stores into the data of the kernel: there the
PMP stops no task, and what the kernel then does is not its code any more.
-/
namespace KernelIntegrity

open KernelTypes KernelIpcChannel KernelPmp KernelPmpAgreement KernelState KernelScheduler
open KernelSyscall KernelTrap KernelTaskInvariants KernelCreation KernelIpcSyscalls KernelMessages
open KernelSpatial KernelReference SntmAcceptance SntmIsolation SntmProfiles GuardedExecution
open SntmManifest (Manifest TaskEntry RegionEntry Host validateAll sipahiToml_accepted)

/-- The byte lies in a region of the slot's profile or on the stack of the slot. -/
def SlotHolds (P : Platform) (i : TaskIndex) (a : ℕ) : Prop :=
  (∃ r ∈ (P.pmpProfiles i).activeRegions, r.base ≤ a ∧ a < r.base + r.size) ∨
    (P.taskStackBase i ≤ a ∧ a < P.taskStackBase i + taskStackSize)

/-- The same for the regions that grant an access. -/
def SlotAllows (P : Platform) (i : TaskIndex) (access : Access) (a : ℕ) : Prop :=
  (∃ r ∈ (P.pmpProfiles i).activeRegions, r.base ≤ a ∧ a < r.base + r.size ∧
    access.matches r.perm = true) ∨
    (P.taskStackBase i ≤ a ∧ a < P.taskStackBase i + taskStackSize)

/-- The slot sleeps and the task that executes is bound by the PMP. -/
def OthersExecute (P : Platform) (i : TaskIndex) (s : Sys) (e : TrapEvent) : Prop :=
  s.currentTask ≠ i ∧ StoresPermitted P s e

variable {P : Platform} {s v : Sys} {e : TrapEvent} {i : TaskIndex} {access : Access} {a : ℕ}

theorem SlotAllows.holds (h : SlotAllows P i access a) : SlotHolds P i a := by
  rcases h with ⟨r, hr, hbase, hlt, -⟩ | hstack
  · exact .inl ⟨r, hr, hbase, hlt⟩
  · exact .inr hstack

theorem permitted_allows (h : Reachable (kernel P) anyStep s)
    (hexact : ∀ i, ∀ r ∈ (P.pmpProfiles i).activeRegions, HardwareExact r)
    (hout : sectionAt P a = none) (hp : permitted s.pmp access a = true) :
    SlotAllows P s.currentTask access a := by
  rw [permitted_outside h hexact hout] at hp
  obtain ⟨r, hr, -, hbase, hend, hperm⟩ := regionsAllow_region hp
  rw [regionsOf] at hr
  split at hr
  · exact .inl ⟨r, hr, hbase, hend, hperm⟩
  · obtain rfl := List.mem_singleton.mp hr
    exact .inr ⟨hbase, hend⟩

theorem messageGranted_allows {ptr : ℕ} (h : Reachable (kernel P) anyStep s)
    (hg : MessageGranted P s access ptr) (hbase : ptr ≤ a) (hlt : a < ptr + ipcMsgSize) :
    SlotAllows P s.currentTask access a := by
  obtain ⟨-, hg⟩ := hg
  split at hg
  · obtain ⟨r, hr, -, hlo, hhi, hperm⟩ := hg
    exact .inl ⟨r, hr, by omega, by omega, hperm⟩
  · rename_i hno
    obtain ⟨base, top, hrange, hlo, hhi⟩ := hg
    have hlive : (s.tasks s.currentTask).live := by
      by_contra hdown
      have hstate : (s.tasks s.currentTask).state = .dead ∨
          (s.tasks s.currentTask).state = .isolated := by
        by_contra hs
        exact hdown ⟨fun hd => hs (.inl hd), fun hi => hs (.inr hi)⟩
      simp [taskStackRange, hstate] at hrange
    have hlegacy : (s.tasks s.currentTask).isSntmNative = false := by
      have hstate : ¬ ((s.tasks s.currentTask).state = .dead ∨
          (s.tasks s.currentTask).state = .isolated) := fun hs => hs.elim hlive.1 hlive.2
      simpa [isTaskSntmNative, hstate] using hno
    rw [legacy_stack h hlive hlegacy] at hrange
    cases hrange
    exact .inr ⟨by omega, by omega⟩

theorem trap_writes_slot (h : Reachable (kernel P) anyStep s)
    (hexact : ∀ i, ∀ r ∈ (P.pmpProfiles i).activeRegions, HardwareExact r)
    (hstep : trap P s e = .ok v) (hstores : StoresPermitted P s e) (hout : sectionAt P a = none)
    (hchanged : v.userMem a ≠ s.userMem a) : SlotAllows P s.currentTask .write a := by
  by_cases htask : e.userMem a = s.userMem a
  · have hkernel : v.userMem a ≠ e.userMem a := by
      rw [htask]
      exact hchanged
    cases trap_traffic (reachable_taskInv h) hstep with
    | send hs => exact absurd (congrFun hs.userMem a) hkernel
    | none hn => exact absurd (congrFun hn.userMem a) hkernel
    | recv hr =>
      by_cases hin : e.regs .a1 ≤ a ∧ a < e.regs .a1 + ipcMsgSize
      · exact messageGranted_allows h hr.granted hin.1 hin.2
      · exact absurd (hr.userMem a (by omega)) hkernel
  · exact permitted_allows h hexact hout (hstores a htask).1

/-! ## Slots of a manifest -/

/-- No stack of the kernel lies in a region of the manifest. -/
def StacksApart (P : Platform) (m : Manifest) : Prop :=
  ∀ t ∈ m.tasks, ∀ r ∈ t.regions, ∀ i, r.base + r.size ≤ P.taskStackBase i ∨
    P.taskStackBase i + taskStackSize ≤ r.base

instance (P : Platform) (m : Manifest) : Decidable (StacksApart P m) :=
  inferInstanceAs (Decidable (∀ t ∈ m.tasks, _))

theorem profile_region {m : Manifest} (hm : Accepted m) (hprofiles : ProfilesOf P m) {r : Region}
    (hr : r ∈ (P.pmpProfiles i).activeRegions) :
    ∃ t ∈ m.tasks, t.taskId = i.val ∧ ∃ q ∈ t.regions, q.base = r.base ∧ q.size = r.size := by
  rcases profile_regions hm hprofiles i with ⟨t, ht, hid, hregions⟩ | ⟨-, hregions⟩
  · rw [hregions] at hr
    obtain ⟨q, hq, rfl⟩ := List.mem_map.mp hr
    exact ⟨t, ht, hid, q, hq, rfl, rfl⟩
  · rw [hregions] at hr
    cases hr

theorem slotHolds_unique {m : Manifest} (hm : Accepted m) (hprofiles : ProfilesOf P m)
    (hstacks : StacksApart P m) {j : TaskIndex} (hi : SlotHolds P i a) (hj : SlotHolds P j a) :
    i = j := by
  have hmixed : ∀ {x y : TaskIndex} {r : Region}, r ∈ (P.pmpProfiles x).activeRegions →
      r.base ≤ a → a < r.base + r.size → P.taskStackBase y ≤ a →
      a < P.taskStackBase y + taskStackSize → False := by
    intro x y r hr hbase hlt hlo hhi
    obtain ⟨t, ht, -, q, hq, hqbase, hqsize⟩ := profile_region hm hprofiles hr
    have := hstacks t ht q hq y
    omega
  rcases hi with ⟨r, hr, hbase, hlt⟩ | ⟨hlo, hhi⟩
  · rcases hj with ⟨r', hr', hbase', hlt'⟩ | ⟨hlo', hhi'⟩
    · obtain ⟨t, ht, hid, q, hq, hqbase, hqsize⟩ := profile_region hm hprofiles hr
      obtain ⟨t', ht', hid', q', hq', hqbase', hqsize'⟩ := profile_region hm hprofiles hr'
      by_contra hne
      have hneq : t ≠ t' := by
        rintro rfl
        exact hne (Fin.ext (hid.symm.trans hid'))
      have := tasks_apart hm ht ht' hneq q hq q' hq'
      omega
    · exact (hmixed hr hbase hlt hlo' hhi').elim
  · rcases hj with ⟨r', hr', hbase', hlt'⟩ | ⟨hlo', hhi'⟩
    · exact (hmixed hr' hbase' hlt' hlo hhi).elim
    · by_contra hne
      exact Set.disjoint_left.mp (taskStacks_disjoint P hne) ⟨hlo, hhi⟩ ⟨hlo', hhi'⟩

/-- As long as other tasks execute and leave the kernel's data alone, no byte of a slot changes:
neither their stores nor the messages that the kernel hands out reach it. -/
theorem slot_survives_others {m : Manifest} {host : Option Host}
    (hok : validateAll m host = .ok ()) (hnames : ProfileNamesSilent m)
    (hbelow : ∀ t ∈ m.tasks, ∀ r ∈ t.regions, r.base + r.size ≤ 2 ^ 56) (hbuilt : ProfilesFrom P m)
    (hstacks : StacksApart P m) (h : Reachable (kernel P) (StoresPermitted P) s)
    (hout : sectionAt P a = none) (hslot : SlotHolds P i a)
    (hx : Execution (kernel P) (OthersExecute P i) s v) : v.userMem a = s.userMem a := by
  have hm := accepted_of_validateAll hok
  have hprofiles := hbuilt.profilesOf hm hnames
  have hexact := hardwareExact_built hm hprofiles hbelow
  induction hx with
  | refl => rfl
  | @tail u w e hx hothers hstep ih =>
    have hu := h.after (hx.weaken fun _ _ hg => hg.2)
    have hreached : Reachable (kernel P) anyStep u := hu.weaken fun _ _ _ => trivial
    by_contra hchanged
    have hholds := trap_writes_slot hreached hexact hstep hothers.2 hout (by rwa [ih])
    exact hothers.1 (slotHolds_unique hm hprofiles hstacks hholds.holds hslot)

/-- A tick that finds a store of `task_hello` into its own data. -/
def helloStores (s : Sys) : TrapEvent :=
  { timerAt 0x80600000 (fun _ => 0) with
    userMem := fun a => if a = 0x80605000 then 1 else s.userMem a }

/-- The store is permitted and the data of `task_world` stays. -/
theorem taskWorld_survives : ∃ s v,
    Reachable (kernel referencePlatform) (StoresPermitted referencePlatform) s ∧
    trap referencePlatform s (helloStores s) = .ok v ∧
      v.userMem 0x80705000 = s.userMem 0x80705000 := by
  obtain ⟨s, hs, ht⟩ := endsWith_iff.mp (show endsWith
    (scenario [nativeTask 2 6 3 500000 50, nativeTask 3 7 3 500000 50] [])
    (fun s => decide (s.currentTask = 2) && permitted s.pmp .write 0x80605000 &&
      endsWith (trap referencePlatform s (helloStores s)) fun _ => true) = true by decide +kernel)
  obtain ⟨ht, htrap⟩ := Bool.and_eq_true_iff.mp ht
  obtain ⟨hcur, hpermitted⟩ := Bool.and_eq_true_iff.mp ht
  obtain ⟨v, hv, -⟩ := endsWith_iff.mp htrap
  have hstores : StoresPermitted referencePlatform s (helloStores s) := by
    intro a hne
    by_cases ha : a = 0x80605000
    · rw [ha]
      exact ⟨hpermitted, by decide⟩
    · exact absurd (if_neg ha) hne
  have hother : s.currentTask ≠ 3 := by
    rw [of_decide_eq_true hcur]
    decide
  have hx : Execution (kernel referencePlatform) (OthersExecute referencePlatform 3) s v :=
    .tail (.refl s) ⟨hother, hstores⟩ hv
  exact ⟨s, v, booted_reachable hs, hv, slot_survives_others sipahiToml_accepted
    sipahiToml_namesSilent (by decide) reference_profilesFrom (by decide) (booted_reachable hs) rfl
    (.inl (by decide)) hx⟩

/-! ## Read-only regions -/

theorem task_apart {m : Manifest} (hm : Accepted m) {t : TaskEntry} (ht : t ∈ m.tasks)
    {q q' : RegionEntry} (hq : q ∈ t.regions) (hq' : q' ∈ t.regions) (hne : q ≠ q') :
    q.base + q.size ≤ q'.base ∨ q'.base + q'.size ≤ q.base := by
  have hsymm : Std.Symm fun x y : RegionEntry =>
      x.base + x.size ≤ y.base ∨ y.base + y.size ≤ x.base := ⟨fun _ _ h => h.symm⟩
  exact ((List.pairwise_flatMap.mp (Accepted.apart hm)).1 t ht).forall hq hq' hne

theorem slotAllows_write {m : Manifest} (hm : Accepted m) (hprofiles : ProfilesOf P m)
    (hstacks : StacksApart P m) {t : TaskEntry} {q : RegionEntry} (ht : t ∈ m.tasks)
    (hq : q ∈ t.regions) (hbase : q.base ≤ a) (hlt : a < q.base + q.size)
    (hwrites : SlotAllows P i .write a) : Access.write.matches (grantedPerm q.perm) = true := by
  rcases hwrites with ⟨r, hr, hrbase, hrlt, hperm⟩ | ⟨hlo, hhi⟩
  · rcases profile_regions hm hprofiles i with ⟨u, hu, -, hregions⟩ | ⟨-, hregions⟩
    · rw [hregions] at hr
      obtain ⟨q', hq', rfl⟩ := List.mem_map.mp hr
      have hq'base : q'.base ≤ a := hrbase
      have hq'lt : a < q'.base + q'.size := hrlt
      by_cases htu : t = u
      · subst htu
        by_cases hqq : q = q'
        · subst hqq
          exact hperm
        · have := task_apart hm ht hq hq' hqq
          omega
      · have := tasks_apart hm ht hu htu q hq q' hq'
        omega
    · rw [hregions] at hr
      cases hr
  · have := hstacks t ht q hq i
    omega

theorem readOnly_survives {m : Manifest}
    (hm : Accepted m) (hbelow : ∀ t ∈ m.tasks, ∀ r ∈ t.regions, r.base + r.size ≤ 2 ^ 56)
    (hprofiles : ProfilesOf P m) (hstacks : StacksApart P m) (h : Reachable (kernel P) anyStep s)
    {t : TaskEntry} {q : RegionEntry} (ht : t ∈ m.tasks) (hq : q ∈ t.regions)
    (hreadOnly : Access.write.matches (grantedPerm q.perm) = false) (hbase : q.base ≤ a)
    (hlt : a < q.base + q.size) (hout : sectionAt P a = none)
    (hx : Execution (kernel P) (StoresPermitted P) s v) : v.userMem a = s.userMem a := by
  have hexact := hardwareExact_built hm hprofiles hbelow
  induction hx with
  | refl => rfl
  | @tail u w e hx hstores hstep ih =>
    have hu := h.after (hx.weaken fun _ _ _ => trivial)
    by_contra hchanged
    have hwrites := trap_writes_slot hu hexact hstep hstores hout (by rwa [ih])
    rw [slotAllows_write hm hprofiles hstacks ht hq hbase hlt hwrites] at hreadOnly
    cases hreadOnly

end KernelIntegrity
