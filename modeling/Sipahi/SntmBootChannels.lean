import Sipahi.KernelBoot
import Sipahi.KernelReference
import Sipahi.SntmCapFile

/-!
# Channel ownership after boot

Boot assigns the two legacy channels, then every entry of `BOOT_CHANNELS`, and seals. The ids of
the manifest's channels and tasks are bounded by different stages, and nothing keeps a manifest
channel off the legacy ones.
-/
namespace SntmBootChannels

open KernelTypes KernelState KernelIpcChannel KernelTrap KernelBoot KernelReference
open GuardedExecution
open KeyedScan SntmManifest SntmAcceptance SntmCodegen SntmCapFile

/-- One entry of `BOOT_CHANNELS`: channel, producer, consumer. -/
def nativeCall (row : ℕ × ℕ × ℕ) : BootCall := .assignNativeChannel row.1 row.2.1 row.2.2

/-- The channel step of `boot::init` for the legacy tasks `a` and `b`. -/
def bootChannelCalls (a b : ℕ) (bootChannels : List (ℕ × ℕ × ℕ)) : List BootCall :=
  .assignChannel 0 a b :: .assignChannel 1 b a :: (bootChannels.map nativeCall ++ [.sealChannels])

/-! ## Assignments on an open pool -/

/-- The owners by channel number. -/
def ownerTable (s : Sys) (k : ℕ) : Option (ℕ × ℕ) :=
  if h : k < maxIpcChannels then some (s.pool.owners ⟨k, h⟩) else none

/-- What `assign_channel` checks of its arguments. -/
def RowValid (row : ℕ × ℕ × ℕ) : Prop :=
  row.1 < maxIpcChannels ∧ row.2.1 < maxTasks ∧ row.2.2 < maxTasks

theorem assignChannel_open {p : ChannelPool} (hopen : p.sealed = false) {id producer consumer : ℕ}
    {pool : ChannelPool} :
    p.assignChannel id producer consumer = some pool ↔
      RowValid (id, producer, consumer) ∧ pool = { p with
        owners := fun i => if i.val = id then (producer, consumer) else p.owners i } := by
  have howners : ∀ h : id < maxIpcChannels, Function.update p.owners ⟨id, h⟩ (producer, consumer) =
      fun i => if i.val = id then (producer, consumer) else p.owners i := by
    intro h
    funext i
    by_cases hi : i.val = id
    · have hcell : i = ⟨id, h⟩ := Fin.ext hi
      rw [hcell, Function.update_self, if_pos rfl]
    · have hcell : i ≠ ⟨id, h⟩ := fun hc => hi (congrArg Fin.val hc)
      rw [Function.update_of_ne hcell, if_neg hi]
  rw [ChannelPool.assignChannel, RowValid]
  rw [hopen, if_neg (by simp)]
  by_cases hid : id < maxIpcChannels
  · rw [dif_pos hid]
    by_cases htasks : maxTasks ≤ producer ∨ maxTasks ≤ consumer
    · rw [if_pos htasks]
      constructor
      · intro h
        cases h
      · rintro ⟨⟨_, hproducer, hconsumer⟩, _⟩
        dsimp only at hproducer hconsumer
        omega
    · rw [if_neg htasks, howners hid, Option.some.injEq]
      constructor
      · rintro rfl
        dsimp only
        exact ⟨⟨hid, by omega, by omega⟩, rfl⟩
      · rintro ⟨_, rfl⟩
        rfl
  · rw [dif_neg hid]
    constructor
    · intro h
      cases h
    · rintro ⟨⟨hlt, _⟩, _⟩
      exact absurd hlt hid

/-- The state after an accepted assignment. -/
def assigned (s : Sys) (id producer consumer : ℕ) : Sys :=
  { s with pool := { s.pool with
      owners := fun i => if i.val = id then (producer, consumer) else s.pool.owners i } }

theorem ownerTable_assigned {s : Sys} {id producer consumer : ℕ} (hid : id < maxIpcChannels) :
    ownerTable (assigned s id producer consumer) =
      Function.update (ownerTable s) id (some (producer, consumer)) := by
  funext k
  by_cases hk : k = id
  · subst k
    simp [ownerTable, assigned, hid]
  · rw [Function.update_of_ne hk]
    simp [ownerTable, assigned, hk]

theorem bootAssign_open {s : Sys} (hopen : s.pool.sealed = false) {id producer consumer : ℕ}
    {reason : String} {u : Sys} :
    bootAssign s id producer consumer reason = .ok u ↔
      RowValid (id, producer, consumer) ∧ u = assigned s id producer consumer := by
  constructor
  · intro h
    obtain ⟨pool, hpool, rfl⟩ := bootAssign_ok h
    obtain ⟨hvalid, rfl⟩ := (assignChannel_open hopen).mp hpool
    exact ⟨hvalid, rfl⟩
  · rintro ⟨hvalid, rfl⟩
    have hpool : s.pool.assignChannel id producer consumer =
        some (assigned s id producer consumer).pool := (assignChannel_open hopen).mpr ⟨hvalid, rfl⟩
    rw [bootAssign, hpool]
    rfl

/-- The loop over `BOOT_CHANNELS` gets through if every row passes, and the last row that names a
channel owns it. -/
theorem run_nativeCalls {P : Platform} {rows : List (ℕ × ℕ × ℕ)} {s u : Sys}
    (hopen : s.pool.sealed = false) (hrun : run (bootSequence P) s (rows.map nativeCall) = .ok u) :
    (∀ row ∈ rows, RowValid row) ∧ u.pool.sealed = false ∧
      ownerTable u = insertAll Prod.fst Prod.snd (ownerTable s) rows := by
  induction rows generalizing s with
  | nil =>
    cases hrun
    exact ⟨by simp, hopen, rfl⟩
  | cons row rows ih =>
    obtain ⟨v, hv, hrun⟩ := run_cons_ok.mp hrun
    obtain ⟨hvalid, rfl⟩ := (bootAssign_open hopen).mp hv
    obtain ⟨hrest, hsealed, howners⟩ := ih (s := assigned s row.1 row.2.1 row.2.2) hopen hrun
    refine ⟨?_, hsealed, ?_⟩
    · intro r hr
      rcases List.mem_cons.mp hr with rfl | hr
      · exact hvalid
      · exact hrest r hr
    · rw [howners, ownerTable_assigned hvalid.1, insertAll, insertAll, List.foldl_cons]

theorem run_nativeCalls_ok {P : Platform} {rows : List (ℕ × ℕ × ℕ)} {s : Sys}
    (hopen : s.pool.sealed = false) (hvalid : ∀ row ∈ rows, RowValid row) :
    ∃ u, run (bootSequence P) s (rows.map nativeCall) = .ok u := by
  induction rows generalizing s with
  | nil => exact ⟨s, rfl⟩
  | cons row rows ih =>
    have hv : bootCall P s (nativeCall row) = .ok (assigned s row.1 row.2.1 row.2.2) :=
      (bootAssign_open hopen).mpr ⟨hvalid row (by simp), rfl⟩
    obtain ⟨u, hu⟩ := ih (s := assigned s row.1 row.2.1 row.2.2) hopen
      fun r hr => hvalid r (by simp [hr])
    exact ⟨u, run_cons_ok.mpr ⟨_, hv, hu⟩⟩

theorem run_bootChannelCalls {P : Platform} {s u : Sys} (hopen : s.pool.sealed = false)
    (a b : TaskIndex) {rows : List (ℕ × ℕ × ℕ)}
    (hrun : run (bootSequence P) s (bootChannelCalls a.val b.val rows) = .ok u) :
    (∀ row ∈ rows, RowValid row) ∧ ownerTable u = insertAll Prod.fst Prod.snd
      (ownerTable (assigned (assigned s 0 a.val b.val) 1 b.val a.val)) rows := by
  obtain ⟨v, hv, hrun⟩ := run_cons_ok.mp hrun
  obtain ⟨_, rfl⟩ := (bootAssign_open hopen).mp hv
  obtain ⟨w, hw, hrun⟩ := run_cons_ok.mp hrun
  obtain ⟨_, rfl⟩ := (bootAssign_open (s := assigned s 0 a.val b.val) hopen).mp hw
  obtain ⟨x, hx, hrun⟩ := run_append_ok.mp hrun
  rw [run_singleton] at hrun
  cases hrun
  obtain ⟨hvalid, _, howners⟩ := run_nativeCalls
    (s := assigned (assigned s 0 a.val b.val) 1 b.val a.val) hopen hx
  exact ⟨hvalid, howners⟩

theorem run_bootChannelCalls_ok {P : Platform} {s : Sys} (hopen : s.pool.sealed = false)
    (a b : TaskIndex) {rows : List (ℕ × ℕ × ℕ)} (hvalid : ∀ row ∈ rows, RowValid row) :
    ∃ u, run (bootSequence P) s (bootChannelCalls a.val b.val rows) = .ok u := by
  have hlegacy : ∀ k < 2, ∀ p q : TaskIndex, RowValid (k, p.val, q.val) := by
    intro k hk p q
    refine ⟨?_, p.isLt, q.isLt⟩
    dsimp only [maxIpcChannels]
    omega
  have hfirst : bootCall P s (.assignChannel 0 a.val b.val) =
      .ok (assigned s 0 a.val b.val) :=
    (bootAssign_open hopen).mpr ⟨hlegacy 0 (by decide) a b, rfl⟩
  have hsecond : bootCall P (assigned s 0 a.val b.val) (.assignChannel 1 b.val a.val) =
      .ok (assigned (assigned s 0 a.val b.val) 1 b.val a.val) :=
    (bootAssign_open (s := assigned s 0 a.val b.val) hopen).mpr ⟨hlegacy 1 (by decide) b a, rfl⟩
  obtain ⟨x, hx⟩ := run_nativeCalls_ok (P := P)
    (s := assigned (assigned s 0 a.val b.val) 1 b.val a.val) hopen hvalid
  refine ⟨{ x with pool := x.pool.sealChannels }, ?_⟩
  refine run_cons_ok.mpr ⟨_, hfirst, run_cons_ok.mpr ⟨_, hsecond, ?_⟩⟩
  exact run_append_ok.mpr ⟨x, hx, run_singleton.trans rfl⟩

/-! ## Ownership against the manifest -/

/-- No assignment fails, each manifest channel ends with the tasks named in it, and the legacy
channels keep their pair. -/
def OwnershipRealised (P : Platform) (s : Sys) (a b : TaskIndex) (m : Manifest) : Prop :=
  ∃ tables u, compileCapTable (generateCapTableRs m) = some tables ∧
    run (bootSequence P) s (bootChannelCalls a.val b.val tables.bootChannels) = .ok u ∧
    (∀ c ∈ m.channels, ∀ t ∈ m.tasks,
      (t.name = c.producer → ∃ other, ownerTable u c.id = some (t.taskId, other)) ∧
      (t.name = c.consumer → ∃ other, ownerTable u c.id = some (other, t.taskId))) ∧
    ownerTable u 0 = some (a.val, b.val) ∧ ownerTable u 1 = some (b.val, a.val)

/-- What the validator leaves open about a channel's endpoints and number. -/
structure EndpointsClear (a b : TaskIndex) (m : Manifest) (c : ChannelEntry) : Prop where
  slots : ∀ t ∈ m.tasks, t.name = c.producer ∨ t.name = c.consumer → t.taskId < maxTasks
  namedOnce : ∀ t ∈ m.tasks, ∀ u ∈ m.tasks, t.name = u.name →
    t.name = c.producer ∨ t.name = c.consumer → t.taskId = u.taskId
  legacy : ∀ p ∈ m.tasks, ∀ q ∈ m.tasks, p.name = c.producer → q.name = c.consumer →
    (c.id = 0 → p.taskId = a.val ∧ q.taskId = b.val) ∧
      (c.id = 1 → p.taskId = b.val ∧ q.taskId = a.val)

theorem row_of_channel {m : Manifest} (h : Accepted m) {c : ChannelEntry} (hc : c ∈ m.channels) :
    ∃ p ∈ m.tasks, ∃ q ∈ m.tasks, p.name = c.producer ∧ q.name = c.consumer ∧
      (c.id, p.taskId, q.taskId) ∈ bootChannels m := by
  obtain ⟨p, hp, hpname, hpid⟩ : ∃ p ∈ m.tasks, p.name = c.producer ∧
      nameToId m c.producer = some p.taskId := table_of_mem (h.producer c hc)
  obtain ⟨q, hq, hqname, hqid⟩ : ∃ q ∈ m.tasks, q.name = c.consumer ∧
      nameToId m c.consumer = some q.taskId := table_of_mem (h.consumer c hc)
  refine ⟨p, hp, q, hq, hpname, hqname, ?_⟩
  apply List.mem_map.mpr
  refine ⟨c, hc, ?_⟩
  rw [bootChannel, hpid, hqid]
  rfl

theorem bootChannels_ids (m : Manifest) :
    (bootChannels m).map Prod.fst = m.channels.map ChannelEntry.id := by
  simp [bootChannels, bootChannel, Function.comp_def]

theorem bootChannels_nodup {m : Manifest} (h : Accepted m) :
    ((bootChannels m).map Prod.fst).Nodup := by
  rw [bootChannels_ids]
  exact h.channelIds

theorem channel_of_row {m : Manifest} (h : Accepted m) {row : ℕ × ℕ × ℕ}
    (hrow : row ∈ bootChannels m) :
    ∃ c ∈ m.channels, ∃ p ∈ m.tasks, ∃ q ∈ m.tasks, p.name = c.producer ∧ q.name = c.consumer ∧
      row = (c.id, p.taskId, q.taskId) := by
  obtain ⟨c, hc, hid⟩ : ∃ c ∈ m.channels, c.id = row.1 := by
    have hmem : row.1 ∈ (bootChannels m).map Prod.fst := List.mem_map_of_mem hrow
    rw [bootChannels_ids] at hmem
    exact List.mem_map.mp hmem
  obtain ⟨p, hp, q, hq, hpname, hqname, hmem⟩ := row_of_channel h hc
  have hsame : row = (c.id, p.taskId, q.taskId) :=
    List.inj_on_of_nodup_map (bootChannels_nodup h) hrow hmem hid.symm
  exact ⟨c, hc, p, hp, q, hq, hpname, hqname, hsame⟩

theorem endpointsClear_of_realised {P : Platform} {s : Sys} (hopen : s.pool.sealed = false)
    {a b : TaskIndex} {m : Manifest} (h : Accepted m) (hnames : CapNamesSilent m)
    (hrealised : OwnershipRealised P s a b m) {c : ChannelEntry} (hc : c ∈ m.channels) :
    EndpointsClear a b m c := by
  obtain ⟨tables, u, hcompiled, hrun, hnamed, hzero, hone⟩ := hrealised
  rw [compileCapTable_eq h hnames] at hcompiled
  cases hcompiled
  obtain ⟨hvalid, howners⟩ := run_bootChannelCalls hopen a b hrun
  obtain ⟨p, hp, q, hq, hpname, hqname, hrow⟩ := row_of_channel h hc
  have howner : ownerTable u c.id = some (p.taskId, q.taskId) := by
    rw [howners]
    exact insertAll_of_nodup (bootChannels_nodup h) hrow _
  have hproducer : ∀ t ∈ m.tasks, t.name = c.producer → t.taskId = p.taskId := by
    intro t ht hname
    obtain ⟨other, hother⟩ := (hnamed c hc t ht).1 hname
    rw [howner, Option.some.injEq, Prod.mk.injEq] at hother
    exact hother.1.symm
  have hconsumer : ∀ t ∈ m.tasks, t.name = c.consumer → t.taskId = q.taskId := by
    intro t ht hname
    obtain ⟨other, hother⟩ := (hnamed c hc t ht).2 hname
    rw [howner, Option.some.injEq, Prod.mk.injEq] at hother
    exact hother.2.symm
  constructor
  · rintro t ht (hname | hname)
    · rw [hproducer t ht hname]
      exact (hvalid _ hrow).2.1
    · rw [hconsumer t ht hname]
      exact (hvalid _ hrow).2.2
  · rintro t ht v hv hsame (hname | hname)
    · rw [hproducer t ht hname, hproducer v hv (hsame ▸ hname)]
    · rw [hconsumer t ht hname, hconsumer v hv (hsame ▸ hname)]
  · intro t ht v hv htname hvname
    rw [hproducer t ht htname, hconsumer v hv hvname]
    constructor
    · intro hid
      rw [hid, hzero, Option.some.injEq, Prod.mk.injEq] at howner
      exact ⟨howner.1.symm, howner.2.symm⟩
    · intro hid
      rw [hid, hone, Option.some.injEq, Prod.mk.injEq] at howner
      exact ⟨howner.1.symm, howner.2.symm⟩

theorem realised_of_endpointsClear {P : Platform} {s : Sys} (hopen : s.pool.sealed = false)
    {a b : TaskIndex} {m : Manifest} (h : Accepted m) (hnames : CapNamesSilent m)
    (hclear : ∀ c ∈ m.channels, EndpointsClear a b m c) : OwnershipRealised P s a b m := by
  have hvalid : ∀ row ∈ bootChannels m, RowValid row := by
    intro row hrow
    obtain ⟨c, hc, p, hp, q, hq, hpname, hqname, rfl⟩ := channel_of_row h hrow
    exact ⟨h.channelId_lt c hc, (hclear c hc).slots p hp (.inl hpname),
      (hclear c hc).slots q hq (.inr hqname)⟩
  obtain ⟨u, hrun⟩ := run_bootChannelCalls_ok (P := P) hopen a b hvalid
  obtain ⟨_, howners⟩ := run_bootChannelCalls hopen a b hrun
  have howner : ∀ c ∈ m.channels, ∀ p ∈ m.tasks, ∀ q ∈ m.tasks, p.name = c.producer →
      q.name = c.consumer → ownerTable u c.id = some (p.taskId, q.taskId) := by
    intro c hc p hp q hq hpname hqname
    obtain ⟨t, ht, v, hv, htname, hvname, hrow⟩ := row_of_channel h hc
    rw [(hclear c hc).namedOnce p hp t ht (hpname.trans htname.symm) (.inl hpname),
      (hclear c hc).namedOnce q hq v hv (hqname.trans hvname.symm) (.inr hqname), howners]
    exact insertAll_of_nodup (bootChannels_nodup h) hrow _
  -- a legacy channel is either left alone or taken by the same pair
  have hlegacy : ∀ (k : ℕ) (pair : ℕ × ℕ),
      ownerTable (assigned (assigned s 0 a.val b.val) 1 b.val a.val) k = some pair →
      (∀ c ∈ m.channels, c.id = k → ∀ p ∈ m.tasks, ∀ q ∈ m.tasks, p.name = c.producer →
        q.name = c.consumer → (p.taskId, q.taskId) = pair) → ownerTable u k = some pair := by
    intro k pair hstart hsame
    by_cases hk : k ∈ (bootChannels m).map Prod.fst
    · rw [bootChannels_ids] at hk
      obtain ⟨c, hc, rfl⟩ := List.mem_map.mp hk
      obtain ⟨p, hp, q, hq, hpname, hqname, _⟩ := row_of_channel h hc
      rw [howner c hc p hp q hq hpname hqname, hsame c hc rfl p hp q hq hpname hqname]
    · rw [howners, insertAll_of_notMem hk, hstart]
  refine ⟨_, u, compileCapTable_eq h hnames, hrun, ?_, ?_, ?_⟩
  · intro c hc t ht
    obtain ⟨p, hp, q, hq, hpname, hqname, _⟩ := row_of_channel h hc
    constructor
    · intro hname
      exact ⟨q.taskId, howner c hc t ht q hq hname hqname⟩
    · intro hname
      exact ⟨p.taskId, howner c hc p hp t ht hpname hname⟩
  · apply hlegacy 0
    · rfl
    · intro c hc hid p hp q hq hpname hqname
      obtain ⟨hproducer, hconsumer⟩ := ((hclear c hc).legacy p hp q hq hpname hqname).1 hid
      rw [hproducer, hconsumer]
  · apply hlegacy 1
    · rfl
    · intro c hc hid p hp q hq hpname hqname
      obtain ⟨hproducer, hconsumer⟩ := ((hclear c hc).legacy p hp q hq hpname hqname).2 hid
      rw [hproducer, hconsumer]

theorem ownership_realised_iff (P : Platform) (s : Sys) (hopen : s.pool.sealed = false)
    (a b : TaskIndex) (m : Manifest) (host : Option Host) (hok : validateAll m host = .ok ())
    (hnames : CapNamesSilent m) :
    OwnershipRealised P s a b m ↔ ∀ c ∈ m.channels, EndpointsClear a b m c := by
  have haccepted := accepted_of_validateAll hok
  constructor
  · intro hrealised c hc
    exact endpointsClear_of_realised hopen haccepted hnames hrealised hc
  · intro hclear
    exact realised_of_endpointsClear hopen haccepted hnames hclear

theorem sipahiToml_ownership :
    OwnershipRealised referencePlatform (Sys.cold resetHart 0 fun _ => 0) 0 1 sipahiToml := by
  apply (ownership_realised_iff referencePlatform _ rfl 0 1 sipahiToml (some workspaceHost)
    sipahiToml_accepted (by decide +kernel)).mpr
  intro c hc
  have hgreeting : c = ⟨2, "task_hello", "task_world", "GreetingPing", 16⟩ := List.mem_singleton.mp hc
  subst hgreeting
  exact ⟨by decide, by decide, by decide⟩

/-- The greeting channel moved onto the first legacy channel. -/
def channelZero : Manifest :=
  { sipahiToml with channels := [⟨0, "task_hello", "task_world", "GreetingPing", 16⟩] }

theorem channel_zero_overwrites_legacy :
    ¬ ∀ (P : Platform) (s : Sys), s.pool.sealed = false → ∀ (a b : TaskIndex) (m : Manifest)
      (host : Option Host), validateAll m host = .ok () → OwnershipRealised P s a b m := by
  intro hall
  have hok : validateAll channelZero (some workspaceHost) = .ok () := by decide +kernel
  have hrealised : OwnershipRealised referencePlatform (Sys.cold resetHart 0 fun _ => 0) 0 1
      channelZero := hall _ _ rfl 0 1 channelZero _ hok
  have hclear : EndpointsClear 0 1 channelZero ⟨0, "task_hello", "task_world", "GreetingPing", 16⟩ :=
    endpointsClear_of_realised rfl (accepted_of_validateAll hok) (by decide +kernel) hrealised
      (by decide)
  have hpair := (hclear.legacy taskHello (by decide) taskWorld (by decide) rfl rfl).1 rfl
  revert hpair
  decide

end SntmBootChannels
