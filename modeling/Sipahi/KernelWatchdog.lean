import Sipahi.KernelAccounting
import Sipahi.KernelPolicyEvents
import Sipahi.RunHistory

/-!
# The watchdog

The counter of a task against the ticks that found the task running since it last kicked.
-/
namespace KernelWatchdog

open KernelTypes KernelPolicy KernelState KernelTrapFrame KernelScheduler KernelSyscall KernelTrap
open KernelEvolution KernelSelection KernelBoot KernelTaskInvariants KernelReference
open KernelDegradation KernelFrame KernelAccounting KernelPolicyLadder KernelPolicyCalls
open KernelPolicyEvents RiscvHart GuardedExecution RunHistory

/-- The tick finds the task `Running` when the watchdog loop comes to it. -/
def ranAt (P : Platform) (i : TaskIndex) (s : Sys) (e : TrapEvent) : Bool :=
  (visitPoint P i s e).any fun y => (y.tasks i).state == .running

/-- The task kicks: it is current and yields. -/
def Kicks (i : TaskIndex) (s : Sys) (e : TrapEvent) : Prop := YieldCall e ∧ s.currentTask = i

instance (i : TaskIndex) (s : Sys) (e : TrapEvent) : Decidable (Kicks i s e) :=
  inferInstanceAs (Decidable (_ ∧ _))

/-- A running tick counts; a timeout and a kick, early or not, reset. -/
def watchdogMarks (P : Platform) (i : TaskIndex) (s : Sys) (e : TrapEvent) : List Mark :=
  (if ranAt P i s e then [.count] else []) ++
    if Kicks i s e ∨ Asked i .watchdogTimeout (trapDecisions P s e) then [.reset] else []

/-- The running ticks of the task since its last kick, timeout or creation. -/
def runningTicks (P : Platform) (i : TaskIndex) (s : Sys) (es : List TrapEvent) : ℕ :=
  streak (history (kernel P) (watchdogMarks P i) s es)

/-! ## Who is asked about -/

section

variable {P : Platform} {i : TaskIndex} {s u v : Sys} {e : TrapEvent} {event : PolicyEvent}

theorem running_of_timesOut {t : Task} (h : watchdogTimesOut t = true) : t.state ≠ .dead := by
  rw [timesOut_running h]
  decide

theorem asked_visit {w : TaskIndex} (hs : TaskInv s) :
    Asked i .watchdogTimeout (watchdogTaskDecisions s w) ↔
      w = i ∧ watchdogTimesOut (s.tasks i) = true := by
  rw [asked_watchdogTask]
  constructor
  · rintro ⟨-, hout, hid, -⟩
    have hw := (hs.created w (running_of_timesOut hout)).2
    obtain rfl : w = i := Fin.ext (hw.symm.trans hid)
    exact ⟨rfl, hout⟩
  · rintro ⟨rfl, hout⟩
    have hw := hs.created w (running_of_timesOut hout)
    exact ⟨hw.1, hout, hw.2, rfl⟩

theorem watchdogDecisions_append (P : Platform) (s : Sys) (before after : List TaskIndex) :
    watchdogDecisions P s (before ++ after) = watchdogDecisions P s before ++
      onOk (run (watchdogLoop P) s before) fun u => watchdogDecisions P u after := by
  induction before generalizing s with
  | nil => rfl
  | cons w before ih =>
    rw [List.cons_append, watchdogDecisions, watchdogDecisions]
    cases hw : watchdogTask P s w with
    | error x =>
      have hrun : run (watchdogLoop P) s (w :: before) = .error x := by
        rw [run, List.foldlM_cons]
        simp only [watchdogLoop, hw]
        rfl
      rw [hrun]
      simp only [onOk, List.append_nil]
    | ok q =>
      have hrun : run (watchdogLoop P) s (w :: before) = run (watchdogLoop P) q before := by
        rw [run, List.foldlM_cons]
        simp only [watchdogLoop, hw]
        rfl
      rw [hrun]
      simp only [onOk]
      rw [ih q, List.append_assoc]
      rfl

theorem not_asked_elsewhere {ws : List TaskIndex} (hs : TaskInv s) (hi : i ∉ ws) :
    ¬ Asked i .watchdogTimeout (watchdogDecisions P s ws) := by
  induction ws generalizing s with
  | nil => exact not_asked_nil
  | cons w ws ih =>
    rw [watchdogDecisions, asked_append, asked_onOk, asked_visit hs]
    rintro (⟨rfl, -⟩ | ⟨q, hq, hrest⟩)
    · exact hi List.mem_cons_self
    · exact ih (taskInv_evolves (watchdogTask_evolves hq) hs)
        (fun hm => hi (List.mem_cons_of_mem w hm)) hrest

theorem asked_loop (hs : TaskInv s) :
    Asked i .watchdogTimeout (watchdogDecisions P s (List.finRange maxTasks)) ↔
      ∃ y, run (watchdogLoop P) s ((List.finRange maxTasks).take i.val) = .ok y ∧
        watchdogTimesOut (y.tasks i) = true := by
  obtain ⟨after, hsplit, hbefore, hafter⟩ := finRange_split i
  generalize hwhole : (List.finRange maxTasks).take i.val = before at hsplit hbefore ⊢
  rw [hsplit, watchdogDecisions_append, asked_append, asked_onOk]
  constructor
  · rintro (h | ⟨y, hy, h⟩)
    · exact absurd h (not_asked_elsewhere hs hbefore)
    · have hinv := watchdogRun_taskInv hs hy
      rw [watchdogDecisions, asked_append, asked_onOk, asked_visit hinv] at h
      rcases h with ⟨-, hout⟩ | ⟨q, hq, hrest⟩
      · exact ⟨y, hy, hout⟩
      · exact absurd hrest
          (not_asked_elsewhere (taskInv_evolves (watchdogTask_evolves hq) hinv) hafter)
  · rintro ⟨y, hy, hout⟩
    refine Or.inr ⟨y, hy, ?_⟩
    rw [watchdogDecisions, asked_append, asked_visit (watchdogRun_taskInv hs hy)]
    exact Or.inl ⟨rfl, hout⟩

theorem asked_tick_point (ht : IsTimer e.mcause) :
    Asked i .watchdogTimeout (trapDecisions P s e) ↔
      ∃ z, watchdogPoint P s e = some z ∧
        Asked i .watchdogTimeout (watchdogDecisions P z (List.finRange maxTasks)) := by
  constructor
  · intro h
    cases hu : enterHandler P s e with
    | error =>
      rw [trapDecisions, asked_onOk, hu] at h
      obtain ⟨x, hx, -⟩ := h
      cases hx
    | ok entered =>
      rw [trapDecisions_timer hu ht, timerDecisions, asked_append, asked_onOk] at h
      rcases h with h | ⟨y, hy, h⟩
      · exact absurd (asked_deadline h) (by decide)
      · have hentry := tickEntry_eq ht hu hy
        split at h
        · exact absurd h not_asked_nil
        · rename_i hsome
          rw [if_neg hsome] at hentry
          simp only [tickDecisions, accountingDecisions, asked_append, asked_onOk] at h
          rcases h with h | ⟨x, hx, h | ⟨q, -, h⟩⟩
          · exact absurd h not_asked_integrity
          · refine ⟨_, ?_, h⟩
            rw [watchdogPoint, periodPoint, hentry, Option.bind_some, hx]
            rfl
          · exact absurd (asked_budget h) (by decide)
  · rintro ⟨z, hz, h⟩
    obtain ⟨x, hx, rfl⟩ := Option.map_eq_some_iff.mp hz
    obtain ⟨y, hy, hxy⟩ := Option.bind_eq_some_iff.mp hx
    obtain ⟨-, hsome, u, args, hu, hdeadline⟩ := tickEntry_some hy
    rw [trapDecisions_timer hu ht, timerDecisions, asked_append, asked_onOk]
    refine Or.inr ⟨y, hdeadline, ?_⟩
    rw [if_neg hsome]
    simp only [tickDecisions, accountingDecisions, asked_append, asked_onOk]
    exact Or.inr ⟨x, toOption_some.mp hxy, Or.inl h⟩

theorem asked_timeout (ht : IsTimer e.mcause) (hs : TaskInv s) :
    Asked i .watchdogTimeout (trapDecisions P s e) ↔
      ∃ y, visitPoint P i s e = some y ∧ watchdogTimesOut (y.tasks i) = true := by
  rw [asked_tick_point ht]
  constructor
  · rintro ⟨z, hz, h⟩
    obtain ⟨y, hy, hout⟩ := (asked_loop ((watchdogPoint_some hz).2 hs)).mp h
    refine ⟨y, ?_, hout⟩
    rw [visitPoint, hz, Option.bind_some, hy]
    rfl
  · rintro ⟨y, hy, hout⟩
    obtain ⟨z, hz, hrun⟩ := Option.bind_eq_some_iff.mp hy
    refine ⟨z, hz, (asked_loop ((watchdogPoint_some hz).2 hs)).mpr ⟨y, ?_, hout⟩⟩
    exact toOption_some.mp hrun

theorem asked_call (ht : ¬ IsTimer e.mcause) (hs : TaskInv s)
    (h : Asked i .watchdogTimeout (trapDecisions P s e)) : Kicks i s e := by
  by_cases he : IsEcall e.mcause
  · cases hu : enterHandler P s e with
    | error =>
      rw [trapDecisions, asked_onOk, hu] at h
      obtain ⟨x, hx, -⟩ := h
      cases hx
    | ok entered =>
      rw [trapDecisions_syscall hu he] at h
      rcases asked_syscall h with ⟨-, hev⟩ | ⟨hid, -, hcurrent⟩
      · cases hev
      · refine ⟨⟨he, hid⟩, Fin.ext ?_⟩
        have hkept := ((entered_kept hu).trans (incrementSyscallCount_kept entered.1)).field
          Task.id (fun _ => rfl) s.currentTask
        have hsame : (incrementSyscallCount entered.1).currentTask = s.currentTask :=
          (incrementSyscallCount_currentTask _).trans (entered_sameKernel hu).currentTask
        rw [Sys.current, hsame, hkept] at hcurrent
        exact (hs.created _ hs.currentAlive).2.symm.trans hcurrent
  · rcases asked_other ht he h with hev | hev <;> cases hev

/-! ## The counter of one task -/

/-- A watched task between traps. -/
structure Watched (t : Task) : Prop where
  limit : t.watchdogLimit = KernelTypes.watchdogLimit
  below : t.watchdogCounter < t.watchdogLimit

theorem Watched.kept {t t' : Task} (h : Watched t) (hlimit : t'.watchdogLimit = t.watchdogLimit)
    (hcounter : t'.watchdogCounter = t.watchdogCounter) : Watched t' :=
  ⟨hlimit.trans h.limit, by rw [hlimit, hcounter]; exact h.below⟩

theorem Watched.saturating {t : Task} (h : Watched t) :
    saturatingAdd32 t.watchdogCounter 1 = t.watchdogCounter + 1 := by
  have hbelow := h.below
  rw [h.limit, KernelTypes.watchdogLimit] at hbelow
  rw [saturatingAdd32, u32Max]
  omega

theorem timesOut_iff {t : Task} (h : Watched t) :
    watchdogTimesOut t = true ↔
      t.state = .running ∧ t.watchdogCounter + 1 = t.watchdogLimit := by
  have hbelow := h.below
  have hpos : 0 < t.watchdogLimit := by omega
  rw [watchdogTimesOut, h.saturating, shouldWatchdogTimeout]
  simp only [Bool.and_eq_true, beq_iff_eq, decide_eq_true_eq, hpos, true_and]
  constructor
  · rintro ⟨hrun, hle⟩
    exact ⟨hrun, by omega⟩
  · rintro ⟨hrun, heq⟩
    exact ⟨hrun, by omega⟩

theorem visited_limit (t : Task) : (visited t).watchdogLimit = t.watchdogLimit := by
  have hcount : (watchdogCount t).watchdogLimit = t.watchdogLimit :=
    config_field Task.watchdogLimit (fun _ => rfl) (watchdogCount_config t)
  rw [visited]
  split <;> exact hcount

theorem visited_counter {t : Task} (h : Watched t) :
    (visited t).watchdogCounter =
      if t.state = .running then
        if t.watchdogCounter + 1 = t.watchdogLimit then 0 else t.watchdogCounter + 1
      else t.watchdogCounter := by
  rw [visited]
  split
  · rename_i hout
    obtain ⟨hrun, heq⟩ := (timesOut_iff h).mp hout
    rw [if_pos hrun, if_pos heq]
  · rename_i hlow
    rw [timesOut_iff h] at hlow
    split
    · rename_i hrun
      rw [if_neg fun heq => hlow ⟨hrun, heq⟩]
      simp [watchdogCount, hrun, h.saturating]
    · rename_i hstopped
      simp only [watchdogCount]
      split <;> simp

theorem visit_watched {y : Sys} (hw : Watched (s.tasks i)) (hy : visitPoint P i s e = some y) :
    Watched (y.tasks i) ∧ (y.tasks i).watchdogCounter = (s.tasks i).watchdogCounter ∧
      (y.tasks i).watchdogLimit = (s.tasks i).watchdogLimit := by
  have haccount := (visitPoint_some hy).1
  have hcounter : (y.tasks i).watchdogCounter = (s.tasks i).watchdogCounter :=
    view_field haccount Task.watchdogCounter fun _ => rfl
  have hlimit : (y.tasks i).watchdogLimit = (s.tasks i).watchdogLimit :=
    view_field haccount Task.watchdogLimit fun _ => rfl
  exact ⟨hw.kept hlimit hcounter, hcounter, hlimit⟩

theorem ranAt_iff {y : Sys} (h : visitPoint P i s e = some y) :
    ranAt P i s e = true ↔ (y.tasks i).state = .running := by
  rw [ranAt, h, Option.any_some, beq_iff_eq]

theorem asked_exact (ht : IsTimer e.mcause) (hs : TaskInv s) (hw : Watched (s.tasks i)) :
    Asked i .watchdogTimeout (trapDecisions P s e) ↔
      ranAt P i s e = true ∧ (s.tasks i).watchdogCounter + 1 = (s.tasks i).watchdogLimit := by
  rw [asked_timeout ht hs]
  constructor
  · rintro ⟨y, hy, hout⟩
    obtain ⟨hwy, hcounter, hlimit⟩ := visit_watched hw hy
    obtain ⟨hrun, heq⟩ := (timesOut_iff hwy).mp hout
    exact ⟨(ranAt_iff hy).mpr hrun, by rw [← hcounter, ← hlimit, heq]⟩
  · rintro ⟨hran, heq⟩
    obtain ⟨y, hy, -⟩ := (Option.any_eq_true ..).mp hran
    obtain ⟨hwy, hcounter, hlimit⟩ := visit_watched hw hy
    exact ⟨y, hy, (timesOut_iff hwy).mpr ⟨(ranAt_iff hy).mp hran, by rw [hcounter, hlimit, heq]⟩⟩

theorem watchdogMarks_nil (hvisit : visitPoint P i s e = none) (hs : TaskInv s)
    (hkick : ¬ Kicks i s e) : watchdogMarks P i s e = [] := by
  have hran : ranAt P i s e = false := by
    rw [ranAt, hvisit]
    rfl
  have hasked : ¬ Asked i .watchdogTimeout (trapDecisions P s e) := by
    intro h
    by_cases ht : IsTimer e.mcause
    · obtain ⟨y, hy, -⟩ := (asked_timeout ht hs).mp h
      rw [hvisit] at hy
      cases hy
    · exact hkick (asked_call ht hs h)
  simp [watchdogMarks, hran, hkick, hasked]

theorem watchdogMarks_tick (ht : IsTimer e.mcause) (hs : TaskInv s) (hw : Watched (s.tasks i)) :
    watchdogMarks P i s e =
      if ranAt P i s e = true then
        if (s.tasks i).watchdogCounter + 1 = (s.tasks i).watchdogLimit then [.count, .reset]
        else [.count]
      else [] := by
  have hkick : ¬ Kicks i s e := by
    intro hk
    exact ecall_not_timer hk.1.1 ht
  simp only [watchdogMarks, asked_exact ht hs hw, hkick, false_or]
  by_cases hran : ranAt P i s e = true
  · by_cases heq : (s.tasks i).watchdogCounter + 1 = (s.tasks i).watchdogLimit
    · simp [hran, heq]
    · simp [hran, heq]
  · simp [hran]

theorem tick_watchdog {y : Sys} (ht : IsTimer e.mcause) (hs : TaskInv s)
    (hw : Watched (s.tasks i)) (hy : visitPoint P i s e = some y)
    (hv : visitAccount (v.tasks i) = visitAccount (visited (y.tasks i))) :
    Watched (v.tasks i) ∧ (v.tasks i).watchdogCounter =
      advance (s.tasks i).watchdogCounter (watchdogMarks P i s e) := by
  obtain ⟨hwy, hsame, hsameLimit⟩ := visit_watched hw hy
  have hlimit : (v.tasks i).watchdogLimit = (s.tasks i).watchdogLimit :=
    ((view_field hv Task.watchdogLimit fun _ => rfl).trans (visited_limit _)).trans hsameLimit
  have hcounter : (v.tasks i).watchdogCounter = (visited (y.tasks i)).watchdogCounter :=
    view_field hv Task.watchdogCounter fun _ => rfl
  have hbelow := hw.below
  rw [watchdogMarks_tick ht hs hw]
  rw [visited_counter hwy, hsame, hsameLimit] at hcounter
  split at hcounter
  · rename_i hrun
    rw [if_pos ((ranAt_iff hy).mpr hrun)]
    split at hcounter
    · rename_i heq
      rw [if_pos heq]
      exact ⟨⟨hlimit.trans hw.limit, by omega⟩, hcounter⟩
    · rename_i hne
      rw [if_neg hne]
      exact ⟨⟨hlimit.trans hw.limit, by omega⟩, hcounter⟩
  · rename_i hstopped
    rw [if_neg fun hran => hstopped ((ranAt_iff hy).mp hran)]
    exact ⟨hw.kept hlimit hcounter, hcounter⟩

theorem watchdog_step (hs : TaskInv s) (hw : Watched (s.tasks i)) (h : trap P s e = .ok v) :
    Watched (v.tasks i) ∧ (v.tasks i).watchdogCounter =
      advance (s.tasks i).watchdogCounter (watchdogMarks P i s e) := by
  have hquiet : (v.tasks i).watchdogLimit = (s.tasks i).watchdogLimit →
      (v.tasks i).watchdogCounter = (s.tasks i).watchdogCounter →
      periodPoint P s e = none → ¬ Kicks i s e →
      Watched (v.tasks i) ∧ (v.tasks i).watchdogCounter =
        advance (s.tasks i).watchdogCounter (watchdogMarks P i s e) := by
    intro hlimit hcounter hpoint hkick
    rw [watchdogMarks_nil (visitPoint_none hpoint) hs hkick]
    exact ⟨hw.kept hlimit hcounter, hcounter⟩
  cases trap_effect h with
  | tick htick =>
    obtain ⟨y, hy, hv⟩ := htick.visit hs i
    exact tick_watchdog htick.timer hs hw hy hv
  | kick hyield _ hcounters =>
    have hpoint : periodPoint P s e = none := periodPoint_none (ecall_not_timer hyield.1)
    have hi := hcounters i
    by_cases hcurrent : i = s.currentTask
    · have hkick : Kicks i s e := ⟨hyield, hcurrent.symm⟩
      rw [if_pos ⟨hcurrent, hcurrent ▸ current_inTable hs⟩] at hi
      have hcounter : (v.tasks i).watchdogCounter = 0 := congrArg Task.watchdogCounter hi
      have hlimit : (counters (v.tasks i)).watchdogLimit = (s.tasks i).watchdogLimit := by
        rw [hi]
        rfl
      have hran : ranAt P i s e = false := by
        rw [ranAt, visitPoint_none hpoint]
        rfl
      have hbelow := hw.below
      refine ⟨⟨hlimit.trans hw.limit, ?_⟩, ?_⟩
      · rw [hcounter]
        exact (Nat.zero_le _).trans_lt (hlimit ▸ hbelow)
      · simp [watchdogMarks, hran, hkick, hcounter, advance]
    · rw [if_neg fun hc => hcurrent hc.1] at hi
      exact hquiet (view_field hi Task.watchdogLimit fun _ => rfl)
        (view_field hi Task.watchdogCounter fun _ => rfl) hpoint fun hk => hcurrent hk.2.symm
  | send hcall _ hu hcounters =>
    have hnot : ¬ Kicks i s e := by
      intro hk
      exact absurd (hk.1.2.symm.trans hcall.2) (by decide)
    exact hquiet (sent_field hu (hcounters i) Task.watchdogLimit (fun _ => rfl) fun _ _ => rfl)
      (sent_field hu (hcounters i) Task.watchdogCounter (fun _ => rfl) fun _ _ => rfl)
      (periodPoint_none (ecall_not_timer hcall.1)) hnot
  | other hyield _ hpoint _ hcounters =>
    exact hquiet (view_field (hcounters i) Task.watchdogLimit fun _ => rfl)
      (view_field (hcounters i) Task.watchdogCounter fun _ => rfl) hpoint fun hk => hyield hk.1

theorem watchdogLimit_kept (hs : TaskInv s) (h : trap P s e = .ok v) :
    (v.tasks i).watchdogLimit = (s.tasks i).watchdogLimit := by
  cases trap_effect h with
  | tick htick =>
    obtain ⟨y, hy, hv⟩ := htick.visit hs i
    exact ((view_field hv Task.watchdogLimit fun _ => rfl).trans (visited_limit _)).trans
      (view_field (visitPoint_some hy).1 Task.watchdogLimit fun _ => rfl)
  | kick _ _ hcounters =>
    exact kicked_field (hcounters i) Task.watchdogLimit (fun _ => rfl) fun _ => rfl
  | send _ _ hu hcounters =>
    exact sent_field hu (hcounters i) Task.watchdogLimit (fun _ => rfl) fun _ _ => rfl
  | other _ _ _ _ hcounters => exact view_field (hcounters i) Task.watchdogLimit fun _ => rfl

end

/-- In every run from boot, for a task with a watchdog: the counter is the number of its running
ticks since the last kick, timeout or creation, it is below the limit, and a tick asks about the
task exactly when that number reaches the limit. -/
theorem watchdog_exact {P : Platform} {s₀ s : Sys} {es : List TrapEvent}
    (h0 : (kernel P).Initial s₀) (h : run (kernel P) s₀ es = .ok s) (i : TaskIndex)
    (hlimit : 0 < (s.tasks i).watchdogLimit) :
    (s.tasks i).watchdogCounter < (s.tasks i).watchdogLimit ∧
      (s.tasks i).watchdogCounter = runningTicks P i s₀ es ∧
      ∀ e, IsTimer e.mcause → (Asked i .watchdogTimeout (trapDecisions P s e) ↔
        ranAt P i s e = true ∧ runningTicks P i s₀ es + 1 = (s.tasks i).watchdogLimit) := by
  have hinv0 := taskInv_initial h0
  have hfresh := (initial_counters h0).2 i
  have hkept : TaskInv s ∧ (s.tasks i).watchdogLimit = (s₀.tasks i).watchdogLimit := by
    apply run_keeps (I := fun q => TaskInv q ∧
      (q.tasks i).watchdogLimit = (s₀.tasks i).watchdogLimit) _ ⟨hinv0, rfl⟩ h
    rintro q e u ⟨hinv, hsame⟩ hu
    constructor
    · exact taskInv_trap hinv hu
    · exact (watchdogLimit_kept hinv hu).trans hsame
  have hwatched0 : Watched (s₀.tasks i) := by
    have hpos : 0 < (s₀.tasks i).watchdogLimit := hkept.2 ▸ hlimit
    rcases hfresh.limit with hzero | hset
    · omega
    · exact ⟨hset, by rw [hfresh.watchdog]; exact hpos⟩
  have hstep : ∀ q e u, TaskInv q ∧ Watched (q.tasks i) → (kernel P).step q e = .ok u →
      (TaskInv u ∧ Watched (u.tasks i)) ∧ (u.tasks i).watchdogCounter =
        advance (q.tasks i).watchdogCounter (watchdogMarks P i q e) := by
    intro q e u hq hu
    obtain ⟨hw, hcounter⟩ := watchdog_step hq.1 hq.2 hu
    exact ⟨⟨taskInv_trap hq.1 hu, hw⟩, hcounter⟩
  have hwatched : TaskInv s ∧ Watched (s.tasks i) := by
    apply run_keeps (I := fun q => TaskInv q ∧ Watched (q.tasks i)) _ ⟨hinv0, hwatched0⟩ h
    intro q e u hq hu
    exact (hstep q e u hq hu).1
  have hcount : (s.tasks i).watchdogCounter = runningTicks P i s₀ es := by
    rw [run_advances (fun q => (q.tasks i).watchdogCounter) hstep ⟨hinv0, hwatched0⟩ h,
      hfresh.watchdog, advance_zero]
    rfl
  refine ⟨hwatched.2.below, hcount, ?_⟩
  intro e ht
  rw [asked_exact ht hwatched.1 hwatched.2, hcount]

/-- Two running ticks, a kick that comes too early and one more tick. -/
def kickedTicks : List TrapEvent := [tick, tick, earlyYield, tick]

/-- The early kick starts the count again. -/
theorem early_kick_restarts_count : ∃ s₀ s,
    run (kernel referencePlatform) s₀ kickedTicks = .ok s ∧ (s.tasks 0).watchdogLimit = 100 ∧
      runningTicks referencePlatform 0 s₀ kickedTicks = 1 ∧
      ¬ Asked 0 .watchdogTimeout (trapDecisions referencePlatform s tick) := by
  obtain ⟨s₀, hs₀, ht⟩ := endsWith_iff.mp (show endsWith
    (boot referencePlatform resetHart 0 (fun _ => 0) [legacyTask 4 1 500000 10])
    (fun s₀ => endsWith (run (kernel referencePlatform) s₀ kickedTicks) fun s =>
      decide ((s.tasks 0).watchdogLimit = 100 ∧ (s.tasks 0).watchdogCounter = 1)) = true
    by decide +kernel)
  obtain ⟨s, hs, ht⟩ := endsWith_iff.mp ht
  obtain ⟨hlimit, hcounter⟩ := of_decide_eq_true ht
  obtain ⟨-, hcount, hasked⟩ :=
    watchdog_exact ⟨_, _, _, _, hs₀⟩ hs 0 (by rw [hlimit]; decide)
  refine ⟨s₀, s, hs, hlimit, hcount.symm.trans hcounter, ?_⟩
  intro h
  obtain ⟨-, hreached⟩ := (hasked tick (by decide)).mp h
  rw [← hcount, hcounter, hlimit] at hreached
  exact absurd hreached (by decide)

end KernelWatchdog
