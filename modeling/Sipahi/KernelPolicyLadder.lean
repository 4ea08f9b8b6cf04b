import Sipahi.KernelPolicy
import Mathlib.Data.List.Basic

/-!
# The escalation of repeated failures

A run of the policy engine is the list of the calls of `apply_policy`. Restarts alone advance the
counter of a task, so the counter is the number of its restarts.
-/
namespace KernelPolicyLadder

open KernelTypes KernelPolicy

structure PolicyCall where
  taskId : ℕ
  event : PolicyEvent
  dal : ℕ
  deriving DecidableEq

structure Decision where
  call : PolicyCall
  mode : FailureMode
  deriving DecidableEq

/-- `RESTART_COUNTS` at boot. -/
def noRestarts : TaskIndex → ℕ := fun _ => 0

/-- `RESTART_COUNTS` after the calls. -/
def countsAfter (counts : TaskIndex → ℕ) : List PolicyCall → TaskIndex → ℕ
  | [] => counts
  | c :: cs => countsAfter (applyPolicy counts c.taskId c.event c.dal).2 cs

/-- The calls with their answers. -/
def decisions (counts : TaskIndex → ℕ) : List PolicyCall → List Decision
  | [] => []
  | c :: cs =>
    ⟨c, (applyPolicy counts c.taskId c.event c.dal).1⟩ ::
      decisions (applyPolicy counts c.taskId c.event c.dal).2 cs

def restartOf (i : TaskIndex) (d : Decision) : Bool :=
  d.call.taskId == i.val && d.mode == .restart

def budgetRestartOf (i : TaskIndex) (d : Decision) : Bool :=
  restartOf i d && d.call.event == .budgetExhausted

theorem restartOf_iff {i : TaskIndex} {d : Decision} :
    restartOf i d = true ↔ d.call.taskId = i.val ∧ d.mode = .restart := by
  simp [restartOf]

section

variable {counts : TaskIndex → ℕ} {c : PolicyCall} {cs : List PolicyCall} {i : TaskIndex}

theorem countsAfter_append (before after : List PolicyCall) :
    countsAfter counts (before ++ after) = countsAfter (countsAfter counts before) after := by
  induction before generalizing counts with
  | nil => rfl
  | cons c cs ih => exact ih

theorem decisions_append (before after : List PolicyCall) :
    decisions counts (before ++ after) =
      decisions counts before ++ decisions (countsAfter counts before) after := by
  induction before generalizing counts with
  | nil => rfl
  | cons c cs ih =>
    rw [List.cons_append, decisions, decisions, ih]
    rfl

theorem restartCountOf_val (counts : TaskIndex → ℕ) (i : TaskIndex) :
    restartCountOf counts i.val = counts i := by
  simp [restartCountOf]

/-- Faults are restarted while the counter is below three, an exhausted budget while it is zero,
and nothing else is restarted. -/
theorem decideAction_restart {event : PolicyEvent} {count dal : ℕ}
    (h : decideAction event.code count dal = .restart) :
    count < maxRestartFault ∧ (event = .budgetExhausted → count < maxRestartBudget) := by
  cases event with
  | budgetExhausted =>
    simp only [PolicyEvent.code, decideAction] at h
    split at h
    · rename_i hlt
      simp only [maxRestartBudget, maxRestartFault] at *
      omega
    · cases h
  | stackOverflow | taskFault =>
    simp only [PolicyEvent.code, decideAction] at h
    split at h
    · rename_i hlt
      refine ⟨hlt, ?_⟩
      intro he
      cases he
    · cases h
  | watchdogTimeout =>
    simp only [PolicyEvent.code, decideAction] at h
    split at h <;> cases h
  | deadlineMiss =>
    simp only [PolicyEvent.code, decideAction] at h
    split at h <;> cases h
  | capViolation | iopmpViolation | pmpIntegrityFail | multiModuleCrash => cases h

/-- The answer to a call for the task, from the task's own counter. -/
theorem answer_own (hc : c.taskId = i.val) : (applyPolicy counts c.taskId c.event c.dal).1 =
    decideAction c.event.code (counts i) c.dal := by
  rw [applyPolicy_fst, hc, restartCountOf_val]

/-- One call advances the counter of a task exactly when it restarts the task. -/
theorem applyPolicy_count (h : counts i ≤ maxRestartFault) :
    (applyPolicy counts c.taskId c.event c.dal).2 i = counts i +
      if restartOf i ⟨c, (applyPolicy counts c.taskId c.event c.dal).1⟩ then 1 else 0 := by
  by_cases hr : restartOf i ⟨c, (applyPolicy counts c.taskId c.event c.dal).1⟩ = true
  · rw [if_pos hr]
    obtain ⟨hc, hmode⟩ := restartOf_iff.mp hr
    have hc : c.taskId = i.val := hc
    rw [applyPolicy_fst] at hmode
    have hlt : c.taskId < maxTasks := hc ▸ i.isLt
    have hi : (⟨c.taskId, hlt⟩ : TaskIndex) = i := Fin.ext hc
    simp only [applyPolicy, lockstepAction_eq]
    rw [dif_pos ⟨hmode, hlt⟩]
    simp only [hi, Function.update_self, saturatingAdd8, u8Max, maxRestartFault] at *
    omega
  · rw [if_neg hr, Nat.add_zero]
    rw [restartOf_iff, applyPolicy_fst] at hr
    simp only [applyPolicy, lockstepAction_eq]
    split
    · rename_i hact
      have hne : i ≠ ⟨c.taskId, hact.2⟩ := by
        rintro rfl
        exact hr ⟨rfl, hact.1⟩
      exact Function.update_of_ne hne _ _
    · rfl

theorem restart_below (hr : restartOf i ⟨c, (applyPolicy counts c.taskId c.event c.dal).1⟩ = true) :
    counts i < maxRestartFault ∧ (c.event = .budgetExhausted → counts i < maxRestartBudget) := by
  obtain ⟨hc, hmode⟩ := restartOf_iff.mp hr
  have hmode : (applyPolicy counts c.taskId c.event c.dal).1 = .restart := hmode
  rw [answer_own hc] at hmode
  exact decideAction_restart hmode

theorem applyPolicy_count_le (h : counts i ≤ maxRestartFault) :
    (applyPolicy counts c.taskId c.event c.dal).2 i ≤ maxRestartFault := by
  rw [applyPolicy_count h]
  split
  · exact (restart_below ‹_›).1
  · exact h

theorem applyPolicy_count_mono (h : counts i ≤ maxRestartFault) :
    counts i ≤ (applyPolicy counts c.taskId c.event c.dal).2 i := by
  rw [applyPolicy_count h]
  exact Nat.le_add_right _ _

/-! ## Restarts -/

theorem countsAfter_le (h : counts i ≤ maxRestartFault) :
    countsAfter counts cs i ≤ maxRestartFault := by
  induction cs generalizing counts with
  | nil => exact h
  | cons c cs ih => exact ih (applyPolicy_count_le h)

/-- The counter is the number of restarts. -/
theorem countsAfter_eq (h : counts i ≤ maxRestartFault) :
    countsAfter counts cs i = counts i + (decisions counts cs).countP (restartOf i) := by
  induction cs generalizing counts with
  | nil => rfl
  | cons c cs ih =>
    rw [countsAfter, ih (applyPolicy_count_le h), applyPolicy_count h, decisions, List.countP_cons]
    omega

theorem budgetRestarts_le (h : counts i ≤ maxRestartFault) :
    (decisions counts cs).countP (budgetRestartOf i) ≤ maxRestartBudget - counts i := by
  induction cs generalizing counts with
  | nil => exact Nat.zero_le _
  | cons c cs ih =>
    have hrest := ih (applyPolicy_count_le (c := c) h)
    have hcount := applyPolicy_count (c := c) h
    rw [decisions, List.countP_cons]
    split
    · rename_i hb
      rw [budgetRestartOf, Bool.and_eq_true, beq_iff_eq] at hb
      have hlow := (restart_below hb.1).2 hb.2
      rw [if_pos hb.1] at hcount
      omega
    · split at hcount <;> omega

/-- Every answer to the task comes from a counter at least as large as the present one. -/
theorem decision_spec (h : counts i ≤ maxRestartFault) {d : Decision}
    (hd : d ∈ decisions counts cs) (hi : d.call.taskId = i.val) :
    ∃ count, counts i ≤ count ∧ d.mode = decideAction d.call.event.code count d.call.dal := by
  induction cs generalizing counts with
  | nil => cases hd
  | cons c cs ih =>
    rw [decisions] at hd
    rcases List.mem_cons.mp hd with rfl | hd
    · exact ⟨counts i, le_rfl, answer_own hi⟩
    · obtain ⟨count, hle, hmode⟩ := ih (applyPolicy_count_le h) hd
      exact ⟨count, (applyPolicy_count_mono h).trans hle, hmode⟩

theorem budget_degrades (h : counts i ≤ maxRestartFault) (hpos : maxRestartBudget ≤ counts i)
    {d : Decision} (hd : d ∈ decisions counts cs) (hi : d.call.taskId = i.val)
    (he : d.call.event = .budgetExhausted) : d.mode = .degrade := by
  obtain ⟨count, hle, hmode⟩ := decision_spec h hd hi
  rw [hmode, he]
  simp only [PolicyEvent.code, decideAction]
  rw [if_neg (by omega)]

theorem faults_isolate (h : counts i = maxRestartFault) {d : Decision}
    (hd : d ∈ decisions counts cs) (hi : d.call.taskId = i.val)
    (he : d.call.event = .stackOverflow ∨ d.call.event = .taskFault) : d.mode = .isolate := by
  obtain ⟨count, hle, hmode⟩ := decision_spec h.le hd hi
  rw [hmode]
  rcases he with he | he
  · rw [he]
    simp only [PolicyEvent.code, decideAction]
    rw [if_neg (by omega)]
  · rw [he]
    simp only [PolicyEvent.code, decideAction]
    rw [if_neg (by omega)]

theorem budgetRestart_degrades_later (h : counts i ≤ maxRestartFault) :
    (decisions counts cs).Pairwise fun d d' => budgetRestartOf i d = true →
      d'.call.taskId = i.val → d'.call.event = .budgetExhausted → d'.mode = .degrade := by
  induction cs generalizing counts with
  | nil => exact .nil
  | cons c cs ih =>
    rw [decisions]
    refine .cons (fun d' hd' hb hi he => ?_) (ih (applyPolicy_count_le h))
    rw [budgetRestartOf, Bool.and_eq_true] at hb
    have hcount := applyPolicy_count (c := c) h
    rw [if_pos hb.1] at hcount
    refine budget_degrades (applyPolicy_count_le h) ?_ hd' hi he
    simp only [maxRestartBudget]
    omega

end

/-- The restarts of one task, for every sequence of calls from boot on. -/
theorem restart_budget_bounded (calls : List PolicyCall) (i : TaskIndex) :
    countsAfter noRestarts calls i ≤ maxRestartFault ∧
    (decisions noRestarts calls).countP (restartOf i) ≤ maxRestartFault ∧
    (decisions noRestarts calls).countP (budgetRestartOf i) ≤ 1 ∧
    (decisions noRestarts calls).Pairwise (fun d d' => budgetRestartOf i d = true →
      d'.call.taskId = i.val → d'.call.event = .budgetExhausted → d'.mode = .degrade) ∧
    ∀ before after, calls = before ++ after →
      countsAfter noRestarts before i = maxRestartFault →
      ∀ d ∈ decisions (countsAfter noRestarts before) after, d.call.taskId = i.val →
        d.call.event = .stackOverflow ∨ d.call.event = .taskFault → d.mode = .isolate := by
  have h0 : noRestarts i ≤ maxRestartFault := Nat.zero_le _
  have hle : countsAfter noRestarts calls i ≤ maxRestartFault := countsAfter_le h0
  have heq : countsAfter noRestarts calls i =
      noRestarts i + (decisions noRestarts calls).countP (restartOf i) := countsAfter_eq h0
  refine ⟨hle, by omega, budgetRestarts_le h0, budgetRestart_degrades_later h0, ?_⟩
  intro before after _ hmax d hd hi he
  exact faults_isolate hmax hd hi he

/-- Four faults of a task, and two exhausted budgets of another one. -/
theorem restarts_used_up :
    let fault : PolicyCall := ⟨0, .taskFault, 2⟩
    let exhausted : PolicyCall := ⟨1, .budgetExhausted, 2⟩
    countsAfter noRestarts [fault, fault, fault] 0 = maxRestartFault ∧
      (∀ d ∈ decisions (countsAfter noRestarts [fault, fault, fault]) [fault],
        d.mode = .isolate) ∧
      ∃ d d', decisions noRestarts [exhausted, exhausted] = [d, d'] ∧
        d.mode = .restart ∧ d'.mode = .degrade := by
  intro fault exhausted
  have hfaults := (restart_budget_bounded ([fault, fault, fault] ++ [fault]) 0).2.2.2.2
    [fault, fault, fault] [fault] rfl (by decide)
  have hbudgets := (restart_budget_bounded [exhausted, exhausted] 1).2.2.2.1
  have hlist : decisions noRestarts [exhausted, exhausted] =
      [⟨exhausted, .restart⟩, ⟨exhausted, .degrade⟩] := by decide
  rw [hlist, List.pairwise_pair] at hbudgets
  refine ⟨by decide, fun d hd => ?_, _, _, hlist, rfl, hbudgets (by decide) rfl rfl⟩
  have hcall : d.call = fault := by
    have hsame : ∀ d ∈ decisions (countsAfter noRestarts [fault, fault, fault]) [fault],
        d.call = fault := by decide
    exact hsame d hd
  exact hfaults d hd (by rw [hcall]; rfl) (.inr (by rw [hcall]))

/-! ## The watchdog ladder -/

def timeoutOf (i : TaskIndex) (c : PolicyCall) : Bool :=
  c.taskId == i.val && c.event == .watchdogTimeout

def failoverOf (i : TaskIndex) (d : Decision) : Bool :=
  timeoutOf i d.call && d.mode == .failover

/-- `FAILOVER(1) -> DEGRADE`. -/
structure WatchdogLadder (i : TaskIndex) (ds : List Decision) : Prop where
  once : ds.countP (failoverOf i) ≤ maxRestartWatchdog
  thenDegrade : ds.Pairwise fun d d' => failoverOf i d = true → timeoutOf i d'.call = true →
    d'.mode = .degrade

/-- An event that is answered with a restart while the counter is zero. -/
def restartsFirst (i : TaskIndex) (c : PolicyCall) : Bool :=
  c.taskId == i.val && (c.event == .budgetExhausted || c.event == .stackOverflow ||
    c.event == .taskFault)

/-- At most one watchdog timeout comes before the first event that restarts the task. -/
def OneTimeoutBeforeRestart (i : TaskIndex) (calls : List PolicyCall) : Prop :=
  (calls.takeWhile fun c => !restartsFirst i c).countP (timeoutOf i) ≤ maxRestartWatchdog

instance (i : TaskIndex) (calls : List PolicyCall) : Decidable (OneTimeoutBeforeRestart i calls) :=
  inferInstanceAs (Decidable (_ ≤ _))

section

variable {counts : TaskIndex → ℕ} {cs : List PolicyCall} {i : TaskIndex}

theorem timeoutOf_iff {c : PolicyCall} :
    timeoutOf i c = true ↔ c.taskId = i.val ∧ c.event = .watchdogTimeout := by
  simp [timeoutOf]

theorem timeout_answer {c : PolicyCall} (h : timeoutOf i c = true) :
    (applyPolicy counts c.taskId c.event c.dal).1 =
      if counts i < maxRestartWatchdog then .failover else .degrade := by
  obtain ⟨hc, he⟩ := timeoutOf_iff.mp h
  rw [answer_own hc, he]
  rfl

theorem no_failover (h : counts i ≤ maxRestartFault) (hpos : maxRestartWatchdog ≤ counts i) :
    (decisions counts cs).countP (failoverOf i) = 0 := by
  rw [List.countP_eq_zero]
  intro d hd hf
  rw [failoverOf, Bool.and_eq_true, timeoutOf_iff, beq_iff_eq] at hf
  obtain ⟨count, hle, hmode⟩ := decision_spec h hd hf.1.1
  rw [hf.2, hf.1.2] at hmode
  simp only [PolicyEvent.code, decideAction] at hmode
  rw [if_neg (by omega)] at hmode
  cases hmode

theorem restartsFirst_answer {c : PolicyCall} (h0 : counts i = 0) (hc : c.taskId = i.val) :
    restartOf i ⟨c, (applyPolicy counts c.taskId c.event c.dal).1⟩ = restartsFirst i c := by
  rw [restartOf, restartsFirst]
  simp only [hc, beq_self_eq_true, Bool.true_and]
  rw [← hc, answer_own hc, h0]
  cases c.event with
  | deadlineMiss =>
    simp only [PolicyEvent.code, decideAction]
    split <;> rfl
  | _ => rfl

/-- While the counter is zero every timeout is answered with a failover. -/
theorem failovers_eq (h0 : counts i = 0) : (decisions counts cs).countP (failoverOf i) =
    (cs.takeWhile fun c => !restartsFirst i c).countP (timeoutOf i) := by
  induction cs generalizing counts with
  | nil => rfl
  | cons c cs ih =>
    have hle : counts i ≤ maxRestartFault := by
      rw [h0]
      exact Nat.zero_le _
    have hcount := applyPolicy_count (c := c) hle
    rw [decisions, List.countP_cons, List.takeWhile_cons]
    by_cases hr : restartsFirst i c = true
    · have hc : c.taskId = i.val := by
        rw [restartsFirst, Bool.and_eq_true, beq_iff_eq] at hr
        exact hr.1
      have hmode : restartOf i ⟨c, (applyPolicy counts c.taskId c.event c.dal).1⟩ = true := by
        rw [restartsFirst_answer h0 hc, hr]
      rw [if_pos hmode, h0] at hcount
      have hhead : failoverOf i ⟨c, (applyPolicy counts c.taskId c.event c.dal).1⟩ = false := by
        rw [failoverOf, (restartOf_iff.mp hmode).2]
        simp
      rw [no_failover (applyPolicy_count_le hle) (by rw [hcount]; rfl), hhead]
      simp [hr]
    · have hsame : (applyPolicy counts c.taskId c.event c.dal).2 i = 0 := by
        rw [hcount, h0, if_neg]
        intro hmode
        have hc : c.taskId = i.val := (restartOf_iff.mp hmode).1
        rw [restartsFirst_answer h0 hc] at hmode
        exact hr hmode
      have hhead : failoverOf i ⟨c, (applyPolicy counts c.taskId c.event c.dal).1⟩ =
          timeoutOf i c := by
        rw [failoverOf]
        by_cases ht : timeoutOf i c = true
        · simp only [ht, Bool.true_and]
          rw [timeout_answer ht, h0]
          rfl
        · simp [ht]
      rw [ih hsame, hhead]
      simp [hr, List.countP_cons]

/-- A timeout is answered with a failover or with a degradation. -/
theorem timeout_mode {d : Decision} (hd : d ∈ decisions counts cs)
    (ht : timeoutOf i d.call = true) : failoverOf i d = true ∨ d.mode = .degrade := by
  induction cs generalizing counts with
  | nil => cases hd
  | cons c cs ih =>
    rw [decisions] at hd
    rcases List.mem_cons.mp hd with rfl | hd
    · by_cases hlow : counts i < maxRestartWatchdog
      · left
        rw [failoverOf, ht, timeout_answer ht, if_pos hlow]
        rfl
      · right
        exact (timeout_answer ht).trans (if_neg hlow)
    · exact ih hd

theorem ladder_of_once (h : (decisions counts cs).countP (failoverOf i) ≤ maxRestartWatchdog) :
    WatchdogLadder i (decisions counts cs) := by
  refine ⟨h, ?_⟩
  rw [List.pairwise_iff_getElem]
  intro j k hj hk hjk hf ht
  refine (timeout_mode (List.getElem_mem hk) ht).resolve_left fun hf' => ?_
  -- two failovers would be counted twice
  have htwo : 2 ≤ (decisions counts cs).countP (failoverOf i) := by
    have hsplit := List.take_append_drop k (decisions counts cs)
    rw [← hsplit, List.countP_append, List.drop_eq_getElem_cons hk, List.countP_cons, if_pos hf']
    have hmem : (decisions counts cs)[j] ∈ (decisions counts cs).take k :=
      List.mem_take_iff_getElem.mpr ⟨j, by omega, rfl⟩
    have hpos := List.countP_pos_iff.mpr ⟨_, hmem, hf⟩
    omega
  simp only [maxRestartWatchdog] at h
  omega

end

/-- The ladder is climbed exactly when at most one timeout comes before the first restart: a
failover does not advance the counter. -/
theorem ladder_iff (calls : List PolicyCall) (i : TaskIndex) :
    WatchdogLadder i (decisions noRestarts calls) ↔ OneTimeoutBeforeRestart i calls := by
  have hcount : (decisions noRestarts calls).countP (failoverOf i) =
      (calls.takeWhile fun c => !restartsFirst i c).countP (timeoutOf i) := failovers_eq rfl
  rw [OneTimeoutBeforeRestart, ← hcount]
  constructor
  · intro h
    exact h.once
  · exact ladder_of_once

end KernelPolicyLadder
