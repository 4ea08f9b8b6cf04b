import Sipahi.KernelSyscall

/-!
# What a handler can touch

One frame for each of the small handlers. The invariants of the kernel are kept by a handler because
they do not depend on what its frame leaves open.
-/
namespace KernelHandlers

open KernelTypes KernelCapability KernelIpcChannel KernelState KernelTrapFrame KernelScheduler
open KernelSyscall

/-- A task without the numbers of its calls and of its sends. -/
def uncounted (t : Task) : Task := { t with syscallCount := 0, ipcSendCount := 0 }

/-- Nothing but these two numbers moves. -/
structure CountFrame (s u : Sys) : Prop where
  rest : ∃ tasks, u = { s with tasks := tasks }
  tasks : ∀ i, uncounted (u.tasks i) = uncounted (s.tasks i)

/-- Nothing but these two numbers, the channels and the memory of the tasks moves. -/
structure IpcFrame (s u : Sys) : Prop where
  rest : ∃ tasks pool userMem, u = { s with tasks := tasks, pool := pool, userMem := userMem }
  tasks : ∀ i, uncounted (u.tasks i) = uncounted (s.tasks i)

variable {P : Platform} {s u : Sys}

theorem CountFrame.ipcFrame (h : CountFrame s u) : IpcFrame s u := by
  obtain ⟨⟨tasks, rfl⟩, htasks⟩ := h
  exact ⟨⟨tasks, s.pool, s.userMem, rfl⟩, htasks⟩

/-- What does not depend on the two numbers. -/
theorem IpcFrame.field {α : Type*} (h : IpcFrame s u) (g : Task → α)
    (hg : ∀ t, g (uncounted t) = g t) (i : TaskIndex) : g (u.tasks i) = g (s.tasks i) := by
  rw [← hg (u.tasks i), h.tasks i, hg]

theorem IpcFrame.currentTask (h : IpcFrame s u) : u.currentTask = s.currentTask := by
  obtain ⟨⟨tasks, pool, mem, rfl⟩, -⟩ := h
  rfl

theorem IpcFrame.taskCount (h : IpcFrame s u) : u.taskCount = s.taskCount := by
  obtain ⟨⟨tasks, pool, mem, rfl⟩, -⟩ := h
  rfl

theorem IpcFrame.capFailCount (h : IpcFrame s u) : u.capFailCount = s.capFailCount := by
  obtain ⟨⟨tasks, pool, mem, rfl⟩, -⟩ := h
  rfl

theorem IpcFrame.restartCounts (h : IpcFrame s u) : u.restartCounts = s.restartCounts := by
  obtain ⟨⟨tasks, pool, mem, rfl⟩, -⟩ := h
  rfl

theorem IpcFrame.pmp (h : IpcFrame s u) : u.pmp = s.pmp := by
  obtain ⟨⟨tasks, pool, mem, rfl⟩, -⟩ := h
  rfl

theorem CountFrame.pool (h : CountFrame s u) : u.pool = s.pool := by
  obtain ⟨⟨tasks, rfl⟩, -⟩ := h
  rfl

theorem CountFrame.userMem (h : CountFrame s u) : u.userMem = s.userMem := by
  obtain ⟨⟨tasks, rfl⟩, -⟩ := h
  rfl

theorem setTask_counted {i : TaskIndex} {t : Task} (h : uncounted t = uncounted (s.tasks i)) :
    CountFrame s (s.setTask i t) := by
  refine ⟨⟨_, rfl⟩, ?_⟩
  intro j
  by_cases hj : j = i
  · subst j
    simpa using h
  · simp [hj]

theorem incrementSyscallCount_counted (s : Sys) : CountFrame s (incrementSyscallCount s) := by
  rw [incrementSyscallCount]
  split
  · exact setTask_counted rfl
  · exact ⟨⟨_, rfl⟩, fun _ => rfl⟩

theorem incrementSyscallCount_frame (s : Sys) : IpcFrame s (incrementSyscallCount s) :=
  (incrementSyscallCount_counted s).ipcFrame

theorem incrementIpcSend_counted (s : Sys) : CountFrame s (incrementIpcSend s) := by
  rw [incrementIpcSend]
  split
  · exact setTask_counted rfl
  · exact ⟨⟨_, rfl⟩, fun _ => rfl⟩

theorem sysIpcSend_frame (P : Platform) (s : Sys) (channelId msgPtr : ℕ) :
    IpcFrame s (sysIpcSend P s channelId msgPtr).1 := by
  have hsame : IpcFrame s s := ⟨⟨_, _, _, rfl⟩, fun _ => rfl⟩
  have hinc := (incrementIpcSend_counted s).ipcFrame
  simp only [sysIpcSend]
  repeat' split
  all_goals first
    | exact hsame
    | exact hinc
    | obtain ⟨⟨tasks, pool, mem, hrest⟩, htasks⟩ := hinc
      rw [hrest] at htasks ⊢
      exact ⟨⟨_, _, _, rfl⟩, htasks⟩

/-- A receipt leaves the tasks as they are. -/
theorem sysIpcRecv_rest (P : Platform) (s : Sys) (channelId bufPtr : ℕ) :
    ∃ pool userMem, (sysIpcRecv P s channelId bufPtr).1 =
      { s with pool := pool, userMem := userMem } := by
  simp only [sysIpcRecv]
  repeat' split
  all_goals exact ⟨_, _, rfl⟩

theorem sysIpcRecv_frame (P : Platform) (s : Sys) (channelId bufPtr : ℕ) :
    IpcFrame s (sysIpcRecv P s channelId bufPtr).1 := by
  obtain ⟨pool, mem, hrest⟩ := sysIpcRecv_rest P s channelId bufPtr
  rw [hrest]
  exact ⟨⟨s.tasks, pool, mem, rfl⟩, fun _ => rfl⟩

/-! ## Policy actions -/

/-- A restart rewrites the saved context. -/
theorem restartTask_rest (P : Platform) (s : Sys) (id : TaskIndex) :
    ∃ hart, restartTask P s id = { s with hart := hart } := by
  rw [restartTask]
  split
  · exact ⟨_, rfl⟩
  · exact ⟨s.hart, rfl⟩

/-- An isolation moves the state of the task and the cached capabilities. -/
structure IsolateFrame (id : TaskIndex) (s u : Sys) : Prop where
  rest : ∃ tasks cache,
    u = { s with tasks := tasks, broker := { s.broker with cache := cache } }
  self : u.tasks id = s.tasks id ∨ u.tasks id = { s.tasks id with state := .isolated }
  others : ∀ i, i ≠ id → u.tasks i = s.tasks i

theorem markIsolated_frame (s : Sys) (id : TaskIndex) : IsolateFrame id s (markIsolated s id) := by
  rw [markIsolated]
  split
  · refine ⟨⟨_, _, rfl⟩, .inr (by simp), ?_⟩
    intro i hi
    simp [hi]
  · exact ⟨⟨s.tasks, s.broker.cache, rfl⟩, .inl rfl, fun _ _ => rfl⟩

/-- What does not depend on the state. -/
theorem IsolateFrame.field {α : Type*} {id : TaskIndex} (h : IsolateFrame id s u) (g : Task → α)
    (hg : ∀ t, g { t with state := .isolated } = g t) (i : TaskIndex) :
    g (u.tasks i) = g (s.tasks i) := by
  by_cases hi : i = id
  · subst hi
    rcases h.self with hsame | hset
    · rw [hsame]
    · rw [hset, hg]
  · rw [h.others i hi]

/-- A state is as it was, or the task is isolated now. -/
theorem IsolateFrame.state {id : TaskIndex} (h : IsolateFrame id s u) (i : TaskIndex) :
    (u.tasks i).state = (s.tasks i).state ∨ i = id ∧ (u.tasks i).state = .isolated := by
  by_cases hi : i = id
  · subst hi
    rcases h.self with hsame | hset
    · exact .inl (by rw [hsame])
    · exact .inr ⟨rfl, by rw [hset]⟩
  · exact .inl (by rw [h.others i hi])

end KernelHandlers
