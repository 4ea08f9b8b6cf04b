import Sipahi.SntmCodegen

/-! # What an accepted manifest guarantees -/
namespace SntmAcceptance

open KernelTypes KeyedScan SntmManifest SntmCodegen

theorem isWordChar_of_alphanumeric {c : Char} (h : isAsciiAlphanumeric c = true) :
    RustLexer.isWordChar c = true := by
  simp only [isAsciiAlphanumeric, isAsciiUppercase, Bool.or_eq_true, Bool.and_eq_true,
    decide_eq_true_eq] at h
  rw [RustLexer.isWordChar_iff]
  tauto

/-- The names that `check_channels` admits. -/
structure MessageName (s : String) : Prop where
  capital : s.toList.head?.any isAsciiUppercase = true
  alphanumeric : ∀ c ∈ s.toList, isAsciiAlphanumeric c = true

/-- What the later stages rely on. -/
structure Accepted (m : Manifest) : Prop where
  taskIds : (m.tasks.map TaskEntry.taskId).Nodup
  regionCount : ∀ t ∈ m.tasks, t.regions.length ≤ maxRegionsPerTask
  aligned : ∀ t ∈ m.tasks, ∀ r ∈ t.regions, validNapotAlignment r.base r.size = true
  intraTask : ∀ t ∈ m.tasks, t.regions.Pairwise fun a b => a.overlaps b = false
  crossTask : m.tasks.Pairwise fun ta tb =>
    ∀ ra ∈ ta.regions, ∀ rb ∈ tb.regions, ra.overlaps rb = false
  kernel : ∀ t ∈ m.tasks, ∀ r ∈ t.regions,
    regionsOverlap r.base r.size kernelBase m.reservedSize = false
  channelIds : (m.channels.map ChannelEntry.id).Nodup
  channelId_lt : ∀ c ∈ m.channels, c.id < maxIpcChannels
  producer : ∀ c ∈ m.channels, c.producer ∈ m.tasks.map TaskEntry.name
  consumer : ∀ c ∈ m.channels, c.consumer ∈ m.tasks.map TaskEntry.name
  message : ∀ c ∈ m.channels, MessageName c.message
  messages : (m.channels.map ChannelEntry.message).Nodup
  grantIds : ∀ t ∈ m.tasks, (t.localCaps.map LocalCapGrant.resourceId).Nodup
  grantId_lt : ∀ t ∈ m.tasks, ∀ g ∈ t.localCaps, g.resourceId < maxResources
  grantAction : ∀ t ∈ m.tasks, ∀ g ∈ t.localCaps, g.action ∈ validActions

@[simp] theorem reportIf_eq_nil {cond : Bool} {text : String} :
    reportIf cond text = [] ↔ cond = false := by
  cases cond <;> simp [reportIf]

theorem verdict_eq_ok {errs : List String} : verdict errs = .ok () ↔ errs = [] := by
  cases errs <;> simp [verdict]

@[simp] theorem errors_verdict (errs : List String) : Verdict.errors (verdict errs) = errs := by
  cases errs <;> rfl

/-! ## The scans -/

theorem taskIds_of_scan {tasks : List TaskEntry}
    (h : Verdict.errors (checkTaskIdUniqueness tasks) = []) :
    (tasks.map TaskEntry.taskId).Nodup := by
  rw [checkTaskIdUniqueness, errors_verdict] at h
  refine (collect_nodup TaskEntry.taskId (fun s k => s k ≠ none) ?_ ?_ h).1
  · intro s t hquiet hseen
    cases hprev : s t.taskId with
    | none => exact hseen hprev
    | some prev => simp [hprev] at hquiet
  · intro s t k _ hk
    by_cases heq : k = t.taskId
    · simp [heq]
    · simpa [heq] using hk

theorem channels_of_scan {m : Manifest} (h : Verdict.errors (checkChannels m) = []) :
    (m.channels.map ChannelEntry.id).Nodup ∧ ∀ c ∈ m.channels, c.id < maxIpcChannels ∧
      c.producer ∈ m.tasks.map TaskEntry.name ∧ c.consumer ∈ m.tasks.map TaskEntry.name := by
  rw [checkChannels, errors_verdict] at h
  constructor
  · refine (collect_nodup ChannelEntry.id (fun s k => s.ids k ≠ none) ?_ ?_ h).1
    · intro s c hquiet hseen
      cases hprev : s.ids c.id with
      | none => exact hseen hprev
      | some prev => simp [channelRound, hprev] at hquiet
    · intro s c k _ hk
      by_cases heq : k = c.id
      · simp [channelRound, heq]
      · simpa [channelRound, heq] using hk
  · refine collect_forall (fun c => _ ∧ _ ∧ _) ?_ h
    intro s c hquiet
    simp only [channelRound, List.append_eq_nil_iff, reportIf_eq_nil, decide_eq_false_iff_not,
      not_le, Bool.not_eq_false', List.contains_eq_mem, decide_eq_true_eq] at hquiet
    obtain ⟨⟨⟨⟨⟨⟨⟨hid, _⟩, hproducer⟩, hconsumer⟩, _⟩, _⟩, _⟩, _⟩ := hquiet
    exact ⟨hid, hproducer, hconsumer⟩

theorem messages_of_scan {m : Manifest} (h : Verdict.errors (checkChannels m) = []) :
    (∀ c ∈ m.channels, MessageName c.message) ∧ (m.channels.map ChannelEntry.message).Nodup := by
  simp only [checkChannels, errors_verdict] at h
  have hround : ∀ (taskNames : List String) (s : SeenChannels) (c : ChannelEntry),
      (channelRound taskNames s c).1 = [] →
        isBlank c.message = false ∧ MessageName c.message ∧ s.messages c.message = none := by
    intro taskNames s c hquiet
    have hnames := (List.append_eq_nil_iff.mp hquiet).2
    by_cases hblank : isBlank c.message = true
    · simp [hblank] at hnames
    · rw [if_neg hblank] at hnames
      simp only [List.append_eq_nil_iff, reportIf_eq_nil, Bool.not_eq_false', List.any_eq_false,
        Bool.not_eq_true'] at hnames
      obtain ⟨⟨hcapital, halphanumeric⟩, hfresh⟩ := hnames
      refine ⟨Bool.eq_false_of_not_eq_true hblank, ⟨hcapital, by simpa using halphanumeric⟩, ?_⟩
      split at hfresh
      · cases hfresh
      · assumption
  constructor
  · apply collect_forall (fun c => MessageName c.message) _ h
    intro s c hquiet
    exact (hround _ s c hquiet).2.1
  · refine (collect_nodup ChannelEntry.message (fun s k => s.messages k ≠ none) ?_ ?_ h).1
    · intro s c hquiet hseen
      exact hseen (hround _ s c hquiet).2.2
    · intro s c k hquiet hk
      have hblank := (hround _ s c hquiet).1
      by_cases heq : k = c.message
      · simp [channelRound, hblank, heq]
      · simpa [channelRound, hblank, heq] using hk

theorem localCaps_of_scan {m : Manifest} (h : Verdict.errors (checkLocalCaps m) = []) :
    ∀ t ∈ m.tasks, (t.localCaps.map LocalCapGrant.resourceId).Nodup ∧
      ∀ g ∈ t.localCaps, g.resourceId < maxResources ∧ g.action ∈ validActions := by
  rw [checkLocalCaps, errors_verdict, List.flatMap_eq_nil_iff] at h
  intro t ht
  have hround : ∀ (s : ℕ → Bool) (g : LocalCapGrant),
      (localCapRound (m.resources.map ResourceEntry.id) t.name s g).1 = [] →
        g.resourceId < maxResources ∧ s g.resourceId = false ∧ g.action ∈ validActions := by
    intro s g hquiet
    by_cases hpast : maxResources ≤ g.resourceId
    · simp [localCapRound, hpast] at hquiet
    · simp only [localCapRound, hpast, if_false, List.append_eq_nil_iff, reportIf_eq_nil,
        Bool.not_eq_false', List.contains_eq_mem, decide_eq_true_eq] at hquiet
      exact ⟨by omega, hquiet.1.2, hquiet.2⟩
  constructor
  · refine (collect_nodup LocalCapGrant.resourceId (fun s k => s k = true) ?_ ?_
      (h t ht)).1
    · intro s g hquiet hseen
      rw [(hround s g hquiet).2.1] at hseen
      cases hseen
    · intro s g k hquiet hk
      have hin : ¬ maxResources ≤ g.resourceId := by
        have := (hround s g hquiet).1
        omega
      by_cases heq : k = g.resourceId
      · simp [localCapRound, hin, heq]
      · simpa [localCapRound, hin, heq] using hk
  · refine collect_forall (fun g => _ ∧ _) ?_ (h t ht)
    intro s g hquiet
    exact ⟨(hround s g hquiet).1, (hround s g hquiet).2.2⟩

theorem accepted_of_validateAll {m : Manifest} {host : Option Host}
    (h : validateAll m host = .ok ()) : Accepted m := by
  have h := verdict_eq_ok.mp h
  simp only [List.append_eq_nil_iff] at h
  obtain ⟨⟨⟨⟨⟨⟨⟨⟨⟨⟨hids, hnapot⟩, hintra⟩, hcross⟩, hkernel⟩, _⟩, _⟩, _⟩, _⟩, hchannels⟩, hcaps⟩ := h
  have hchannel := channels_of_scan hchannels
  obtain ⟨hmessage, hmessages⟩ := messages_of_scan hchannels
  have hgrant := localCaps_of_scan hcaps
  have hregions : ∀ t ∈ m.tasks, t.regions.length ≤ maxRegionsPerTask ∧
      ∀ r ∈ t.regions, validNapotAlignment r.base r.size = true := by
    simpa [checkNapotAlignment, List.flatMap_eq_nil_iff] using hnapot
  constructor
  · exact taskIds_of_scan hids
  · exact fun t ht => (hregions t ht).1
  · exact fun t ht => (hregions t ht).2
  · simpa [checkIntraTaskOverlap, List.flatMap_eq_nil_iff, collectPairs_eq_nil] using hintra
  · simpa [checkCrossTaskOverlap, List.flatMap_eq_nil_iff, collectPairs_eq_nil] using hcross
  · simpa [checkKernelTaskOverlap, List.flatMap_eq_nil_iff] using hkernel
  · exact hchannel.1
  · exact fun c hc => (hchannel.2 c hc).1
  · exact fun c hc => (hchannel.2 c hc).2.1
  · exact fun c hc => (hchannel.2 c hc).2.2
  · exact hmessage
  · exact hmessages
  · exact fun t ht => (hgrant t ht).1
  · exact fun t ht g hg => ((hgrant t ht).2 g hg).1
  · exact fun t ht g hg => ((hgrant t ht).2 g hg).2

/-! ## Tasks by their id -/

theorem tidMap_of_mem {m : Manifest} (h : Accepted m) {t : TaskEntry} (ht : t ∈ m.tasks) :
    tidMap m t.taskId = some t :=
  table_of_nodup h.taskIds ht

theorem mem_of_tidMap {m : Manifest} {k : ℕ} {t : TaskEntry} (h : tidMap m k = some t) :
    t ∈ m.tasks ∧ t.taskId = k := by
  by_cases hk : k ∈ m.tasks.map TaskEntry.taskId
  · obtain ⟨u, hu, hid, hvalue⟩ : ∃ u ∈ m.tasks, u.taskId = k ∧ tidMap m k = some u :=
      table_of_mem hk
    rw [hvalue] at h
    cases h
    exact ⟨hu, hid⟩
  · have hnone : tidMap m k = none := table_of_notMem hk
    rw [hnone] at h
    cases h

end SntmAcceptance
