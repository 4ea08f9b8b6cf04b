import Sipahi.SntmCapFile

/-!
# The static capability table

What `local_cap_check` answers on the table generated from an accepted manifest.
-/
namespace SntmCapTable

open KernelTypes KernelCapability KeyedScan SntmManifest SntmAcceptance SntmCodegen
open SntmCapFile RustLexer RustReader

/-! ## Actions -/

/-- The bits that a manifest action stands for. -/
def actionBits (action : String) : ℕ :=
  match action with
  | "Read" => 1
  | "Write" => 2
  | "ReadWrite" => 3
  | "Execute" => 4
  | "All" => 7
  | _ => 0

theorem variantAction_bits (a : String) :
    (variantAction (actionToVariant a)).bits = actionBits a := by
  simp only [actionToVariant]
  split
  case h_7 hnone hread hwrite hreadWrite hexecute hall =>
    simp only [actionBits]
    rfl
  all_goals rfl

theorem fromU8_eq_some {b : ℕ} {requested : CapAction} (h : CapAction.fromU8 b = some requested) :
    requested.bits = b := by
  simp only [CapAction.fromU8] at h
  split at h <;> cases h <;> rfl

/-- The nonzero encodings. -/
def validRequests : List ℕ := [1, 2, 3, 4, 7]

theorem mem_validRequests {b : ℕ} :
    b ∈ validRequests ↔ (∃ requested, CapAction.fromU8 b = some requested) ∧ b ≠ 0 := by
  constructor
  · intro h
    simp only [validRequests, List.mem_cons, List.not_mem_nil, or_false] at h
    rcases h with rfl | rfl | rfl | rfl | rfl <;> exact ⟨⟨_, rfl⟩, by decide⟩
  · rintro ⟨⟨requested, h⟩, hne⟩
    have hbits := fromU8_eq_some h
    cases requested <;> simp only [CapAction.bits] at hbits <;> subst hbits
    · exact absurd rfl hne
    all_goals decide

theorem allows_iff {granted requested : CapAction} :
    granted.allows requested = true ↔
      granted.bits &&& requested.bits = requested.bits ∧ requested.bits ≠ 0 := by
  simp [CapAction.allows]

theorem localCapCheck_iff {capTable : CapTable} {caller resource action : ℕ} :
    localCapCheck capTable caller resource action = true ↔
      (∃ (hc : caller < maxTasks) (hr : resource < maxResources),
        (capTable ⟨caller, hc⟩ ⟨resource, hr⟩).bits &&& action = action) ∧
      action ∈ validRequests := by
  rw [mem_validRequests]
  constructor
  · intro h
    rw [localCapCheck] at h
    split at h
    · rename_i hc
      split at h
      · rename_i hr
        split at h
        · rename_i requested hrequested
          obtain ⟨hsub, hne⟩ := allows_iff.mp h
          rw [fromU8_eq_some hrequested] at hsub hne
          exact ⟨⟨hc, hr, hsub⟩, ⟨requested, hrequested⟩, hne⟩
        · cases h
      · cases h
    · cases h
  · rintro ⟨⟨hc, hr, hsub⟩, ⟨requested, hrequested⟩, hne⟩
    rw [localCapCheck, dif_pos hc, dif_pos hr, hrequested]
    apply allows_iff.mpr
    rw [fromU8_eq_some hrequested]
    exact ⟨hsub, hne⟩

/-! ## Rows -/

theorem grantRow_eq {grants : List LocalCapGrant}
    (hbound : ∀ g ∈ grants, g.resourceId < maxResources) (j : Fin maxResources) :
    grantRow grants j = (table LocalCapGrant.resourceId (fun g => actionToVariant g.action)
      grants j.val).getD "CapAction::None" := by
  have hfold : ∀ (grants : List LocalCapGrant) (row : CapRow) (t : ℕ → Option String),
      (∀ g ∈ grants, g.resourceId < maxResources) → row j = (t j.val).getD "CapAction::None" →
      grants.foldl (fun r g => if h : g.resourceId < maxResources then
          Function.update r ⟨g.resourceId, h⟩ (actionToVariant g.action) else r) row j =
        (insertAll LocalCapGrant.resourceId (fun g => actionToVariant g.action) t grants
          j.val).getD "CapAction::None" := by
    intro grants
    induction grants with
    | nil =>
      intro row t _ hrow
      exact hrow
    | cons g grants ih =>
      intro row t hbound hrow
      rw [List.foldl_cons, dif_pos (hbound g (by simp)), insertAll, List.foldl_cons, ← insertAll]
      apply ih _ _ fun f hf => hbound f (by simp [hf])
      by_cases hj : j.val = g.resourceId
      · have hcolumn : j = ⟨g.resourceId, hbound g (by simp)⟩ := Fin.ext hj
        rw [hcolumn, Function.update_self, Function.update_self, Option.getD_some]
      · have hcolumn : j ≠ ⟨g.resourceId, hbound g (by simp)⟩ := fun h => hj (congrArg Fin.val h)
        rw [Function.update_of_ne hcolumn, Function.update_of_ne hj, hrow]
  exact hfold grants denyRow (fun _ => none) hbound rfl

/-- The manifest grants this action to the task with this id. -/
def Grants (m : Manifest) (caller resource : ℕ) (action : String) : Prop :=
  ∃ t ∈ m.tasks, t.taskId = caller ∧ ∃ g ∈ t.localCaps, g.resourceId = resource ∧ g.action = action

theorem cell_cases {m : Manifest} (h : Accepted m) (i : TaskIndex) (j : Fin maxResources) :
    (∃ action, Grants m i.val j.val action ∧
      capRow m i j = actionToVariant action) ∨
    ((∀ action, ¬ Grants m i.val j.val action) ∧
      capRow m i j = actionToVariant "None") := by
  cases htask : tidMap m i.val with
  | none =>
    right
    constructor
    · rintro action ⟨t, ht, hid, _⟩
      rw [← hid, tidMap_of_mem h ht] at htask
      cases htask
    · simp only [capRow, htask]
      rfl
  | some t =>
    obtain ⟨ht, hid⟩ := mem_of_tidMap htask
    have hrow : capRow m i j = grantRow t.localCaps j := by
      simp only [capRow, htask]
    rw [hrow, grantRow_eq (h.grantId_lt t ht)]
    by_cases hj : j.val ∈ t.localCaps.map LocalCapGrant.resourceId
    · left
      obtain ⟨g, hg, hresource⟩ := List.mem_map.mp hj
      refine ⟨g.action, ⟨t, ht, hid, g, hg, hresource, rfl⟩, ?_⟩
      rw [← hresource, table_of_nodup (h.grantIds t ht) hg]
      rfl
    · right
      rw [table_of_notMem hj]
      refine ⟨?_, rfl⟩
      rintro action ⟨u, hu, huid, g, hg, hresource, _⟩
      have hsame : u = t := List.inj_on_of_nodup_map h.taskIds hu ht (huid.trans hid.symm)
      rw [hsame] at hg
      exact hj (hresource ▸ List.mem_map_of_mem hg)

theorem grants_unique {m : Manifest} (h : Accepted m) {caller resource : ℕ} {a b : String}
    (ha : Grants m caller resource a) (hb : Grants m caller resource b) : a = b := by
  obtain ⟨t, ht, hid, g, hg, hresource, rfl⟩ := ha
  obtain ⟨u, hu, huid, f, hf, hfresource, rfl⟩ := hb
  have hsame : u = t := List.inj_on_of_nodup_map h.taskIds hu ht (huid.trans hid.symm)
  rw [hsame] at hf
  rw [List.inj_on_of_nodup_map (h.grantIds t ht) hg hf (hresource.trans hfresource.symm)]

theorem compiledRow_cells {m : Manifest} (h : Accepted m) (i : TaskIndex) (j : Fin maxResources) :
    (∃ action, Grants m i.val j.val action ∧ (compiledRow m i j).bits = actionBits action) ∨
      ((∀ action, ¬ Grants m i.val j.val action) ∧ (compiledRow m i j).bits = 0) := by
  rw [compiledRow]
  rcases cell_cases h i j with ⟨action, hgrants, hcell⟩ | ⟨hnone, hcell⟩
  · rw [hcell, variantAction_bits]
    exact .inl ⟨action, hgrants, rfl⟩
  · rw [hcell, variantAction_bits]
    exact .inr ⟨hnone, rfl⟩

theorem localCapCheck_compiledRow {m : Manifest} (h : Accepted m) (caller resource action : ℕ) :
    localCapCheck (compiledRow m) caller resource action = true ↔
      (∃ t ∈ m.tasks, t.taskId = caller ∧ caller < maxTasks ∧
        ∃ g ∈ t.localCaps, g.resourceId = resource ∧ actionBits g.action &&& action = action) ∧
      action ∈ validRequests := by
  rw [localCapCheck_iff]
  apply and_congr_left
  intro hrequest
  have hne : action ≠ 0 := (mem_validRequests.mp hrequest).2
  constructor
  · rintro ⟨hc, hr, hsub⟩
    rcases compiledRow_cells h ⟨caller, hc⟩ ⟨resource, hr⟩ with
      ⟨granted, hgrants, hbits⟩ | ⟨_, hbits⟩
    · obtain ⟨t, ht, hid, g, hg, hresource, rfl⟩ := hgrants
      rw [hbits] at hsub
      exact ⟨t, ht, hid, hc, g, hg, hresource, hsub⟩
    · rw [hbits, Nat.zero_and] at hsub
      exact absurd hsub.symm hne
  · rintro ⟨t, ht, hid, hc, g, hg, hresource, hsub⟩
    have hr : resource < maxResources := hresource ▸ h.grantId_lt t ht g hg
    have hgrants : Grants m caller resource g.action := ⟨t, ht, hid, g, hg, hresource, rfl⟩
    refine ⟨hc, hr, ?_⟩
    rcases compiledRow_cells h ⟨caller, hc⟩ ⟨resource, hr⟩ with
      ⟨granted, hother, hbits⟩ | ⟨hnone, _⟩
    · rw [hbits, grants_unique h hother hgrants]
      exact hsub
    · exact absurd hgrants (hnone g.action)

/-- The generated file compiles, and its table means what the manifest says. -/
def TableExact (m : Manifest) : Prop :=
  ∃ tables, compileCapTable (generateCapTableRs m) = some tables ∧
    ∀ caller resource action, localCapCheck tables.localCapTable caller resource action = true ↔
      (∃ t ∈ m.tasks, t.taskId = caller ∧ caller < maxTasks ∧
        ∃ g ∈ t.localCaps, g.resourceId = resource ∧ actionBits g.action &&& action = action) ∧
      action ∈ validRequests

/-- The names are copied into the comments of the file as they are. -/
theorem local_cap_check_exact (m : Manifest) (host : Option Host)
    (hok : validateAll m host = .ok ()) (hnames : CapNamesSilent m) : TableExact m := by
  have haccepted := accepted_of_validateAll hok
  exact ⟨_, compileCapTable_eq haccepted hnames, localCapCheck_compiledRow haccepted⟩

theorem sipahiToml_cap_table : TableExact sipahiToml :=
  local_cap_check_exact sipahiToml (some workspaceHost) sipahiToml_accepted (by decide +kernel)

/-- The table under version control is the one generated from the manifest beside it. -/
example : (compileCapTable (generateCapTableRs sipahiToml)).map CapTables.localCapTable =
    some generatedCapTable := by
  rw [compileCapTable_eq (accepted_of_validateAll sipahiToml_accepted) (by decide +kernel)]
  decide +kernel

/-! ## A name that ends its comment -/

def escapingName : String :=
  "x */ [CapAction::All, CapAction::All, CapAction::All, CapAction::All], //"

/-- One task without any grant. -/
def escapingToml : Manifest where
  pmpEntries := 16
  tasks := [{ taskHello with name := escapingName, localCaps := [], demoFeatureWaivers := [] }]

def escapedRow (slot : TaskIndex) : Fin maxResources → CapAction :=
  if slot = 2 then fun _ => .all else compiledRow escapingToml slot

theorem writes_escapingRow :
    Writes (emitCapRow escapingToml 2) capActionRow (cells .all .all .all .all) := by
  have htext : emitCapRow escapingToml 2 = "    /* task 2 (x */ ".toList ++ ("[".toList ++
      ("CapAction::All".toList ++ (", ".toList ++ ("CapAction::All".toList ++ (", ".toList ++
      ("CapAction::All".toList ++ (", ".toList ++ ("CapAction::All".toList ++
      ("],".toList ++ (" //) */ [CapAction::None, CapAction::None, ".toList ++
      "CapAction::None, CapAction::None],\n".toList)))))))))) := by
    have hlabel : slotLabel escapingToml 2 = escapingName.toList := rfl
    have hrow : capRow escapingToml 2 = denyRow := rfl
    unfold emitCapRow
    rw [hlabel, hrow]
    unfold escapingName denyRow
    repeat rw [String.toList_ofList]
    decide +kernel
  have hpath : Lexes .idle "CapAction::All".toList (code "CapAction::") (.word "All".toList) := by
    decide +kernel
  have hread : Reads capAction (code "CapAction::" ++ [.word "All".toList]) .all :=
    (reads_expect _).bind (reads_oneOf (by decide +kernel))
  -- the rest of the generated line is a comment
  have hrest : Lexes .idle ("],".toList ++ (" //) */ [CapAction::None, CapAction::None, ".toList ++
      "CapAction::None, CapAction::None],\n".toList)) (code "],") .idle := by
    unfold code
    repeat rw [String.toList_ofList]
    decide +kernel
  rw [htext]
  refine .comment ?_ (by decide +kernel)
  refine .expect ?_ (by decide +kernel)
  refine .word ?_ hpath hread (by decide +kernel) (by decide +kernel)
  refine .word ?_ hpath hread (by decide +kernel) (by decide +kernel)
  refine .word ?_ hpath hread (by decide +kernel) (by decide +kernel)
  exact .wordLast (cells _ _ _) hpath hread hrest (by decide +kernel)

theorem escapingToml_compiles : compileCapTable (generateCapTableRs escapingToml) =
    some ⟨escapedRow, bootChannels escapingToml⟩ := by
  apply compileCapTable_of_rows
  · intro slot
    by_cases hslot : slot = 2
    · have hrow : escapedRow slot = cells .all .all .all .all := by
        rw [escapedRow, if_pos hslot]
        funext j
        match j with
        | ⟨0, _⟩ | ⟨1, _⟩ | ⟨2, _⟩ | ⟨3, _⟩ => rfl
      rw [hrow, hslot]
      exact writes_escapingRow
    · rw [escapedRow, if_neg hslot]
      apply writes_emitCapRow
      have hlabel : slotLabel escapingToml slot = "<empty slot>".toList := by
        revert slot
        decide
      rw [hlabel]
      exact silentInBlock_emptySlot
  · intro c hc
    cases hc

theorem name_grants_everything :
    ¬ ∀ (m : Manifest) (host : Option Host), validateAll m host = .ok () → TableExact m := by
  intro hall
  have hok : validateAll escapingToml (some workspaceHost) = .ok () := by decide +kernel
  obtain ⟨tables, hcompiled, hexact⟩ := hall escapingToml _ hok
  rw [escapingToml_compiles, Option.some.injEq] at hcompiled
  subst hcompiled
  have hcheck : localCapCheck escapedRow 2 0 7 = true := by decide +kernel
  obtain ⟨⟨t, ht, _, _, g, hg, _⟩, _⟩ := (hexact 2 0 7).mp hcheck
  obtain rfl := List.mem_singleton.mp ht
  cases hg

end SntmCapTable
