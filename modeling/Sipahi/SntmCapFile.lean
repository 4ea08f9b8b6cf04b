import Sipahi.SntmAcceptance

/-!
# The compiled capability tables

What `LOCAL_CAP_TABLE` and `BOOT_CHANNELS` hold once the generated file is compiled into the
kernel. A row stands behind a block comment with the task's name, a channel before a line comment
with the names of its endpoints.
-/
namespace SntmCapFile

open KernelTypes KernelCapability KeyedScan SntmManifest SntmAcceptance SntmCodegen
open RustLexer RustReader

/-! ## Rows -/

/-- The action that a variant names. -/
def variantAction (path : String) : CapAction :=
  match path with
  | "CapAction::Read" => .read
  | "CapAction::Write" => .write
  | "CapAction::ReadWrite" => .readWrite
  | "CapAction::Execute" => .execute
  | "CapAction::All" => .all
  | _ => .none

theorem variant_path (a : String) : ∃ w, Lexes .idle (actionToVariant a).toList
    (code "CapAction::") (.word w) ∧
      capActions.lookup w = some (variantAction (actionToVariant a)) := by
  simp only [actionToVariant]
  split
  · exact ⟨"None".toList, rfl, rfl⟩
  · exact ⟨"Read".toList, rfl, rfl⟩
  · exact ⟨"Write".toList, rfl, rfl⟩
  · exact ⟨"ReadWrite".toList, rfl, rfl⟩
  · exact ⟨"Execute".toList, rfl, rfl⟩
  · exact ⟨"All".toList, rfl, rfl⟩
  · exact ⟨"None".toList, rfl, rfl⟩

/-- The row that the compiler reads. -/
def compiledRow (m : Manifest) (slot : TaskIndex) : Fin maxResources → CapAction := fun j =>
  variantAction (capRow m slot j)

theorem grantRow_variant (grants : List LocalCapGrant) (j : Fin maxResources) :
    ∃ a, grantRow grants j = actionToVariant a := by
  have hfold : ∀ (grants : List LocalCapGrant) (row : CapRow),
      (∀ j, ∃ a, row j = actionToVariant a) → ∀ j, ∃ a, grants.foldl (fun r g =>
        if h : g.resourceId < maxResources then
          Function.update r ⟨g.resourceId, h⟩ (actionToVariant g.action)
        else r) row j = actionToVariant a := by
    intro grants
    induction grants with
    | nil =>
      intro row hrow
      exact hrow
    | cons g grants ih =>
      intro row hrow
      apply ih
      intro j
      by_cases hg : g.resourceId < maxResources
      · simp only [dif_pos hg]
        by_cases hj : j = ⟨g.resourceId, hg⟩
        · exact ⟨g.action, by rw [hj, Function.update_self]⟩
        · rw [Function.update_of_ne hj]
          exact hrow j
      · simp only [dif_neg hg]
        exact hrow j
  exact hfold grants denyRow (fun _ => ⟨"None", rfl⟩) j

theorem capRow_variant (m : Manifest) (slot : TaskIndex) (j : Fin maxResources) :
    ∃ a, capRow m slot j = actionToVariant a := by
  cases htask : tidMap m slot.val with
  | none => exact ⟨"None", by simp only [capRow, htask]; rfl⟩
  | some t =>
    simp only [capRow, htask]
    exact grantRow_variant _ j

/-- One cell, read as an action. -/
theorem capRow_path (m : Manifest) (slot : TaskIndex) (j : Fin maxResources) : ∃ w,
    Lexes .idle (capRow m slot j).toList (code "CapAction::") (.word w) ∧
      Reads capAction (code "CapAction::" ++ [.word w]) (compiledRow m slot j) := by
  obtain ⟨a, ha⟩ := capRow_variant m slot j
  obtain ⟨w, hpath, hlookup⟩ := variant_path a
  rw [compiledRow, ha]
  exact ⟨w, hpath, (reads_expect _).bind (reads_oneOf hlookup)⟩

theorem lexes_slotComment (slot : TaskIndex) {label : List Char} (hlabel : SilentInBlock label) :
    Lexes .idle ("    /* task ".toList ++ (decimal slot.val ++ (" (".toList ++
      (label ++ ") */ ".toList)))) [] .idle := by
  have htask : Lexes .idle "    /* task ".toList [] (.block 1 ' ') := .text rfl
  have hslot : ∀ slot : TaskIndex, Lexes (.block 1 ' ') (decimal slot.val ++ [' ', '(']) []
      (.block 1 '(') := by
    decide
  have hopen : Lexes .idle ("    /* task ".toList ++ (decimal slot.val ++ " (".toList)) []
      (.block 1 '(') :=
    htask.append (hslot slot)
  obtain ⟨last, hlast⟩ := hlabel.lexes
  have hparen : Lexes (.block 1 last) [')'] [] (.block 1 ')') := by
    simp [Lexes, feed, step, inBlock, isDirection, emit]
  have hclose : Lexes (.block 1 ')') " */ ".toList [] .idle := .text rfl
  have hall := hopen.append (hlast.append (hparen.append hclose))
  simp only [List.append_assoc] at hall
  exact hall

theorem writes_emitCapRow {m : Manifest} {slot : TaskIndex}
    (hlabel : SilentInBlock (slotLabel m slot)) :
    Writes (emitCapRow m slot) capActionRow (compiledRow m slot) := by
  obtain ⟨a, ha, hra⟩ := capRow_path m slot ⟨0, by decide⟩
  obtain ⟨b, hb, hrb⟩ := capRow_path m slot ⟨1, by decide⟩
  obtain ⟨c, hc, hrc⟩ := capRow_path m slot ⟨2, by decide⟩
  obtain ⟨d, hd, hrd⟩ := capRow_path m slot ⟨3, by decide⟩
  have hrow : compiledRow m slot = cells (compiledRow m slot ⟨0, by decide⟩)
      (compiledRow m slot ⟨1, by decide⟩) (compiledRow m slot ⟨2, by decide⟩)
      (compiledRow m slot ⟨3, by decide⟩) := by
    funext j
    match j with
    | ⟨0, _⟩ | ⟨1, _⟩ | ⟨2, _⟩ | ⟨3, _⟩ => rfl
  have htext : emitCapRow m slot = "    /* task ".toList ++ (decimal slot.val ++ (" (".toList ++
      (slotLabel m slot ++ ") */ ".toList))) ++ ("[".toList ++
      ((capRow m slot ⟨0, by decide⟩).toList ++ (", ".toList ++
      ((capRow m slot ⟨1, by decide⟩).toList ++ (", ".toList ++
      ((capRow m slot ⟨2, by decide⟩).toList ++ (", ".toList ++
      ((capRow m slot ⟨3, by decide⟩).toList ++ "],\n".toList)))))))) := by
    have hparen : ") */ [".toList = ") */ ".toList ++ "[".toList := rfl
    unfold emitCapRow
    rw [hparen]
    simp only [List.append_assoc]
  rw [htext, hrow]
  refine .comment ?_ (lexes_slotComment slot hlabel)
  refine .expect ?_ (.code rfl)
  refine .word ?_ ha hra (.code rfl) (.text rfl)
  refine .word ?_ hb hrb (.code rfl) (.text rfl)
  refine .word ?_ hc hrc (.code rfl) (.text rfl)
  exact .wordLast (cells _ _ _) hd hrd (.code rfl) (.text rfl)

/-! ## Channels -/

theorem nameToId_le {m : Manifest} (name : String) : (nameToId m name).getD 0xFF ≤ u8Max := by
  by_cases hname : name ∈ m.tasks.map TaskEntry.name
  · obtain ⟨t, _, _, hid⟩ : ∃ t ∈ m.tasks, t.name = name ∧ nameToId m name = some t.taskId :=
      table_of_mem hname
    rw [hid]
    exact t.taskId_le
  · have hnone : nameToId m name = none := table_of_notMem hname
    rw [hnone]
    decide

theorem lexes_channelComment {c : ChannelEntry} (hmessage : MessageName c.message)
    (hproducer : SilentInLine c.producer.toList) (hconsumer : SilentInLine c.consumer.toList) :
    Lexes .idle (channelComment c) [] .idle := by
  have hopen : Lexes .idle "  // channel ".toList [] .line := .text rfl
  have hquote : SilentInLine " \"".toList := .text rfl
  have hname : SilentInLine c.message.toList := by
    apply silentInLine_of_word
    intro ch hch
    exact isWordChar_of_alphanumeric (hmessage.alphanumeric ch hch)
  have hblank : SilentInLine "\" ".toList := .text rfl
  have harrow : SilentInLine " → ".toList := .text rfl
  have hend : Lexes .line "\n".toList [] .idle := .text rfl
  have hall := hopen.append ((plain_decimal c.id).silentInLine.append (hquote.append (hname.append
    (hblank.append (hproducer.append (harrow.append (hconsumer.append hend)))))))
  unfold channelComment
  simp only [List.append_assoc]
  exact hall

theorem writes_emitBootChannel {m : Manifest} (h : Accepted m) {c : ChannelEntry}
    (hc : c ∈ m.channels) (hproducer : SilentInLine c.producer.toList)
    (hconsumer : SilentInLine c.consumer.toList) :
    Writes (emitBootChannel m c) channelOwners (bootChannel m c) := by
  have hid : (bootChannel m c).1 ≤ u8Max := by
    have hlt := h.channelId_lt c hc
    simp only [maxIpcChannels] at hlt
    simp only [bootChannel, u8Max]
    omega
  have hcomment := lexes_channelComment (h.message c hc) hproducer hconsumer
  have hclose : Lexes .idle ("),".toList ++ channelComment c) (code "),") .idle := by
    have hcode : Lexes .idle "),".toList (code "),") .idle := .code rfl
    have hall := hcode.append hcomment
    rwa [List.append_nil] at hall
  have hends : EndsWord ("),".toList ++ channelComment c) := by
    have hparen : EndsWord "),".toList := .text rfl
    exact hparen.append _
  unfold emitBootChannel
  simp only [List.append_assoc]
  refine .expect ?_ (.code rfl)
  refine .word ?_ (lexes_decimal _) (reads_number (numeral_decimal _) hid) (.code rfl) (.text rfl)
  refine .word ?_ (lexes_decimal _) (reads_number (numeral_decimal _) (nameToId_le _)) (.code rfl)
    (.text rfl)
  exact .wordLast (fun q => ((bootChannel m c).1, (bootChannel m c).2.1, q)) (lexes_decimal _)
    (reads_number (numeral_decimal _) (nameToId_le _)) hclose hends

/-! ## The file -/

/-- The names of tasks and endpoints say nothing in their comments. -/
structure CapNamesSilent (m : Manifest) : Prop where
  slots : ∀ t ∈ m.tasks, t.taskId < maxTasks → SilentInBlock t.name.toList
  channels : ∀ c ∈ m.channels, SilentInLine c.producer.toList ∧ SilentInLine c.consumer.toList

instance (m : Manifest) : Decidable (CapNamesSilent m) :=
  decidable_of_iff ((∀ t ∈ m.tasks, t.taskId < maxTasks → SilentInBlock t.name.toList) ∧
      ∀ c ∈ m.channels, SilentInLine c.producer.toList ∧ SilentInLine c.consumer.toList)
    ⟨fun h => ⟨h.1, h.2⟩, fun h => ⟨h.slots, h.channels⟩⟩

def bootChannels (m : Manifest) : List (ℕ × ℕ × ℕ) := m.channels.map (bootChannel m)

set_option maxRecDepth 8000 in
theorem lexes_capHeader : Lexes .idle capHeader (List.replicate 7 .innerDoc ++
    code "use crate::kernel::capability::cap_action::CapAction;") .idle := by
  unfold capHeader code
  repeat rw [String.toList_ofList]
  rfl

set_option maxRecDepth 8000 in
theorem lexes_bootChannelsDoc : Lexes .idle
    (bootChannelsDoc ++ "pub static BOOT_CHANNELS: &[(u8, u8, u8)] = &[\n".toList)
    (List.replicate 3 .outerDoc ++ code "pub static BOOT_CHANNELS: &[(u8, u8, u8)] = &[") .idle := by
  unfold bootChannelsDoc code
  repeat rw [String.toList_ofList]
  rfl

theorem lexes_localCapTable : Lexes .idle
    "pub static LOCAL_CAP_TABLE: [[CapAction; 4]; 8] = [\n".toList
    (code "pub static LOCAL_CAP_TABLE: [[CapAction; 4]; 8] = [") .idle :=
  .code rfl

theorem channelOwners_bracket (us : List RustLexer.Token) :
    channelOwners (code "];" ++ us) = none := by
  have hclose : code "];" = [.punct ']', .punct ';'] := rfl
  have hopen : code "(" = [.punct '('] := rfl
  rw [channelOwners, hclose, hopen]
  rfl

/-- The file compiles to the rows that can be read in it. -/
theorem compileCapTable_of_rows {m : Manifest} {rows : TaskIndex → Fin maxResources → CapAction}
    (hrows : ∀ slot, Writes (emitCapRow m slot) capActionRow (rows slot))
    (hchannels : ∀ c ∈ m.channels, Writes (emitBootChannel m c) channelOwners (bootChannel m c)) :
    compileCapTable (generateCapTableRs m) = some ⟨rows, bootChannels m⟩ := by
  have hslots := Writes.items fun slot (_ : slot ∈ List.finRange maxTasks) => hrows slot
  have hlength : (List.finRange maxTasks).length = maxTasks := List.length_finRange
  rw [hlength] at hslots
  have hfun : (fun i : TaskIndex => ((List.finRange maxTasks).map rows).getD i.val
      fun _ => .none) = rows := by
    funext i
    exact getD_map_finRange _ _ _
  have hclose : Lexes .idle "];\n".toList (code "];") .idle := .code rfl
  have hend := Writes.manyLast (CapTables.mk fun i : TaskIndex =>
    ((List.finRange maxTasks).map rows).getD i.val fun _ => .none) hchannels hclose
    channelOwners_bracket
  have hvalue : CapTables.mk (fun i : TaskIndex => ((List.finRange maxTasks).map rows).getD i.val
      fun _ => .none) (m.channels.map (bootChannel m)) = ⟨rows, bootChannels m⟩ := by
    rw [hfun]
    rfl
  rw [hvalue] at hend
  apply Writes.compile_eq
  have htext : generateCapTableRs m = capHeader ++
      ("pub static LOCAL_CAP_TABLE: [[CapAction; 4]; 8] = [\n".toList ++
      ((List.finRange maxTasks).flatMap (emitCapRow m) ++ ("];\n\n".toList ++
      (bootChannelsDoc ++ "pub static BOOT_CHANNELS: &[(u8, u8, u8)] = &[\n".toList ++
      (m.channels.flatMap (emitBootChannel m) ++ "];\n".toList))))) := by
    unfold generateCapTableRs
    simp only [List.append_assoc]
  rw [htext]
  unfold capTables
  refine .expect ?_ lexes_capHeader
  refine .expect ?_ lexes_localCapTable
  refine .bind hslots ?_
  refine .expect ?_ (.code rfl)
  refine .expect ?_ lexes_bootChannelsDoc
  exact hend

theorem silentInBlock_emptySlot : SilentInBlock "<empty slot>".toList := rfl

/-- If the names stay inside their comments, the file compiles to what the manifest says. -/
theorem compileCapTable_eq {m : Manifest} (h : Accepted m) (hnames : CapNamesSilent m) :
    compileCapTable (generateCapTableRs m) = some ⟨compiledRow m, bootChannels m⟩ := by
  apply compileCapTable_of_rows
  · intro slot
    apply writes_emitCapRow
    cases htask : tidMap m slot.val with
    | none =>
      simp only [slotLabel, htask]
      exact silentInBlock_emptySlot
    | some t =>
      obtain ⟨ht, hid⟩ := mem_of_tidMap htask
      simp only [slotLabel, htask]
      exact hnames.slots t ht (hid ▸ slot.isLt)
  · intro c hc
    exact writes_emitBootChannel h hc (hnames.channels c hc).1 (hnames.channels c hc).2

end SntmCapFile
