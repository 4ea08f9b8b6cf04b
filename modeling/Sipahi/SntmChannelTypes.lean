import Sipahi.SipahiApi
import Sipahi.SntmChannelFile

/-!
# The message types of the generated channels

What `channels.rs` declares for a channel of the manifest, and the assertions it makes about that.
-/
namespace SntmChannelTypes

open KernelTypes KeyedScan SntmManifest SntmAcceptance SntmWrapperNames SntmChannelFile
open StructLayout SipahiApi RustLexer RustReader

/-! ## The pieces that are the same for every channel -/

section Pieces

set_option maxRecDepth 30000

theorem lexes_channelsHeader : Lexes .idle channelsHeader (List.replicate 15 .innerDoc ++
    code "#![allow(unused_imports)]" ++
    code "use crate::ipc::Message; use crate::syscall; use crate::Error;") .idle := by
  unfold channelsHeader code
  repeat rw [String.toList_ofList]
  rfl

theorem lexes_structAttributes : Lexes .idle
    "#[repr(C, align(8))]\n#[derive(Clone, Copy, Debug)]\npub struct ".toList
    (code "#[repr(C, align(8))] #[derive(Clone, Copy, Debug)] pub struct ") .idle :=
  .code rfl

theorem lexes_sizeGate : Lexes .idle
    ("// CR-4 compile-time safety gates\n".toList ++
      "const _: () = assert!(core::mem::size_of::<".toList)
    (code "const _: () = assert!(core::mem::size_of::<") .idle := by
  unfold code
  repeat rw [String.toList_ofList]
  rfl

theorem lexes_messageGate : Lexes .idle
    (");\n".toList ++ "const _: () = assert!(core::mem::size_of::<".toList)
    (code "); const _: () = assert!(core::mem::size_of::<") .idle := by
  unfold code
  repeat rw [String.toList_ofList]
  rfl

theorem lexes_alignGate : Lexes .idle
    (">() <= Message::SIZE);\n".toList ++ "const _: () = assert!(core::mem::align_of::<".toList)
    (code ">() <= Message::SIZE); const _: () = assert!(core::mem::align_of::<") .idle := by
  unfold code
  repeat rw [String.toList_ofList]
  rfl

theorem lexes_sendBody : Lexes .idle sendBody
    (code "; let mut buf = Message::empty(); unsafe \x7b" ++
      code "core::ptr::copy_nonoverlapping(msg as *const _ as *const u8, " ++
      code "buf.data.as_mut_ptr(), core::mem::size_of::<") .idle := by
  unfold sendBody code
  repeat rw [String.toList_ofList]
  rfl

theorem endsWord_sendBody : EndsWord sendBody := by
  unfold sendBody
  repeat apply EndsWord.append
  exact .text rfl

theorem lexes_sendEnd : Lexes .idle sendEnd
    (code ">(), ); \x7d syscall::ipc_send(CHANNEL_ID, &buf) \x7d") .idle :=
  .code rfl

theorem lexes_recvBody : Lexes .idle recvBody (code "; let mut buf = Message::empty(); " ++
    code "match syscall::ipc_recv(CHANNEL_ID, &mut buf) \x7b Ok(true) => \x7b " ++
    code "let mut out = core::mem::MaybeUninit::<") .idle := by
  unfold recvBody code
  repeat rw [String.toList_ofList]
  rfl

theorem endsWord_recvBody : EndsWord recvBody := by
  unfold recvBody
  repeat apply EndsWord.append
  exact .text rfl

theorem lexes_recvCopy : Lexes .idle recvCopy
    (code ">::uninit(); unsafe \x7b core::ptr::copy_nonoverlapping(buf.data.as_ptr(), " ++
      code "out.as_mut_ptr() as *mut u8, core::mem::size_of::<") .idle := by
  unfold recvCopy code
  repeat rw [String.toList_ofList]
  rfl

theorem endsWord_recvCopy : EndsWord recvCopy := by
  unfold recvCopy
  repeat apply EndsWord.append
  exact .text rfl

theorem lexes_recvEnd : Lexes .idle recvEnd
    (code ">(), ); Ok(Some(out.assume_init())) \x7d \x7d Ok(false) => Ok(None), " ++
      code "Err(e) => Err(e), \x7d \x7d") .idle := by
  unfold recvEnd code
  repeat rw [String.toList_ofList]
  rfl

theorem endsWord_recvEnd : EndsWord recvEnd := by
  unfold recvEnd
  repeat apply EndsWord.append
  exact .text rfl

end Pieces

/-! ## Reading the file -/

/-- The endpoints have names that mean nothing to the compiler, wherever they stand. -/
def EndpointsPlain (m : Manifest) : Prop :=
  ∀ c ∈ m.channels, Plain c.producer.toList ∧ Plain c.consumer.toList

instance (m : Manifest) : Decidable (EndpointsPlain m) :=
  inferInstanceAs (Decidable (∀ c ∈ m.channels, _))

/-- What the text of a channel says. -/
def channelStructAndGates (c : ChannelEntry) : ChannelItems :=
  ⟨⟨c.message.toList, c.size⟩, [.sizeOfEq c.message.toList c.size,
    .sizeOfLeMessageSize c.message.toList, .alignOfLe c.message.toList 8]⟩

section Channel

variable {c : ChannelEntry}

theorem isWordChar_message (hmessage : MessageName c.message) :
    ∀ ch ∈ c.message.toList, isWordChar ch = true := fun ch hch =>
  isWordChar_of_alphanumeric (hmessage.alphanumeric ch hch)

theorem message_path (hmessage : MessageName c.message) :
    Lexes .idle c.message.toList [] (.word c.message.toList) := by
  apply lexes_word_start _ (isWordChar_message hmessage)
  intro hnil
  have hcapital := hmessage.capital
  rw [hnil] at hcapital
  cases hcapital

theorem lexes_channelLine (hproducer : Plain c.producer.toList)
    (hconsumer : Plain c.consumer.toList) : Lexes .idle (channelLine c) [] .idle := by
  have hopen : Lexes .idle "// ─── channel ".toList [] .line := .text rfl
  have hparen : Plain " (".toList := .text (by decide)
  have harrow : Plain " → ".toList := .text (by decide)
  have hclose : Lexes .line ") ───────────────────────────\n\n".toList [] .idle := .text rfl
  have htext := (plain_decimal c.id).append (hparen.append (hproducer.append
    (harrow.append hconsumer)))
  have hall := hopen.append (htext.silentInLine.append hclose)
  unfold channelLine
  simp only [List.append_assoc] at hall ⊢
  exact hall

theorem lexes_structDoc (hmessage : MessageName c.message) :
    Lexes .idle (structDoc c) (List.replicate 2 .outerDoc) .idle := by
  have hchannel : Lexes .idle "/// Typed IPC message body for channel ".toList []
      (.doc .outerDoc false) := .text rfl
  have hparen : Plain " (".toList := .text (by decide)
  have hclose : Lexes (.doc .outerDoc false) ").\n".toList [.outerDoc] .idle := .text rfl
  have hsize : Lexes .idle "/// SAFE-2 invariant: size = ".toList [] (.doc .outerDoc false) :=
    .text rfl
  have hbytes : Lexes (.doc .outerDoc false) " bytes, repr(C, align(8)).\n".toList [.outerDoc]
      .idle := .text rfl
  have hname := plain_of_word (isWordChar_message hmessage)
  have hfirst := ((plain_decimal c.id).append (hparen.append hname)).lexes_docLine hchannel hclose
  have hall := hfirst.append ((plain_decimal c.size).lexes_docLine hsize hbytes)
  unfold structDoc
  simp only [List.append_assoc] at hall ⊢
  exact hall

theorem lexes_payloadDoc (c : ChannelEntry) : Lexes .idle (payloadDoc c) [.outerDoc] .idle := by
  have hopen : Lexes .idle "    /// Opaque payload (manifest size = ".toList []
      (.doc .outerDoc false) := .text rfl
  have hclose : Lexes (.doc .outerDoc false) " bytes).\n".toList [.outerDoc] .idle := .text rfl
  have hall := (plain_decimal c.size).lexes_docLine hopen hclose
  unfold payloadDoc
  simp only [List.append_assoc]
  exact hall

theorem lexes_endpoints (hmessage : MessageName c.message) (hproducer : Plain c.producer.toList)
    (hconsumer : Plain c.consumer.toList) {front : List Char}
    (hfront : Lexes .idle front [] (.doc .outerDoc false)) :
    Lexes .idle (front ++ endpoints c) [.outerDoc] .idle := by
  have hchannel : Plain "` message on channel ".toList := .text (by decide)
  have hparen : Plain " (".toList := .text (by decide)
  have harrow : Plain " → ".toList := .text (by decide)
  have hclose : Lexes (.doc .outerDoc false) ").\n".toList [.outerDoc] .idle := .text rfl
  have hname := plain_of_word (isWordChar_message hmessage)
  have htext := hname.append (hchannel.append ((plain_decimal c.id).append (hparen.append
    (hproducer.append (harrow.append hconsumer)))))
  have hall := htext.lexes_docLine hfront hclose
  unfold endpoints
  simp only [List.append_assoc] at hall ⊢
  exact hall

theorem plain_task {task : List Char} (htask : Plain task) : Plain ("task_".toList ++ task) := by
  have hfront : Plain "task_".toList := .text (by decide)
  exact hfront.append htask

theorem lexes_cfgDoc {task : List Char} (htask : Plain task) :
    Lexes .idle ("/// Cfg-gated: only compiles when `task_".toList ++ (task ++
      "` feature is enabled.\n".toList)) [.outerDoc] .idle := by
  have hopen : Lexes .idle "/// Cfg-gated: only compiles when `task_".toList []
      (.doc .outerDoc false) := .text rfl
  have hclose : Lexes (.doc .outerDoc false) "` feature is enabled.\n".toList [.outerDoc]
      .idle := .text rfl
  exact htask.lexes_docLine hopen hclose

/-- The function's name. -/
theorem wrapper_path (hmessage : MessageName c.message) (front : List Char) (hne : front ≠ [])
    (hfront : ∀ ch ∈ front, isWordChar ch = true) :
    Lexes .idle (front ++ (pascalToSnake c.message).toList) []
      (.word (front ++ (pascalToSnake c.message).toList)) := by
  apply lexes_word_start (List.append_ne_nil_of_left_ne_nil hne _)
  intro ch hch
  rcases List.mem_append.mp hch with hch | hch
  · exact hfront ch hch
  · exact isWordChar_pascalToSnake hmessage ch hch

theorem writes_emitStruct (hmessage : MessageName c.message) (hproducer : Plain c.producer.toList)
    (hconsumer : Plain c.consumer.toList) (hsize : c.size ≤ usizeMax) :
    Writes (emitStruct c) channelStruct ⟨c.message.toList, c.size⟩ := by
  have hopen : Lexes .idle " \x7b\n".toList (code "\x7b") .idle := .code rfl
  have hbytes : Lexes .idle "    pub bytes: [u8; ".toList (code "pub bytes: [u8; ") .idle :=
    .code rfl
  have hfront := (lexes_channelLine hproducer hconsumer).append
    ((lexes_structDoc hmessage).append lexes_structAttributes)
  have hmiddle := hopen.append ((lexes_payloadDoc c).append hbytes)
  have hends : EndsWord (" \x7b\n".toList ++ (payloadDoc c ++ "    pub bytes: [u8; ".toList)) := by
    have hbrace : EndsWord " \x7b\n".toList := .text rfl
    exact hbrace.append _
  have htext : emitStruct c = (channelLine c ++ (structDoc c ++
      "#[repr(C, align(8))]\n#[derive(Clone, Copy, Debug)]\npub struct ".toList)) ++
      (c.message.toList ++ ((" \x7b\n".toList ++ (payloadDoc c ++
      "    pub bytes: [u8; ".toList)) ++ (decimal c.size ++ "],\n\x7d\n\n".toList))) := by
    unfold emitStruct
    simp only [List.append_assoc]
  rw [htext]
  unfold channelStruct
  refine .expect ?_ hfront
  refine .word ?_ (message_path hmessage) (reads_word _) hmiddle hends
  exact .wordLast (ChannelStruct.mk c.message.toList) (lexes_decimal _)
    (reads_number (numeral_decimal _) hsize) (.code rfl) (.text rfl)

theorem writes_emitGates (hmessage : MessageName c.message) (hsize : c.size ≤ usizeMax) :
    Writes (emitGates c) gates (channelStructAndGates c).asserts := by
  have hname := message_path hmessage
  have htext : emitGates c = ("// CR-4 compile-time safety gates\n".toList ++
      "const _: () = assert!(core::mem::size_of::<".toList) ++ (c.message.toList ++
      (">() == ".toList ++ (decimal c.size ++ ((");\n".toList ++
      "const _: () = assert!(core::mem::size_of::<".toList) ++ (c.message.toList ++
      ((">() <= Message::SIZE);\n".toList ++
      "const _: () = assert!(core::mem::align_of::<".toList) ++ (c.message.toList ++
      ">() <= 8);\n\n".toList))))))) := by
    unfold emitGates
    simp only [List.append_assoc]
  rw [htext]
  unfold gates
  refine .expect ?_ lexes_sizeGate
  refine .word ?_ hname (reads_word _) (.code rfl) (.text rfl)
  refine .word ?_ (lexes_decimal _) (reads_number (numeral_decimal _) hsize)
    lexes_messageGate (EndsWord.append (.text rfl) _)
  refine .word ?_ hname (reads_word _) lexes_alignGate (EndsWord.append (.text rfl) _)
  exact .wordLast (fun type => [ConstAssert.sizeOfEq c.message.toList c.size,
    .sizeOfLeMessageSize c.message.toList, .alignOfLe type 8]) hname (reads_word _)
    (.code rfl) (.text rfl)

/-- The feature of a task, as a string. -/
theorem writes_feature {task : List Char} (htask : Plain task) :
    Writes ("\"task_".toList ++ (task ++ "\"".toList)) literal ("task_".toList ++ task) := by
  have hquote : "\"task_".toList = "\"".toList ++ "task_".toList := rfl
  have hall := Writes.literal (plain_task htask)
  rw [hquote]
  simp only [List.append_assoc] at hall ⊢
  exact hall

theorem writes_emitSend (hmessage : MessageName c.message) (hproducer : Plain c.producer.toList)
    (hconsumer : Plain c.consumer.toList) (hid : c.id ≤ u8Max) :
    Writes (emitSend c) sendWrapper () := by
  have hname := message_path hmessage
  have hfunction := wrapper_path hmessage "send_".toList (by decide)
    (List.all_eq_true.mp rfl)
  have hopen : Lexes .idle "/// Send a typed `".toList [] (.doc .outerDoc false) := .text rfl
  have hcfg : Lexes .idle "#[cfg(feature = ".toList (code "#[cfg(feature = ") .idle := .code rfl
  have hfront := (lexes_endpoints hmessage hproducer hconsumer hopen).append
    ((lexes_cfgDoc hproducer).append hcfg)
  have hinline : Lexes .idle (")]\n#[inline]\n".toList ++ "pub fn ".toList)
      (code ")] #[inline] pub fn ") .idle := by
    unfold code
    repeat rw [String.toList_ofList]
    rfl
  have htext : emitSend c = ("/// Send a typed `".toList ++ endpoints c ++
      ("/// Cfg-gated: only compiles when `task_".toList ++ (c.producer.toList ++
      "` feature is enabled.\n".toList) ++ "#[cfg(feature = ".toList)) ++
      (("\"task_".toList ++ (c.producer.toList ++ "\"".toList)) ++
      ((")]\n#[inline]\n".toList ++ "pub fn ".toList) ++
      (("send_".toList ++ (pascalToSnake c.message).toList) ++ ("(msg: &".toList ++
      (c.message.toList ++
      (") -> Result<(), Error> \x7b\n    const CHANNEL_ID: u8 = ".toList ++
      (decimal c.id ++ (sendBody ++ (c.message.toList ++ sendEnd))))))))) := by
    unfold emitSend cfgGate
    simp only [List.append_assoc]
  rw [htext]
  unfold sendWrapper
  refine .expect ?_ hfront
  refine .bind (writes_feature hproducer) ?_
  refine .expect ?_ hinline
  refine .word ?_ hfunction (reads_word _) (.code rfl) (.text rfl)
  refine .word ?_ hname (reads_word _) (.code rfl) (.text rfl)
  refine .word ?_ (lexes_decimal _) (reads_number (numeral_decimal _) hid) lexes_sendBody
    endsWord_sendBody
  exact .wordLast (fun _ => ()) hname (reads_word _) lexes_sendEnd (.text rfl)

theorem writes_emitRecv (hmessage : MessageName c.message) (hproducer : Plain c.producer.toList)
    (hconsumer : Plain c.consumer.toList) (hid : c.id ≤ u8Max) :
    Writes (emitRecv c) recvWrapper () := by
  have hname := message_path hmessage
  have hfunction := wrapper_path hmessage "recv_".toList (by decide)
    (List.all_eq_true.mp rfl)
  have hopen : Lexes .idle "/// Receive a typed `".toList [] (.doc .outerDoc false) := .text rfl
  have hempty : Lexes .idle "/// `Ok(None)` = empty channel (non-blocking).\n".toList [.outerDoc]
      .idle := .text rfl
  have hcfg : Lexes .idle "#[cfg(feature = ".toList (code "#[cfg(feature = ") .idle := .code rfl
  have hfront := (lexes_endpoints hmessage hproducer hconsumer hopen).append
    (hempty.append ((lexes_cfgDoc hconsumer).append hcfg))
  have hinline : Lexes .idle (")]\n#[inline]\n".toList ++ "pub fn ".toList)
      (code ")] #[inline] pub fn ") .idle := by
    unfold code
    repeat rw [String.toList_ofList]
    rfl
  have htext : emitRecv c = ("/// Receive a typed `".toList ++ endpoints c ++
      ("/// `Ok(None)` = empty channel (non-blocking).\n".toList ++
      ("/// Cfg-gated: only compiles when `task_".toList ++ (c.consumer.toList ++
      "` feature is enabled.\n".toList) ++ "#[cfg(feature = ".toList))) ++
      (("\"task_".toList ++ (c.consumer.toList ++ "\"".toList)) ++
      ((")]\n#[inline]\n".toList ++ "pub fn ".toList) ++
      (("recv_".toList ++ (pascalToSnake c.message).toList) ++ ("() -> Result<Option<".toList ++
      (c.message.toList ++ (">, Error> \x7b\n    const CHANNEL_ID: u8 = ".toList ++
      (decimal c.id ++ (recvBody ++ (c.message.toList ++ (recvCopy ++ (c.message.toList ++
      recvEnd))))))))))) := by
    unfold emitRecv cfgGate
    simp only [List.append_assoc]
  rw [htext]
  unfold recvWrapper
  refine .expect ?_ hfront
  refine .bind (writes_feature hconsumer) ?_
  refine .expect ?_ hinline
  refine .word ?_ hfunction (reads_word _) (.code rfl) (.text rfl)
  refine .word ?_ hname (reads_word _) (.code rfl) (.text rfl)
  refine .word ?_ (lexes_decimal _) (reads_number (numeral_decimal _) hid) lexes_recvBody
    endsWord_recvBody
  refine .word ?_ hname (reads_word _) lexes_recvCopy endsWord_recvCopy
  exact .wordLast (fun _ => ()) hname (reads_word _) lexes_recvEnd endsWord_recvEnd

theorem writes_emitChannelStructAndWrappers (hmessage : MessageName c.message)
    (hproducer : Plain c.producer.toList) (hconsumer : Plain c.consumer.toList)
    (hid : c.id ≤ u8Max) (hsize : c.size ≤ usizeMax) :
    Writes (emitChannelStructAndWrappers c) channelItems (channelStructAndGates c) := by
  have hrecv := (writes_emitRecv hmessage hproducer hconsumer hid).bind
    (k := fun _ => pure (channelStructAndGates c)) (writes_nil (channelStructAndGates c))
  rw [List.append_nil] at hrecv
  exact (writes_emitStruct hmessage hproducer hconsumer hsize).bind
    ((writes_emitGates hmessage hsize).bind
      ((writes_emitSend hmessage hproducer hconsumer hid).bind hrecv))

end Channel

/-! ## The types of an accepted manifest -/

theorem channelSize_le {m : Manifest} {host : Option Host} (h : validateAll m host = .ok ())
    {c : ChannelEntry} (hc : c ∈ m.channels) : c.size ≤ ipcMsgSize := by
  have h := verdict_eq_ok.mp h
  simp only [List.append_eq_nil_iff] at h
  have hscan := h.1.2
  rw [checkChannels, errors_verdict] at hscan
  refine collect_forall (fun c => c.size ≤ ipcMsgSize) ?_ hscan c hc
  intro s c hquiet
  simp only [channelRound, List.append_eq_nil_iff, reportIf_eq_nil, decide_eq_false_iff_not,
    not_lt] at hquiet
  exact hquiet.1.2

/-- The file reads as the structures and assertions of the channels. -/
theorem compile_generateChannelsRs {m : Manifest} {host : Option Host}
    (h : validateAll m host = .ok ()) (hplain : EndpointsPlain m) :
    compile channelsFile (generateChannelsRs m) =
      some (m.channels.map channelStructAndGates) := by
  have haccepted := accepted_of_validateAll h
  have hread : ∀ c ∈ m.channels,
      Writes (emitChannelStructAndWrappers c) channelItems (channelStructAndGates c) := by
    intro c hc
    have hid := haccepted.channelId_lt c hc
    have hsize := channelSize_le h hc
    apply writes_emitChannelStructAndWrappers (haccepted.message c hc) (hplain c hc).1
      (hplain c hc).2
    · simp only [maxIpcChannels] at hid
      simp only [u8Max]
      omega
    · simp only [ipcMsgSize] at hsize
      simp only [usizeMax]
      omega
  have hstop : channelItems [] = none := rfl
  unfold generateChannelsRs
  cases hchannels : m.channels with
  | nil =>
    have hcomment : Lexes .idle "// (no [[channel]] entries in manifest)\n".toList [] .idle :=
      .text rfl
    have hheader := lexes_channelsHeader.append hcomment
    rw [List.append_nil] at hheader
    have hall := compile_manyLast hheader hread hstop
    rw [hchannels, List.flatMap_nil, List.append_nil] at hall
    exact hall
  | cons c rest =>
    have hall := compile_manyLast lexes_channelsHeader hread hstop
    rw [hchannels] at hall
    exact hall

/-! ## Names -/

/-- The message names that the file cannot declare: a keyword, and two that it imports. -/
def refusedMessages : List String := ["Self", "Message", "Error"]

theorem isIdentifier_message {s : String} (h : MessageName s) :
    IsIdentifier s.toList ↔ s ≠ "Self" := by
  have hkeywords : ∀ k ∈ keywords, k.head?.any isAsciiUppercase = true → k = "Self".toList := by
    decide +kernel
  constructor
  · rintro ⟨-, hkeyword⟩ rfl
    exact hkeyword (by decide +kernel)
  · intro hne
    refine ⟨?_, ?_⟩
    · have hcapital := h.capital
      cases hs : s.toList with
      | nil =>
        rw [hs] at hcapital
        cases hcapital
      | cons c rest =>
        rw [hs] at hcapital
        obtain ⟨k, rfl⟩ := exists_letter hcapital
        have hletters : ∀ k : Fin 26, (Char.ofNat (65 + k)).isDigit = false := by decide
        exact ⟨_, rfl, hletters k⟩
    · intro hkeyword
      exact hne (String.toList_inj.mp (hkeywords _ hkeyword h.capital))

theorem map_name (channels : List ChannelEntry) :
    (channels.map channelStructAndGates).map (fun i => i.struct.name) =
      (channels.map ChannelEntry.message).map String.toList := by
  rw [List.map_map, List.map_map]
  rfl

/-- The names can be declared exactly if none of them is refused. -/
theorem namesDeclared_iff {m : Manifest} (h : Accepted m) :
    NamesDeclared (m.channels.map channelStructAndGates) ↔
      ∀ d ∈ m.channels, d.message ∉ refusedMessages := by
  have hnodup : ((m.channels.map ChannelEntry.message).map String.toList).Nodup :=
    h.messages.map fun _ _ heq => String.toList_inj.mp heq
  constructor
  · rintro ⟨hidentifiers, hdistinct⟩ d hd hrefused
    have hname : d.message.toList ∈
        (m.channels.map channelStructAndGates).map fun i => i.struct.name :=
      List.mem_map.mpr ⟨channelStructAndGates d, List.mem_map_of_mem hd, rfl⟩
    have hapart := (List.nodup_append.mp hdistinct).2.2
    simp only [refusedMessages, List.mem_cons, List.not_mem_nil, or_false] at hrefused
    rcases hrefused with hself | himport | himport
    · have hidentifier := hidentifiers _ (List.mem_map_of_mem hd)
      exact (isIdentifier_message (h.message d hd)).mp hidentifier hself
    · exact hapart "Message".toList (by simp [imported]) _ hname (by rw [himport])
    · exact hapart "Error".toList (by simp [imported]) _ hname (by rw [himport])
  · intro hmessages
    constructor
    · intro i hi
      obtain ⟨d, hd, rfl⟩ := List.mem_map.mp hi
      apply (isIdentifier_message (h.message d hd)).mpr
      intro hself
      exact hmessages d hd (by simp [refusedMessages, hself])
    · rw [map_name, List.nodup_append]
      refine ⟨by decide +kernel, hnodup, ?_⟩
      intro a ha b hb hab
      obtain ⟨s, hs, rfl⟩ := List.mem_map.mp hb
      obtain ⟨d, hd, rfl⟩ := List.mem_map.mp hs
      simp only [imported, List.mem_cons, List.not_mem_nil, or_false] at ha
      rcases ha with rfl | rfl | rfl
      · exact hmessages d hd (by simp [refusedMessages, ← String.toList_inj.mp hab])
      · have hcapital := (h.message d hd).capital
        rw [← hab] at hcapital
        exact absurd hcapital (by decide +kernel)
      · exact hmessages d hd (by simp [refusedMessages, ← String.toList_inj.mp hab])

theorem compileChannels_eq {m : Manifest} {host : Option Host} (h : validateAll m host = .ok ())
    (hplain : EndpointsPlain m) (hmessages : ∀ d ∈ m.channels, d.message ∉ refusedMessages) :
    compileChannels (generateChannelsRs m) = some (m.channels.map channelStructAndGates) := by
  have hdeclared := (namesDeclared_iff (accepted_of_validateAll h)).mpr hmessages
  rw [compileChannels, compile_generateChannelsRs h hplain, Option.filter_eq_some_iff]
  exact ⟨rfl, decide_eq_true hdeclared⟩

theorem compileChannels_isSome {m : Manifest} {host : Option Host}
    (h : validateAll m host = .ok ()) (hplain : EndpointsPlain m) {items : List ChannelItems}
    (hitems : compileChannels (generateChannelsRs m) = some items) :
    ∀ d ∈ m.channels, d.message ∉ refusedMessages := by
  rw [compileChannels, compile_generateChannelsRs h hplain, Option.filter_eq_some_iff] at hitems
  obtain ⟨heq, hdeclared⟩ := hitems
  cases heq
  exact (namesDeclared_iff (accepted_of_validateAll h)).mp (of_decide_eq_true hdeclared)

/-! ## Layout -/

/-- The `align` of the emitted attribute. -/
def emittedAlign : ℕ := 8

instance : NeZero emittedAlign := ⟨by decide⟩

def structLayout (t : ChannelStruct) : Layout :=
  .reprC [Layout.byte.array t.bytes] emittedAlign

/-- The type of a name. -/
def typeLayout (items : List ChannelItems) : List Char → Option Layout :=
  table (fun i : ChannelItems => i.struct.name) (fun i => structLayout i.struct) items

/-- `Message` is the imported type, whose `SIZE` is that of the messages of `ipc`. -/
def Holds (items : List ChannelItems) : ConstAssert → Prop
  | .sizeOfEq type n => ∃ layout ∈ typeLayout items type, layout.size = n
  | .sizeOfLeMessageSize type => ∃ layout ∈ typeLayout items type, layout.size ≤ messageSize
  | .alignOfLe type n => ∃ layout ∈ typeLayout items type, layout.align ≤ n

/-- The generated file has a type for the channel, of the size that the manifest gives, and no
assertion about it fails. -/
def GatesPass (m : Manifest) (c : ChannelEntry) : Prop :=
  ∃ items layout, compileChannels (generateChannelsRs m) = some items ∧
    typeLayout items c.message.toList = some layout ∧
    layout.size = c.size ∧ layout.size ≤ 64 ∧ layout.align ≤ 8 ∧
    ∀ i ∈ items, i.struct.name = c.message.toList → ∀ a ∈ i.asserts, Holds items a

theorem typeLayout_message {m : Manifest} (h : Accepted m) {c : ChannelEntry}
    (hc : c ∈ m.channels) :
    typeLayout (m.channels.map channelStructAndGates) c.message.toList =
      some (structLayout ⟨c.message.toList, c.size⟩) := by
  have hnodup : ((m.channels.map channelStructAndGates).map fun i => i.struct.name).Nodup := by
    rw [map_name]
    exact h.messages.map fun _ _ heq => String.toList_inj.mp heq
  exact table_of_nodup hnodup (List.mem_map_of_mem hc)

/-- The emitted type passes its assertions for the sizes that are multiples of eight, in a file
whose message names can all be declared. -/
theorem channel_struct_ok_iff (m : Manifest) (host : Option Host)
    (h : validateAll m host = .ok ()) (hplain : EndpointsPlain m) (c : ChannelEntry)
    (hc : c ∈ m.channels) :
    GatesPass m c ↔ 8 ∣ c.size ∧ ∀ d ∈ m.channels, d.message ∉ refusedMessages := by
  have haccepted := accepted_of_validateAll h
  have hlayout := typeLayout_message haccepted hc
  have hsize : (structLayout ⟨c.message.toList, c.size⟩).size = roundUp c.size 8 :=
    size_reprC_bytes c.size emittedAlign
  have halign : (structLayout ⟨c.message.toList, c.size⟩).align = 8 :=
    align_reprC_bytes c.size emittedAlign
  constructor
  · rintro ⟨items, layout, hitems, htype, hexact, -⟩
    have hmessages := compileChannels_isSome h hplain hitems
    rw [compileChannels_eq h hplain hmessages] at hitems
    cases hitems
    rw [hlayout] at htype
    cases htype
    rw [hsize] at hexact
    exact ⟨(roundUp_eq_self (by omega)).mp hexact, hmessages⟩
  · rintro ⟨hdvd, hmessages⟩
    have hexact := hsize.trans ((roundUp_eq_self (by omega)).mpr hdvd)
    have hle : c.size ≤ 64 := channelSize_le h hc
    refine ⟨_, _, compileChannels_eq h hplain hmessages, hlayout, hexact, hexact.trans_le hle,
      halign.le, ?_⟩
    intro i hi hname a ha
    obtain ⟨d, hd, rfl⟩ := List.mem_map.mp hi
    -- the messages differ, so this is the channel itself
    obtain rfl : d = c := List.inj_on_of_nodup_map haccepted.messages hd hc
      (String.toList_inj.mp hname)
    simp only [channelStructAndGates, List.mem_cons, List.not_mem_nil, or_false] at ha
    rcases ha with rfl | rfl | rfl
    · exact ⟨_, hlayout, hexact⟩
    · exact ⟨_, hlayout, hexact.trans_le hle⟩
    · exact ⟨_, hlayout, halign.le⟩

/-- The channel of `sipahi.toml`. -/
def greeting : ChannelEntry := ⟨2, "task_hello", "task_world", "GreetingPing", 16⟩

theorem greeting_struct_ok : greeting ∈ sipahiToml.channels ∧ GatesPass sipahiToml greeting := by
  have hmem : greeting ∈ sipahiToml.channels := by decide
  exact ⟨hmem, (channel_struct_ok_iff sipahiToml (some workspaceHost) sipahiToml_accepted
    (by decide +kernel) greeting hmem).mpr (by decide +kernel)⟩

/-- A channel of one byte. -/
def shortChannel : ChannelEntry := ⟨2, "task_hello", "task_world", "GreetingPing", 1⟩

def shortChannelToml : Manifest := { sipahiToml with channels := [shortChannel] }

theorem short_channel_fails : validateAll shortChannelToml (some workspaceHost) = .ok () ∧
    shortChannel ∈ shortChannelToml.channels ∧ ¬ GatesPass shortChannelToml shortChannel := by
  have haccepted : validateAll shortChannelToml (some workspaceHost) = .ok () := by
    decide +kernel
  have hmem : shortChannel ∈ shortChannelToml.channels := by decide
  refine ⟨haccepted, hmem, ?_⟩
  rintro ⟨items, layout, hitems, htype, hexact, -⟩
  rw [compileChannels_eq haccepted (by decide +kernel) (by decide +kernel)] at hitems
  cases hitems
  rw [typeLayout_message (accepted_of_validateAll haccepted) hmem] at htype
  cases htype
  cases hexact

end SntmChannelTypes
