import Sipahi.SntmWrapperNames

/-!
# Generating the channel types

The file `channels.rs` that `sntm-validate` writes for the tasks, comments included, and what the
compiler reads in it: a structure for each channel, the assertions about it, and the wrappers.
-/
namespace SntmChannelFile

open KernelTypes SntmManifest SntmWrapperNames RustLexer RustReader

/-! ## The text -/

def channelsHeader : List Char :=
  "//! GENERATED FILE — DO NOT EDIT.\n".toList ++
  "//!\n".toList ++
  "//! Source: sipahi.toml [[channel]] entries.\n".toList ++
  "//! Run `bash scripts/regen_safe_codegen.sh` to regenerate.\n".toList ++
  "//! SAFE-2 (sprint-u31): typed IPC API per CR-4 safety gate template.\n".toList ++
  "//!\n".toList ++
  "//! Drift detection: CI runs sntm-validate --output-channels + git diff.\n".toList ++
  "//!\n".toList ++
  "//! Per CR-4 safety gates: each struct enforces:\n".toList ++
  "//!   - size_of::<T>() == manifest size_field    (compile-time assert)\n".toList ++
  "//!   - size_of::<T>() <= IPC_MSG_SIZE           (compile-time assert)\n".toList ++
  "//!   - align_of::<T>() <= 8                     (compile-time assert)\n".toList ++
  "//!   - repr(C, align(8)) for stable ABI\n".toList ++
  "//!   - send: Message::empty() before copy → no padding leak\n".toList ++
  "//!   - recv: copy_nonoverlapping(_, _, size_of::<T>()) → only first N bytes\n".toList ++
  "\n".toList ++
  "// Without per-task features, the cfg-gated wrappers vanish and the imports\n".toList ++
  "// look unused — but they are referenced by the generated send/recv bodies\n".toList ++
  "// once any `task_*` feature is enabled. Suppress the false-positive warning\n".toList ++
  "// (also dodges a rustc 1.96 annotate_snippets ICE on the warning render).\n".toList ++
  "#![allow(unused_imports)]\n".toList ++
  "\n".toList ++
  "use crate::ipc::Message;\n".toList ++
  "use crate::syscall;\n".toList ++
  "use crate::Error;\n".toList ++
  "\n".toList

def channelLine (c : ChannelEntry) : List Char :=
  "// ─── channel ".toList ++ decimal c.id ++ " (".toList ++ c.producer.toList ++ " → ".toList ++
    c.consumer.toList ++ ") ───────────────────────────\n\n".toList

def structDoc (c : ChannelEntry) : List Char :=
  "/// Typed IPC message body for channel ".toList ++ decimal c.id ++ " (".toList ++
    c.message.toList ++ ").\n".toList ++
    "/// SAFE-2 invariant: size = ".toList ++ decimal c.size ++
    " bytes, repr(C, align(8)).\n".toList

def payloadDoc (c : ChannelEntry) : List Char :=
  "    /// Opaque payload (manifest size = ".toList ++ decimal c.size ++ " bytes).\n".toList

def emitStruct (c : ChannelEntry) : List Char :=
  channelLine c ++ structDoc c ++
    "#[repr(C, align(8))]\n#[derive(Clone, Copy, Debug)]\npub struct ".toList ++
    c.message.toList ++ " \x7b\n".toList ++ payloadDoc c ++ "    pub bytes: [u8; ".toList ++
    decimal c.size ++ "],\n\x7d\n\n".toList

def emitGates (c : ChannelEntry) : List Char :=
  "// CR-4 compile-time safety gates\n".toList ++
    "const _: () = assert!(core::mem::size_of::<".toList ++ c.message.toList ++ ">() == ".toList ++
    decimal c.size ++ ");\n".toList ++
    "const _: () = assert!(core::mem::size_of::<".toList ++ c.message.toList ++
    ">() <= Message::SIZE);\n".toList ++
    "const _: () = assert!(core::mem::align_of::<".toList ++ c.message.toList ++
    ">() <= 8);\n\n".toList

/-- The end of the wrapper's documentation, and the feature it waits for. -/
def cfgGate (task : String) : List Char :=
  "/// Cfg-gated: only compiles when `task_".toList ++ task.toList ++
    "` feature is enabled.\n".toList ++ "#[cfg(feature = ".toList ++ "\"task_".toList ++
    task.toList ++ "\"".toList ++ ")]\n#[inline]\n".toList

def endpoints (c : ChannelEntry) : List Char :=
  c.message.toList ++ "` message on channel ".toList ++ decimal c.id ++ " (".toList ++
    c.producer.toList ++ " → ".toList ++ c.consumer.toList ++ ").\n".toList

def sendBody : List Char :=
  ";\n".toList ++
  "    // CR-4: zero-init buf prevents padding-byte leakage; ".toList ++
  "only size_of::<T>() bytes copied.\n".toList ++
  "    let mut buf = Message::empty();\n".toList ++
  "    // SAFETY: T is repr(C, align(8)); size asserted at compile time; ".toList ++
  "buf has IPC_MSG_SIZE bytes;\n".toList ++
  "    // source and dest non-overlapping (distinct stack allocations).\n".toList ++
  "    unsafe \x7b\n".toList ++
  "        core::ptr::copy_nonoverlapping(\n".toList ++
  "            msg as *const _ as *const u8,\n".toList ++
  "            buf.data.as_mut_ptr(),\n".toList ++
  "            core::mem::size_of::<".toList

def sendEnd : List Char :=
  ">(),\n        );\n    \x7d\n    syscall::ipc_send(CHANNEL_ID, &buf)\n\x7d\n\n".toList

def emitSend (c : ChannelEntry) : List Char :=
  "/// Send a typed `".toList ++ endpoints c ++ cfgGate c.producer ++ "pub fn ".toList ++
    ("send_".toList ++ (pascalToSnake c.message).toList) ++ "(msg: &".toList ++
    c.message.toList ++ ") -> Result<(), Error> \x7b\n    const CHANNEL_ID: u8 = ".toList ++
    decimal c.id ++ sendBody ++ c.message.toList ++ sendEnd

def recvBody : List Char :=
  ";\n".toList ++
  "    let mut buf = Message::empty();\n".toList ++
  "    match syscall::ipc_recv(CHANNEL_ID, &mut buf) \x7b\n".toList ++
  "        Ok(true) => \x7b\n".toList ++
  "            let mut out = core::mem::MaybeUninit::<".toList

def recvCopy : List Char :=
  ">::uninit();\n".toList ++
  "            // SAFETY: kernel returned IPC_MSG_SIZE bytes; ".toList ++
  "we read only size_of::<T>().\n".toList ++
  "            unsafe \x7b\n".toList ++
  "                core::ptr::copy_nonoverlapping(\n".toList ++
  "                    buf.data.as_ptr(),\n".toList ++
  "                    out.as_mut_ptr() as *mut u8,\n".toList ++
  "                    core::mem::size_of::<".toList

def recvEnd : List Char :=
  ">(),\n".toList ++
  "                );\n".toList ++
  "                Ok(Some(out.assume_init()))\n".toList ++
  "            \x7d\n".toList ++
  "        \x7d\n".toList ++
  "        Ok(false) => Ok(None),\n".toList ++
  "        Err(e) => Err(e),\n".toList ++
  "    \x7d\n".toList ++
  "\x7d\n\n".toList

def emitRecv (c : ChannelEntry) : List Char :=
  "/// Receive a typed `".toList ++ endpoints c ++
    "/// `Ok(None)` = empty channel (non-blocking).\n".toList ++ cfgGate c.consumer ++
    "pub fn ".toList ++ ("recv_".toList ++ (pascalToSnake c.message).toList) ++
    "() -> Result<Option<".toList ++ c.message.toList ++
    ">, Error> \x7b\n    const CHANNEL_ID: u8 = ".toList ++ decimal c.id ++ recvBody ++
    c.message.toList ++ recvCopy ++ c.message.toList ++ recvEnd

def emitChannelStructAndWrappers (c : ChannelEntry) : List Char :=
  emitStruct c ++ (emitGates c ++ (emitSend c ++ emitRecv c))

def generateChannelsRs (m : Manifest) : List Char :=
  channelsHeader ++ if m.channels.isEmpty then "// (no [[channel]] entries in manifest)\n".toList
    else m.channels.flatMap emitChannelStructAndWrappers

/-! ## Compiling the text -/

/-- The structure around the payload bytes, `repr(C, align(8))`. -/
structure ChannelStruct where
  name : List Char
  bytes : ℕ
  deriving DecidableEq

/-- The constant assertions, each about the type it names. -/
inductive ConstAssert where
  | sizeOfEq (type : List Char) (n : ℕ)
  | sizeOfLeMessageSize (type : List Char)
  | alignOfLe (type : List Char) (n : ℕ)
  deriving DecidableEq

structure ChannelItems where
  struct : ChannelStruct
  asserts : List ConstAssert
  deriving DecidableEq

def channelStruct : Reader ChannelStruct := do
  expect (List.replicate 2 .outerDoc ++
    code "#[repr(C, align(8))] #[derive(Clone, Copy, Debug)] pub struct ")
  let name ← word
  expect (code "\x7b" ++ (.outerDoc :: code "pub bytes: [u8; "))
  let bytes ← number usizeMax
  expect (code "], \x7d")
  pure ⟨name, bytes⟩

def gates : Reader (List ConstAssert) := do
  expect (code "const _: () = assert!(core::mem::size_of::<")
  let type ← word
  expect (code ">() == ")
  let n ← number usizeMax
  expect (code "); const _: () = assert!(core::mem::size_of::<")
  let type' ← word
  expect (code ">() <= Message::SIZE); const _: () = assert!(core::mem::align_of::<")
  let type'' ← word
  expect (code ">() <= 8);")
  pure [.sizeOfEq type n, .sizeOfLeMessageSize type', .alignOfLe type'' 8]

/-- The wrappers are read to their end; nothing in them bears on the type. -/
def sendWrapper : Reader Unit := do
  expect (List.replicate 2 .outerDoc ++ code "#[cfg(feature = ")
  let _ ← literal
  expect (code ")] #[inline] pub fn ")
  let _ ← word
  expect (code "(msg: &")
  let _ ← word
  expect (code ") -> Result<(), Error> \x7b const CHANNEL_ID: u8 = ")
  let _ ← number u8Max
  expect (code "; let mut buf = Message::empty(); unsafe \x7b" ++
    code "core::ptr::copy_nonoverlapping(msg as *const _ as *const u8, " ++
    code "buf.data.as_mut_ptr(), core::mem::size_of::<")
  let _ ← word
  expect (code ">(), ); \x7d syscall::ipc_send(CHANNEL_ID, &buf) \x7d")
  pure ()

def recvWrapper : Reader Unit := do
  expect (List.replicate 3 .outerDoc ++ code "#[cfg(feature = ")
  let _ ← literal
  expect (code ")] #[inline] pub fn ")
  let _ ← word
  expect (code "() -> Result<Option<")
  let _ ← word
  expect (code ">, Error> \x7b const CHANNEL_ID: u8 = ")
  let _ ← number u8Max
  expect (code "; let mut buf = Message::empty(); " ++
    code "match syscall::ipc_recv(CHANNEL_ID, &mut buf) \x7b Ok(true) => \x7b " ++
    code "let mut out = core::mem::MaybeUninit::<")
  let _ ← word
  expect (code ">::uninit(); unsafe \x7b core::ptr::copy_nonoverlapping(buf.data.as_ptr(), " ++
    code "out.as_mut_ptr() as *mut u8, core::mem::size_of::<")
  let _ ← word
  expect (code ">(), ); Ok(Some(out.assume_init())) \x7d \x7d Ok(false) => Ok(None), " ++
    code "Err(e) => Err(e), \x7d \x7d")
  pure ()

def channelItems : Reader ChannelItems := do
  let struct ← channelStruct
  let asserts ← gates
  sendWrapper
  recvWrapper
  pure ⟨struct, asserts⟩

def channelsFile : Reader (List ChannelItems) := do
  expect (List.replicate 15 .innerDoc ++ code "#![allow(unused_imports)]" ++
    code "use crate::ipc::Message; use crate::syscall; use crate::Error;")
  many channelItems

/-- The names that the header brings in. -/
def imported : List (List Char) := ["Message".toList, "syscall".toList, "Error".toList]

/-- Each type of the file has a name of its own. -/
structure NamesDeclared (items : List ChannelItems) : Prop where
  identifiers : ∀ i ∈ items, IsIdentifier i.struct.name
  distinct : (imported ++ items.map fun i => i.struct.name).Nodup

instance (items : List ChannelItems) : Decidable (NamesDeclared items) :=
  decidable_of_iff ((∀ i ∈ items, IsIdentifier i.struct.name) ∧
      (imported ++ items.map fun i => i.struct.name).Nodup)
    ⟨fun h => ⟨h.1, h.2⟩, fun h => ⟨h.identifiers, h.distinct⟩⟩

/-- The types of `channels.rs`, if their names can be declared. -/
def compileChannels (text : List Char) : Option (List ChannelItems) :=
  (compile channelsFile text).filter fun items => NamesDeclared items

end SntmChannelFile
