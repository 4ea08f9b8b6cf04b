import Sipahi.KernelState
import Sipahi.SntmIsolation

/-!
# The compiled profiles

What `PMP_PROFILES` holds once the file generated from an accepted manifest is compiled into the
kernel. Each profile stands behind a comment with the task's name, copied as it is.
-/
namespace SntmProfiles

open KernelTypes KernelPmp KernelPmpReload KernelState
open SntmManifest SntmAcceptance SntmCodegen SntmIsolation RustLexer RustReader

/-! ## Regions -/

/-- The permission that a manifest string grants; unknown ones deny. -/
def grantedPerm (perm : String) : Permission :=
  match perm with
  | "RX" => .RX
  | "R" => .R
  | "RW" => .RW
  | _ => .NONE

/-- The path that is written names the permission that is granted. -/
theorem parsePerm_path (perm : String) : ∃ w, Lexes .idle (parsePerm perm).toList
    (code "Permission::") (.word w) ∧ permissions.lookup w = some (grantedPerm perm) := by
  simp only [parsePerm]
  split
  case h_4 hrx hr hrw =>
    refine ⟨"NONE".toList, rfl, ?_⟩
    simp only [grantedPerm]
    rfl
  · exact ⟨"RX".toList, rfl, rfl⟩
  · exact ⟨"R".toList, rfl, rfl⟩
  · exact ⟨"RW".toList, rfl, rfl⟩

def compiledEncoding (r : RegionEntry) : PmpEncoding :=
  match napotSizeLog2 r.base r.size with
  | some log2 => .napot (napotPmpaddr r.base log2) log2
  | none => .tor r.base ((r.base + r.size) % 2 ^ 64)

/-- The region that a manifest entry becomes. -/
def compiledRegion (r : RegionEntry) : Region :=
  ⟨r.base, r.size, compiledEncoding r, grantedPerm r.perm⟩

theorem Encoded.log2_lt {r : RegionEntry} {k : ℕ} (h : Encoded r k) : k < 64 := by
  apply (Nat.pow_lt_pow_iff_right (a := 2) (by decide)).mp
  have hsize := r.size_le
  rw [← h.size_eq]
  simp only [usizeMax] at hsize
  omega

theorem Encoded.pmpaddr_le {r : RegionEntry} {k : ℕ} (h : Encoded r k) :
    napotPmpaddr r.base k ≤ usizeMax := by
  have hk := Encoded.log2_lt h
  have hbase : r.base >>> 2 < 2 ^ 64 := by
    have hle := r.base_le
    rw [Nat.shiftRight_eq_div_pow]
    simp only [usizeMax] at hle
    omega
  have hmask : (1 <<< (k - 3)) - 1 < 2 ^ 64 := by
    have hpow : 2 ^ (k - 3) ≤ 2 ^ 64 := Nat.pow_le_pow_right (by decide) (by omega)
    have hpos : 0 < 2 ^ (k - 3) := Nat.two_pow_pos _
    rw [Nat.one_shiftLeft]
    omega
  have hor : r.base >>> 2 ||| ((1 <<< (k - 3)) - 1) < 2 ^ 64 := Nat.or_lt_two_pow hbase hmask
  simp only [napotPmpaddr, usizeMax]
  omega

def napotText (addr : List Char) (log2 : ℕ) : List Char :=
  "PmpEncoding::Napot \x7b addr: ".toList ++ (addr ++ (", size_log2: ".toList ++
    (decimal log2 ++ " \x7d".toList)))

theorem writes_napot {text : List Char} {addr log2 : ℕ} (htext : Lexes .idle text [] (.word text))
    (hvalue : numeral text = some addr) (haddr : addr ≤ usizeMax) (hlog : log2 ≤ u8Max) :
    Writes (napotText text log2) (napot <|> tor) (.napot addr log2) := by
  apply Writes.orElse
  refine .expect ?_ (.code rfl)
  refine .word ?_ htext (reads_number hvalue haddr) (.code rfl) (.text rfl)
  exact .wordLast (PmpEncoding.napot addr) (lexes_decimal log2)
    (reads_number (numeral_decimal log2) hlog) (.code rfl) (.text rfl)

theorem writes_emitEncoding {r : RegionEntry} {k : ℕ} (h : Encoded r k) :
    Writes (emitEncoding r) (napot <|> tor) (compiledEncoding r) := by
  have hlog : k ≤ u8Max := by
    have hk := Encoded.log2_lt h
    simp only [u8Max]
    omega
  simp only [emitEncoding, compiledEncoding, h.log2_eq, List.append_assoc]
  exact writes_napot (lexes_hexadecimal _) (numeral_hexadecimal _) (Encoded.pmpaddr_le h) hlog

theorem writes_emitRegion {r : RegionEntry} {k : ℕ} (h : Encoded r k) :
    Writes (emitRegion r) region (compiledRegion r) := by
  obtain ⟨w, hpath, hperm⟩ := parsePerm_path r.perm
  unfold emitRegion
  simp only [List.append_assoc]
  refine .expect ?_ (.code rfl)
  refine .word ?_ (lexes_hexadecimal _) (reads_number (numeral_hexadecimal _) r.base_le)
    (.code rfl) (.text rfl)
  refine .word ?_ (lexes_hexadecimal _) (reads_number (numeral_hexadecimal _) r.size_le)
    (.code rfl) (.text rfl)
  refine .bind (writes_emitEncoding h) ?_
  refine .expect ?_ (.code rfl)
  have hread : Reads permission (code "Permission::" ++ [.word w]) (grantedPerm r.perm) :=
    (reads_expect _).bind (reads_oneOf hperm)
  exact .wordLast (Region.mk r.base r.size (compiledEncoding r)) hpath hread (.code rfl)
    (.text rfl)

theorem paddingRegion_eq : paddingRegion = "            Region \x7b base: ".toList ++
    (decimal 0 ++ (", size: ".toList ++ (decimal 0 ++
    (", encoding: ".toList ++ (napotText (decimal 0) 0 ++ (", perm: ".toList ++
    ("Permission::NONE".toList ++ " \x7d,\n".toList))))))) := by
  unfold paddingRegion napotText
  repeat rw [String.toList_ofList]
  rfl

theorem writes_paddingRegion : Writes paddingRegion region emptyRegion := by
  have hzero : ∀ bound, Reads (number bound) [.word (decimal 0)] 0 := fun bound =>
    reads_number (numeral_decimal 0) (Nat.zero_le bound)
  rw [paddingRegion_eq]
  refine .expect ?_ (.code rfl)
  refine .word ?_ (lexes_decimal 0) (hzero _) (.code rfl) (.text rfl)
  refine .word ?_ (lexes_decimal 0) (hzero _) (.code rfl) (.text rfl)
  refine .bind (writes_napot (lexes_decimal 0) (numeral_decimal 0) (by decide) (by decide)) ?_
  refine .expect ?_ (.code rfl)
  have hpath : Lexes .idle "Permission::NONE".toList (code "Permission::")
      (.word "NONE".toList) := rfl
  have hread : Reads permission (code "Permission::" ++ [.word "NONE".toList]) .NONE :=
    (reads_expect _).bind (reads_oneOf rfl)
  exact .wordLast (Region.mk 0 0 (.napot 0 0)) hpath hread (.code rfl) (.text rfl)

/-! ## Profiles -/

def compiledProfile (t : TaskEntry) : ProfileImage :=
  ⟨t.regions.length, fun i => (t.regions.map compiledRegion).getD i.val emptyRegion⟩

theorem compiledProfile_activeRegions {t : TaskEntry}
    (hcount : t.regions.length ≤ maxRegionsPerTask) :
    (compiledProfile t).activeRegions = t.regions.map compiledRegion := by
  have hsix : t.regions.length ≤ 6 := hcount
  apply List.ext_getElem
  · simp only [compiledProfile, ProfileImage.activeRegions, List.length_take, List.length_ofFn,
      List.length_map]
    omega
  · intro i hi hmap
    simp only [compiledProfile, ProfileImage.activeRegions, List.getElem_take, List.getElem_ofFn]
    rw [List.getD_eq_getElem _ _ hmap]

/-- The comment with the task's name says nothing. -/
def NameSilent (t : TaskEntry) : Prop := SilentInLine t.name.toList

instance (t : TaskEntry) : Decidable (NameSilent t) :=
  inferInstanceAs (Decidable (SilentInLine t.name.toList))

theorem lexes_taskComment {t : TaskEntry} (hname : NameSilent t) :
    Lexes .idle ("    // Task ".toList ++ (decimal t.taskId ++ (" (".toList ++
      (t.name.toList ++ ")\n".toList)))) [] .idle := by
  have hstart : Lexes .idle "    // Task ".toList [] .line := .text rfl
  have hopen : SilentInLine " (".toList := .text rfl
  have hclose : Lexes .line ")\n".toList [] .idle := .text rfl
  exact hstart.append ((plain_decimal _).silentInLine.append (hopen.append (hname.append hclose)))

theorem emptyProfile_taskProfile (input : List Token) (h : (taskProfile input).isSome) :
    emptyProfile input = none := by
  obtain ⟨rest, rfl⟩ := expect_bind_isSome h
  have hopen : code "PmpProfile \x7b region_count:" =
      [.word "PmpProfile".toList, .punct (Char.ofNat 0x7b), .word "region_count".toList,
        .punct ':'] := rfl
  have hempty : code "PmpProfile::EMPTY," =
      [.word "PmpProfile".toList, .pathSep, .word "EMPTY".toList, .punct ','] := rfl
  rw [emptyProfile, hopen, hempty]
  rfl

/-- The regions of a task and the padding behind them. -/
def paddedRegions (t : TaskEntry) : List (List Char × Region) :=
  t.regions.map (fun r => (emitRegion r, compiledRegion r)) ++
    List.replicate (maxRegions - t.regions.length) (paddingRegion, emptyRegion)

theorem writes_emitTaskProfile {t : TaskEntry} (hname : NameSilent t)
    (hcount : t.regions.length ≤ maxRegionsPerTask) (hregions : ∀ r ∈ t.regions, ∃ k, Encoded r k) :
    Writes (emitTaskProfile t) (emptyProfile <|> taskProfile) (compiledProfile t) := by
  have hsix : t.regions.length ≤ 6 := hcount
  have hlength : (paddedRegions t).length = 6 := by
    simp only [paddedRegions, List.length_append, List.length_map, List.length_replicate,
      maxRegions]
    omega
  have hitems : ∀ x ∈ paddedRegions t, Writes x.1 region x.2 := by
    intro x hx
    rcases List.mem_append.mp hx with hx | hx
    · obtain ⟨r, hr, rfl⟩ := List.mem_map.mp hx
      obtain ⟨k, hk⟩ := hregions r hr
      exact writes_emitRegion hk
    · obtain rfl := List.eq_of_mem_replicate hx
      dsimp only
      exact writes_paddingRegion
  have hpadded := Writes.items hitems
  rw [hlength] at hpadded
  have htext : t.regions.flatMap emitRegion ++
      (List.replicate (maxRegions - t.regions.length) paddingRegion).flatten =
      (paddedRegions t).flatMap Prod.fst := by
    simp only [paddedRegions, List.flatMap_append, List.flatMap_map, List.flatMap_replicate]
  have hbyte : t.regions.length ≤ u8Max := hsix.trans (by decide)
  have hfields : (paddedRegions t).map Prod.snd = t.regions.map compiledRegion ++
      List.replicate (maxRegions - t.regions.length) emptyRegion := by
    simp [paddedRegions, Function.comp_def]
  have hprofile : compiledProfile t = ⟨t.regions.length, fun i =>
      ((paddedRegions t).map Prod.snd).getD i.val emptyRegion⟩ := by
    rw [hfields, compiledProfile]
    congr 1
    funext i
    rcases Nat.lt_or_ge i.val (t.regions.map compiledRegion).length with hi | hi
    · rw [List.getD_append _ _ _ _ hi]
    · have hin := i.isLt
      have hmap : (t.regions.map compiledRegion).length = t.regions.length := List.length_map _
      rw [List.getD_append_right _ _ _ _ hi, List.getD_eq_default _ _ hi, List.getD_replicate]
      simp only [maxRegions]
      omega
  have hopen : Lexes .idle ("    PmpProfile \x7b\n".toList ++ "        region_count: ".toList)
      (code "PmpProfile \x7b region_count:") .idle := by
    unfold code
    repeat rw [String.toList_ofList]
    rfl
  have hlist : Lexes .idle (",\n".toList ++ "        regions: [\n".toList)
      (code ", regions: [") .idle := by
    unfold code
    repeat rw [String.toList_ofList]
    rfl
  have hclose : Lexes .idle ("        ],\n".toList ++ "    \x7d,\n".toList)
      (code "], \x7d,") .idle := by
    unfold code
    repeat rw [String.toList_ofList]
    rfl
  have hall : Writes (("    PmpProfile \x7b\n".toList ++ "        region_count: ".toList) ++
      (decimal t.regions.length ++ ((",\n".toList ++ "        regions: [\n".toList) ++
      ((paddedRegions t).flatMap Prod.fst ++
        ("        ],\n".toList ++ "    \x7d,\n".toList))))) taskProfile (compiledProfile t) := by
    refine .expect ?_ hopen
    refine .word ?_ (lexes_decimal _) (reads_number (numeral_decimal _) hbyte) hlist
      (EndsWord.append (.text rfl) _)
    refine .bind hpadded ?_
    rw [hprofile]
    exact .expectLast hclose _
  have hwhole := ((hall.orElse_right emptyProfile_taskProfile).comment (lexes_taskComment hname))
  have heq : emitTaskProfile t = "    // Task ".toList ++ (decimal t.taskId ++ (" (".toList ++
      (t.name.toList ++ ")\n".toList))) ++
      (("    PmpProfile \x7b\n".toList ++ "        region_count: ".toList) ++
      (decimal t.regions.length ++ ((",\n".toList ++ "        regions: [\n".toList) ++
      ((paddedRegions t).flatMap Prod.fst ++
        ("        ],\n".toList ++ "    \x7d,\n".toList))))) := by
    rw [← htext]
    unfold emitTaskProfile
    simp only [List.append_assoc]
  rw [heq]
  exact hwhole

/-! ## The file -/

def slotProfile (m : Manifest) (slot : TaskIndex) : ProfileImage :=
  match tidMap m slot.val with
  | some t => compiledProfile t
  | none => ⟨0, fun _ => emptyRegion⟩

set_option maxRecDepth 8000 in
theorem lexes_header : Lexes .idle header (List.replicate 7 .innerDoc ++
    code "use crate::arch::pmp::PmpEncoding;" ++
    code "use crate::kernel::pmp::profile::\x7bPermission, PmpProfile, Region\x7d;") .idle := by
  unfold header code
  repeat rw [String.toList_ofList]
  rfl

/-- The names of the tasks in the table say nothing in their comments. -/
def ProfileNamesSilent (m : Manifest) : Prop :=
  ∀ t ∈ m.tasks, t.taskId < maxTasks → NameSilent t

instance (m : Manifest) : Decidable (ProfileNamesSilent m) :=
  inferInstanceAs (Decidable (∀ t ∈ m.tasks, t.taskId < maxTasks → NameSilent t))

theorem writes_emitSlot {m : Manifest} (h : Accepted m) (hnames : ProfileNamesSilent m)
    (slot : TaskIndex) :
    Writes (emitSlot m slot) (emptyProfile <|> taskProfile) (slotProfile m slot) := by
  cases htask : tidMap m slot.val with
  | none =>
    simp only [emitSlot, slotProfile, htask]
    have hempty : Lexes .idle "    PmpProfile::EMPTY,\n".toList (code "PmpProfile::EMPTY,")
        .idle := .code rfl
    apply Writes.orElse
    exact .expectLast hempty _
  | some t =>
    obtain ⟨ht, hid⟩ := mem_of_tidMap htask
    simp only [emitSlot, slotProfile, htask]
    exact writes_emitTaskProfile (hnames t ht (hid ▸ slot.isLt)) (h.regionCount t ht)
      fun r hr => Accepted.encoded h ht hr

/-- If the names stay inside their comments, the file compiles, and every slot holds what the
manifest says. -/
theorem compileProfiles_eq {m : Manifest} (h : Accepted m) (hnames : ProfileNamesSilent m) :
    compileProfiles (generatePmpProfilesRs m) = some (slotProfile m) := by
  have hslots := Writes.items fun slot (_ : slot ∈ List.finRange maxTasks) =>
    writes_emitSlot h hnames slot
  have hlength : (List.finRange maxTasks).length = maxTasks := List.length_finRange
  rw [hlength] at hslots
  have hfun : (fun i : TaskIndex => ((List.finRange maxTasks).map (slotProfile m)).getD i.val
      ⟨0, fun _ => emptyRegion⟩) = slotProfile m := by
    funext i
    exact getD_map_finRange _ _ _
  apply Writes.compile_eq
  have hclose : Lexes .idle "];\n".toList (code "];") .idle := .code rfl
  have hend : Writes "];\n".toList (expect (code "];") >>= fun _ =>
      pure fun i : TaskIndex => ((List.finRange maxTasks).map (slotProfile m)).getD i.val
        ⟨0, fun _ => emptyRegion⟩) (slotProfile m) := by
    rw [hfun]
    exact .expectLast hclose _
  unfold generatePmpProfilesRs pmpProfiles
  simp only [List.append_assoc]
  refine .expect ?_ lexes_header
  refine .expect ?_ (.code rfl)
  exact .bind hslots hend

theorem slotProfile_of_mem {m : Manifest} (h : Accepted m) {t : TaskEntry} (ht : t ∈ m.tasks)
    {i : TaskIndex} (hi : i.val = t.taskId) :
    (slotProfile m i).activeRegions = t.regions.map compiledRegion := by
  simp only [slotProfile, hi, tidMap_of_mem h ht]
  exact compiledProfile_activeRegions (h.regionCount t ht)

theorem slotProfile_empty {m : Manifest} {i : TaskIndex} (hnone : ∀ t ∈ m.tasks, t.taskId ≠ i.val) :
    (slotProfile m i).activeRegions = [] := by
  cases htask : tidMap m i.val with
  | none =>
    simp only [slotProfile, htask]
    rfl
  | some t =>
    obtain ⟨ht, hid⟩ := mem_of_tidMap htask
    exact absurd hid (hnone t ht)

/-! ## A kernel built from the file -/

/-- The profiles of the kernel are those in the generated file. -/
def ProfilesFrom (P : Platform) (m : Manifest) : Prop :=
  ∃ images, compileProfiles (generatePmpProfilesRs m) = some images ∧
    ∀ i, (P.pmpProfiles i).activeRegions = (images i).activeRegions

/-- The profiles of the kernel are those of the manifest. -/
def ProfilesOf (P : Platform) (m : Manifest) : Prop :=
  ∀ i, (P.pmpProfiles i).activeRegions = (slotProfile m i).activeRegions

theorem ProfilesFrom.profilesOf {P : Platform} {m : Manifest} (h : ProfilesFrom P m)
    (hm : Accepted m) (hnames : ProfileNamesSilent m) : ProfilesOf P m := by
  obtain ⟨images, hcompiled, hslots⟩ := h
  rw [compileProfiles_eq hm hnames] at hcompiled
  cases hcompiled
  exact hslots

theorem ProfilesOf.of_mem {P : Platform} {m : Manifest} (h : ProfilesOf P m) (hm : Accepted m)
    {t : TaskEntry} (ht : t ∈ m.tasks) {i : TaskIndex} (hi : i.val = t.taskId) :
    (P.pmpProfiles i).activeRegions = t.regions.map compiledRegion :=
  (h i).trans (slotProfile_of_mem hm ht hi)

/-- The profiles under version control are those generated from the manifest beside them. -/
example : (compileProfiles (generatePmpProfilesRs sipahiToml)).map
    (fun images => List.ofFn fun i => (images i).activeRegions) =
    some (List.ofFn fun i => (generatedPmpProfiles i).activeRegions) := by
  rw [compileProfiles_eq (accepted_of_validateAll sipahiToml_accepted) (by decide +kernel)]
  decide +kernel

end SntmProfiles
