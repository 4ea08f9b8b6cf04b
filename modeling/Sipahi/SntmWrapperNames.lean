import Sipahi.SntmAcceptance

/-!
# The names of the generated wrappers

Each channel of the manifest gives a `send_*` and a `recv_*` function, named after its message.
-/
namespace SntmWrapperNames

open KeyedScan SntmManifest SntmAcceptance

/-- What one character adds; on capitals `to_lowercase` is the ASCII one. -/
def snakeRound (ch : Char) (i : ℕ) : List Char :=
  if isAsciiUppercase ch then (if 0 < i then ['_'] else []) ++ [ch.toLower] else [ch]

def pascalToSnake (s : String) : String :=
  String.ofList (s.toList.zipIdx.flatMap fun p => snakeRound p.1 p.2)

/-- The functions that `emit_channel_struct_and_wrappers` declares. -/
def emitWrappers (c : ChannelEntry) : List String :=
  ["send_" ++ pascalToSnake c.message, "recv_" ++ pascalToSnake c.message]

def generatedFunctions (m : Manifest) : List String := m.channels.flatMap emitWrappers

/-! ## Reading the name back -/

/-- A letter behind an underscore becomes a capital. -/
def unsnake : List Char → List Char
  | '_' :: c :: rest => c.toUpper :: unsnake rest
  | c :: rest => c :: unsnake rest
  | [] => []

/-- The capitals are 26 letters. -/
theorem exists_letter {c : Char} (h : isAsciiUppercase c = true) :
    ∃ k : Fin 26, c = Char.ofNat (65 + k) := by
  simp only [isAsciiUppercase, Bool.and_eq_true, decide_eq_true_eq] at h
  have hlow : 65 ≤ c.toNat := h.1
  have hhigh : c.toNat ≤ 90 := h.2
  have hcode : 65 + (c.toNat - 65) = c.toNat := by omega
  refine ⟨⟨c.toNat - 65, by omega⟩, ?_⟩
  dsimp only
  rw [hcode, Char.ofNat_toNat]

theorem toUpper_toLower {c : Char} (h : isAsciiUppercase c = true) : c.toLower.toUpper = c := by
  have hletters : ∀ k : Fin 26, (Char.ofNat (65 + k)).toLower.toUpper = Char.ofNat (65 + k) := by
    decide
  obtain ⟨k, rfl⟩ := exists_letter h
  exact hletters k

theorem isWordChar_snakeRound {c : Char} {i : ℕ} (h : isAsciiAlphanumeric c = true) :
    ∀ d ∈ snakeRound c i, RustLexer.isWordChar d = true := by
  have hletters : ∀ k : Fin 26, RustLexer.isWordChar (Char.ofNat (65 + k)).toLower = true := by
    decide
  intro d hd
  rw [snakeRound] at hd
  split at hd
  · rename_i hupper
    rcases List.mem_append.mp hd with hd | hd
    · split at hd
      · rw [List.mem_singleton.mp hd]
        rfl
      · cases hd
    · obtain ⟨k, rfl⟩ := exists_letter hupper
      rw [List.mem_singleton.mp hd]
      exact hletters k
  · rw [List.mem_singleton.mp hd]
    exact isWordChar_of_alphanumeric h

theorem isWordChar_pascalToSnake {s : String} (h : MessageName s) :
    ∀ c ∈ (pascalToSnake s).toList, RustLexer.isWordChar c = true := by
  intro c hc
  simp only [pascalToSnake, String.toList_ofList, List.mem_flatMap] at hc
  obtain ⟨p, hp, hc⟩ := hc
  apply isWordChar_snakeRound _ c hc
  rw [(List.mem_zipIdx' hp).2]
  exact h.alphanumeric _ (List.getElem_mem _)

theorem alphanumeric_ne_underscore {c : Char} (h : isAsciiAlphanumeric c = true) : c ≠ '_' := by
  rintro rfl
  cases h

theorem unsnake_cons {c : Char} (h : c ≠ '_') (rest : List Char) :
    unsnake (c :: rest) = c :: unsnake rest := by
  rw [unsnake.eq_def]
  split
  · rename_i heq
    exact absurd (List.cons.inj heq).1 h
  · rename_i heq
    obtain ⟨rfl, rfl⟩ := List.cons.inj heq
    rfl
  · rename_i heq
    cases heq

theorem unsnake_underscore (c : Char) (rest : List Char) :
    unsnake ('_' :: c :: rest) = c.toUpper :: unsnake rest := rfl

/-- Behind the first character every capital has its underscore. -/
theorem unsnake_tail {chars : List Char} (h : ∀ c ∈ chars, isAsciiAlphanumeric c = true) {k : ℕ}
    (hk : 0 < k) : unsnake ((chars.zipIdx k).flatMap fun p => snakeRound p.1 p.2) = chars := by
  induction chars generalizing k with
  | nil => rfl
  | cons c chars ih =>
    have htail := ih (k := k + 1) (fun d hd => h d (List.mem_cons_of_mem c hd)) (Nat.succ_pos k)
    simp only [List.zipIdx_cons, List.flatMap_cons]
    by_cases hupper : isAsciiUppercase c = true
    · have hround : snakeRound c k = ['_', c.toLower] := by
        simp [snakeRound, hupper, hk]
      rw [hround, List.cons_append, List.singleton_append, unsnake_underscore, htail,
        toUpper_toLower hupper]
    · have hround : snakeRound c k = [c] := if_neg hupper
      have hne : c ≠ '_' := alphanumeric_ne_underscore (h c List.mem_cons_self)
      rw [hround, List.singleton_append, unsnake_cons hne, htail]

def snakeToPascal : List Char → List Char
  | [] => []
  | c :: rest => c.toUpper :: unsnake rest

theorem snakeToPascal_pascalToSnake {s : String} (h : MessageName s) :
    snakeToPascal (pascalToSnake s).toList = s.toList := by
  obtain ⟨hcapital, halphanumeric⟩ := h
  simp only [pascalToSnake, String.toList_ofList]
  cases hs : s.toList with
  | nil => rfl
  | cons c rest =>
    simp only [hs] at hcapital halphanumeric
    have hupper : isAsciiUppercase c = true := hcapital
    have htail := unsnake_tail (k := 1) (fun d hd => halphanumeric d (List.mem_cons_of_mem c hd))
      Nat.one_pos
    have hround : snakeRound c 0 = [c.toLower] := if_pos hupper
    rw [List.zipIdx_cons, List.flatMap_cons, hround, List.singleton_append, snakeToPascal, htail,
      toUpper_toLower hupper]

theorem pascalToSnake_injective {s t : String} (hs : MessageName s) (ht : MessageName t)
    (h : pascalToSnake s = pascalToSnake t) : s = t := by
  apply String.toList_inj.mp
  rw [← snakeToPascal_pascalToSnake hs, h, snakeToPascal_pascalToSnake ht]

/-! ## Accepted manifests -/

theorem append_left_injective (front : String) {s t : String} (h : front ++ s = front ++ t) :
    s = t := by
  apply String.toList_inj.mp
  have hlist := congrArg String.toList h
  simp only [String.toList_append] at hlist
  exact List.append_cancel_left hlist

theorem send_ne_recv (s t : String) : "send_" ++ s ≠ "recv_" ++ t := by
  intro h
  have hlist := congrArg (fun u => u.toList.head?) h
  simp at hlist

theorem emitWrappers_nodup (c : ChannelEntry) : (emitWrappers c).Nodup := by
  apply List.nodup_cons.mpr
  refine ⟨?_, List.nodup_singleton _⟩
  intro hmem
  exact send_ne_recv _ _ (List.mem_singleton.mp hmem)

/-- Wrappers of the same name come from the same message. -/
theorem emitWrappers_disjoint {c d : ChannelEntry} (hc : MessageName c.message)
    (hd : MessageName d.message) (hne : c.message ≠ d.message) :
    (emitWrappers c).Disjoint (emitWrappers d) := by
  have hsnake : pascalToSnake c.message ≠ pascalToSnake d.message :=
    fun h => hne (pascalToSnake_injective hc hd h)
  intro name hin hin'
  simp only [emitWrappers, List.mem_cons, List.not_mem_nil, or_false] at hin hin'
  rcases hin with rfl | rfl <;> rcases hin' with h | h
  · exact hsnake (append_left_injective _ h)
  · exact send_ne_recv _ _ h
  · exact send_ne_recv _ _ h.symm
  · exact hsnake (append_left_injective _ h)

/-- Different message names give different snake-case names, and no two functions generated for
an accepted manifest have the same name. -/
theorem wrapper_names_distinct :
    (∀ s t, MessageName s → MessageName t → s ≠ t → pascalToSnake s ≠ pascalToSnake t) ∧
    ∀ m host, validateAll m host = .ok () → (generatedFunctions m).Nodup := by
  constructor
  · intro s t hs ht hne h
    exact hne (pascalToSnake_injective hs ht h)
  · intro m host h
    have haccepted := accepted_of_validateAll h
    rw [generatedFunctions, List.nodup_flatMap]
    refine ⟨fun c _ => emitWrappers_nodup c, ?_⟩
    apply (List.pairwise_map.mp haccepted.messages).imp_of_mem
    intro c d hc hd hne
    exact emitWrappers_disjoint (haccepted.message c hc) (haccepted.message d hd) hne

theorem sipahiToml_wrappers_distinct : pascalToSnake "ABTest" ≠ pascalToSnake "AbTest" ∧
    generatedFunctions sipahiToml = ["send_greeting_ping", "recv_greeting_ping"] ∧
    (generatedFunctions sipahiToml).Nodup :=
  ⟨wrapper_names_distinct.1 "ABTest" "AbTest" ⟨by decide, List.all_eq_true.mp (by decide)⟩
      ⟨by decide, List.all_eq_true.mp (by decide)⟩ (by decide),
    by decide +kernel,
    wrapper_names_distinct.2 sipahiToml (some workspaceHost) sipahiToml_accepted⟩

end SntmWrapperNames
