import Sipahi.KernelCapability
import Sipahi.SlidingWindow

/-!
# The token cache as a queue of grants

The four slots against the history of the calls: a grant answers while it is among the last four
that were inserted and nothing has taken it back.
-/
namespace KernelTokenCache

open KernelCapability SlidingWindow

/-- The arguments of an insertion. -/
structure Grant where
  taskId : ℕ
  tokenId : ℕ
  resource : ℕ
  action : ℕ
  expires : ℕ
  deriving DecidableEq

def Grant.entry (g : Grant) : CacheEntry :=
  ⟨true, g.taskId, g.tokenId, g.resource, g.action, g.expires⟩

inductive CacheCall where
  | insert (g : Grant)
  | invalidateByToken (tokenId : ℕ)
  | invalidateByOwner (ownerTaskId : ℕ)
  | invalidateAll
  deriving DecidableEq

def apply (c : TokenCache) : CacheCall → TokenCache
  | .insert g => c.insert g.taskId g.tokenId g.resource g.action g.expires
  | .invalidateByToken tokenId => c.invalidateByToken tokenId
  | .invalidateByOwner ownerTaskId => c.invalidateByOwner ownerTaskId
  | .invalidateAll => c.invalidateAll

/-- The cache after these calls. -/
def runCache (calls : List CacheCall) : TokenCache := calls.foldl apply .new

def CacheCall.isInsert : CacheCall → Bool
  | .insert _ => true
  | _ => false

/-- The call takes the grant back. -/
def CacheCall.removes : CacheCall → Grant → Bool
  | .insert _, _ => false
  | .invalidateByToken tokenId, g => g.tokenId == tokenId
  | .invalidateByOwner ownerTaskId, g => g.taskId == ownerTaskId
  | .invalidateAll, _ => true

/-- The grant is among the last `n` insertions and was not taken back since. -/
def Kept (calls : List CacheCall) (n : ℕ) (g : Grant) : Prop :=
  ∃ before after, calls = before ++ .insert g :: after ∧ after.countP CacheCall.isInsert < n ∧
    ∀ c ∈ after, c.removes g = false

/-! ## Everything that was ever inserted -/

/-- What an invalidation makes of an entry. -/
def CacheCall.purge (c : CacheCall) (e : CacheEntry) : CacheEntry :=
  match c with
  | .insert _ => e
  | .invalidateByToken tokenId => if e.tokenId = tokenId then .empty else e
  | .invalidateByOwner ownerTaskId => if e.ownerTaskId = ownerTaskId then .empty else e
  | .invalidateAll => .empty

/-- The entries of all insertions in order, as the invalidations have left them. -/
def record (entries : List CacheEntry) : CacheCall → List CacheEntry
  | .insert g => entries ++ [g.entry]
  | c => entries.map c.purge

/-- The cache starts with an empty entry in each slot. -/
def ledger (calls : List CacheCall) : List CacheEntry :=
  calls.foldl record (List.replicate cacheSlots .empty)

structure Holds (c : TokenCache) (entries : List CacheEntry) : Prop where
  ring : Keeps (by decide) c.entries entries
  next : c.nextSlot % cacheSlots = entries.length % cacheSlots
  full : cacheSlots ≤ entries.length

theorem holds_new : Holds .new (List.replicate cacheSlots .empty) := by
  constructor
  · intro k hk _
    rw [List.getElem_replicate]
    rfl
  · rfl
  · simp

theorem holds_insert {c : TokenCache} {entries : List CacheEntry} (h : Holds c entries)
    (g : Grant) : Holds (apply c (.insert g)) (record entries (.insert g)) := by
  have hslot : (⟨c.nextSlot % cacheSlots, Nat.mod_lt _ (by decide)⟩ : Fin cacheSlots) =
      slotOf (by decide) entries.length := Fin.ext h.next
  constructor
  · simp only [apply, TokenCache.insert, record, hslot]
    exact keeps_write h.ring g.entry
  · have hnext := h.next
    simp only [apply, TokenCache.insert, record, List.length_append, List.length_singleton,
      cacheSlots] at hnext ⊢
    omega
  · have hfull := h.full
    simp only [record, List.length_append, List.length_singleton]
    omega

theorem holds_purge {c d : TokenCache} {entries : List CacheEntry} {f : CacheEntry → CacheEntry}
    (h : Holds c entries) (hring : d.entries = fun i => f (c.entries i))
    (hnext : d.nextSlot = c.nextSlot) : Holds d (entries.map f) := by
  constructor
  · rw [hring]
    exact keeps_map h.ring f
  · rw [hnext, List.length_map]
    exact h.next
  · rw [List.length_map]
    exact h.full

theorem holds_apply {c : TokenCache} {entries : List CacheEntry} (h : Holds c entries)
    (call : CacheCall) : Holds (apply c call) (record entries call) := by
  cases call with
  | insert g => exact holds_insert h g
  | invalidateByToken tokenId => exact holds_purge h rfl rfl
  | invalidateByOwner ownerTaskId => exact holds_purge h rfl rfl
  | invalidateAll => exact holds_purge h rfl rfl

theorem holds_run (calls : List CacheCall) : Holds (runCache calls) (ledger calls) := by
  have hrun : ∀ c entries, Holds c entries →
      Holds (calls.foldl apply c) (calls.foldl record entries) := by
    induction calls with
    | nil => exact fun _ _ h => h
    | cons call calls ih =>
      intro c entries h
      exact ih _ _ (holds_apply h call)
  exact hrun _ _ holds_new

/-! ## The ledger and the history -/

theorem entry_injective {g g' : Grant} (h : g.entry = g'.entry) : g = g' := by
  cases g
  cases g'
  simpa [Grant.entry] using h

theorem empty_ne_entry (g : Grant) : CacheEntry.empty ≠ g.entry := by
  intro h
  cases congrArg CacheEntry.valid h

/-- An entry that is emptied under a condition is a grant only outside of it. -/
theorem ite_empty_eq_entry {p : Prop} [Decidable p] {e : CacheEntry} {g : Grant} :
    (if p then CacheEntry.empty else e) = g.entry ↔ e = g.entry ∧ ¬ p := by
  by_cases hp : p
  · simp [hp, empty_ne_entry]
  · simp [hp]

/-- An entry that is still a grant was that grant before. -/
theorem purge_eq_entry {c : CacheCall} {e : CacheEntry} {g : Grant} :
    c.purge e = g.entry ↔ e = g.entry ∧ c.removes g = false := by
  cases c with
  | insert g' => simp [CacheCall.purge, CacheCall.removes]
  | invalidateByToken tokenId =>
    rw [CacheCall.purge, ite_empty_eq_entry]
    apply and_congr_right
    rintro rfl
    simp [CacheCall.removes, Grant.entry]
  | invalidateByOwner ownerTaskId =>
    rw [CacheCall.purge, ite_empty_eq_entry]
    apply and_congr_right
    rintro rfl
    simp [CacheCall.removes, Grant.entry]
  | invalidateAll => simp [CacheCall.purge, CacheCall.removes, empty_ne_entry]

theorem countP_isInsert_append (calls : List CacheCall) (c : CacheCall) :
    (calls ++ [c]).countP CacheCall.isInsert = calls.countP CacheCall.isInsert + c.isInsert.toNat := by
  rw [List.countP_append, List.countP_singleton]
  cases c.isInsert <;> rfl

/-- The last call of a history either inserted the grant or left it alone. -/
theorem kept_append {calls : List CacheCall} {c : CacheCall} {n : ℕ} {g : Grant} :
    Kept (calls ++ [c]) n g ↔ (c = .insert g ∧ 0 < n) ∨
      ∃ m, n = m + c.isInsert.toNat ∧ Kept calls m g ∧ c.removes g = false := by
  constructor
  · rintro ⟨before, after, hsplit, hcount, hquiet⟩
    rcases List.eq_nil_or_concat after with rfl | ⟨rest, last, rfl⟩
    · obtain ⟨-, hc⟩ := List.append_inj' hsplit rfl
      exact Or.inl ⟨List.singleton_inj.mp hc, hcount⟩
    · rw [List.concat_eq_append] at hsplit hcount hquiet
      have hassoc : calls ++ [c] = (before ++ .insert g :: rest) ++ [last] := by
        rw [hsplit]
        simp
      obtain ⟨hcalls, hc⟩ := List.append_inj' hassoc rfl
      obtain rfl := List.singleton_inj.mp hc
      rw [countP_isInsert_append] at hcount
      refine Or.inr ⟨n - c.isInsert.toNat, by omega, ⟨before, rest, hcalls, by omega, ?_⟩, ?_⟩
      · intro d hd
        exact hquiet d (List.mem_append_left _ hd)
      · exact hquiet c (by simp)
  · rintro (⟨rfl, hn⟩ | ⟨m, rfl, ⟨before, after, rfl, hcount, hquiet⟩, hc⟩)
    · exact ⟨calls, [], rfl, hn, by simp⟩
    · refine ⟨before, after ++ [c], by simp, ?_, ?_⟩
      · rw [countP_isInsert_append]
        omega
      · intro d hd
        rcases List.mem_append.mp hd with hd | hd
        · exact hquiet d hd
        · rw [List.mem_singleton.mp hd]
          exact hc

theorem ledger_append (calls : List CacheCall) (c : CacheCall) :
    ledger (calls ++ [c]) = record (ledger calls) c := by
  simp [ledger, List.foldl_append]

theorem record_purge {c : CacheCall} (h : c.isInsert = false) (entries : List CacheEntry) :
    record entries c = entries.map c.purge := by
  cases c with
  | insert g => cases h
  | invalidateByToken tokenId => rfl
  | invalidateByOwner ownerTaskId => rfl
  | invalidateAll => rfl

theorem mem_drop_purge {c : CacheCall} {entries : List CacheEntry} {k : ℕ} {g : Grant} :
    g.entry ∈ (entries.map c.purge).drop k ↔ g.entry ∈ entries.drop k ∧ c.removes g = false := by
  rw [← List.map_drop, List.mem_map]
  constructor
  · rintro ⟨e, he, hg⟩
    obtain ⟨rfl, hc⟩ := purge_eq_entry.mp hg
    exact ⟨he, hc⟩
  · rintro ⟨he, hc⟩
    exact ⟨_, he, purge_eq_entry.mpr ⟨rfl, hc⟩⟩

/-- The grants among the last `n` entries of the ledger are those that were kept. -/
theorem mem_ledger (calls : List CacheCall) (n : ℕ) (g : Grant) :
    g.entry ∈ (ledger calls).drop ((ledger calls).length - n) ↔ Kept calls n g := by
  induction calls using List.reverseRecOn generalizing n with
  | nil =>
    constructor
    · intro h
      exact absurd (List.eq_of_mem_replicate (List.mem_of_mem_drop h)).symm (empty_ne_entry g)
    · rintro ⟨before, after, hsplit, -⟩
      simp at hsplit
  | append_singleton calls c ih =>
    rw [ledger_append, kept_append]
    cases hinsert : c.isInsert with
    | true =>
      obtain ⟨g', rfl⟩ : ∃ g', c = .insert g' := by
        cases c with
        | insert g' => exact ⟨g', rfl⟩
        | invalidateByToken | invalidateByOwner | invalidateAll => cases hinsert
      simp only [record, CacheCall.removes, CacheCall.insert.injEq, List.length_append,
        List.length_singleton, Bool.toNat_true]
      cases n with
      | zero => simp
      | succ n =>
        rw [Nat.add_sub_add_right, List.drop_append_of_le_length (Nat.sub_le _ _),
          List.mem_append, List.mem_singleton, ih]
        constructor
        · rintro (h | h)
          · exact Or.inr ⟨n, rfl, h, trivial⟩
          · exact Or.inl ⟨(entry_injective h).symm, Nat.succ_pos n⟩
        · rintro (⟨rfl, -⟩ | ⟨m, hm, h, -⟩)
          · exact Or.inr rfl
          · obtain rfl : n = m := by omega
            exact Or.inl h
    | false =>
      have hnot : c ≠ .insert g := by
        rintro rfl
        cases hinsert
      rw [record_purge hinsert, List.length_map, mem_drop_purge, ih]
      simp [hnot]

theorem hit_iff (e : CacheEntry) (now taskId tokenId resource action : ℕ) :
    e.hit now taskId tokenId resource action = true ↔
      ∃ expires, e = Grant.entry ⟨taskId, tokenId, resource, action, expires⟩ ∧
        (expires = 0 ∨ now ≤ expires) := by
  obtain ⟨valid, owner, id, res, act, exp⟩ := e
  simp only [CacheEntry.hit, isNotExpired, Grant.entry, Bool.and_eq_true, Bool.or_eq_true,
    beq_iff_eq, decide_eq_true_eq, CacheEntry.mk.injEq]
  constructor
  · rintro ⟨⟨⟨⟨⟨hv, ho⟩, hi⟩, hr⟩, ha⟩, he⟩
    exact ⟨exp, ⟨hv, ho, hi, hr, ha, rfl⟩, he⟩
  · rintro ⟨expires, ⟨hv, ho, hi, hr, ha, rfl⟩, he⟩
    exact ⟨⟨⟨⟨⟨hv, ho⟩, hi⟩, hr⟩, ha⟩, he⟩

/-- The cache answers for the grants among the last four insertions that nothing took back and
that have not expired. -/
theorem cache_is_fifo (calls : List CacheCall) (now taskId tokenId resource action : ℕ) :
    (runCache calls).lookup now taskId tokenId resource action = true ↔
      ∃ before after expires,
        calls = before ++ .insert ⟨taskId, tokenId, resource, action, expires⟩ :: after ∧
        after.countP CacheCall.isInsert < cacheSlots ∧
        (∀ c ∈ after, c.removes ⟨taskId, tokenId, resource, action, expires⟩ = false) ∧
        (expires = 0 ∨ now ≤ expires) := by
  have h := holds_run calls
  have hlookup : (runCache calls).lookup now taskId tokenId resource action = true ↔
      ∃ i, ((runCache calls).entries i).hit now taskId tokenId resource action = true := by
    simp [TokenCache.lookup]
  rw [hlookup, keeps_exists h.ring h.full fun e => e.hit now taskId tokenId resource action = true]
  constructor
  · rintro ⟨e, he, hhit⟩
    obtain ⟨expires, rfl, hlive⟩ := (hit_iff ..).mp hhit
    obtain ⟨before, after, hsplit, hcount, hquiet⟩ := (mem_ledger calls cacheSlots _).mp he
    exact ⟨before, after, expires, hsplit, hcount, hquiet, hlive⟩
  · rintro ⟨before, after, expires, hsplit, hcount, hquiet, hlive⟩
    refine ⟨_, (mem_ledger calls cacheSlots _).mpr ⟨before, after, hsplit, hcount, hquiet⟩, ?_⟩
    exact (hit_iff ..).mpr ⟨expires, rfl, hlive⟩

end KernelTokenCache
