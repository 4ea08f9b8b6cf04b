import Sipahi.KernelCapability

/-!
# Where a granted capability comes from

Runs of the broker under any keyed hash. The history of a run is the list of its calls; a token
counts as accepted where `validate_full` took it past the MAC comparison, not where the cache
answered for it.
-/
namespace KernelProvenance

open KernelTypes KernelBlackbox KernelCapability

/-- The broker and the clock it reads. -/
structure Session where
  broker : Broker
  blackbox : Blackbox

def Session.now (s : Session) : ℕ := s.blackbox.getTick

inductive BrokerCall where
  | provisionKey (key : List UInt8)
  | validateFull (token : Token) (caller : ℕ)
  | validateCached (caller tokenId resource action : ℕ)
  | invalidateTaskCapabilities (taskId : ℕ)
  | advanceTick

/-- Caller, token, resource and action that a call asks for. -/
def BrokerCall.query : BrokerCall → Option (ℕ × ℕ × ℕ × ℕ)
  | .validateFull token caller => some (caller, token.id, token.resource, token.action)
  | .validateCached caller tokenId resource action => some (caller, tokenId, resource, action)
  | _ => none

section

variable (productionOtp : Bool) (keyedHash : List UInt8 → List UInt8 → List UInt8)

/-- The answer, `false` for the calls that have none, and the session after the call. -/
def call (s : Session) : BrokerCall → Bool × Session
  | .provisionKey key => (false, { s with broker := s.broker.provisionKey productionOtp key })
  | .validateFull token caller =>
    let r := s.broker.validateFull keyedHash s.now token caller
    (r.1, { s with broker := r.2 })
  | .validateCached caller tokenId resource action =>
    (s.broker.validateCached s.now caller tokenId resource action, s)
  | .invalidateTaskCapabilities taskId =>
    (false, { s with broker := s.broker.invalidateTaskCapabilities taskId })
  | .advanceTick => (false, { s with blackbox := s.blackbox.advanceTick })

/-- The session after these calls. -/
def sessionAfter (s : Session) (calls : List BrokerCall) : Session :=
  calls.foldl (fun s c => (call productionOtp keyedHash s c).2) s

/-- The token that a call gets accepted by its MAC: the cache has no answer for it and
`validate_full` says yes. -/
def macAccepted (s : Session) : BrokerCall → Option Token
  | .validateFull token caller =>
    if s.broker.cache.lookup s.now caller token.id token.resource token.action then none
    else if (s.broker.validateFull keyedHash s.now token caller).1 then some token
    else none
  | _ => none

/-- The tokens accepted by MAC along the run, in order. -/
def acceptedTokens : Session → List BrokerCall → List Token
  | _, [] => []
  | s, c :: calls => (macAccepted keyedHash s c).toList ++
    acceptedTokens (call productionOtp keyedHash s c).2 calls

/-- Every check of `validate_full` passes. -/
structure Acceptable (s : Session) (token : Token) (caller : ℕ) : Prop where
  keyReady : s.broker.keyReady = true
  owner : token.taskId = caller
  inTable : token.taskId < maxTasks
  nonce : s.broker.lastNonce ⟨token.taskId, inTable⟩ < token.nonce
  unexpired : token.expires = 0 ∨ s.now ≤ token.expires
  mac : token.mac = keyedHash s.broker.macKey token.headerBytes

end

/-! ## One call -/

section

variable {productionOtp : Bool} {keyedHash : List UInt8 → List UInt8 → List UInt8}
variable {s : Session} {token : Token} {caller : ℕ}

variable (keyedHash) in
theorem validateFull_cases (s : Session) (token : Token) (caller : ℕ) :
    (s.broker.cache.lookup s.now caller token.id token.resource token.action = true ∧
      s.broker.validateFull keyedHash s.now token caller = (true, s.broker)) ∨
    (s.broker.cache.lookup s.now caller token.id token.resource token.action = false ∧
      ∃ h : Acceptable keyedHash s token caller,
      s.broker.validateFull keyedHash s.now token caller = (true, { s.broker with
        lastNonce := Function.update s.broker.lastNonce ⟨token.taskId, h.inTable⟩ token.nonce
        cache := s.broker.cache.insert caller token.id token.resource token.action token.expires }))
    ∨ (s.broker.cache.lookup s.now caller token.id token.resource token.action = false ∧
      s.broker.validateFull keyedHash s.now token caller = (false, s.broker)) := by
  rw [Broker.validateFull]
  by_cases hhit : s.broker.cache.lookup s.now caller token.id token.resource token.action = true
  · exact Or.inl ⟨hhit, if_pos hhit⟩
  right
  rw [if_neg hhit, Bool.not_eq_true] at *
  by_cases hkey : s.broker.keyReady = true
  · rw [if_neg (by simp [hkey])]
    by_cases howner : token.taskId = caller
    · rw [if_neg (not_not.mpr howner)]
      by_cases hin : token.taskId < maxTasks
      · rw [dif_pos hin]
        by_cases hnonce : token.nonce ≤ s.broker.lastNonce ⟨token.taskId, hin⟩
        · exact Or.inr ⟨hhit, if_pos hnonce⟩
        · rw [if_neg hnonce]
          by_cases hexp : 0 < token.expires ∧ token.expires < s.now
          · exact Or.inr ⟨hhit, if_pos hexp⟩
          · rw [if_neg hexp]
            by_cases hmac : token.mac = keyedHash s.broker.macKey token.headerBytes
            · rw [if_pos hmac]
              exact Or.inl ⟨hhit, ⟨hkey, howner, hin, by omega, by omega, hmac⟩, rfl⟩
            · exact Or.inr ⟨hhit, if_neg hmac⟩
      · exact Or.inr ⟨hhit, dif_neg hin⟩
    · exact Or.inr ⟨hhit, if_pos howner⟩
  · exact Or.inr ⟨hhit, if_pos (by simp [hkey])⟩

theorem macAccepted_cases {c : BrokerCall} (h : macAccepted keyedHash s c = some token) :
    ∃ caller, c = .validateFull token caller ∧ ∃ ha : Acceptable keyedHash s token caller,
      s.broker.validateFull keyedHash s.now token caller = (true, { s.broker with
        lastNonce := Function.update s.broker.lastNonce ⟨token.taskId, ha.inTable⟩ token.nonce
        cache := s.broker.cache.insert caller token.id token.resource token.action
          token.expires }) := by
  cases c with
  | validateFull presented caller =>
    rcases validateFull_cases keyedHash s presented caller with
      ⟨hhit, -⟩ | ⟨hmiss, ha, hr⟩ | ⟨hmiss, hr⟩
    · simp [macAccepted, hhit] at h
    · simp only [macAccepted, hmiss, hr, Bool.false_eq_true, if_false, if_true] at h
      cases h
      exact ⟨caller, rfl, ha, hr⟩
    · simp [macAccepted, hmiss, hr] at h
  | _ => simp [macAccepted] at h

theorem macAccepted_acceptable {c : BrokerCall} (h : macAccepted keyedHash s c = some token) :
    ∃ caller, c = .validateFull token caller ∧ Acceptable keyedHash s token caller := by
  obtain ⟨caller, hc, ha, -⟩ := macAccepted_cases h
  exact ⟨caller, hc, ha⟩

variable (productionOtp) in
theorem call_accepted {c : BrokerCall} (h : macAccepted keyedHash s c = some token) :
    ∃ hin : token.taskId < maxTasks,
      (call productionOtp keyedHash s c).2.broker.lastNonce ⟨token.taskId, hin⟩ = token.nonce := by
  obtain ⟨caller, rfl, ha, hr⟩ := macAccepted_cases h
  refine ⟨ha.inTable, ?_⟩
  simp [call, hr]

theorem call_lastNonce (s : Session) (c : BrokerCall) (i : TaskIndex) :
    s.broker.lastNonce i ≤ (call productionOtp keyedHash s c).2.broker.lastNonce i := by
  cases c with
  | provisionKey key =>
    simp only [call, Broker.provisionKey]
    split_ifs <;> exact le_rfl
  | validateFull token caller =>
    simp only [call]
    rcases validateFull_cases keyedHash s token caller with
      ⟨-, hr⟩ | ⟨-, ha, hr⟩ | ⟨-, hr⟩
    · rw [hr]
    · rw [hr]
      dsimp only
      by_cases hi : i = ⟨token.taskId, ha.inTable⟩
      · subst i
        rw [Function.update_self]
        exact ha.nonce.le
      · rw [Function.update_of_ne hi]
    · rw [hr]
  | validateCached caller tokenId resource action => exact le_rfl
  | invalidateTaskCapabilities taskId => exact le_rfl
  | advanceTick => exact le_rfl

theorem call_key {c : BrokerCall} (h : (call productionOtp keyedHash s c).2.broker.keyReady = true) :
    (s.broker.keyReady = true ∧
      (call productionOtp keyedHash s c).2.broker.macKey = s.broker.macKey) ∨
    c = .provisionKey (call productionOtp keyedHash s c).2.broker.macKey := by
  cases c with
  | provisionKey key =>
    simp only [call, Broker.provisionKey] at h ⊢
    split_ifs at h ⊢ with hzero hlow hready
    · exact Or.inl ⟨h, rfl⟩
    · exact Or.inl ⟨h, rfl⟩
    · exact Or.inl ⟨h, rfl⟩
    · exact Or.inr rfl
  | validateFull token caller =>
    simp only [call] at h ⊢
    rcases validateFull_cases keyedHash s token caller with
      ⟨-, hr⟩ | ⟨-, _, hr⟩ | ⟨-, hr⟩
    · rw [hr] at h ⊢
      exact Or.inl ⟨h, rfl⟩
    · rw [hr] at h ⊢
      exact Or.inl ⟨h, rfl⟩
    · rw [hr] at h ⊢
      exact Or.inl ⟨h, rfl⟩
  | validateCached caller tokenId resource action => exact Or.inl ⟨h, rfl⟩
  | invalidateTaskCapabilities taskId => exact Or.inl ⟨h, rfl⟩
  | advanceTick => exact Or.inl ⟨h, rfl⟩

/-- The cache entry for an accepted token. -/
def entryOf (token : Token) : CacheEntry :=
  ⟨true, token.taskId, token.id, token.resource, token.action, token.expires⟩

/-- A valid entry after a call was there before it and has not been invalidated by it, or is the
entry of the token that the call got accepted. -/
theorem call_entry {c : BrokerCall} {i : Fin cacheSlots}
    (h : ((call productionOtp keyedHash s c).2.broker.cache.entries i).valid = true) :
    ((call productionOtp keyedHash s c).2.broker.cache.entries i = s.broker.cache.entries i ∧
      c ≠ .invalidateTaskCapabilities (s.broker.cache.entries i).ownerTaskId) ∨
    ∃ token, macAccepted keyedHash s c = some token ∧
      (call productionOtp keyedHash s c).2.broker.cache.entries i = entryOf token := by
  cases c with
  | provisionKey key =>
    simp only [call, Broker.provisionKey] at h ⊢
    split_ifs at h ⊢
    · exact Or.inl ⟨rfl, by simp⟩
    · exact Or.inl ⟨rfl, by simp⟩
    · exact Or.inl ⟨rfl, by simp⟩
    · simp [TokenCache.invalidateAll, CacheEntry.empty] at h
  | validateFull token caller =>
    simp only [call] at h ⊢
    rcases validateFull_cases keyedHash s token caller with
      ⟨-, hr⟩ | ⟨hmiss, ha, hr⟩ | ⟨-, hr⟩
    · rw [hr]
      exact Or.inl ⟨rfl, by simp⟩
    · rw [hr]
      dsimp only [TokenCache.insert]
      by_cases hi : i = ⟨s.broker.cache.nextSlot % cacheSlots, Nat.mod_lt _ (by decide)⟩
      · subst i
        refine Or.inr ⟨token, ?_, ?_⟩
        · simp [macAccepted, hmiss, hr]
        · rw [Function.update_self, entryOf, ha.owner]
      · rw [Function.update_of_ne hi]
        exact Or.inl ⟨rfl, by simp⟩
    · rw [hr]
      exact Or.inl ⟨rfl, by simp⟩
  | validateCached caller tokenId resource action => exact Or.inl ⟨rfl, by simp⟩
  | invalidateTaskCapabilities taskId =>
    simp only [call, Broker.invalidateTaskCapabilities, TokenCache.invalidateByOwner] at h ⊢
    by_cases hown : (s.broker.cache.entries i).ownerTaskId = taskId
    · simp [hown, CacheEntry.empty] at h
    · rw [if_neg hown]
      refine Or.inl ⟨rfl, ?_⟩
      intro he
      exact hown (BrokerCall.invalidateTaskCapabilities.inj he).symm
  | advanceTick => exact Or.inl ⟨rfl, by simp⟩

theorem lookup_entry {cache : TokenCache} {now taskId tokenId resource action : ℕ}
    (h : cache.lookup now taskId tokenId resource action = true) :
    ∃ i, (cache.entries i).valid = true ∧ (cache.entries i).ownerTaskId = taskId ∧
      (cache.entries i).tokenId = tokenId ∧ (cache.entries i).resource = resource ∧
      (cache.entries i).action = action ∧
      ((cache.entries i).expires = 0 ∨ now ≤ (cache.entries i).expires) := by
  simp only [TokenCache.lookup, List.any_eq_true] at h
  obtain ⟨i, -, hi⟩ := h
  simp only [CacheEntry.hit, isNotExpired, Bool.and_eq_true, Bool.or_eq_true, beq_iff_eq,
    decide_eq_true_eq] at hi
  obtain ⟨⟨⟨⟨⟨hv, ho⟩, ht⟩, hr⟩, ha⟩, he⟩ := hi
  exact ⟨i, hv, ho, ht, hr, ha, he⟩

/-! ## Whole runs -/

theorem sessionAfter_concat (s : Session) (calls : List BrokerCall) (c : BrokerCall) :
    sessionAfter productionOtp keyedHash s (calls ++ [c]) =
      (call productionOtp keyedHash (sessionAfter productionOtp keyedHash s calls) c).2 := by
  simp [sessionAfter]

theorem acceptedTokens_concat (s : Session) (calls : List BrokerCall) (c : BrokerCall) :
    acceptedTokens productionOtp keyedHash s (calls ++ [c]) =
      acceptedTokens productionOtp keyedHash s calls ++
        (macAccepted keyedHash (sessionAfter productionOtp keyedHash s calls) c).toList := by
  induction calls generalizing s with
  | nil => simp [acceptedTokens, sessionAfter]
  | cons d calls ih =>
    simp only [List.cons_append, acceptedTokens, List.append_assoc]
    rw [ih]
    rfl

theorem lastNonce_mono (s : Session) (calls : List BrokerCall) (i : TaskIndex) :
    s.broker.lastNonce i ≤ (sessionAfter productionOtp keyedHash s calls).broker.lastNonce i := by
  induction calls generalizing s with
  | nil => exact le_rfl
  | cons c calls ih => exact (call_lastNonce s c i).trans (ih _)

variable (productionOtp keyedHash) in
/-- The call of the run that put an entry into the cache: it got the token accepted, and the
owner's capabilities have not been invalidated since. -/
def Origin (s₀ : Session) (calls : List BrokerCall) (e : CacheEntry) : Prop :=
  ∃ before token after, calls = before ++ .validateFull token token.taskId :: after ∧
    macAccepted keyedHash (sessionAfter productionOtp keyedHash s₀ before)
      (.validateFull token token.taskId) = some token ∧
    e = entryOf token ∧ .invalidateTaskCapabilities token.taskId ∉ after

variable (productionOtp keyedHash) in
/-- What every run from an empty broker keeps. -/
structure Traced (s₀ : Session) (calls : List BrokerCall) : Prop where
  entries : ∀ i, ((sessionAfter productionOtp keyedHash s₀ calls).broker.cache.entries i).valid =
    true → Origin productionOtp keyedHash s₀ calls
      ((sessionAfter productionOtp keyedHash s₀ calls).broker.cache.entries i)
  nonces : ∀ t ∈ acceptedTokens productionOtp keyedHash s₀ calls, ∃ h : t.taskId < maxTasks,
    t.nonce ≤ (sessionAfter productionOtp keyedHash s₀ calls).broker.lastNonce ⟨t.taskId, h⟩
  distinct : ((acceptedTokens productionOtp keyedHash s₀ calls).map
    fun t => (t.taskId, t.nonce)).Nodup
  key : (sessionAfter productionOtp keyedHash s₀ calls).broker.keyReady = true →
    .provisionKey (sessionAfter productionOtp keyedHash s₀ calls).broker.macKey ∈ calls

theorem traced_nil (clock : Blackbox) : Traced productionOtp keyedHash ⟨.new, clock⟩ [] where
  entries := fun i h => by simp [sessionAfter, Broker.new, TokenCache.new, CacheEntry.empty] at h
  nonces := fun t ht => by simp [acceptedTokens] at ht
  distinct := by simp [acceptedTokens]
  key := fun h => by simp [sessionAfter, Broker.new] at h

theorem origin_concat {s₀ : Session} {calls : List BrokerCall} {e : CacheEntry} {c : BrokerCall}
    (h : Origin productionOtp keyedHash s₀ calls e)
    (hc : c ≠ .invalidateTaskCapabilities e.ownerTaskId) :
    Origin productionOtp keyedHash s₀ (calls ++ [c]) e := by
  obtain ⟨before, token, after, rfl, ha, rfl, hno⟩ := h
  refine ⟨before, token, after ++ [c], by simp, ha, rfl, ?_⟩
  intro hmem
  rcases List.mem_append.mp hmem with hmem | hmem
  · exact hno hmem
  · exact hc (List.mem_singleton.mp hmem).symm

theorem traced_concat {s₀ : Session} {calls : List BrokerCall}
    (h : Traced productionOtp keyedHash s₀ calls) (c : BrokerCall) :
    Traced productionOtp keyedHash s₀ (calls ++ [c]) where
  entries := by
    intro i hv
    rw [sessionAfter_concat] at hv ⊢
    rcases call_entry hv with ⟨hsame, hno⟩ | ⟨token, hacc, hentry⟩
    · rw [hsame] at hv ⊢
      exact origin_concat (h.entries i hv) hno
    · obtain ⟨caller, rfl, ha⟩ := macAccepted_acceptable hacc
      obtain rfl := ha.owner
      exact ⟨calls, token, [], rfl, hacc, hentry, by simp⟩
  nonces := by
    intro t ht
    rw [acceptedTokens_concat] at ht
    rw [sessionAfter_concat]
    rcases List.mem_append.mp ht with ht | ht
    · obtain ⟨hin, hle⟩ := h.nonces t ht
      exact ⟨hin, hle.trans (call_lastNonce _ c _)⟩
    · obtain ⟨hin, heq⟩ := call_accepted productionOtp (Option.mem_toList.mp ht)
      exact ⟨hin, heq.ge⟩
  distinct := by
    rw [acceptedTokens_concat, List.map_append]
    cases hacc : macAccepted keyedHash (sessionAfter productionOtp keyedHash s₀ calls) c with
    | none => simpa using h.distinct
    | some token =>
      -- an accepted nonce is above every one accepted for the task before it
      obtain ⟨caller, -, ha⟩ := macAccepted_acceptable hacc
      have hnew : (token.taskId, token.nonce) ∉
          (acceptedTokens productionOtp keyedHash s₀ calls).map fun t => (t.taskId, t.nonce) := by
        intro hmem
        obtain ⟨t, ht, heq⟩ := List.mem_map.mp hmem
        obtain ⟨hin, hle⟩ := h.nonces t ht
        obtain ⟨hid, hnonce⟩ := Prod.mk.inj heq
        have hlt := ha.nonce
        simp only [hid] at hle
        omega
      rw [Option.toList_some, List.map_singleton, ← List.concat_eq_append, List.nodup_concat]
      exact ⟨hnew, h.distinct⟩
  key := by
    intro hready
    rw [sessionAfter_concat] at hready ⊢
    rcases call_key hready with ⟨hold, hkey⟩ | hnew
    · rw [hkey]
      exact List.mem_append_left _ (h.key hold)
    · exact List.mem_append_right _ (List.mem_singleton.mpr hnew.symm)

variable (productionOtp keyedHash) in
theorem traced (clock : Blackbox) (calls : List BrokerCall) :
    Traced productionOtp keyedHash ⟨.new, clock⟩ calls := by
  induction calls using List.reverseRecOn with
  | nil => exact traced_nil clock
  | append_singleton calls c ih => exact traced_concat ih c

variable (productionOtp keyedHash) in
/-- The right of `caller` to an action at `now` goes back to a `validate_full` call of the run. -/
structure Granted (s₀ : Session) (calls : List BrokerCall) (now caller tokenId resource action : ℕ)
    (before : List BrokerCall) (token : Token) (after : List BrokerCall) : Prop where
  split : calls = before ++ .validateFull token caller :: after
  accepted : macAccepted keyedHash (sessionAfter productionOtp keyedHash s₀ before)
    (.validateFull token caller) = some token
  owner : token.taskId = caller
  id : token.id = tokenId
  resource : token.resource = resource
  action : token.action = action
  provisioned : .provisionKey (sessionAfter productionOtp keyedHash s₀ before).broker.macKey ∈ before
  mac : token.mac = keyedHash (sessionAfter productionOtp keyedHash s₀ before).broker.macKey
    token.headerBytes
  nonce : ∀ t ∈ acceptedTokens productionOtp keyedHash s₀ before, t.taskId = caller →
    t.nonce < token.nonce
  unexpired : token.expires = 0 ∨ now ≤ token.expires
  kept : .invalidateTaskCapabilities caller ∉ after

theorem granted_of_accepted {clock : Blackbox} {before after : List BrokerCall} {caller now : ℕ}
    (hacc : macAccepted keyedHash (sessionAfter productionOtp keyedHash ⟨.new, clock⟩ before)
      (.validateFull token caller) = some token)
    (hexp : token.expires = 0 ∨ now ≤ token.expires)
    (hkept : .invalidateTaskCapabilities caller ∉ after) :
    Granted productionOtp keyedHash ⟨.new, clock⟩ (before ++ .validateFull token caller :: after) now
      caller token.id token.resource token.action before token after := by
  obtain ⟨_, heq, ha⟩ := macAccepted_acceptable hacc
  obtain ⟨-, rfl⟩ := BrokerCall.validateFull.inj heq
  have ht := traced productionOtp keyedHash clock before
  refine ⟨rfl, hacc, ha.owner, rfl, rfl, rfl, ht.key ha.keyReady, ha.mac, ?_, hexp, hkept⟩
  intro t hmem hid
  obtain ⟨hin, hle⟩ := ht.nonces t hmem
  have hlt := ha.nonce
  have hsame : t.taskId = token.taskId := hid.trans ha.owner.symm
  simp only [hsame] at hle
  omega

theorem granted_of_lookup {clock : Blackbox} {calls : List BrokerCall} (c : BrokerCall)
    {caller tokenId resource action : ℕ} (hc : c ≠ .invalidateTaskCapabilities caller)
    (h : (sessionAfter productionOtp keyedHash ⟨.new, clock⟩ calls).broker.cache.lookup
      (sessionAfter productionOtp keyedHash ⟨.new, clock⟩ calls).now caller tokenId resource action =
        true) :
    ∃ before token after, Granted productionOtp keyedHash ⟨.new, clock⟩ (calls ++ [c])
      (sessionAfter productionOtp keyedHash ⟨.new, clock⟩ calls).now caller tokenId resource action
      before token after := by
  obtain ⟨i, hv, rfl, rfl, rfl, rfl, hexp⟩ := lookup_entry h
  have ho := (traced productionOtp keyedHash clock calls).entries i hv
  obtain ⟨before, token, after, hsplit, hacc, hentry, hkept⟩ := origin_concat ho hc
  rw [hentry] at hexp ⊢
  rw [hsplit]
  exact ⟨before, token, after, granted_of_accepted hacc hexp hkept⟩

end

/-- Whenever the broker says yes, a `validate_full` call of the run presented the caller's own
token for that resource and action with a matching MAC and a fresh nonce, and the token has
neither expired nor been invalidated. No nonce of a task is accepted twice, nonces never go back,
and a refusal changes nothing. -/
theorem capability_provenance (productionOtp : Bool)
    (keyedHash : List UInt8 → List UInt8 → List UInt8) (clock : Blackbox)
    (calls : List BrokerCall) :
    (∀ c caller tokenId resource action, c.query = some (caller, tokenId, resource, action) →
      (call productionOtp keyedHash (sessionAfter productionOtp keyedHash ⟨.new, clock⟩ calls)
        c).1 = true →
      ∃ before token after, Granted productionOtp keyedHash ⟨.new, clock⟩ (calls ++ [c])
        (sessionAfter productionOtp keyedHash ⟨.new, clock⟩ calls).now caller tokenId resource action
        before token after) ∧
    ((acceptedTokens productionOtp keyedHash ⟨.new, clock⟩ calls).map
      fun t => (t.taskId, t.nonce)).Nodup ∧
    (∀ more i, (sessionAfter productionOtp keyedHash ⟨.new, clock⟩ calls).broker.lastNonce i ≤
      (sessionAfter productionOtp keyedHash
        (sessionAfter productionOtp keyedHash ⟨.new, clock⟩ calls) more).broker.lastNonce i) ∧
    ∀ token caller,
      (call productionOtp keyedHash (sessionAfter productionOtp keyedHash ⟨.new, clock⟩ calls)
        (.validateFull token caller)).1 = false →
      (call productionOtp keyedHash (sessionAfter productionOtp keyedHash ⟨.new, clock⟩ calls)
        (.validateFull token caller)).2.broker =
      (sessionAfter productionOtp keyedHash ⟨.new, clock⟩ calls).broker := by
  refine ⟨?_, (traced productionOtp keyedHash clock calls).distinct, fun more i => lastNonce_mono _ more i, ?_⟩
  · intro c caller tokenId resource action hquery hyes
    cases c with
    | validateFull token presenter =>
      cases hquery
      rcases validateFull_cases keyedHash
          (sessionAfter productionOtp keyedHash ⟨.new, clock⟩ calls) token caller with
        ⟨hhit, -⟩ | ⟨hmiss, ha, hr⟩ | ⟨-, hr⟩
      · exact granted_of_lookup _ (by simp) hhit
      · refine ⟨calls, token, [], granted_of_accepted ?_ ha.unexpired (by simp)⟩
        simp [macAccepted, hmiss, hr]
      · rw [call, hr] at hyes
        cases hyes
    | validateCached presenter presented wanted act =>
      cases hquery
      exact granted_of_lookup _ (by simp) hyes
    | provisionKey key => cases hquery
    | invalidateTaskCapabilities taskId => cases hquery
    | advanceTick => cases hquery
  · intro token caller hno
    rcases validateFull_cases keyedHash
        (sessionAfter productionOtp keyedHash ⟨.new, clock⟩ calls) token caller with
      ⟨-, hr⟩ | ⟨-, _, hr⟩ | ⟨-, hr⟩
    · rw [call, hr] at hno
      cases hno
    · rw [call, hr] at hno
      cases hno
    · rw [call, hr]

def enrolledToken : Token where
  id := 7
  taskId := 2
  resource := 0
  action := 2
  dal := 3
  expires := 0
  nonce := 1
  mac := List.replicate 16 0

/-- A key, and a token enrolled under it. -/
def enrolment : List BrokerCall :=
  [.provisionKey (List.replicate 32 0x5A), .validateFull enrolledToken 2]

theorem capability_provenance_after_enrolment :
    ∃ before token after, Granted false (fun _ _ => List.replicate 16 0) ⟨.new, .init⟩
      (enrolment ++ [.validateCached 2 7 0 2]) 0 2 7 0 2 before token after :=
  (capability_provenance false (fun _ _ => List.replicate 16 0) .init enrolment).1
    (.validateCached 2 7 0 2) 2 7 0 2 rfl (by decide +kernel)

end KernelProvenance
