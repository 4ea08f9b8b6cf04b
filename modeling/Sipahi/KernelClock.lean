import Sipahi.KernelProvenance
import Sipahi.KernelTokenCache

/-!
# The 48-bit clock and expiry

Two counters make up the tick of the kernel: a 32-bit one and the epoch that counts its wraps.
-/
namespace KernelClock

open KernelTypes KernelBlackbox KernelCapability KernelProvenance KernelTokenCache

inductive SessionCall where
  | broker (c : BrokerCall)
  | cache (c : CacheCall)
  | log (event : BlackboxEvent) (taskId : ℕ) (data : List UInt8)

section

variable (productionOtp : Bool) (keyedHash : List UInt8 → List UInt8 → List UInt8)

def step (s : Session) : SessionCall → Session
  | .broker c => (call productionOtp keyedHash s c).2
  | .cache c => { s with broker := { s.broker with cache := KernelTokenCache.apply s.broker.cache c } }
  | .log event taskId data => { s with blackbox := s.blackbox.log event taskId data }

/-- The session after boot and these calls. -/
def runSession (calls : List SessionCall) : Session :=
  calls.foldl (step productionOtp keyedHash) ⟨.new, .init⟩

end

def SessionCall.isTick : SessionCall → Bool
  | .broker .advanceTick => true
  | _ => false

def ticks (calls : List SessionCall) : ℕ := calls.countP SessionCall.isTick

/-- The two counters hold the number of ticks so far. -/
structure Counts (b : Blackbox) (n : ℕ) : Prop where
  tick : b.tick = n % 2 ^ 32
  epoch : b.bootEpoch = n / 2 ^ 32 % 2 ^ 16

theorem counts_getTick {b : Blackbox} {n : ℕ} (h : Counts b n) : b.getTick = n % 2 ^ 48 := by
  rw [Blackbox.getTick, h.tick, h.epoch]
  omega

theorem counts_init : Counts .init 0 := ⟨rfl, rfl⟩

theorem counts_log {b : Blackbox} {n : ℕ} (h : Counts b n) (event : BlackboxEvent) (taskId : ℕ)
    (data : List UInt8) : Counts (b.log event taskId data) n := by
  unfold Blackbox.log
  split
  · exact ⟨h.tick, h.epoch⟩
  · exact ⟨h.tick, h.epoch⟩

theorem counts_advanceTick {b : Blackbox} {n : ℕ} (h : Counts b n) :
    Counts b.advanceTick (n + 1) := by
  have htick := h.tick
  have hepoch := h.epoch
  -- the low half goes back to zero exactly where the number of ticks is divided evenly
  by_cases hwrap : n % 2 ^ 32 = 2 ^ 32 - 1
  · have hnext : wrappingAdd32 b.tick 1 = 0 := by
      rw [htick, hwrap]
      rfl
    have hpos : 0 < b.tick := by omega
    constructor
    · simp only [Blackbox.advanceTick, hnext]
      omega
    · simp only [Blackbox.advanceTick, hnext, if_pos hpos]
      omega
  · have hnext : wrappingAdd32 b.tick 1 = n % 2 ^ 32 + 1 := by
      rw [htick, wrappingAdd32]
      omega
    have hle : ¬ n % 2 ^ 32 + 1 < b.tick := by omega
    constructor
    · simp only [Blackbox.advanceTick, hnext]
      omega
    · simp only [Blackbox.advanceTick, hnext, if_neg hle]
      omega

section

variable {productionOtp : Bool} {keyedHash : List UInt8 → List UInt8 → List UInt8}

theorem counts_step {s : Session} {n : ℕ} (h : Counts s.blackbox n) (c : SessionCall) :
    Counts (step productionOtp keyedHash s c).blackbox (n + c.isTick.toNat) := by
  cases c with
  | broker c =>
    cases c with
    | advanceTick => exact counts_advanceTick h
    | provisionKey key => exact h
    | validateFull token caller => exact h
    | validateCached caller tokenId resource action => exact h
    | invalidateTaskCapabilities taskId => exact h
  | cache c => exact h
  | log event taskId data => exact counts_log h event taskId data

theorem counts_run (calls : List SessionCall) :
    Counts (runSession productionOtp keyedHash calls).blackbox (ticks calls) := by
  induction calls using List.reverseRecOn with
  | nil => exact counts_init
  | append_singleton calls c ih =>
    have hstep : Counts (step productionOtp keyedHash (runSession productionOtp keyedHash calls)
        c).blackbox (ticks calls + c.isTick.toNat) := counts_step ih c
    have hticks : ticks (calls ++ [c]) = ticks calls + c.isTick.toNat := by
      rw [ticks, List.countP_append, List.countP_singleton]
      cases c.isTick <;> rfl
    rw [hticks]
    simpa [runSession] using hstep

theorem now_run (calls : List SessionCall) :
    (runSession productionOtp keyedHash calls).now = ticks calls % 2 ^ 48 :=
  counts_getTick (counts_run calls)

/-- Past its expiry a token is not accepted again; `validate_full` says what the cache says. -/
theorem validateFull_expired {s : Session} {token : Token}
    (h : isNotExpired token.expires s.now = false) (caller : ℕ) :
    (s.broker.validateFull keyedHash s.now token caller).1 =
      s.broker.cache.lookup s.now caller token.id token.resource token.action := by
  rcases validateFull_cases keyedHash s token caller with
    ⟨hhit, hr⟩ | ⟨hmiss, ha, -⟩ | ⟨hmiss, hr⟩
  · rw [hr, hhit]
  · have hunexpired := ha.unexpired
    simp only [isNotExpired, Bool.or_eq_false_iff, beq_eq_false_iff_ne, decide_eq_false_iff_not]
      at h
    omega
  · rw [hr, hmiss]

end

/-- The tick counts the `advance_tick` calls up to 48 bits. A token that was found expired once is
refused ever after in a run shorter than that, by the cache and by `validate_full`, while no grant
with another expiry answers for the same task, token, resource and action. -/
theorem expiry_is_final (productionOtp : Bool) (keyedHash : List UInt8 → List UInt8 → List UInt8) :
    (∀ calls, (runSession productionOtp keyedHash calls).now = ticks calls % 2 ^ 48) ∧
    ∀ calls more : List SessionCall, ticks (calls ++ more) < 2 ^ 48 → ∀ (token : Token) (caller : ℕ),
      isNotExpired token.expires (runSession productionOtp keyedHash calls).now = false →
      let s := runSession productionOtp keyedHash (calls ++ more)
      (∀ i, (s.broker.cache.entries i).hit s.now caller token.id token.resource token.action = true →
        (s.broker.cache.entries i).expires = token.expires) →
      s.broker.cache.lookup s.now caller token.id token.resource token.action = false ∧
        (s.broker.validateFull keyedHash s.now token caller).1 = false := by
  refine ⟨now_run, ?_⟩
  intro calls more hshort token caller hexpired s hown
  have hticks : ticks (calls ++ more) = ticks calls + ticks more := List.countP_append ..
  have hlater : isNotExpired token.expires s.now = false := by
    have hnow : s.now = ticks (calls ++ more) := by
      rw [now_run, Nat.mod_eq_of_lt hshort]
    rw [now_run, Nat.mod_eq_of_lt (by omega)] at hexpired
    simp only [isNotExpired, Bool.or_eq_false_iff, beq_eq_false_iff_ne, decide_eq_false_iff_not]
      at hexpired ⊢
    omega
  have hmiss : s.broker.cache.lookup s.now caller token.id token.resource token.action = false := by
    rw [TokenCache.lookup, List.any_eq_false]
    intro i _ hhit
    have hlive : isNotExpired (s.broker.cache.entries i).expires s.now = true :=
      ((Bool.and_eq_true ..).mp hhit).2
    rw [hown i hhit, hlater] at hlive
    cases hlive
  exact ⟨hmiss, (validateFull_expired hlater caller).trans hmiss⟩

def tickCall : SessionCall := .broker .advanceTick

def shortToken : Token := { enrolledToken with expires := 1 }

def lastingToken : Token := { enrolledToken with nonce := 2 }

/-- A key, a token for one tick, and two ticks. -/
def expiryRun : List SessionCall :=
  [.broker (.provisionKey (List.replicate 32 0x5A)), .broker (.validateFull shortToken 2),
    tickCall, tickCall]

theorem expiry_is_final_for_short_token :
    let s := runSession false (fun _ _ => List.replicate 16 0) (expiryRun ++ [tickCall])
    s.broker.cache.lookup s.now 2 7 0 2 = false ∧
      (s.broker.validateFull (fun _ _ => List.replicate 16 0) s.now shortToken 2).1 = false := by
  apply (expiry_is_final false fun _ _ => List.replicate 16 0).2 expiryRun [tickCall]
    (by decide) shortToken 2 (by decide +kernel)
  decide +kernel

/-- Both refuse the token; another one for the same task, id, resource and action is accepted and
does not expire; both then accept the expired token. -/
theorem expired_token_revived :
    let keyedHash := fun _ _ => List.replicate 16 0
    let s := runSession false keyedHash expiryRun
    let s' := runSession false keyedHash
      (expiryRun ++ [.broker (.validateFull lastingToken 2), tickCall])
    isNotExpired shortToken.expires s.now = false ∧
      s.broker.cache.lookup s.now 2 7 0 2 = false ∧
      (s.broker.validateFull keyedHash s.now shortToken 2).1 = false ∧
      s.now < s'.now ∧
      s'.broker.cache.lookup s'.now 2 7 0 2 = true ∧
      (s'.broker.validateFull keyedHash s'.now shortToken 2).1 = true := by
  decide +kernel

end KernelClock
