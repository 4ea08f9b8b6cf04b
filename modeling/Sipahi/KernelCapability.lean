import Sipahi.KernelBlackbox

/-!
# Capabilities: token cache, broker and the static local table

The keyed hash of the crypto provider is a parameter of token validation.
-/
namespace KernelCapability

open KernelTypes KernelBlackbox

def cacheSlots : ℕ := 4

structure CacheEntry where
  valid : Bool
  ownerTaskId : ℕ
  tokenId : ℕ
  resource : ℕ
  action : ℕ
  expires : ℕ
  deriving DecidableEq

def CacheEntry.empty : CacheEntry := ⟨false, 0, 0, 0, 0, 0⟩

structure TokenCache where
  entries : Fin cacheSlots → CacheEntry
  nextSlot : ℕ

def TokenCache.new : TokenCache := ⟨fun _ => .empty, 0⟩

/-- Zero never expires. -/
def isNotExpired (expires currentTick : ℕ) : Bool := expires == 0 || currentTick ≤ expires

def CacheEntry.hit (e : CacheEntry) (now taskId tokenId resource action : ℕ) : Bool :=
  e.valid && e.ownerTaskId == taskId && e.tokenId == tokenId && e.resource == resource &&
    e.action == action && isNotExpired e.expires now

/-- All four slots are scanned. -/
def TokenCache.lookup (c : TokenCache) (now taskId tokenId resource action : ℕ) : Bool :=
  (List.finRange cacheSlots).any fun i => (c.entries i).hit now taskId tokenId resource action

def TokenCache.insert (c : TokenCache) (taskId tokenId resource action expires : ℕ) : TokenCache where
  entries := Function.update c.entries ⟨c.nextSlot % cacheSlots, Nat.mod_lt _ (by decide)⟩
    ⟨true, taskId, tokenId, resource, action, expires⟩
  nextSlot := (c.nextSlot + 1) % 2 ^ 8

def TokenCache.invalidateByToken (c : TokenCache) (tokenId : ℕ) : TokenCache :=
  { c with entries := fun i => if (c.entries i).tokenId = tokenId then .empty else c.entries i }

def TokenCache.invalidateAll (c : TokenCache) : TokenCache := { c with entries := fun _ => .empty }

def TokenCache.invalidateByOwner (c : TokenCache) (ownerTaskId : ℕ) : TokenCache :=
  { c with
    entries := fun i => if (c.entries i).ownerTaskId = ownerTaskId then .empty else c.entries i }

structure Token where
  id : ℕ
  taskId : ℕ
  resource : ℕ
  action : ℕ
  dal : ℕ
  expires : ℕ
  nonce : ℕ
  mac : List UInt8

/-- The first 16 bytes, little-endian, with the padding as zeros. -/
def Token.headerBytes (t : Token) : List UInt8 :=
  [UInt8.ofNat t.id, UInt8.ofNat t.taskId] ++ le16 (UInt16.ofNat t.resource) ++
    [UInt8.ofNat t.action, UInt8.ofNat t.dal, 0, 0] ++ le32 (UInt32.ofNat t.expires) ++
    le32 (UInt32.ofNat t.nonce)

structure Broker where
  macKey : List UInt8
  keyReady : Bool
  lastNonce : TaskIndex → ℕ
  cache : TokenCache

def Broker.new : Broker where
  macKey := List.replicate 32 0
  keyReady := false
  lastNonce := fun _ => 0
  cache := .new

/-- The filter of a production build: at least eight distinct byte values. -/
def lowEntropy (key : List UInt8) : Bool := key.dedup.length < 8

def Broker.provisionKey (productionOtp : Bool) (b : Broker) (key : List UInt8) : Broker :=
  if key.all (· == 0) then b
  else if productionOtp && lowEntropy key then b
  else if b.keyReady then b
  else { b with macKey := key, cache := b.cache.invalidateAll, keyReady := true }

def Broker.validateCached (b : Broker) (now callerTaskId tokenId resource action : ℕ) : Bool :=
  b.cache.lookup now callerTaskId tokenId resource action

/-- The answer and the broker after it: a success stores nonce and cache entry, a failure
stores nothing. -/
def Broker.validateFull (keyedHash : List UInt8 → List UInt8 → List UInt8) (b : Broker) (now : ℕ)
    (token : Token) (callerTaskId : ℕ) : Bool × Broker :=
  if b.cache.lookup now callerTaskId token.id token.resource token.action then (true, b)
  else if !b.keyReady then (false, b)
  else if token.taskId ≠ callerTaskId then (false, b)
  else if h : token.taskId < maxTasks then
    if token.nonce ≤ b.lastNonce ⟨token.taskId, h⟩ then (false, b)
    else if 0 < token.expires ∧ token.expires < now then (false, b)
    else if token.mac = keyedHash b.macKey token.headerBytes then
      (true, { b with
        lastNonce := Function.update b.lastNonce ⟨token.taskId, h⟩ token.nonce
        cache := b.cache.insert callerTaskId token.id token.resource token.action token.expires })
    else (false, b)
  else (false, b)

def Broker.invalidateTaskCapabilities (b : Broker) (taskId : ℕ) : Broker :=
  { b with cache := b.cache.invalidateByOwner taskId }

inductive CapAction where
  | none | read | write | readWrite | execute | all
  deriving DecidableEq, Repr

def CapAction.bits : CapAction → ℕ
  | .none => 0
  | .read => 1
  | .write => 2
  | .readWrite => 3
  | .execute => 4
  | .all => 7

def CapAction.fromU8 : ℕ → Option CapAction
  | 0 => some .none
  | 1 => some .read
  | 2 => some .write
  | 3 => some .readWrite
  | 4 => some .execute
  | 7 => some .all
  | _ => Option.none

/-- Bitwise subset; a request for nothing is refused. -/
def CapAction.allows (granted requested : CapAction) : Bool :=
  granted.bits &&& requested.bits == requested.bits && requested.bits != 0

abbrev CapTable := TaskIndex → Fin maxResources → CapAction

def localCapCheck (table : CapTable) (callerTaskId resourceId actionBits : ℕ) : Bool :=
  if hc : callerTaskId < maxTasks then
    if hr : resourceId < maxResources then
      match CapAction.fromU8 actionBits with
      | some requested => (table ⟨callerTaskId, hc⟩ ⟨resourceId, hr⟩).allows requested
      | Option.none => false
    else false
  else false

/-- The generated `LOCAL_CAP_TABLE` of the manifest under version control. -/
def generatedCapTable : CapTable := fun task resource =>
  match task.val, resource.val with
  | 2, 0 => .write
  | 2, 2 => .write
  | 3, 1 => .write
  | 3, 2 => .read
  | _, _ => .none

/-- A valid entry of the cache that belongs to the task. -/
def TokenCache.Owns (c : TokenCache) (taskId : ℕ) : Prop :=
  ∃ i, (c.entries i).valid = true ∧ (c.entries i).ownerTaskId = taskId

theorem invalidateByOwner_not_owns (c : TokenCache) (taskId : ℕ) :
    ¬ (c.invalidateByOwner taskId).Owns taskId := by
  rintro ⟨i, hv, ho⟩
  simp only [TokenCache.invalidateByOwner] at hv ho
  split at hv
  · simp [CacheEntry.empty] at hv
  · rename_i hne
    rw [if_neg hne] at ho
    exact hne ho

theorem invalidateByOwner_owns {c : TokenCache} {taskId other : ℕ}
    (h : (c.invalidateByOwner taskId).Owns other) : c.Owns other := by
  obtain ⟨i, hv, ho⟩ := h
  simp only [TokenCache.invalidateByOwner] at hv ho
  split at hv
  · simp [CacheEntry.empty] at hv
  · rename_i hne
    rw [if_neg hne] at ho
    exact ⟨i, hv, ho⟩

theorem lookup_owns {c : TokenCache} {now taskId tokenId resource action : ℕ}
    (h : c.lookup now taskId tokenId resource action = true) : c.Owns taskId := by
  simp only [TokenCache.lookup, List.any_eq_true] at h
  obtain ⟨i, -, hi⟩ := h
  simp only [CacheEntry.hit, Bool.and_eq_true, beq_iff_eq] at hi
  exact ⟨i, hi.1.1.1.1.1, hi.1.1.1.1.2⟩

end KernelCapability
