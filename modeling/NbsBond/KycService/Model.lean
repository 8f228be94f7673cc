import NbsBond.Framework.Async
import NbsBond.Framework.Expiring
import NbsBond.KycService.CircuitBreaker

/-!
# The KYC service

`KycService` of `api/src/auth/kyc.service.ts`. Its requests run side by side: they share the cache
in Redis, under the two keys of each address, and the circuit breaker in memory. A request can be
interrupted where it awaits Redis or the provider. Awaiting another function of the service only
hands on what that function returned, and is no such place.

Time is in milliseconds. An answer of the provider is fixed when the provider executes the check,
and a command of Redis may be rejected before or after it took effect.
-/

namespace NbsBond
namespace KycService

open Soroban

/-! ### Statuses -/

/-- `KycStatus`. -/
inductive KycStatus where
  | none
  | pending
  | verified
  | accredited
  deriving DecidableEq, Repr

/-- The value of the enumeration. -/
def KycStatus.value : KycStatus → String
  | .none => "none"
  | .pending => "pending"
  | .verified => "verified"
  | .accredited => "accredited"

/-- The status with this value, if `Object.values(KycStatus)` includes it. -/
def KycStatus.ofValue (value : String) : Option KycStatus :=
  [.none, .pending, .verified, .accredited].find? fun status => status.value = value

theorem KycStatus.ofValue_value (status : KycStatus) : ofValue status.value = some status := by
  cases status <;> decide

/-- The position in `order`. The statuses are levels: a higher one includes the lower. -/
def KycStatus.order : KycStatus → ℕ
  | .none => 0
  | .pending => 1
  | .verified => 2
  | .accredited => 3

/-- `compareStatus`. -/
def compareStatus (actual required : KycStatus) : Bool := required.order ≤ actual.order

/-! ### The cache -/

/-- What `Date.parse` makes of a text: `none` unless it is finite. -/
abbrev Timestamp : Type := Option ℕ

/-- A status, and when it was recorded. It is only as good as what wrote it: both keys hold it in
the same form. -/
structure CachedStatus where
  status : KycStatus
  cachedAt : Timestamp
  deriving DecidableEq, Repr

/-- A text in the cache, by what `JSON.parse` makes of it. What is in Redis may have been written by
anything. -/
inductive Raw where
  | object (status : Option String) (cachedAt : Option Timestamp)
  /-- Not JSON, or not an object. -/
  | unrecognized
  deriving DecidableEq, Repr

/-- `serializeCached`. -/
def serializeCached (cached : CachedStatus) : Raw :=
  .object (some cached.status.value) (some cached.cachedAt)

/-- `parseCached`; without a date the value counts as recorded at the epoch. -/
def parseCached : Option Raw → Option CachedStatus
  | some (.object (some value) cachedAt) =>
    (KycStatus.ofValue value).map fun status => ⟨status, cachedAt.getD (some 0)⟩
  | _ => none

@[simp] theorem parseCached_serializeCached (cached : CachedStatus) :
    parseCached (some (serializeCached cached)) = some cached := by
  simp only [serializeCached, parseCached, KycStatus.ofValue_value, Option.map_some,
    Option.getD_some]

/-- The keys of an address: `key` and `staleKey`. The first expires, with a time that depends on the
status; the second is kept as the last known one. -/
inductive Key (ι : Type) where
  | kyc (address : ι)
  | stale (address : ι)
  deriving DecidableEq, Repr

/-- Whose key it is. -/
def Key.address {ι : Type} : Key ι → ι
  | .kyc address => address
  | .stale address => address

/-! ### Redis and the provider -/

/-- What a request awaits. Health is asked for only to say when to try again. -/
inductive Command (ι : Type) where
  | get (key : Key ι)
  /-- With `EX`, in seconds, if there is one. -/
  | set (key : Key ι) (value : Raw) (ttl : Option ℕ)
  | del (key : Key ι)
  | checkStatus (address : ι)
  /-- `provider.health()`. -/
  | health
  deriving DecidableEq, Repr

/-- What it gets: of `provider.health()`, the `recoverySeconds` if there are any. -/
def Reply {ι : Type} : Command ι → Type
  | .get _ => Option Raw
  | .set _ _ _ => Unit
  | .del _ => Unit
  | .checkStatus _ => KycStatus
  | .health => Option ℕ

/-- What a request throws. -/
inductive Failure where
  /-- A command was rejected. -/
  | rejected
  /-- `ServiceUnavailableException` -/
  | serviceUnavailable (message : String) (retryAfterSeconds : ℕ)
  /-- `ForbiddenException` -/
  | forbidden (message : String)
  deriving DecidableEq, Repr

-- Not every input fits every command: `reply` and `handle` say which do.
/-- What the environment decides when a command is executed. -/
inductive Input where
  | executed
  /-- The provider answers a check. -/
  | answer (status : KycStatus)
  /-- It answers a health check. -/
  | health (recoverySeconds : Option ℕ)
  /-- The command fails and has no effect. -/
  | failed
  /-- The command takes effect, and the connection breaks before the reply. -/
  | lost
  deriving DecidableEq, Repr

section Handle

variable {ι : Type} [DecidableEq ι]

/-- The cache after a command. -/
def effect (now : ℕ) (cache : Expiring (Key ι) Raw) : Command ι → Expiring (Key ι) Raw
  | .set key value ttl => cache.set key value (ttl.map fun seconds => now + 1000 * seconds)
  | .del key => cache.del key
  | _ => cache

/-- The reply to a command that succeeds. -/
def reply (now : ℕ) (cache : Expiring (Key ι) Raw) : (c : Command ι) → Input → Option (Reply c)
  | .get key, .executed => some (cache.get now key)
  | .set _ _ _, .executed => some ()
  | .del _, .executed => some ()
  | .checkStatus _, .answer status => some status
  | .health, .health recoverySeconds => some (recoverySeconds : Option ℕ)
  | _, _ => none

/-- The execution of a command. -/
def handle (now : ℕ) (cache : Expiring (Key ι) Raw) (c : Command ι) :
    Input → Option (Expiring (Key ι) Raw × Except Failure (Reply c))
  -- A failed command and a lost reply look the same to the request.
  | .failed => some (cache, .error .rejected)
  | .lost => some (effect now cache c, .error .rejected)
  | input => (reply now cache c input).map fun r => (effect now cache c, .ok r)

end Handle

/-! ### Requests -/

/-- A function of the service. -/
abbrev M (ι α : Type) : Type := Async KycCircuitBreaker (Command ι) Reply Failure α

section Commands

variable {ι : Type}

def redisGet (key : Key ι) : M ι (Option Raw) := Async.call (Command.get key)

def redisSet (key : Key ι) (value : Raw) (ttl : Option ℕ) : M ι Unit :=
  Async.call (Command.set key value ttl)

def redisDel (key : Key ι) : M ι Unit := Async.call (Command.del key)

/-- `provider.checkStatus`. -/
def checkStatus (address : ι) : M ι KycStatus := Async.call (Command.checkStatus address)

/-- `provider.health`. -/
def health : M ι (Option ℕ) := Async.call Command.health

/-- A method of the breaker. -/
def breaker {β : Type} (f : ℕ → KycCircuitBreaker → KycCircuitBreaker × β) : M ι β :=
  Async.modifyGet f

end Commands

/-- The settings the service is started with. `ttlFor` and the thresholds are read from the
environment at the start. -/
structure Config where
  /-- `provider.isConfigured()` -/
  isConfigured : Bool
  threshold : ℕ
  cooldownMs : ℕ
  ttlFor : KycStatus → ℕ
  staleThresholdSeconds : ℕ

/-- `KycStatusResult`. -/
structure KycStatusResult where
  status : KycStatus
  stale : Bool
  cachedAt : Timestamp
  deriving DecidableEq, Repr

variable {ι : Type} (config : Config)

/-- `providerUnavailable`: the exception to throw. The provider's own estimate comes first, then
that of the breaker, then half a minute. -/
def providerUnavailable (reason : String) : M ι Failure := do
  -- If this is rejected too, that is what the request throws.
  let recoverySeconds ← health
  let retryAfterSeconds ←
    if 0 < recoverySeconds.getD 0 then pure (recoverySeconds.getD 0)
    else do
      let seconds ← breaker fun now b => b.retryAfterSeconds config.cooldownMs now
      pure (if seconds = 0 then 30 else seconds)
  return .serviceUnavailable reason retryAfterSeconds

/-- `cacheStatus`. Two commands: whoever reads between them finds the new value under one key and
the old under the other. -/
def cacheStatus (address : ι) (status : KycStatus) (cachedAt : Option Timestamp) : M ι Unit := do
  let now ← Async.now
  let value := serializeCached ⟨status, cachedAt.getD (some now)⟩
  redisSet (.kyc address) value (some (config.ttlFor status))
  redisSet (.stale address) value none

/-- Serve the last known status, flagged as `stale`, or throw. The date is that of the last known
status and not of now, so that a caller can tell how old it is. -/
def fallback (lastKnown : Option CachedStatus) (reason : String) : M ι KycStatusResult :=
  match lastKnown with
  | some cached => return ⟨cached.status, true, cached.cachedAt⟩
  | none => do
    let failure ← providerUnavailable config reason
    throw failure

/-- The `try` block of `getStatus`. Anything that is rejected in here, the cache included, counts as
a failure of the provider. -/
def liveStatus (address : ι) : M ι KycStatusResult := do
  let status ← checkStatus address
  breaker fun _ b => (b.recordSuccess, ())
  let now ← Async.now
  cacheStatus config address status (some (some now))
  return ⟨status, false, some now⟩

/-- The rest of `getStatus` once the provider is needed. The last known status is read before the
breaker is asked, so that an open circuit can still be answered. -/
def refresh (address : ι) : M ι KycStatusResult := do
  let lastKnown := parseCached (← redisGet (.stale address))
  let allowed ← breaker fun now b => b.canAttempt config.cooldownMs now
  if allowed then
    -- The breaker has let the request pass, so its result is counted whatever it is.
    tryCatch (liveStatus config address) fun _ => do
      breaker fun now b => (b.recordFailure config.threshold now, ())
      fallback config lastKnown "KYC provider is unavailable; please retry shortly"
  else fallback config lastKnown "KYC provider is unavailable (circuit open)"

/-- `getStatus`. A value that cannot be parsed is deleted, and the request goes on as if there were
none. -/
def getStatus (address : ι) : M ι KycStatusResult := do
  let cachedRaw ← redisGet (.kyc address)
  match parseCached cachedRaw with
  | some cached => return ⟨cached.status, false, cached.cachedAt⟩
  | none =>
    if cachedRaw.isSome then redisDel (.kyc address)
    -- Without a provider everybody is pending, and nothing is cached.
    if config.isConfigured then refresh config address
    else do
      let now ← Async.now
      return ⟨.pending, false, some now⟩

/-- `updateStatus`. -/
def updateStatus (address : ι) (status : KycStatus) : M ι Unit :=
  cacheStatus config address status none

/-- `revoke`. The order matters to nobody but a request in between: it finds no fresh status and
still the last known one. -/
def revoke (address : ι) : M ι Unit := do
  redisDel (.kyc address)
  redisDel (.stale address)

/-- `isStaleBeyondThreshold`. A value without a date is stale at once. -/
def isStaleBeyondThreshold (now : ℕ) (cachedAt : Timestamp) : Bool :=
  cachedAt.all fun cachedAtMs => config.staleThresholdSeconds * 1000 + cachedAtMs < now

/-- `isEligible`. A fresh status is compared at once; a stale one must not be older than the
threshold, whatever it says. -/
def isEligible (address : ι) (requiredStatus : KycStatus) : M ι Bool := do
  let result ← getStatus config address
  let now ← Async.now
  if result.stale ∧ isStaleBeyondThreshold config now result.cachedAt then
    throw (.forbidden "KYC status is stale; fresh verification is required before subscribing")
  else return compareStatus result.status requiredStatus

/-- A request. -/
inductive Request (ι : Type) where
  | getStatus (address : ι)
  | isEligible (address : ι) (requiredStatus : KycStatus)
  | updateStatus (address : ι) (status : KycStatus)
  | revoke (address : ι)
  deriving DecidableEq, Repr

/-- What a request returns. -/
inductive Answer where
  | status (result : KycStatusResult)
  | eligible (result : Bool)
  | nothing
  deriving DecidableEq, Repr

/-- The function of a request. Awaiting another method of the service is no interruption of its
own. -/
def program : Request ι → M ι Answer
  | .getStatus address => do return .status (← getStatus config address)
  | .isEligible address requiredStatus => do
    return .eligible (← isEligible config address requiredStatus)
  | .updateStatus address status => do
    updateStatus config address status
    return .nothing
  | .revoke address => do
    revoke address
    return .nothing

/-- The service. -/
def service [DecidableEq ι] : Async.Service (Expiring (Key ι) Raw) (Request ι) KycCircuitBreaker
    (Command ι) Reply Failure Answer Input :=
  ⟨program config, handle⟩

/-- The states of the service. -/
abbrev State (ι : Type) : Type :=
  Async.State (Expiring (Key ι) Raw) (Request ι) KycCircuitBreaker (Command ι) Reply Failure Answer

/-- The steps of the service. -/
abbrev Event (ι : Type) : Type := Call (State ι) (Async.Op (Request ι) Input) Unit

/-- A service that has just started, with whatever is in Redis. -/
structure Init (s : State ι) : Prop where
  memory : s.memory = {}
  threads : s.threads = []

end KycService
end NbsBond
