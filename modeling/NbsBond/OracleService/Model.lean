import NbsBond.BondsService.Decoding
import NbsBond.Framework.Async
import NbsBond.Framework.Expiring

/-!
# Challenges of reports

The two steps of a challenge in `OracleService` of `api/src/oracle/oracle.service.ts`:
`prepareChallenge`, with `enforceChallengeRateLimit`, and `challengeReport`. Requests run side by
side. The attempts of a wallet are counted in Redis while its client is ready, and in the memory of
the process otherwise.

A command of Redis may be rejected before or after it took effect. `NonceService` and
`ContractService` answer, or throw anything at all. What the SDK does with an address is a
parameter, and so are the texts of the errors that JavaScript and the SDK throw.
-/

namespace NbsBond
namespace OracleService

open Soroban ContractService

/-! ### Failures -/

/-- What a request throws. The last two are what reaches the `catch` blocks from outside of
NestJS. -/
inductive Failure where
  /-- `ConflictException` -/
  | conflict (message : String)
  /-- Any other `HttpException`. -/
  | http (status : ℕ) (message : String)
  /-- Any other `Error`. -/
  | error (message : String)
  /-- Something that is not an `Error`. -/
  | other
  deriving DecidableEq, Repr

/-- `BadRequestException`. -/
def Failure.badRequest (message : String) : Failure := .http 400 message

/-- The number after `error code `, where that first comes before a digit. Only digits directly
after the words count. -/
def contractErrorCode (message : String) : Option ℕ :=
  message.toList.tails.findSome? fun text =>
    let digits := (text.drop "error code ".length).takeWhile Char.isDigit
    if "error code ".toList.isPrefixOf text ∧ digits ≠ [] then some (Nat.ofDigitChars 10 digits 0)
    else none

/-- `ORACLE_ERROR_CODE.ChallengeAlreadyExists`. -/
def challengeAlreadyExists : ℕ := 20

/-- `mapChallengeError`. A conflict is handed on as it is. Another exception keeps its status, and
what is no exception becomes a bad request. -/
def mapChallengeError (reportId : ℤ) : Failure → Failure
  | .conflict message => .conflict message
  | .http status message =>
    if contractErrorCode message = some challengeAlreadyExists then
      .conflict ("Report #" ++ toString reportId ++ " already has a challenge on file")
    else .http status message
  | .error message => .badRequest message
  | .other => .badRequest "Failed to challenge report"

/-- The message of `InvalidProjectIdError`. It says how many bytes came out, where there were
any. -/
def invalidProjectIdMessage (input : List Char) (decodedLength : Option ℕ) : String :=
  let lengthDetail := match decodedLength with
    | none => "the value did not decode to any bytes"
    | some n => "the value decoded to " ++ toString n ++ " byte" ++ if n = 1 then "" else "s"
  "Invalid project ID \"" ++ String.ofList input ++ "\": expected a 64-character hex string, " ++
    "a 46-character IPFS CIDv0, or 32 raw bytes, but " ++ lengthDetail ++ "."

/-! ### Commands -/

/-- What a request awaits. The key of a wallet is `oracle:challenge-limit:<address>`. -/
inductive Command where
  | incr (address : String)
  | expire (address : String) (seconds : ℕ)
  /-- `nonceService.next`, for the oracle consumer. -/
  | next (address : String)
  /-- `contractService.prepareTransaction`, of `challenge_report`. -/
  | prepareTransaction (sourceAddress : String) (args : List ScVal) (nonce : ℕ)
  /-- `contractService.submitSignedTransaction`, of `challenge_report`. -/
  | submitSignedTransaction (signedTxXdr : String) (expectedSourceAddress : String)

/-- `PreparedTransaction`. -/
structure PreparedTransaction where
  xdr : String
  nonce : ℕ
  deriving DecidableEq, Repr

/-- What it gets. -/
def Reply : Command → Type
  | .incr _ => ℕ
  | .expire _ _ => Unit
  | .next _ => ℕ
  | .prepareTransaction _ _ _ => PreparedTransaction
  | .submitSignedTransaction _ _ => Unit

/-- What the environment decides when a command is executed. Not every input fits every command:
`handle` says which do. -/
inductive Input where
  | executed
  /-- A command of Redis is rejected and has no effect. -/
  | failed (message : String)
  /-- It takes effect, and the connection breaks before the reply. -/
  | lost (message : String)
  | nonce (n : ℕ)
  | prepared (xdr : String)
  /-- The other service throws. -/
  | throws (failure : Failure)
  deriving DecidableEq, Repr

/-- The counters in Redis. -/
abbrev Store : Type := Expiring String ℕ

/-- The execution of a command. A reply that is lost leaves its effect on the counter, which is what
makes an attempt count without an answer. -/
def handle (now : ℕ) (store : Store) :
    (c : Command) → Input → Option (Store × Except Failure (Reply c))
  | .incr address, .executed =>
    let r := store.incr now address
    some (r.1, .ok r.2)
  | .incr _, .failed message => some (store, .error (.error message))
  | .incr address, .lost message => some ((store.incr now address).1, .error (.error message))
  | .expire address seconds, .executed =>
    some (store.expire now address (now + 1000 * seconds), .ok ())
  | .expire _ _, .failed message => some (store, .error (.error message))
  | .expire address seconds, .lost message =>
    some (store.expire now address (now + 1000 * seconds), .error (.error message))
  | .next _, .nonce n => some (store, .ok n)
  | .next _, .throws failure => some (store, .error failure)
  | .prepareTransaction _ _ nonce, .prepared xdr => some (store, .ok ⟨xdr, nonce⟩)
  | .prepareTransaction _ _ _, .throws failure => some (store, .error failure)
  | .submitSignedTransaction _ _, .executed => some (store, .ok ())
  | .submitSignedTransaction _ _, .throws failure => some (store, .error failure)
  | _, _ => none

/-! ### The memory of the process -/

/-- An entry of `localChallengeAttempts`. The entries stay when they have expired, until the wallet
tries again. -/
structure LocalAttempts where
  count : ℕ
  expiresAt : ℕ
  deriving DecidableEq, Repr

/-- What the process keeps: whether the client can be used, and the attempts counted without it. -/
structure Memory where
  /-- `redis.isReady` -/
  isReady : Bool
  localChallengeAttempts : String → Option LocalAttempts

/-- `CHALLENGE_LIMIT`. -/
def challengeLimit : ℕ := 3

/-- `CHALLENGE_WINDOW_SECONDS`. -/
def challengeWindowSeconds : ℕ := 24 * 60 * 60

/-- The entry after an attempt. An entry that has expired starts a new window. -/
def LocalAttempts.next (now : ℕ) (current : Option LocalAttempts) : LocalAttempts :=
  match current.filter fun attempts => now < attempts.expiresAt with
  | some attempts => { attempts with count := attempts.count + 1 }
  | none => ⟨1, now + challengeWindowSeconds * 1000⟩

/-- Count an attempt in the memory of the process. -/
def Memory.countAttempt (now : ℕ) (memory : Memory) (address : String) : Memory × ℕ :=
  let next := LocalAttempts.next now (memory.localChallengeAttempts address)
  ({ memory with
    localChallengeAttempts := Function.update memory.localChallengeAttempts address (some next) },
    next.count)

/-! ### Requests -/

/-- What the service relies on. -/
structure Sdk where
  /-- `Address.fromString`, which may throw, and `toScVal`. -/
  address : String → Option ScVal
  /-- The message of an error. -/
  message : JsError → String

/-- `PrepareChallengeDto`; the reason is not used. -/
structure PrepareChallengeDto where
  counterEvidenceHash : String
  deriving DecidableEq, Repr

structure ChallengeDto where
  counterEvidenceHash : String
  reason : String
  signedTxXdr : String
  deriving DecidableEq, Repr

/-- A request, or what the Redis client tells. Becoming ready is an event like a request: nothing of
the service awaits it. -/
inductive Request where
  | prepareChallenge (reportId : ℤ) (dto : PrepareChallengeDto) (challengerAddress : String)
  | challengeReport (reportId : ℤ) (dto : ChallengeDto) (challengerAddress : String)
  /-- The client has become ready, or has lost its connection. -/
  | redis (isReady : Bool)
  deriving DecidableEq, Repr

/-- `ChallengeResponse`, which is not resolved. -/
structure ChallengeResponse where
  reportId : ℤ
  challengerAddress : String
  reason : String
  counterEvidenceHash : String
  /-- In milliseconds, where the source has an ISO date. -/
  createdAt : ℕ
  deriving DecidableEq, Repr

/-- What a request returns. -/
inductive Answer where
  | prepared (transaction : PreparedTransaction)
  | challenged (response : ChallengeResponse)
  | nothing
  deriving DecidableEq, Repr

/-- A function of the service. -/
abbrev M (α : Type) : Type := Async Memory Command Reply Failure α

def redisIncr (address : String) : M ℕ := Async.call (Command.incr address)

def redisExpire (address : String) (seconds : ℕ) : M Unit :=
  Async.call (Command.expire address seconds)

def nextNonce (address : String) : M ℕ := Async.call (Command.next address)

def prepareTransaction (sourceAddress : String) (args : List ScVal) (nonce : ℕ) :
    M PreparedTransaction :=
  Async.call (Command.prepareTransaction sourceAddress args nonce)

def submitSignedTransaction (signedTxXdr expectedSourceAddress : String) : M Unit :=
  Async.call (Command.submitSignedTransaction signedTxXdr expectedSourceAddress)

/-- Count an attempt in Redis. The window begins with the first attempt, and a counter that does not
get its deadline has no end. -/
def countInRedis (challengerAddress : String) : M ℕ := do
  let attempts ← redisIncr challengerAddress
  if attempts = 1 then redisExpire challengerAddress challengeWindowSeconds
  return attempts

/-- What is thrown beyond the limit. -/
def limitExceeded : Failure :=
  .http 429 "Challenge limit exceeded: maximum 3 challenges per wallet per 24 hours"

/-- The number of an attempt. The client is asked before the counter is chosen: a request counts in
one place only. -/
def countAttempt (challengerAddress : String) : M ℕ := do
  let isReady ← Async.modifyGet fun _ memory => (memory, memory.isReady)
  if isReady then countInRedis challengerAddress
  else Async.modifyGet fun now memory => memory.countAttempt now challengerAddress

/-- `enforceChallengeRateLimit`. The attempt counts also when it is refused. -/
def enforceChallengeRateLimit (challengerAddress : String) : M Unit := do
  let attempts ← countAttempt challengerAddress
  if challengeLimit < attempts then throw limitExceeded

variable (sdk : Sdk)

/-- The failure that an error of JavaScript or the SDK is. An address or a hash of the wrong form is
the client's fault. -/
def Sdk.failure : JsError → Failure
  | .invalidProjectId input decodedLength =>
    .badRequest (invalidProjectIdMessage input decodedLength)
  | e => .error (sdk.message e)

/-- The arguments of `challenge_report`. -/
def challengeArgs (reportId : ℤ) (counterEvidenceHash : String) (challenger : ScVal) :
    Except JsError (List ScVal) := do
  let report ← BondsService.u64ScVal reportId
  let evidence ← toBytes32 counterEvidenceHash
  return [challenger, report, evidence]

/-- The `try` block of `prepareChallenge`. It is this block whose errors are mapped; the counter and
the nonce are outside of it. -/
def prepare (reportId : ℤ) (counterEvidenceHash challengerAddress : String) (challenger : ScVal)
    (nonce : ℕ) : M Answer :=
  match challengeArgs reportId counterEvidenceHash challenger with
  | .error e => throw (sdk.failure e)
  | .ok args => do return .prepared (← prepareTransaction challengerAddress args nonce)

/-- The error of both requests for a hash that is no CIDv0. -/
def badEvidenceHash : Failure :=
  .badRequest "counterEvidenceHash must be a valid 46-character CIDv0 beginning with Qm"

/-- `prepareChallenge`. The order is the source's: hash, address, limit, nonce, transaction. Only
the first two cost nothing. -/
def prepareChallenge (reportId : ℤ) (dto : PrepareChallengeDto) (challengerAddress : String) :
    M Answer :=
  if isCidV0 dto.counterEvidenceHash.toList then
    match sdk.address challengerAddress with
    | none => throw (.badRequest "A valid challenger wallet address is required")
    | some challenger => do
      -- From here on the attempt is counted.
      enforceChallengeRateLimit challengerAddress
      -- A nonce is drawn for the contract, and not given back here.
      let nonce ← nextNonce challengerAddress
      tryCatch (prepare sdk reportId dto.counterEvidenceHash challengerAddress challenger nonce)
        fun e => throw (mapChallengeError reportId e)
  else throw badEvidenceHash

/-- `challengeReport`. What was prepared is not remembered: the signed transaction is checked by
`ContractService`, and no limit is enforced. -/
def challengeReport (reportId : ℤ) (dto : ChallengeDto) (challengerAddress : String) : M Answer :=
  if isCidV0 dto.counterEvidenceHash.toList then do
    tryCatch (submitSignedTransaction dto.signedTxXdr challengerAddress)
      fun e => throw (mapChallengeError reportId e)
    let createdAt ← Async.now
    return .challenged
      ⟨reportId, challengerAddress, dto.reason, dto.counterEvidenceHash, createdAt⟩
  else throw badEvidenceHash

/-- The function of a request. -/
def program : Request → M Answer
  | .prepareChallenge reportId dto challengerAddress =>
    prepareChallenge sdk reportId dto challengerAddress
  | .challengeReport reportId dto challengerAddress =>
    challengeReport reportId dto challengerAddress
  | .redis isReady => do
    Async.modifyGet fun _ memory => ({ memory with isReady }, ())
    return .nothing

/-- The service. -/
def service : Async.Service Store Request Memory Command Reply Failure Answer Input :=
  ⟨program sdk, handle⟩

/-- The states of the service. -/
abbrev State : Type := Async.State Store Request Memory Command Reply Failure Answer

/-- The steps of the service. -/
abbrev Event : Type := Call State (Async.Op Request Input) Unit

/-- Nothing has been asked yet, and nothing counted; the client of Redis may be ready or not. -/
def Init (s : State) : Prop :=
  s = ⟨fun _ => none, { isReady := s.memory.isReady, localChallengeAttempts := fun _ => none }, []⟩

end OracleService
end NbsBond
