import Mathlib
import NbsBond.Framework.Run

/-!
# The life of a transaction

`prepareTransaction`, `sendTransaction`, `submitSignedTransaction`, `pollTransactionConfirmation`
and `onModuleDestroy` of `api/src/stellar/contract.service.ts`. Any number of invocations run side
by side. Each waits for one reply at a time, of Horizon, of the Soroban RPC server, of Redis or of a
timer, and runs on without interruption when it comes. What an invocation does after a reply is
`Invocation.resume`; an invocation and the promise it may put into `inFlightTransactions` have the
same number.

What is thrown before the first `await`, because a key, an address or an argument cannot be encoded,
comes with the request, and so does the decoded envelope. The arguments themselves do not matter
here and are left out, as is the value that a confirmed call returns.
-/

namespace NbsBond
namespace ContractService
namespace Lifecycle

open Soroban

def pollInitialIntervalMs : ℕ := 1000

def pollMaxIntervalMs : ℕ := 5000

/-- An `HttpException`; a `BadRequestException` has status 400. -/
structure HttpError where
  status : ℕ
  message : String
  deriving DecidableEq, Repr

def badRequest (message : String) : HttpError := ⟨400, message⟩

/-- What is thrown: an `HttpException`, or another error with its message. The two are told apart by
`instanceof` in every `catch`. -/
inductive Thrown where
  | http (e : HttpError)
  | other (message : String)
  deriving DecidableEq, Repr

/-- The `catch` of the three methods. An exception of NestJS is thrown on as it is; anything else
becomes a bad request that says what was tried. -/
def Thrown.rethrow (context : String) : Thrown → HttpError
  | .http e => e
  | .other message => badRequest (context ++ message)

/-- The host function of an operation; other kinds than an invocation are not told apart. -/
inductive HostFunction where
  | invokeContract (contractAddress functionName : String)
  | other
  deriving DecidableEq, Repr

/-- What an operation does; other kinds than a host function are not told apart. -/
inductive OperationBody where
  | invokeHostFunction (func : HostFunction)
  | other
  deriving DecidableEq, Repr

/-- An operation may name a source account of its own, which then takes the place of the
transaction's. -/
structure Operation where
  source : Option String := none
  body : OperationBody
  deriving DecidableEq, Repr

/-- A transaction, as far as it is looked at. -/
structure Transaction where
  source : String
  operations : List Operation
  deriving DecidableEq, Repr

/-- What `TransactionBuilder.fromXDR` makes of an envelope. A fee-bump envelope parses, to something
that is not a `Transaction`. -/
inductive Envelope where
  | malformed (message : String)
  | feeBump
  | transaction (tx : Transaction)
  deriving DecidableEq, Repr

/-- `decodeSignedTransaction`. Whatever source account the operation names is not looked at. The
checks are on the form of the transaction: that it has a valid signature is for the network to
say. -/
def decodeSignedTransaction (signedXdr : Envelope)
    (contractAddress method expectedSourceAddress : String) : Except HttpError Transaction :=
  match signedXdr with
  | .malformed message => .error (badRequest ("Malformed signed transaction XDR: " ++ message))
  | .feeBump =>
    .error (badRequest "Fee-bump transactions are not supported for this operation")
  -- The signature is the wallet's, so the transaction has to be of its account.
  | .transaction tx =>
    if tx.source ≠ expectedSourceAddress then
      .error (badRequest
        "Signed transaction source account does not match the expected signer address")
    else
      match tx.operations with
      | [operation] =>
        match operation.body with
        | .invokeHostFunction (.invokeContract calledContract calledMethod) =>
          if calledContract ≠ contractAddress then
            .error (badRequest "Signed transaction targets an unexpected contract address")
          else if calledMethod ≠ method then
            .error (badRequest "Signed transaction targets an unexpected contract method")
          else .ok tx
        | .invokeHostFunction .other =>
          .error (badRequest "Signed transaction must invoke a contract function")
        | .other => .error (badRequest "Signed transaction must be a contract invocation")
      | _ => .error (badRequest "Signed transaction must contain exactly one operation")

/-- The methods that are invoked from outside. `Except` stands where a key or an address is parsed
before anything is awaited. -/
inductive Request where
  | prepareTransaction (contractAddress method : String) (sourceAddress : Except Thrown String)
      (nonce : ℕ)
  /-- A key is the address it belongs to. -/
  | sendTransaction (contractAddress method : String)
      (sourceSecretKey : Option (Except Thrown String))
  | submitSignedTransaction (signedXdr : Envelope)
      (contractAddress method expectedSourceAddress : String)

/-- What a transaction in confirmation is known by. `interval` is the time it waits next, `deadline`
the end of all waiting. -/
structure Poll where
  hash : String
  contractAddress : String
  address : String
  method : String
  deadline : ℕ
  interval : ℕ
  deriving DecidableEq, Repr

/-- What an invocation returns: the nonce of a prepared transaction, or the hash of a confirmed
one. -/
inductive Answer where
  | prepared (nonce : ℕ)
  | confirmed (transactionHash : String)
  deriving DecidableEq, Repr

/-- What an invocation waits for. The simulation and the preparation are two calls of the server,
and each builds on the last. -/
inductive Stage where
  | getAccount (publicKey : String)
  | simulateTransaction (tx : Transaction)
  | prepareTransaction (tx : Transaction)
  | sendTransaction (tx : Transaction)
  /-- A timer that goes off at `wake`. -/
  | setTimeout (poll : Poll) (wake : ℕ)
  | getTransaction (poll : Poll)
  /-- The rollback of the nonce, before `error` is thrown. -/
  | rollback (poll : Poll) (error : HttpError)
  | settled (r : Except HttpError Answer)

/-- An invocation is its request and where it stands; nothing else is remembered. -/
structure Invocation where
  request : Request
  stage : Stage

/-- A call of `onModuleDestroy`: the promises it waits for. Invocations that are confirmed later are
not waited for. -/
structure Destroy where
  waitsFor : Finset ℕ
  returned : Bool
  deriving DecidableEq

/-- The service. An invocation is known by its position. -/
structure World where
  shuttingDown : Bool := false
  inFlightTransactions : Finset ℕ := ∅
  invocations : List Invocation := []
  destroys : List Destroy := []

/-- The status that `getTransaction` answers. -/
inductive TxStatus where
  | success
  | failed
  | notFound
  deriving DecidableEq, Repr

/-- What an awaited promise comes to. Which of these an invocation can get depends on what it
awaits; `resume` refuses the others. -/
inductive Reply where
  /-- The promise is fulfilled. -/
  | done
  | throws (e : Thrown)
  /-- A simulation error, as `describeSimulationError` words it. -/
  | simulationError (description : String)
  | sent (hash : String)
  /-- `sendTransaction` answers status `ERROR`. -/
  | sendError
  | timeout
  | status (s : TxStatus)
  deriving DecidableEq, Repr

namespace Request

def contractAddress : Request → String
  | .prepareTransaction contractAddress _ _ _ => contractAddress
  | .sendTransaction contractAddress _ _ => contractAddress
  | .submitSignedTransaction _ contractAddress _ _ => contractAddress

def method : Request → String
  | .prepareTransaction _ method _ _ => method
  | .sendTransaction _ method _ => method
  | .submitSignedTransaction _ _ method _ => method

/-- What the `catch` of the method puts before the message of an error that is no
`HttpException`. -/
def context : Request → String
  | .prepareTransaction .. => "Failed to prepare contract transaction: "
  | .sendTransaction .. => "Failed to submit contract transaction: "
  | .submitSignedTransaction .. => "Failed to submit signed contract transaction: "

/-- The transaction that is built for an account. One operation, of the account itself, which is
what `decodeSignedTransaction` asks of a transaction from outside. -/
def build (q : Request) (publicKey : String) : Transaction :=
  ⟨publicKey, [{ body := .invokeHostFunction (.invokeContract q.contractAddress q.method) }]⟩

/-- The address whose nonce is given back when the confirmation of `tx` fails. For a signed
transaction it is the address the request expects, which the source of the transaction was checked
against. -/
def address (q : Request) (tx : Transaction) : String :=
  match q with
  | .submitSignedTransaction _ _ _ expectedSourceAddress => expectedSourceAddress
  | _ => tx.source

/-- Load the account of the address, unless something is thrown. -/
def load (q : Request) : Except Thrown String → Stage
  | .ok publicKey => .getAccount publicKey
  | .error e => .settled (.error (e.rethrow q.context))

/-- A request runs up to its first `await`. A refusal on shutdown comes before anything is parsed,
but not before a missing key. -/
def start (shuttingDown : Bool) : Request → Stage
  | .prepareTransaction contractAddress method sourceAddress nonce =>
    if shuttingDown then
      .settled (.error ⟨503, "Service is shutting down — transaction preparation refused"⟩)
    else load (.prepareTransaction contractAddress method sourceAddress nonce) sourceAddress
  | .sendTransaction _ _ none =>
    .settled (.error (badRequest "sourceSecretKey is required for state-changing transactions"))
  | .sendTransaction contractAddress method (some key) =>
    if shuttingDown then
      .settled (.error ⟨503, "Service is shutting down — transaction submission refused"⟩)
    else load (.sendTransaction contractAddress method (some key)) key
  | .submitSignedTransaction signedXdr contractAddress method expectedSourceAddress =>
    if shuttingDown then
      .settled (.error ⟨503, "Service is shutting down — transaction submission refused"⟩)
    else
      match decodeSignedTransaction signedXdr contractAddress method expectedSourceAddress with
      | .ok tx => .sendTransaction tx
      | .error e => .settled (.error e)

/-- What is thrown when `sendTransaction` answers `ERROR`: `decodeContractError`. The answer itself
is only logged. -/
def contractError (q : Request) : HttpError :=
  badRequest ("Contract error on " ++ q.contractAddress ++ "." ++ q.method)

end Request

namespace Poll

variable (txConfirmTimeoutMs : ℕ)

/-- The error of a transaction that failed on chain. -/
def failed (poll : Poll) : HttpError :=
  badRequest ("Contract error on " ++ poll.contractAddress ++ "." ++ poll.method ++
    " (transaction " ++ poll.hash ++ " failed on-chain)")

/-- The error of a transaction that was not confirmed in time. -/
def timedOut (poll : Poll) : HttpError :=
  ⟨504, "Transaction confirmation timed out after " ++ toString txConfirmTimeoutMs ++ "ms (tx " ++
    poll.hash ++ ")"⟩

/-- The head of the loop: another round, or the rollback after the deadline. The deadline is tested
between rounds only: a reply that comes late still counts. -/
def loop (now : ℕ) (poll : Poll) : Stage :=
  if now < poll.deadline then .setTimeout poll (now + poll.interval)
  else .rollback poll (poll.timedOut txConfirmTimeoutMs)

/-- Wait twice as long in the next round. Five seconds at most. -/
def backOff (poll : Poll) : Poll :=
  { poll with interval := min (poll.interval * 2) pollMaxIntervalMs }

end Poll

/-- What an invocation does when the reply it waits for comes. What does not fit the stage is no
reply to this invocation. -/
def Invocation.resume (txConfirmTimeoutMs now : ℕ) (inv : Invocation) : Reply → Option Stage
  | .done =>
    match inv.stage with
    | .getAccount publicKey => some (.simulateTransaction (inv.request.build publicKey))
    | .simulateTransaction tx => some (.prepareTransaction tx)
    | .prepareTransaction tx =>
      -- Preparing ends here: the transaction is signed elsewhere.
      match inv.request with
      | .prepareTransaction _ _ _ nonce => some (.settled (.ok (.prepared nonce)))
      | _ => some (.sendTransaction tx)
    | .rollback _ error => some (.settled (.error error))
    | _ => none
  | .throws e =>
    match inv.stage with
    | .getAccount _ | .simulateTransaction _ | .prepareTransaction _ | .sendTransaction _ =>
      some (.settled (.error (e.rethrow inv.request.context)))
    -- both are caught, and only logged
    | .getTransaction poll => some (poll.backOff.loop txConfirmTimeoutMs now)
    | .rollback _ error => some (.settled (.error error))
    | _ => none
  | .simulationError description =>
    match inv.stage with
    | .simulateTransaction _ =>
      some (.settled (.error (badRequest ("Transaction simulation failed: " ++ description))))
    | _ => none
  | .sendError =>
    match inv.stage with
    | .sendTransaction _ => some (.settled (.error inv.request.contractError))
    | _ => none
  | .sent hash =>
    match inv.stage with
    | .sendTransaction tx =>
      -- The hash is known, so from now on the nonce can be given back.
      some (Poll.loop txConfirmTimeoutMs now
        ⟨hash, inv.request.contractAddress, inv.request.address tx, inv.request.method,
          now + txConfirmTimeoutMs, pollInitialIntervalMs⟩)
    | _ => none
  | .timeout =>
    match inv.stage with
    -- A timer may go off late, but not early.
    | .setTimeout poll wake => if wake ≤ now then some (.getTransaction poll) else none
    | _ => none
  | .status s =>
    match inv.stage with
    | .getTransaction poll =>
      match s with
      | .success => some (.settled (.ok (.confirmed poll.hash)))
      -- The nonce is given back before the error is thrown.
      | .failed => some (.rollback poll poll.failed)
      -- The server may not have seen the transaction yet.
      | .notFound => some (poll.backOff.loop txConfirmTimeoutMs now)
    | _ => none

/-- The invocation has settled. -/
def Stage.isSettled : Stage → Bool
  | .settled _ => true
  | _ => false

/-- The promise of a confirmation is pending. -/
def Stage.isPolling : Stage → Bool
  | .setTimeout _ _ | .getTransaction _ | .rollback _ _ => true
  | _ => false

namespace World

variable (txConfirmTimeoutMs : ℕ)

/-- The confirmation of an invocation is tracked from its first stage to its last. Before the hash
is known there is nothing to wait for. -/
def track (inFlightTransactions : Finset ℕ) (i : ℕ) (stage : Stage) : Finset ℕ :=
  if stage.isPolling then insert i inFlightTransactions else inFlightTransactions.erase i

/-- Start a request. Invocations are numbered in the order in which they begin. -/
def start (w : World) (q : Request) : World :=
  { w with invocations := w.invocations ++ [⟨q, q.start w.shuttingDown⟩] }

/-- A reply to the `i`-th invocation. The promise is removed by the reply that settles it. -/
def resume (w : World) (now i : ℕ) (r : Reply) : Option World := do
  let inv ← w.invocations[i]?
  let stage ← inv.resume txConfirmTimeoutMs now r
  return { w with
    invocations := w.invocations.set i { inv with stage }
    inFlightTransactions := track w.inFlightTransactions i stage }

/-- `onModuleDestroy` up to `Promise.allSettled`. The set of promises is the one of this moment. -/
def onModuleDestroy (w : World) : World :=
  { w with shuttingDown := true, destroys := w.destroys ++ [⟨w.inFlightTransactions, false⟩] }

/-- The invocation `i` has settled. -/
def isSettled (w : World) (i : ℕ) : Bool := w.invocations[i]?.any fun inv => inv.stage.isSettled

/-- The rest of `onModuleDestroy`, when all it waits for has settled. How the promises have settled
does not matter. -/
def destroyed (w : World) (j : ℕ) : Option World := do
  let destroy ← w.destroys[j]?
  if ∀ i ∈ destroy.waitsFor, w.isSettled i = true then
    return { w with destroys := w.destroys.set j { destroy with returned := true } }
  else none

end World

/-- What can happen to the service. -/
inductive Op where
  | request (q : Request)
  | reply (i : ℕ) (r : Reply)
  | onModuleDestroy
  /-- The `j`-th `onModuleDestroy` returns. -/
  | destroyed (j : ℕ)

/-- The effect of a step; `none` if it cannot take place. -/
def step (txConfirmTimeoutMs now : ℕ) (w : World) : Op → Option World
  | .request q => some (w.start q)
  | .reply i r => w.resume txConfirmTimeoutMs now i r
  | .onModuleDestroy => some w.onModuleDestroy
  | .destroyed j => w.destroyed j

/-- Requests, replies and shutdowns, in any order. -/
def machine (txConfirmTimeoutMs : ℕ) : Machine World Op Unit Unit :=
  ⟨fun now w op => orTrap ((step txConfirmTimeoutMs now w op).map fun w' => (w', ()))⟩

/-- A new service. -/
def Init (w : World) : Prop := w = {}

end Lifecycle
end ContractService
end NbsBond
