import NbsBond.Framework.Run

/-!
# The nonce mirror of the API

`api/src/common/services/nonce.service.ts`. Any number of concurrent calls of `next` on one pair of
contract and address share two keys of Redis, the mirrored nonce and the lock of `syncWithLock`, and
read the nonce of the contract over RPC. A call is suspended at an `await`; one step of the model
answers the command it waits for and runs the call up to its next `await`.

A command may fail, and then the code goes where its `catch` sends it; a failed command is taken to
have had no effect. Keys do not expire. Nonces are exact natural numbers: they count the calls an
address has made, far below `Number.MAX_SAFE_INTEGER`.
-/

namespace NbsBond
namespace NonceService

open Soroban

/-- A call of `next`. -/
abbrev Pid : Type := ℕ

/-- The `await` of `sync` a call is suspended at. `sync` tracks the pair, reads the contract's nonce
and writes it, whoever has called it. -/
inductive SyncPoint where
  /-- `trackPair`. -/
  | track
  /-- `getContractData`. -/
  | read
  /-- `SET key onChainNonce EX`. -/
  | write (onChainNonce : ℕ)
  deriving DecidableEq, Repr

/-- The `await` a call of `next` is suspended at, or how it ended. A call begins at `track`; how
often it asks again at `poll` is up to the scheduler. -/
inductive Point where
  /-- `trackPair`. -/
  | track
  /-- `EXISTS key`. -/
  | probe
  /-- `SET lockKey lockToken NX PX`. -/
  | acquire
  /-- Inside `sync`: under the lock, or as the fallback of a failed `INCR`. -/
  | sync (fallback : Bool) (stage : SyncPoint)
  /-- The script that deletes `lockKey` if it holds the token of this call. -/
  | release (syncFailed : Bool)
  /-- `EXISTS key`, in the loop that waits for the lock holder. -/
  | poll
  /-- The script that increments `key`. -/
  | incr
  | returned (nonce : ℕ)
  | thrown
  deriving DecidableEq, Repr

/-- Redis, the chain, and where every call stands. One pair of a contract and an address: different
pairs share nothing but the set of known pairs. -/
structure State where
  /-- The pair is in `nonce:known-pairs`. -/
  knownPair : Bool
  /-- `nonce:<contract>:<address>`. -/
  nonce : Option ℕ
  /-- `nonce_lock:<contract>:<address>`. -/
  lock : Option String
  /-- `DataKey::Nonce(address)` of the contract, if there is an entry. -/
  onChainNonce : Option ℕ
  point : Pid → Point

/-- The nonce the contract expects: `unwrap_or(0)`. -/
def State.expected (s : State) : ℕ := s.onChainNonce.getD 0

/-- Suspend call `pid` at the point `p`. Nothing else happens to the call until it is scheduled
again. -/
def State.goto (s : State) (pid : Pid) (p : Point) : State :=
  { s with point := Function.update s.point pid p }

/-- What the scheduler does next: answer the command call `pid` waits for. The scheduler is the
adversary: any call may be answered next, and any command may fail. -/
structure Op where
  pid : Pid
  /-- The command fails. -/
  failed : Bool
  /-- The deadline of the waiting loop has passed when it is tested next. -/
  late : Bool
  deriving DecidableEq, Repr

/-- Where `sync` goes when it throws: under the lock the lock is released first. As a fallback there
is no lock, and the call throws at once. -/
def syncThrows (fallback : Bool) : Point := if fallback then .thrown else .release true

/-- One step of `sync`. The answer is what `next` returns, if this step ends it. The write does not
ask whether the key has come to be in the meantime. -/
def sync (s : State) (op : Op) (fallback : Bool) : SyncPoint → State × Option ℕ
  | .track =>
    -- A failure to track the pair is logged and forgotten.
    ({ s with knownPair := s.knownPair || !op.failed }.goto op.pid (.sync fallback .read), none)
  | .read =>
    if op.failed then (s.goto op.pid (syncThrows fallback), none)
    else (s.goto op.pid (.sync fallback (.write s.expected)), none)
  | .write onChainNonce =>
    if op.failed then (s.goto op.pid (syncThrows fallback), none)
    -- The fallback returns the nonce it has written, without incrementing it.
    else if fallback then
      ({ s with nonce := some onChainNonce }.goto op.pid (.returned onChainNonce),
        some onChainNonce)
    else ({ s with nonce := some onChainNonce }.goto op.pid (.release false), none)

/-- One step of `next`, with `syncWithLock` and `sync`; `token` is the random lock token of a call.
`none` if the call has already ended. A call that gets the lock and one that does not meet again at
`incr`, which the second reaches when the key is there. -/
def next (token : Pid → String) (s : State) (op : Op) : Option (State × Option ℕ) :=
  match s.point op.pid with
  | .track =>
    some ({ s with knownPair := s.knownPair || !op.failed }.goto op.pid .probe, none)
  | .probe =>
    if op.failed then some (s.goto op.pid .thrown, none)
    -- The key is there: no `sync` is needed, and no lock.
    else if s.nonce.isSome then some (s.goto op.pid .incr, none)
    else some (s.goto op.pid .acquire, none)
  | .acquire =>
    if op.failed then some (s.goto op.pid .thrown, none)
    -- `NX`: the lock is taken only if nobody has it.
    else if s.lock.isNone then
      some ({ s with lock := some (token op.pid) }.goto op.pid (.sync false .track), none)
    else some (s.goto op.pid .poll, none)
  | .sync fallback p => some (sync s op fallback p)
  | .release syncFailed =>
    -- A lock of which another call has become the holder is not released.
    let resume : Point := if syncFailed then .thrown else .incr
    if op.failed then some (s.goto op.pid resume, none)
    else if s.lock = some (token op.pid) then
      some ({ s with lock := none }.goto op.pid resume, none)
    else some (s.goto op.pid resume, none)
  | .poll =>
    if op.failed then some (s.goto op.pid .thrown, none)
    else if s.nonce.isSome then some (s.goto op.pid .incr, none)
    -- The loop gives up after its deadline, and the call throws.
    else if op.late then some (s.goto op.pid .thrown, none)
    else some (s, none)
  | .incr =>
    -- An `INCR` that fails is made good by what the contract says.
    if op.failed then some (s.goto op.pid (.sync true .track), none)
    else
      -- `INCR` takes a missing key for 0
      let incremented := s.nonce.getD 0 + 1
      some ({ s with nonce := some incremented }.goto op.pid (.returned (incremented - 1)),
        some (incremented - 1))
  | .returned _ => none
  | .thrown => none

/-- The concurrent calls of `next`. -/
def machine (token : Pid → String) : Machine State Op (Option ℕ) Unit :=
  ⟨fun _ s op => orTrap (next token s op)⟩

/-- No call has begun and the nonce key is absent. -/
structure Init (s : State) : Prop where
  absent : s.nonce = none
  begins : ∀ pid, s.point pid = .track

/-- A step of a run. -/
abbrev Call : Type := Soroban.Call State Op (Option ℕ)

/-- `Run token h s`: the steps `h`, newest first, lead to `s`. -/
abbrev Run (token : Pid → String) (h : List Call) (s : State) : Prop :=
  Soroban.Run (machine token) Init h s

end NonceService
end NbsBond
