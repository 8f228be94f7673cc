import NbsBond.Framework.Result
import NbsBond.Shared.Types

/-!
# Sending a transaction

`sendTransaction` and `pollTransactionConfirmation` of `api/src/stellar/contract.service.ts`, with
the mirrored nonces of `api/src/common/services/nonce.service.ts` for every pair of contract and
address. No other operation runs at the same time and Redis answers. What a transaction comes to is
an argument: it is included and succeeds, or something fails on the way.

The nonce of a call is that of the address in its arguments. The one that a failed confirmation
gives back is that of the address whose key signed the transaction.
-/

namespace NbsBond
namespace ContractService

/-- A contract and an address. -/
abbrev Pair : Type := Address × Address

/-- The mirrored nonces, and those the contracts expect. The mirror may be missing or below zero;
what the contract expects is neither. -/
structure Nonces where
  nonce : Pair → Option ℤ
  onChainNonce : Pair → ℕ

namespace Nonces

/-- `sync`; `readable` says whether the chain can be read. It overwrites the mirror, whatever was
there. -/
def sync (w : Nonces) (p : Pair) (readable : Bool) : Nonces :=
  if readable then { w with nonce := Function.update w.nonce p (some (w.onChainNonce p)) } else w

/-- `next`: a missing key is seeded from the chain, and `INCR`. The nonce it hands out is the one
before the increment. -/
def next (w : Nonces) (p : Pair) : Nonces :=
  { w with nonce := Function.update w.nonce p (some ((w.nonce p).getD (w.onChainNonce p) + 1)) }

/-- `rollback`: `DECR`, which takes a missing key for 0. -/
def rollback (w : Nonces) (p : Pair) : Nonces :=
  { w with nonce := Function.update w.nonce p (some ((w.nonce p).getD 0 - 1)) }

/-- The contract accepts a nonce. Only this moves the nonce of the chain. -/
def accept (w : Nonces) (p : Pair) : Nonces :=
  { w with onChainNonce := Function.update w.onChainNonce p (w.onChainNonce p + 1) }

/-- The mirror of `p` is what the contract expects. -/
def InStep (w : Nonces) (p : Pair) : Prop := w.nonce p = some (w.onChainNonce p : ℤ)

/-- The mirror of every pair other than `p` is the same. A result about one pair says with this that
no other was touched. -/
def SameElsewhere (w w' : Nonces) (p : Pair) : Prop := ∀ q, q ≠ p → w'.nonce q = w.nonce q

theorem next_nonce (w : Nonces) (p : Pair) : (w.next p).nonce =
    Function.update w.nonce p (some ((w.nonce p).getD (w.onChainNonce p) + 1)) := rfl

theorem rollback_nonce (w : Nonces) (p : Pair) : (w.rollback p).nonce =
    Function.update w.nonce p (some ((w.nonce p).getD 0 - 1)) := rfl

theorem sync_nonce (w : Nonces) (p : Pair) :
    (w.sync p true).nonce = Function.update w.nonce p (some (w.onChainNonce p : ℤ)) := rfl

/-- After `next` the mirror is one ahead. The mirror is ahead until the contract accepts the nonce,
or it is given back. -/
theorem InStep.next {w : Nonces} {p : Pair} (h : w.InStep p) :
    (w.next p).nonce = Function.update w.nonce p (some (w.onChainNonce p + 1 : ℤ)) := by
  rw [next_nonce, h]
  rfl

/-- A rollback for the same pair takes `next` back … -/
-- Both sides are functions of the pair, and differ nowhere.
theorem InStep.next_rollback {w : Nonces} {p : Pair} (h : w.InStep p) :
    (w.next p).rollback p = w := by
  have hnonce : ((w.next p).rollback p).nonce = w.nonce := by
    rw [rollback_nonce, h.next, Function.update_self, Function.update_idem, Option.getD_some,
      add_sub_cancel_right, ← h, Function.update_eq_self]
  exact congrArg (fun nonce => Nonces.mk nonce w.onChainNonce) hnonce

/-- … and one for another pair leaves that one behind. -/
theorem InStep.rollback_ne {w : Nonces} {p q : Pair} (hq : w.InStep q) (hne : q ≠ p) :
    ((w.next p).rollback q).nonce q ≠ w.nonce q := by
  -- A key that was not incremented goes one below.
  rw [rollback_nonce, next_nonce, Function.update_self, Function.update_of_ne hne, hq,
    Option.getD_some, Ne, Option.some.injEq]
  omega

end Nonces

/-- Where a call of `sendTransaction` can fail. In the order in which they are reached. Only the
last two are reached by polling, and only there is the mirror rolled back. -/
inductive Stage where
  /-- `getAccount` of the signing key throws. -/
  | accountLookup
  /-- `simulateTransaction` answers an error. -/
  | simulation
  /-- `prepareTransaction` throws. -/
  | prepare
  /-- `sendTransaction` answers status `ERROR`. -/
  | sendError
  /-- `getTransaction` answers status `FAILED`. -/
  | failed
  /-- The transaction is not included before the deadline. -/
  | timeout
  deriving DecidableEq, Repr

/-- What becomes of a transaction. -/
inductive Fate where
  | included
  | fails (stage : Stage)
  deriving DecidableEq, Repr

/-- The transaction was sent, and its confirmation waited for. Before that nothing is rolled back by
`sendTransaction`. -/
def Stage.Polled (stage : Stage) : Prop := stage = .failed ∨ stage = .timeout

instance (stage : Stage) : Decidable stage.Polled := inferInstanceAs (Decidable (_ ∨ _))

/-- `pollTransactionConfirmation`: for the pair of the contract and the signing address, when the
transaction is not confirmed. The pair is that of the signer, which need not be the one whose nonce
was used. -/
def pollTransactionConfirmation (w : Nonces) (contractAddress address : Address) :
    Fate → Nonces × Except Stage Unit
  | .included => (w, .ok ())
  | .fails stage => (w.rollback (contractAddress, address), .error stage)

/-- `sendTransaction`, of a call with a nonce of `caller` that the key of `signer` signs. The nonce
belongs to `caller`, an argument of the call, and the contract checks it against that one. -/
def sendTransaction (w : Nonces) (contractAddress signer caller : Address) (fate : Fate) :
    Nonces × Except Stage Unit :=
  match fate with
  | .included =>
    pollTransactionConfirmation (w.accept (contractAddress, caller)) contractAddress signer
      .included
  | .fails .accountLookup => (w, .error .accountLookup)
  | .fails .simulation => (w, .error .simulation)
  | .fails .prepare => (w, .error .prepare)
  | .fails .sendError => (w, .error .sendError)
  | .fails .failed => pollTransactionConfirmation w contractAddress signer (.fails .failed)
  | .fails .timeout => pollTransactionConfirmation w contractAddress signer (.fails .timeout)

/-- A call that fails throws, and only a failed confirmation touches the mirrors. -/
theorem sendTransaction_fails (w : Nonces) (contractAddress signer caller : Address)
    (stage : Stage) : sendTransaction w contractAddress signer caller (.fails stage) =
      (if stage.Polled then w.rollback (contractAddress, signer) else w, .error stage) := by
  cases stage <;> rfl

end ContractService
end NbsBond
