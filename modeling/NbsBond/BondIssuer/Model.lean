import NbsBond.Framework.Run
import NbsBond.Shared.Types

/-!
# The BondIssuer contract

`contracts/bond-issuer/src/lib.rs`: issuance, subscription, transfer, maturity and redemption of
bond tokens. Storage is one function per `DataKey`; a key read with `unwrap_or` everywhere is a
total function of its default.
-/

namespace NbsBond
namespace BondIssuer

open Soroban Int128

/-- What changes in the life of a bond; its configuration never does. -/
structure BondState where
  totalSubscribed : ℤ
  status : BondStatus
  createdAt : ℕ
  deriving DecidableEq, Repr

/-- The contract's storage. `holderList` names everybody who ever held tokens of a bond, and
`holderCount` is the length stored beside it. -/
structure State where
  admin : Option Address
  bondConfig : BondId → Option BondConfig
  bondState : BondId → Option BondState
  holderBalance : BondId × Address → ℤ
  holderList : BondId → List Address
  holderCount : BondId → Option ℕ
  bondCount : ℕ
  bondList : List BondId
  nonce : Address → ℕ

/-- `__constructor`. -/
def construct (admin : Address) : State where
  admin := some admin
  bondConfig _ := none
  bondState _ := none
  holderBalance _ := 0
  holderList _ := []
  holderCount _ := none
  bondCount := 0
  bondList := []
  nonce _ := 0

/-- `append_holder`. -/
def appendHolder (s : State) (bondId : BondId) (holder : Address) : State :=
  let list := s.holderList bondId ++ [holder]
  { s with
    holderList := Function.update s.holderList bondId list
    holderCount := Function.update s.holderCount bondId (some list.length) }

/-- Record `holder` when a balance grows from zero. A holder who had sold everything is recorded
again when tokens come back. -/
def appendIfNew (s : State) (bondId : BondId) (balance : ℤ) (holder : Address) : State :=
  if balance = 0 then appendHolder s bondId holder else s

/-- `issue_bond`. Supply, maturity and coupon dates are checked once, here; three of the checks
share the error of a zero amount. -/
def issueBond (now : ℕ) (s : State) (caller : Address) (config : BondConfig) (nonce : ℕ) :
    Result BondError (State × BondId) := do
  let nonces ← useNonce s.nonce caller nonce .invalidNonce
  requireAdmin s.admin caller .notInitialized .unauthorized
  ensure (0 < config.faceValue) .zeroAmount
  ensure (0 < config.totalSupply) .zeroAmount
  ensure (now < config.maturityDate) .maturityDateInPast
  ensure (config.couponSchedule ≠ []) .zeroAmount
  -- Dates need not be in the future, nor in order.
  ensure (∀ date ∈ config.couponSchedule, date < config.maturityDate) .zeroAmount
  let bondId := s.bondCount + 1
  return ({ s with
    nonce := nonces
    bondCount := bondId
    bondConfig := Function.update s.bondConfig bondId (some config)
    bondState := Function.update s.bondState bondId (some ⟨0, .active, now⟩)
    -- A new id has no holders: the two writes state what was there before.
    holderList := Function.update s.holderList bondId []
    holderCount := Function.update s.holderCount bondId (some 0)
    bondList := s.bondList ++ [bondId] }, bondId)

/-- `subscribe`. Tokens are created up to the total supply, until the maturity date has come or the
bond was matured by a call. -/
def subscribe (now : ℕ) (s : State) (investor : Address) (bondId : BondId) (amount : ℤ)
    (nonce : ℕ) : Result BondError State := do
  let nonces ← useNonce s.nonce investor nonce .invalidNonce
  ensure (0 < amount) .zeroAmount
  let config ← orError (s.bondConfig bondId) .bondNotFound
  let state ← orError (s.bondState bondId) .bondNotFound
  -- The status changes by `mature_bond` only, so the date is asked for as well.
  ensure (state.status = .active) .bondAlreadyMatured
  ensure (now < config.maturityDate) .bondAlreadyMatured
  let newTotal ← orError (checkedAdd state.totalSubscribed amount) .overflow
  ensure (newTotal ≤ config.totalSupply) .insufficientSupply
  let currentBalance := s.holderBalance (bondId, investor)
  let newBalance ← orError (checkedAdd currentBalance amount) .overflow
  let s := { s with
    nonce := nonces
    holderBalance := Function.update s.holderBalance (bondId, investor) newBalance }
  let s := appendIfNew s bondId currentBalance investor
  return { s with
    bondState :=
      Function.update s.bondState bondId (some { state with totalSubscribed := newTotal }) }

/-- `transfer`. The total subscribed does not change: tokens only change hands. -/
def transfer (now : ℕ) (s : State) (sender recipient : Address) (bondId : BondId) (amount : ℤ)
    (nonce : ℕ) : Result BondError State := do
  let nonces ← useNonce s.nonce sender nonce .invalidNonce
  -- A transfer to oneself is refused, which is why the two balances below are of two addresses.
  ensure (recipient ≠ sender) .unauthorized
  ensure (0 < amount) .zeroAmount
  let config ← orError (s.bondConfig bondId) .bondNotFound
  let state ← orError (s.bondState bondId) .bondNotFound
  ensure (state.status = .active) .bondAlreadyMatured
  ensure (now < config.maturityDate) .bondAlreadyMatured
  let fromBalance := s.holderBalance (bondId, sender)
  ensure (amount ≤ fromBalance) .insufficientBalance
  let newFromBalance ← orError (checkedSub fromBalance amount) .overflow
  let balances := Function.update s.holderBalance (bondId, sender) newFromBalance
  -- Read after the sender's balance was written, as the source does.
  let toBalance := balances (bondId, recipient)
  let newToBalance ← orError (checkedAdd toBalance amount) .overflow
  let s := { s with
    nonce := nonces
    holderBalance := Function.update balances (bondId, recipient) newToBalance }
  return appendIfNew s bondId toBalance recipient

/-- `redeem`. Redeemed tokens are gone: balance and total shrink by the same amount. The holder
stays in the list. -/
def redeem (s : State) (holder : Address) (bondId : BondId) (amount : ℤ) (nonce : ℕ) :
    Result BondError State := do
  let nonces ← useNonce s.nonce holder nonce .invalidNonce
  ensure (0 < amount) .zeroAmount
  -- Only that the bond exists is asked for.
  let _ ← orError (s.bondConfig bondId) .bondNotFound
  let state ← orError (s.bondState bondId) .bondNotFound
  -- The error says the contrary of what is wrong, a bond that has not matured.
  ensure (state.status = .matured) .bondAlreadyMatured
  let currentBalance := s.holderBalance (bondId, holder)
  ensure (amount ≤ currentBalance) .insufficientBalance
  let newBalance ← orError (checkedSub currentBalance amount) .overflow
  let newTotal ← orError (checkedSub state.totalSubscribed amount) .overflow
  return { s with
    nonce := nonces
    holderBalance := Function.update s.holderBalance (bondId, holder) newBalance
    bondState :=
      Function.update s.bondState bondId (some { state with totalSubscribed := newTotal }) }

/-- `mature_bond`. The admin matures a bond, once its date has come; nothing leads back. -/
def matureBond (now : ℕ) (s : State) (caller : Address) (bondId : BondId) (nonce : ℕ) :
    Result BondError State := do
  let nonces ← useNonce s.nonce caller nonce .invalidNonce
  requireAdmin s.admin caller .notInitialized .unauthorized
  let config ← orError (s.bondConfig bondId) .bondNotFound
  let state ← orError (s.bondState bondId) .bondNotFound
  ensure (state.status = .active) .bondAlreadyMatured
  ensure (config.maturityDate ≤ now) .notYetMature
  return { s with
    nonce := nonces
    bondState := Function.update s.bondState bondId (some { state with status := .matured }) }

/-! ### Queries -/

/-- `get_bond`. -/
def getBond (s : State) (bondId : BondId) : Result BondError BondConfig :=
  orError (s.bondConfig bondId) .bondNotFound

/-- `total_subscribed`. The configuration is read for its existence alone. -/
def totalSubscribed (s : State) (bondId : BondId) : Result BondError ℤ := do
  let _ ← orError (s.bondConfig bondId) .bondNotFound
  let state ← orError (s.bondState bondId) .bondNotFound
  return state.totalSubscribed

/-- `get_holder_balance`. -/
def getHolderBalance (s : State) (bondId : BondId) (holder : Address) : ℤ :=
  s.holderBalance (bondId, holder)

/-- `get_holder_count`, which is `holder_count_from_persistent`. A bond issued before the count was
stored has the length of its list. -/
def getHolderCount (s : State) (bondId : BondId) : ℕ :=
  match s.holderCount bondId with
  | some count => count
  | none => (s.holderList bondId).length

/-- `get_holder_list_range`: the entries of the holder list from index `start` on, `count` of them
at most. A page that begins past the end is empty, and a page that runs over the end is cut off. -/
def getHolderListRange (s : State) (bondId : BondId) (start count : ℕ) : List Address :=
  let holderList := s.holderList bondId
  if count = 0 ∨ holderList.length ≤ start then []
  else
    let stop := min (start + count) holderList.length
    (List.range' start (stop - start)).filterMap fun i => holderList[i]?

/-! ### The contract as a machine -/

/-- The state-changing entrypoints. -/
inductive Op where
  | issueBond (caller : Address) (config : BondConfig) (nonce : ℕ)
  | subscribe (investor : Address) (bondId : BondId) (amount : ℤ) (nonce : ℕ)
  | transfer (sender recipient : Address) (bondId : BondId) (amount : ℤ) (nonce : ℕ)
  | redeem (holder : Address) (bondId : BondId) (amount : ℤ) (nonce : ℕ)
  | matureBond (caller : Address) (bondId : BondId) (nonce : ℕ)
  deriving DecidableEq, Repr

/-- The bond an operation names; an issuance names none. -/
def Op.bond? : Op → Option BondId
  | .issueBond .. => none
  | .subscribe _ bondId _ _ => some bondId
  | .transfer _ _ bondId _ _ => some bondId
  | .redeem _ bondId _ _ => some bondId
  | .matureBond _ bondId _ => some bondId

/-- Run one entrypoint. The answer is the id of a newly issued bond. -/
def exec (now : ℕ) (s : State) : Op → Result BondError (State × Option BondId)
  | .issueBond caller config nonce => do
    let (s', bondId) ← issueBond now s caller config nonce
    return (s', some bondId)
  | .subscribe investor bondId amount nonce => do
    return (← subscribe now s investor bondId amount nonce, none)
  | .transfer sender recipient bondId amount nonce => do
    return (← transfer now s sender recipient bondId amount nonce, none)
  | .redeem holder bondId amount nonce => do
    return (← redeem s holder bondId amount nonce, none)
  | .matureBond caller bondId nonce => do
    return (← matureBond now s caller bondId nonce, none)

/-- The BondIssuer contract. -/
def machine : Machine State Op (Option BondId) BondError := ⟨exec⟩

/-- The states `__constructor` can produce. -/
def Init (s : State) : Prop := ∃ admin, s = construct admin

end BondIssuer
end NbsBond
