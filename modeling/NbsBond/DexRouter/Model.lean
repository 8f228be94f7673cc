import NbsBond.BondIssuer.Model

/-!
# The DEXRouter contract

`contracts/dex-router/src/lib.rs`: sell orders for bond tokens, their settlement against balances of
quote assets held by the contract, and the sweep of expired orders. The contract asks `BondIssuer`
for balances and nonces and calls its `transfer`; the state of `BondIssuer` is an argument here, and
a result of `execute_purchase`.

`BondIssuer.transfer` requires the seller's authorization, which the transaction of the buyer has to
carry: `execute_purchase` is given the addresses that signed it.
-/

namespace NbsBond
namespace DexRouter

open Soroban Int128

/-- `soroban_sdk::Symbol`. -/
abbrev Symbol : Type := String

inductive OrderStatus where
  | open
  | partiallyFilled
  | filled
  | cancelled
  | expired
  deriving DecidableEq, Repr

/-- A sell order. `amount` is what can still be bought; only a completed order keeps the size of its
last fill. -/
structure Order where
  id : ℕ
  seller : Address
  bondId : BondId
  amount : ℤ
  pricePerToken : ℤ
  quoteAsset : Symbol
  status : OrderStatus
  createdAt : ℕ
  expiresAt : ℕ
  deriving DecidableEq, Repr

/-- The contract's storage; a balance that was never written is 0. Quote balances are kept by asset
and owner, and the tokens for sale stay with the seller until they are bought. -/
structure State where
  admin : Option Address
  order : ℕ → Option Order
  orderCount : ℕ
  sellerOrders : Address → List ℕ
  bondOrders : BondId → List ℕ
  balance : Symbol × Address → ℤ
  nonce : Address → ℕ

/-- `__constructor`. -/
def construct (admin : Address) : State where
  admin := some admin
  order _ := none
  orderCount := 0
  sellerOrders _ := []
  bondOrders _ := []
  balance _ := 0
  nonce _ := 0

/-- `u64::checked_add`. -/
-- `none` is what the caller turns into its own error.
def checkedAddU64 (a b : ℕ) : Option ℕ := if a + b < 2 ^ 64 then some (a + b) else none

/-- The order can still be bought from, cancelled or swept. -/
def Order.Live (order : Order) : Prop :=
  order.status = .open ∨ order.status = .partiallyFilled

instance (order : Order) : Decidable order.Live := inferInstanceAs (Decidable (_ ∨ _))

/-- `is_order_expired`. At the very second of its expiry an order is expired. -/
def Order.Expired (now : ℕ) (order : Order) : Prop := order.expiresAt ≤ now

instance (now : ℕ) (order : Order) : Decidable (order.Expired now) :=
  inferInstanceAs (Decidable (_ ≤ _))

/-- `verify_holder_balance`. It is asked anew for every call: nothing is reserved for an order. -/
def verifyHolderBalance (issuer : BondIssuer.State) (holder : Address) (bondId : BondId)
    (required : ℤ) : Result DEXError Unit :=
  ensure (required ≤ BondIssuer.getHolderBalance issuer bondId holder) .insufficientBalance

/-- `list_bond_tokens`. Several orders of a seller may offer the same tokens. -/
def listBondTokens (now : ℕ) (issuer : BondIssuer.State) (s : State) (seller : Address)
    (bondId : BondId) (amount pricePerToken : ℤ) (quoteAsset : Symbol) (expiresAfterSeconds : ℕ)
    (nonce : ℕ) : Result DEXError (State × ℕ) := do
  let nonces ← useNonce s.nonce seller nonce .invalidNonce
  ensure (0 < amount ∧ 0 < pricePerToken) .zeroAmount
  -- No lifetime is the same error as one that would leave `u64`.
  ensure (expiresAfterSeconds ≠ 0) .orderExpired
  verifyHolderBalance issuer seller bondId amount
  let orderId := s.orderCount + 1
  let expiresAt ← orError (checkedAddU64 now expiresAfterSeconds) .orderExpired
  let order : Order :=
    ⟨orderId, seller, bondId, amount, pricePerToken, quoteAsset, .open, now, expiresAt⟩
  return ({ s with
    nonce := nonces
    orderCount := orderId
    order := Function.update s.order orderId (some order)
    sellerOrders := Function.update s.sellerOrders seller (s.sellerOrders seller ++ [orderId])
    bondOrders := Function.update s.bondOrders bondId (s.bondOrders bondId ++ [orderId]) }, orderId)

/-- `cancel_listing`. An expired order can be cancelled as long as it has not been swept. -/
def cancelListing (s : State) (caller : Address) (orderId nonce : ℕ) : Result DEXError State := do
  let nonces ← useNonce s.nonce caller nonce .invalidNonce
  let order ← orError (s.order orderId) .orderNotFound
  ensure (caller = order.seller) .unauthorized
  ensure order.Live .orderAlreadyFilled
  return { s with
    nonce := nonces
    order := Function.update s.order orderId (some { order with status := .cancelled }) }

/-- The balances after `buyer` paid `proceeds` to `seller`. -/
def payQuote (balance : Symbol × Address → ℤ) (quoteAsset : Symbol) (buyer seller : Address)
    (proceeds : ℤ) : Result DEXError (Symbol × Address → ℤ) := do
  let buyerBalance := balance (quoteAsset, buyer)
  ensure (proceeds ≤ buyerBalance) .insufficientFunds
  -- The buyer's balance is written before the seller's is read; the two are different addresses.
  let balance := Function.update balance (quoteAsset, buyer) (buyerBalance - proceeds)
  let sellerBalance := balance (quoteAsset, seller)
  let newSellerBalance ← orError (checkedAdd sellerBalance proceeds) .overflow
  return Function.update balance (quoteAsset, seller) newSellerBalance

/-- The nested `BondIssuer.transfer`, with the seller's current nonce. A failure of the callee is
caught and becomes an error of this contract. The seller's nonce is read from the issuer just
before, so that a wrong nonce is no fault of the buyer. -/
def transferBonds (now : ℕ) (signers : List Address) (issuer : BondIssuer.State)
    (seller buyer : Address) (bondId : BondId) (amount : ℤ) :
    Result DEXError BondIssuer.State :=
  -- What the nested call comes to; it commits or leaves no trace.
  let result : Result BondError BondIssuer.State := do
    requireAuth signers seller
    BondIssuer.transfer now issuer seller buyer bondId amount (issuer.nonce seller)
  match result with
  | .ok issuer' => .ok issuer'
  | .error (.error .invalidNonce) => .error (.error .invalidNonce)
  | .error _ => .error (.error .insufficientBalance)

/-- The order after `amount` of it was bought: a completed order keeps the size of its last fill. -/
def Order.fill (order : Order) (amount : ℤ) : Order :=
  if amount = order.amount then { order with status := .filled }
  else { order with status := .partiallyFilled, amount := order.amount - amount }

/-- `execute_purchase`. The checks are on the order and the buyer first, then on the seller's
tokens; the money moves before the tokens do, and an error undoes both. -/
def executePurchase (now : ℕ) (issuer : BondIssuer.State) (s : State) (signers : List Address)
    (buyer : Address) (orderId : ℕ) (maxPrice amount : ℤ) (nonce : ℕ) :
    Result DEXError (State × BondIssuer.State) := do
  requireAuth signers buyer
  let nonces ← useNonce s.nonce buyer nonce .invalidNonce
  let order ← orError (s.order orderId) .orderNotFound
  ensure order.Live .orderAlreadyFilled
  ensure (buyer ≠ order.seller) .selfBuyNotAllowed
  ensure (¬ order.Expired now) .orderExpired
  ensure (0 < amount) .zeroAmount
  -- A fill may take part of the order, whose remainder stays for sale at the same price.
  ensure (amount ≤ order.amount) .insufficientBalance
  ensure (order.pricePerToken ≤ maxPrice) .insufficientBalance
  -- The seller may have moved the tokens since the order was listed. Whatever the query says but
  -- success is this one error.
  ensure (verifyHolderBalance issuer order.seller order.bondId amount).isOk .sellerBalanceDepleted
  let proceeds ← orError (checkedMul amount order.pricePerToken) .overflow
  let balance ← payQuote s.balance order.quoteAsset buyer order.seller proceeds
  let issuer ← transferBonds now signers issuer order.seller buyer order.bondId amount
  return ({ s with
    nonce := nonces
    balance := balance
    order := Function.update s.order orderId (some (order.fill amount)) }, issuer)

/-- `deposit_quote`. Only the balance grows here: what backs it is outside of this contract. -/
def depositQuote (s : State) (caller : Address) (quoteAsset : Symbol) (amount : ℤ) (nonce : ℕ) :
    Result DEXError State := do
  let nonces ← useNonce s.nonce caller nonce .invalidNonce
  ensure (0 < amount) .zeroAmount
  let newBalance ← orError (checkedAdd (s.balance (quoteAsset, caller)) amount) .overflow
  return { s with
    nonce := nonces
    balance := Function.update s.balance (quoteAsset, caller) newBalance }

/-- `withdraw_quote`. -/
def withdrawQuote (s : State) (caller : Address) (quoteAsset : Symbol) (amount : ℤ) (nonce : ℕ) :
    Result DEXError State := do
  let nonces ← useNonce s.nonce caller nonce .invalidNonce
  ensure (0 < amount) .zeroAmount
  let balance := s.balance (quoteAsset, caller)
  ensure (amount ≤ balance) .insufficientFunds
  return { s with
    nonce := nonces
    balance := Function.update s.balance (quoteAsset, caller) (balance - amount) }

/-- One round of the sweep. The order keeps its amount; only the status changes. -/
def cleanOrder (now : ℕ) (acc : State × ℕ) (id : ℕ) : State × ℕ :=
  match acc.1.order id with
  | some order =>
    if order.Live ∧ order.Expired now then
      ({ acc.1 with
        order := Function.update acc.1.order id (some { order with status := .expired }) },
        acc.2 + 1)
    else acc
  | none => acc

/-- `clean_expired_orders_range_impl`. The ids from `startId` to `endId`, both included. -/
def cleanExpiredOrdersRangeImpl (now : ℕ) (s : State) (startId endId : ℕ) : State × ℕ :=
  (List.range' startId (endId + 1 - startId)).foldl (cleanOrder now) (s, 0)

/-- `clean_expired_orders`. All orders there ever were, from the first id to the newest. -/
def cleanExpiredOrders (now : ℕ) (s : State) (caller : Address) (nonce : ℕ) :
    Result DEXError (State × ℕ) := do
  let nonces ← useNonce s.nonce caller nonce .invalidNonce
  requireAdmin s.admin caller .notInitialized .unauthorized
  -- With no order at all there is no range to sweep, and the nonce is spent.
  let s := { s with nonce := nonces }
  if s.orderCount = 0 then return (s, 0)
  else return cleanExpiredOrdersRangeImpl now s 1 s.orderCount

/-- `clean_expired_orders_range`. An empty or inverted range is refused, as is one that names ids
not given yet. -/
def cleanExpiredOrdersRange (now : ℕ) (s : State) (caller : Address) (nonce startId endId : ℕ) :
    Result DEXError (State × ℕ) := do
  let nonces ← useNonce s.nonce caller nonce .invalidNonce
  requireAdmin s.admin caller .notInitialized .unauthorized
  ensure (1 ≤ startId ∧ endId ≤ s.orderCount ∧ startId ≤ endId) .invalidRange
  return cleanExpiredOrdersRangeImpl now { s with nonce := nonces } startId endId

/-! ### Quotes -/

inductive Side where
  | buy
  | sell
  deriving DecidableEq, Repr

/-- `order` is quoted before `current`: the better price first, and the lower id among equal
prices. -/
def precedes (side : Side) (order current : Order) : Bool :=
  match side with
  | .buy => order.pricePerToken < current.pricePerToken ∨
      order.pricePerToken = current.pricePerToken ∧ order.id < current.id
  | .sell => order.pricePerToken > current.pricePerToken ∨
      order.pricePerToken = current.pricePerToken ∧ order.id < current.id

/-- The order does not count in a quote. -/
def Order.Skipped (now : ℕ) (bondId : BondId) (order : Order) : Prop :=
  order.bondId ≠ bondId ∨ order.amount ≤ 0 ∨ ¬ order.Live ∨ order.Expired now

instance (now : ℕ) (bondId : BondId) (order : Order) : Decidable (order.Skipped now bondId) :=
  inferInstanceAs (Decidable (_ ∨ _))

/-- One round of the sorting loop of `get_best_price`. The list stays sorted: the order goes before
the first one that it precedes. -/
def insertOrder (now : ℕ) (s : State) (bondId : BondId) (side : Side) (sorted : List Order)
    (orderId : ℕ) : List Order :=
  match s.order orderId with
  | none => sorted
  | some order =>
    if order.Skipped now bondId then sorted
    else
      -- the first position whose order comes after this one
      let position := sorted.findIdx (precedes side order)
      sorted.insertIdx position order

/-- The accumulators of the filling loop of `get_best_price`. What is still wanted, what was found,
and what it costs. -/
structure Fill where
  remaining : ℤ
  filled : ℤ
  total : ℤ
  deriving DecidableEq, Repr

/-- One round of the filling loop; the loop breaks once nothing remains. -/
def takeOrder (fill : Fill) (order : Order) : Result DEXError Fill :=
  if fill.remaining = 0 then return fill
  else do
    let take := min fill.remaining order.amount
    let cost ← orError (checkedMul take order.pricePerToken) .overflow
    let total ← orError (checkedAdd fill.total cost) .overflow
    let filled ← orError (checkedAdd fill.filled take) .overflow
    return ⟨fill.remaining - take, filled, total⟩

/-- `get_best_price`: average price, total and slippage in basis points. Slippage is what the fill
costs beyond its amount at the best price; there is none to report when no order counts. -/
def getBestPrice (now : ℕ) (s : State) (bondId : BondId) (side : Side) (amount : ℤ) :
    Result DEXError (ℤ × ℤ × ℤ) := do
  ensure (0 < amount) .zeroAmount
  match (s.bondOrders bondId).foldl (insertOrder now s bondId side) [] with
  | [] => return (0, 0, 0)
  | first :: rest =>
    let bestPrice := first.pricePerToken
    -- An amount that the orders cannot fill is quoted for what there is.
    let fill ← (first :: rest).foldlM takeOrder ⟨amount, 0, 0⟩
    if fill.filled = 0 then return (0, 0, 0)
    else
      -- The average is rounded towards zero, the total is exact.
      let averagePrice := fill.total.tdiv fill.filled
      let idealTotal ← orError (checkedMul fill.filled bestPrice) .overflow
      let adverseDelta := match side with
        | .buy => saturatingSub fill.total idealTotal
        | .sell => saturatingSub idealTotal fill.total
      if 0 < idealTotal then
        let scaled ← orError (checkedMul adverseDelta 10000) .overflow
        return (averagePrice, fill.total, scaled.tdiv idealTotal)
      else return (averagePrice, fill.total, 0)

/-! ### The contract as a machine -/

/-- The state-changing entrypoints. -/
inductive Op where
  | listBondTokens (seller : Address) (bondId : BondId) (amount pricePerToken : ℤ)
      (quoteAsset : Symbol) (expiresAfterSeconds : ℕ) (nonce : ℕ)
  | cancelListing (caller : Address) (orderId nonce : ℕ)
  | executePurchase (signers : List Address) (buyer : Address) (orderId : ℕ)
      (maxPrice amount : ℤ) (nonce : ℕ)
  | depositQuote (caller : Address) (quoteAsset : Symbol) (amount : ℤ) (nonce : ℕ)
  | withdrawQuote (caller : Address) (quoteAsset : Symbol) (amount : ℤ) (nonce : ℕ)
  | cleanExpiredOrders (caller : Address) (nonce : ℕ)
  | cleanExpiredOrdersRange (caller : Address) (nonce startId endId : ℕ)
  deriving DecidableEq, Repr

/-- The answers of the entrypoints. -/
inductive Ret where
  | unit
  | order (orderId : ℕ)
  | cleaned (count : ℕ)
  deriving DecidableEq, Repr

/-- Run one entrypoint. -/
def exec (now : ℕ) (issuer : BondIssuer.State) (s : State) :
    Op → Result DEXError ((State × BondIssuer.State) × Ret)
  | .listBondTokens seller bondId amount pricePerToken quoteAsset expiresAfterSeconds nonce => do
    let (s', orderId) ← listBondTokens now issuer s seller bondId amount pricePerToken quoteAsset
      expiresAfterSeconds nonce
    return ((s', issuer), .order orderId)
  | .cancelListing caller orderId nonce => do
    return ((← cancelListing s caller orderId nonce, issuer), .unit)
  | .executePurchase signers buyer orderId maxPrice amount nonce => do
    return (← executePurchase now issuer s signers buyer orderId maxPrice amount nonce, .unit)
  | .depositQuote caller quoteAsset amount nonce => do
    return ((← depositQuote s caller quoteAsset amount nonce, issuer), .unit)
  | .withdrawQuote caller quoteAsset amount nonce => do
    return ((← withdrawQuote s caller quoteAsset amount nonce, issuer), .unit)
  | .cleanExpiredOrders caller nonce => do
    let (s', count) ← cleanExpiredOrders now s caller nonce
    return ((s', issuer), .cleaned count)
  | .cleanExpiredOrdersRange caller nonce startId endId => do
    let (s', count) ← cleanExpiredOrdersRange now s caller nonce startId endId
    return ((s', issuer), .cleaned count)

end DexRouter
end NbsBond
