import NbsBond.ContractService.Native

/-!
# Orders as the API reads them

`decodeOrder` of `api/src/marketplace/dex.service.ts` reads the fields of an `Order` by position.
The contract writes a struct with named fields, so at every position there is `undefined`, and the
date of `undefined` cannot be formatted: `decodeOrder_struct`. On an array of the fields it works,
with the status as a number: `decodeOrder_positional`.
-/

namespace NbsBond
namespace DexService

open ContractService

/-- `createdAt` is the instant that the text stands for; `seller` and `quoteAsset` are passed on
unchecked. -/
structure OrderResponse where
  id : Number
  seller : Native
  bondId : Number
  amount : String
  pricePerToken : String
  quoteAsset : Native
  status : DexRouter.OrderStatus
  createdAt : ℤ

/-- `orderStatusFromIndex`. -/
def orderStatusFromIndex (index : Number) : DexRouter.OrderStatus :=
  (atIndex [.open, .partiallyFilled, .filled, .cancelled, .expired] index).getD .open

/-- `decodeOrder`. -/
def decodeOrder (js : Js) (data : Native) : Except JsError OrderResponse := do
  return {
    id := js.toNumber (← data.get 0)
    seller := ← data.get 1
    bondId := js.toNumber (← data.get 2)
    amount := js.toString (← data.get 3)
    pricePerToken := js.toString (← data.get 4)
    quoteAsset := ← data.get 5
    status := orderStatusFromIndex (js.toNumber (← data.get 6))
    createdAt := ← isoInstant (js.times1000 (js.toNumber (← data.get 7))) }

/-- The response has the fields of the order. -/
structure Reads (js : Js) (r : OrderResponse) (o : DexRouter.Order) : Prop where
  id : r.id = .finite o.id
  seller : r.seller = .string (js.strKey o.seller)
  bondId : r.bondId = .finite o.bondId
  amount : r.amount = toString o.amount
  pricePerToken : r.pricePerToken = toString o.pricePerToken
  quoteAsset : r.quoteAsset = .string o.quoteAsset
  status : r.status = o.status
  createdAt : r.createdAt = o.createdAt * 1000

/-- **An `Order` of the contract cannot be decoded.** -/
theorem decodeOrder_struct (js : Js) {o : DexRouter.Order} {v : ScVal}
    (h : orderCodec.encode o = some v) :
    decodeOrder js (js.scValToNative v) = .error .rangeError := by
  unfold decodeOrder
  rw [structCodec_get js h (by decide), structCodec_get js h (by decide),
    structCodec_get js h (by decide), structCodec_get js h (by decide),
    structCodec_get js h (by decide), structCodec_get js h (by decide),
    structCodec_get js h (by decide), structCodec_get js h (by decide)]
  rfl

/-! ### Orders by position -/

def orderStatusIndex : DexRouter.OrderStatus → ℕ
  | .open => 0
  | .partiallyFilled => 1
  | .filled => 2
  | .cancelled => 3
  | .expired => 4

/-- The array of the fields, in the order of their declaration. -/
def positional (js : Js) (o : DexRouter.Order) : Native :=
  .array [.bigint o.id, .string (js.strKey o.seller), .bigint o.bondId, .bigint o.amount,
    .bigint o.pricePerToken, .string o.quoteAsset, .number (.finite (orderStatusIndex o.status)),
    .bigint o.createdAt, .bigint o.expiresAt]

theorem orderStatusFromIndex_index (status : DexRouter.OrderStatus) :
    orderStatusFromIndex (.finite (orderStatusIndex status)) = status := by
  cases status <;> rfl

theorem isoInstant_int {n : ℤ} (h : |n| ≤ 8640000000000000) :
    isoInstant (.finite (n : ℚ)) = .ok n := by
  have habs : |(n : ℚ)| ≤ 8640000000000000 := by exact_mod_cast h
  simp only [isoInstant, if_pos habs, Rat.num_intCast, Rat.den_intCast]
  exact congrArg Except.ok (Int.tdiv_one n)

/-- **From an array of its fields an order is read correctly**, as long as its numbers are exact and
its date is one. -/
theorem decodeOrder_positional (js : Js) {o : DexRouter.Order} (hid : o.id ≤ 2 ^ 53)
    (hbond : o.bondId ≤ 2 ^ 53) (hdate : o.createdAt ≤ 8640000000000) :
    ∃ r, decodeOrder js (positional js o) = .ok r ∧ Reads js r o := by
  have hexact : ∀ n : ℕ, n ≤ 2 ^ 53 → js.toNumber (.bigint n) = .finite n := by
    intro n hn
    have hdouble := js.double_exact n (by rw [Nat.abs_cast]; exact_mod_cast hn)
    exact congrArg Number.finite hdouble
  have hinstant : isoInstant (js.times1000 (js.toNumber (.bigint o.createdAt))) =
      .ok (o.createdAt * 1000 : ℤ) := by
    have hscaled : |(o.createdAt * 1000 : ℤ)| ≤ 8640000000000000 := by
      rw [abs_of_nonneg (by positivity)]
      exact_mod_cast Nat.mul_le_mul_right 1000 hdate
    have hdouble := js.double_exact _ (hscaled.trans (by norm_num))
    rw [hexact _ (hdate.trans (by norm_num)), ← isoInstant_int hscaled, ← hdouble]
    simp only [Js.times1000, Int.cast_mul, Int.cast_natCast, Int.cast_ofNat]
  refine ⟨⟨.finite o.id, .string (js.strKey o.seller), .finite o.bondId, toString o.amount,
    toString o.pricePerToken, .string o.quoteAsset, o.status, o.createdAt * 1000⟩, ?_,
    ⟨rfl, rfl, rfl, rfl, rfl, rfl, rfl, rfl⟩⟩
  change (do
    let createdAt ← isoInstant (js.times1000 (js.toNumber (.bigint o.createdAt)))
    return (⟨js.toNumber (.bigint o.id), .string (js.strKey o.seller),
      js.toNumber (.bigint o.bondId), toString o.amount, toString o.pricePerToken,
      .string o.quoteAsset, orderStatusFromIndex (.finite (orderStatusIndex o.status)),
      createdAt⟩ : OrderResponse)) = _
  rw [hinstant, hexact _ hid, hexact _ hbond, orderStatusFromIndex_index]
  rfl

end DexService
end NbsBond
