import NbsBond.CouponEngine.Model
import NbsBond.Framework.Codec

/-!
# Contract calls as the API encodes them

`api/src/stellar/contract.service.ts`: the arguments of a contract call travel as a vector of
`ScVal`, and the contract's entrypoint decodes each position at the type of its parameter. A
position of another type, or a vector of another length, makes the call trap.

`invokeContractMethod` appends the nonce behind the arguments it is given, whatever the method.
-/

namespace NbsBond
namespace ContractService

open Soroban Int128

/-- The host values that the calls of the API are made of, and those that contracts answer. The keys
of a map are symbols. -/
inductive ScVal where
  | bool (b : Bool)
  | u32 (n : Fin (2 ^ 32))
  | u64 (n : Fin (2 ^ 64))
  | i128 (n : {x : ℤ // InRange x})
  | symbol (s : String)
  | bytes (b : List UInt8)
  | address (a : Address)
  | vec (entries : List ScVal)
  | map (entries : List (String × ScVal))

/-! ### The types of parameters -/

/-- `nativeToScVal(b)`, for a flag. -/
def boolCodec : Codec ScVal Bool where
  encode b := some (.bool b)
  decode
    | .bool b => some b
    | _ => none
  roundtrip h := by
    cases h
    rfl

/-- `nativeToScVal(n, { type: 'u32' })`. A number that does not fit is refused before anything is
sent. -/
def u32Codec : Codec ScVal ℕ where
  encode n := if h : n < 2 ^ 32 then some (.u32 ⟨n, h⟩) else none
  decode
    | .u32 n => some n
    | _ => none
  roundtrip h := by
    split at h
    · cases h
      rfl
    · cases h

/-- `nativeToScVal(BigInt(n), { type: 'u64' })`. In the source the number is a `bigint` before it is
encoded. -/
def u64Codec : Codec ScVal ℕ where
  encode n := if h : n < 2 ^ 64 then some (.u64 ⟨n, h⟩) else none
  decode
    | .u64 n => some n
    | _ => none
  roundtrip h := by
    split at h
    · cases h
      rfl
    · cases h

/-- `nativeToScVal(n, { type: 'i128' })`. Negative amounts are encoded as well: the contracts refuse
them. -/
def i128Codec : Codec ScVal ℤ where
  encode n := if h : InRange n then some (.i128 ⟨n, h⟩) else none
  decode
    | .i128 n => some n
    | _ => none
  roundtrip h := by
    split at h
    · cases h
      rfl
    · cases h

/-- `Address.fromString(a).toScVal()`, for the address itself. -/
def addressCodec : Codec ScVal Address where
  encode a := some (.address a)
  decode
    | .address a => some a
    | _ => none
  roundtrip h := by
    cases h
    rfl

/-- A tuple is a vector of its components. It is decoded only from a vector of exactly two. -/
def pairCodec {α β : Type} (c : Codec ScVal α) (d : Codec ScVal β) : Codec ScVal (α × β) where
  encode x := do
    let first ← c.encode x.1
    let second ← d.encode x.2
    return .vec [first, second]
  decode
    | .vec [first, second] => do
      let a ← c.decode first
      let b ← d.decode second
      return (a, b)
    | _ => none
  roundtrip h := by
    simp only [Option.bind_eq_bind, Option.bind_eq_some_iff, Option.pure_def,
      Option.some.injEq] at h
    obtain ⟨first, hfirst, second, hsecond, rfl⟩ := h
    dsimp only
    rw [c.roundtrip hfirst, d.roundtrip hsecond]
    rfl

/-- A `Vec`, whose entries are all of one type. -/
def vecCodec {α : Type} (c : Codec ScVal α) : Codec ScVal (List α) where
  encode l := (l.mapM c.encode).map .vec
  decode
    | .vec entries => entries.mapM c.decode
    | _ => none
  roundtrip h := by
    rw [Option.map_eq_some_iff] at h
    obtain ⟨entries, hentries, rfl⟩ := h
    exact c.mapM_roundtrip hentries

/-- `Vec<(Address, i128)>`. -/
def holdersCodec : Codec ScVal (List (Address × ℤ)) := vecCodec (pairCodec addressCodec i128Codec)

@[simp] theorem boolCodec_encode (b : Bool) : boolCodec.encode b = some (.bool b) := rfl

@[simp] theorem boolCodec_decode (b : Bool) : boolCodec.decode (.bool b) = some b := rfl

@[simp] theorem addressCodec_encode (a : Address) : addressCodec.encode a = some (.address a) := rfl

@[simp] theorem addressCodec_decode (a : Address) : addressCodec.decode (.address a) = some a := rfl

/-- A flag is no `u64`. It is for want of this that an argument in the wrong place is refused, and
not misread. -/
@[simp] theorem u64Codec_decode_bool (b : Bool) : u64Codec.decode (.bool b) = none := rfl

/-! ### Calls -/

/-- `invokeContractMethod`: the vector that is sent for the arguments `args`. The nonce is appended,
whatever the parameters of the method are. -/
def invokeContractMethod (args : List ScVal) (nonce : ℕ) : Option (List ScVal) := do
  let nonceScVal ← u64Codec.encode nonce
  return args ++ [nonceScVal]

/-- The parameters of `CouponEngine.distribute_coupon`, in the order and at the types of its
signature. A vector of another length, or with a value of another type in one place, is no call at
all. -/
def distributeCouponParams : List ScVal → Option CouponEngine.Op
  | [caller, bondId, periodIndex, holders, reportId, nonce, isFinalBatch] => do
    return .distributeCoupon (← addressCodec.decode caller) (← u64Codec.decode bondId)
      (← u32Codec.decode periodIndex) (← holdersCodec.decode holders)
      (← u64Codec.decode reportId) (← u64Codec.decode nonce) (← boolCodec.decode isFinalBatch)
  | _ => none

end ContractService
end NbsBond
