import NbsBond.ContractService.Bytes32
import NbsBond.DexService.Decoding

/-!
# Structs between the API and the contracts

`decodePeriodInfo`, `decodeReport`, `decodeSweepReceipt` and `encodeBondConfig` of
`api/src/bonds/bonds.service.ts`. The first two read the fields of a struct by position, as
`decodeOrder` does, and the last one writes a vector where the contract reads a struct. None of them
ever meets the contract: `structs_not_exchanged`. `decodeSweepReceipt` looks at the shape of the
value first, and does: `decodeSweepReceipt_struct`.
-/

namespace NbsBond
namespace BondsService

open ContractService

/-! ### Decoders -/

structure PeriodInfoResponse where
  periodIndex : Number
  startTime : Number
  endTime : Number
  totalCreditsEarned : String
  distributed : Bool
  reportId : Number
  undistributed : String

/-- `decodePeriodInfo`. Every field is read at a position, one for each field of the struct in the
order of its declaration. -/
def decodePeriodInfo (js : Js) (data : Native) : Except JsError PeriodInfoResponse := do
  return {
    periodIndex := js.toNumber (← data.get 0)
    startTime := js.toNumber (← data.get 1)
    endTime := js.toNumber (← data.get 2)
    totalCreditsEarned := js.toString (← data.get 3)
    distributed := (← data.get 4).toBoolean
    reportId := js.toNumber (← data.get 5)
    undistributed := js.toString (← data.get 6) }

/-- The response has the fields of the period. Numbers are compared as numbers: a `u64` beyond 2^53
does not survive the conversion in the first place. -/
structure PeriodInfoResponse.Reads (r : PeriodInfoResponse) (p : CouponEngine.PeriodInfo) :
    Prop where
  periodIndex : r.periodIndex = .finite p.periodIndex
  startTime : r.startTime = .finite p.startTime
  endTime : r.endTime = .finite p.endTime
  totalCreditsEarned : r.totalCreditsEarned = toString p.totalCreditsEarned
  distributed : r.distributed = p.distributed
  reportId : r.reportId = .finite p.reportId
  undistributed : r.undistributed = toString p.undistributed

/-- `providerAddress` and `methodology` are passed on unchecked. The evidence and the metadata hash
come back as hexadecimal text. -/
structure PeriodReportResponse where
  id : Number
  providerAddress : Native
  projectId : String
  periodStart : Number
  periodEnd : Number
  carbonSequestered : String
  methodology : Native
  ipfsHash : String
  status : ReportStatus
  submittedAt : Number
  verifiedAt : Number

/-- `reportStatusFromIndex`. An index that is none is taken for the first status. -/
def reportStatusFromIndex (index : Number) : ReportStatus :=
  (atIndex [.pending, .verified, .challenged, .rejected] index).getD .pending

/-- `decodeReport`. Positions 2 and 7, the project id and the metrics, are not read. -/
def decodeReport (js : Js) (data : Native) : Except JsError PeriodReportResponse := do
  return {
    id := js.toNumber (← data.get 0)
    providerAddress := ← data.get 1
    -- `Buffer.from` of `undefined` throws, which is what ends the decoding of a struct.
    projectId := hexOf (← js.bufferFrom (← data.get 3))
    periodStart := js.toNumber (← data.get 4)
    periodEnd := js.toNumber (← data.get 5)
    carbonSequestered := js.toString (← data.get 6)
    methodology := ← data.get 8
    ipfsHash := hexOf (← js.bufferFrom (← data.get 9))
    status := reportStatusFromIndex (js.toNumber (← data.get 10))
    submittedAt := js.toNumber (← data.get 11)
    verifiedAt := js.toNumber (← data.get 12) }

/-- The response has the fields of the report; the project is the one of the metadata hash. -/
structure PeriodReportResponse.Reads (js : Js) (r : PeriodReportResponse)
    (rep : OracleConsumer.Report) : Prop where
  id : r.id = .finite rep.id
  providerAddress : r.providerAddress = .string (js.strKey rep.provider)
  projectId : r.projectId = hexOf (bytesOf rep.projectMetadataHash)
  periodStart : r.periodStart = .finite rep.periodStart
  periodEnd : r.periodEnd = .finite rep.periodEnd
  carbonSequestered : r.carbonSequestered = toString rep.carbonSequestered
  methodology : r.methodology = .string rep.methodology
  ipfsHash : r.ipfsHash = hexOf (bytesOf rep.ipfsEvidenceHash)
  status : r.status = rep.status
  submittedAt : r.submittedAt = .finite rep.submittedAt
  verifiedAt : r.verifiedAt = .finite rep.verifiedAt

/-- What `decodeSweepReceipt` returns. Amounts are text, as they do not fit a number. -/
structure SweepReceiptResponse where
  bondId : Number
  destination : String
  amount : String
  carbonAmount : String
  biodiversityAmount : String

/-- `read`: by position from an array, by name from an object. What is neither has no fields. -/
def readField (native : Native) (key : String) (index : ℕ) : Native :=
  match native with
  | .array entries => entries[index]?.getD .undefined
  | .object properties => (properties.lookup key).getD .undefined
  | _ => .undefined

/-- `decodeSweepReceipt`. It asks what it has got, unlike the decoders above. -/
def decodeSweepReceipt (js : Js) (result : ScVal) : SweepReceiptResponse :=
  -- `??` puts the default where the field is missing.
  let native := js.scValToNative result
  let zero : Native := .number (.finite 0)
  { bondId := js.toNumber ((readField native "bond_id" 0).orElse zero)
    destination := js.toString ((readField native "destination" 1).orElse (.string ""))
    amount := js.toString ((readField native "amount" 2).orElse zero)
    carbonAmount := js.toString ((readField native "carbon_amount" 3).orElse zero)
    biodiversityAmount := js.toString ((readField native "biodiversity_amount" 4).orElse zero) }

/-! ### The encoder -/

/-- The body of a request to create a bond, after its validation. -/
structure CreateBondDto where
  projectId : String
  faceValue : String
  couponSchedule : List String
  creditType : CreditType
  maturityDate : Number
  totalSupply : String

/-- `BigInt(s)`, for text. -/
def bigintOfString (js : Js) (s : String) : Except JsError ℤ :=
  match js.bigintOfString s with
  | some n => return n
  | none => .error .syntaxError

/-- `BigInt(n)`, for a number. A fraction, `NaN` and the infinities have no integer. -/
def bigintOfNumber : Number → Except JsError ℤ
  | .finite x => if x.den = 1 then return x.num else .error .rangeError
  | _ => .error .rangeError

/-- `nativeToScVal(n, { type: 'u64' })`. -/
def u64ScVal (n : ℤ) : Except JsError ScVal :=
  match if 0 ≤ n then u64Codec.encode n.toNat else none with
  | some v => return v
  | none => .error .rangeError

/-- `nativeToScVal(n, { type: 'i128' })`. -/
def i128ScVal (n : ℤ) : Except JsError ScVal :=
  match i128Codec.encode n with
  | some v => return v
  | none => .error .rangeError

/-- `encodeBondConfig`. A vector, with the fields in the order of their declaration; the contract's
type is a struct, a map by name. -/
def encodeBondConfig (js : Js) (dto : CreateBondDto) : Except JsError ScVal := do
  let projectId ← toBytes32 dto.projectId
  let faceValue ← i128ScVal (← bigintOfString js dto.faceValue)
  let couponSchedule ← dto.couponSchedule.mapM fun ts => do u64ScVal (← bigintOfString js ts)
  let maturityDate ← u64ScVal (← bigintOfNumber dto.maturityDate)
  let totalSupply ← i128ScVal (← bigintOfString js dto.totalSupply)
  return .vec [projectId, faceValue, .vec couponSchedule, .symbol (creditTypeName dto.creditType),
    maturityDate, totalSupply]

/-- The configuration has the fields of the request. The condition on the two is field by field, and
says nothing of the encoding. -/
structure CreateBondDto.Describes (js : Js) (dto : CreateBondDto) (config : BondConfig) : Prop where
  projectId : decodeBytes32 dto.projectId.toList = .ok (bytesOf config.projectId)
  faceValue : js.bigintOfString dto.faceValue = some config.faceValue
  couponSchedule : dto.couponSchedule.map js.bigintOfString =
    config.couponSchedule.map fun ts : ℕ => some (ts : ℤ)
  creditType : config.creditType = dto.creditType
  maturityDate : dto.maturityDate = .finite config.maturityDate
  totalSupply : js.bigintOfString dto.totalSupply = some config.totalSupply

/-! ### Neither end meets the other -/

/-- A `PeriodInfo` of the contract is decoded to a response without numbers. -/
theorem decodePeriodInfo_struct (js : Js) {p : CouponEngine.PeriodInfo} {v : ScVal}
    (h : periodInfoCodec.encode p = some v) : decodePeriodInfo js (js.scValToNative v) =
      .ok ⟨.nan, .nan, .nan, "undefined", false, .nan, "undefined"⟩ := by
  -- One rewrite for each position: none of them is the name of a field.
  unfold decodePeriodInfo
  rw [structCodec_get js h (by decide), structCodec_get js h (by decide),
    structCodec_get js h (by decide), structCodec_get js h (by decide),
    structCodec_get js h (by decide), structCodec_get js h (by decide),
    structCodec_get js h (by decide)]
  rfl

/-- A `Report` of the contract cannot be decoded: there are no bytes at position 3. -/
theorem decodeReport_struct (js : Js) {rep : OracleConsumer.Report} {v : ScVal}
    (h : reportCodec.encode rep = some v) :
    decodeReport js (js.scValToNative v) = .error .typeError := by
  -- The position that fails is 3; those before it are `undefined` and pass.
  unfold decodeReport
  rw [structCodec_get js h (by decide), structCodec_get js h (by decide),
    structCodec_get js h (by decide)]
  rfl

/-- What the API sends for a bond is a vector, and the contract does not read it. -/
theorem encodeBondConfig_decode (js : Js) {dto : CreateBondDto} {v : ScVal}
    (h : encodeBondConfig js dto = .ok v) : bondConfigCodec.decode v = none := by
  simp only [encodeBondConfig, JsError.bind_eq_ok] at h
  -- The encoding is in the last component, and it is a vector.
  obtain ⟨_, -, _, -, _, -, _, -, _, -, _, -, _, -, _, -, h⟩ := h
  cases h
  exact structCodec_decode_vec ..

/-- **No struct is exchanged.** From the encoding of an `Order`, a `PeriodInfo` or a `Report` no
decoder returns the fields of the value, and from what `encodeBondConfig` makes of a request the
contract decodes no `BondConfig`. A struct is an object with the names of its fields as keys, and
the decoders read positions of an array. -/
theorem structs_not_exchanged (js : Js) :
    (∀ o v, orderCodec.encode o = some v →
      ¬ ∃ r, DexService.decodeOrder js (js.scValToNative v) = .ok r ∧ DexService.Reads js r o) ∧
    (∀ p v, periodInfoCodec.encode p = some v →
      ¬ ∃ r, decodePeriodInfo js (js.scValToNative v) = .ok r ∧ r.Reads p) ∧
    (∀ rep v, reportCodec.encode rep = some v →
      ¬ ∃ r, decodeReport js (js.scValToNative v) = .ok r ∧ r.Reads js rep) ∧
    ∀ dto : CreateBondDto, ¬ ∃ v config, encodeBondConfig js dto = .ok v ∧
      bondConfigCodec.decode v = some config ∧ dto.Describes js config := by
  -- Each part: what the decoder returns, or throws, is known from the lemma on its struct.
  refine ⟨fun o v h => ?_, fun p v h => ?_, fun rep v h => ?_, fun dto => ?_⟩
  · rintro ⟨r, hr, -⟩
    rw [DexService.decodeOrder_struct js h] at hr
    cases hr
  · rintro ⟨r, hr, hreads⟩
    rw [decodePeriodInfo_struct js h] at hr
    -- The index would have to be a number, and it is `NaN`.
    cases hr
    cases hreads.periodIndex
  · rintro ⟨r, hr, -⟩
    rw [decodeReport_struct js h] at hr
    cases hr
  · rintro ⟨v, config, hv, hconfig, -⟩
    rw [encodeBondConfig_decode js hv] at hconfig
    cases hconfig

/-- **A decoder that looks at the shape reads the struct.** The response is built from named fields,
so that it does not matter whether a struct is an object. -/
theorem decodeSweepReceipt_struct (js : Js) {receipt : CouponEngine.SweepReceipt} {v : ScVal}
    (h : sweepReceiptCodec.encode receipt = some v) :
    decodeSweepReceipt js v = ⟨.finite (js.double receipt.bondId), js.strKey receipt.destination,
      toString receipt.amount, toString receipt.carbonAmount,
      toString receipt.biodiversityAmount⟩ := by
  -- First the values of the fields in the order of their names, as the map has them.
  obtain ⟨values, hvalues, h⟩ := Option.bind_eq_some_iff.mp h
  simp only [Codec.comap, Codec.cons, Codec.nil, Option.bind_eq_some_iff,
    Option.map_eq_some_iff, Option.some.injEq] at hvalues
  obtain ⟨amount, hamount, _, ⟨biodiversity, hbiodiversity, _, ⟨bondId, hbondId, _, ⟨carbon,
    hcarbon, _, ⟨destination, hdestination, _, rfl, rfl⟩, rfl⟩, rfl⟩, rfl⟩, rfl⟩ := hvalues
  cases h
  -- Then what the SDK makes of that map, and last what is read from it by name.
  have hnative : js.scValToNative (.map [("amount", amount), ("biodiversity_amount", biodiversity),
      ("bond_id", bondId), ("carbon_amount", carbon), ("destination", destination)]) =
      .object [("amount", .bigint receipt.amount),
        ("biodiversity_amount", .bigint receipt.biodiversityAmount),
        ("bond_id", .bigint receipt.bondId), ("carbon_amount", .bigint receipt.carbonAmount),
        ("destination", .string (js.strKey receipt.destination))] := by
    simp only [Js.scValToNative, Js.nativeProperties, js.scValToNative_i128 hamount,
      js.scValToNative_i128 hbiodiversity, js.scValToNative_u64 hbondId,
      js.scValToNative_i128 hcarbon, js.scValToNative_address hdestination]
  change decodeSweepReceipt js (.map [("amount", amount), ("biodiversity_amount", biodiversity),
      ("bond_id", bondId), ("carbon_amount", carbon), ("destination", destination)]) = _
  unfold decodeSweepReceipt
  rw [hnative]
  rfl

/-- An order as it is listed first. -/
def firstOrder : DexRouter.Order := ⟨1, ⟨3⟩, 1, 1000, 25, "USDC", .open, 1700000000, 1700604800⟩

/-- The order cannot be read. Its encoding has no positions, and the decoder asks for those. -/
theorem firstOrder_not_read : ¬ ∀ (js : Js) (o : DexRouter.Order) (v : ScVal),
    orderCodec.encode o = some v →
      ∃ r, DexService.decodeOrder js (js.scValToNative v) = .ok r ∧ DexService.Reads js r o := by
  -- Any conversion of text serves: none is called on the way.
  intro hclaim
  let js : Js := ⟨fun _ => "", id, fun _ _ => rfl, fun _ => .nan, fun _ => "", fun _ => none,
    fun _ => ""⟩
  obtain ⟨v, hv⟩ : ∃ v, orderCodec.encode firstOrder = some v :=
    Option.isSome_iff_exists.mp (by decide)
  obtain ⟨r, hr, -⟩ := hclaim js firstOrder v hv
  rw [DexService.decodeOrder_struct js hv] at hr
  cases hr

end BondsService
end NbsBond
