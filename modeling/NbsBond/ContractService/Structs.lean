import NbsBond.ContractService.Encoding
import NbsBond.DexRouter.Model
import NbsBond.OracleConsumer.Model

/-!
# Contract types as host values

`#[contracttype]` writes a struct with named fields as a map keyed by the names of the fields, in
alphabetical order, and a variant of an enumeration as a vector that starts with the name of the
variant. A contract reads back what it wrote, and nothing of another shape: the names and their
number have to be right.

`structCodec` and `variantCodec` are these two encodings. The structs and enumerations that the API
exchanges with the contracts are instances.
-/

namespace NbsBond
namespace ContractService

open Soroban

/-! ### Symbols and bytes -/

def symbolCodec : Codec ScVal String where
  encode s := some (.symbol s)
  decode
    | .symbol s => some s
    | _ => none
  roundtrip h := by
    cases h
    rfl

/-- The `k` low bytes of `n`, the lowest first. -/
def lowBytes : ℕ → ℕ → List UInt8
  | 0, _ => []
  | k + 1, n => UInt8.ofNat n :: lowBytes k (n / 256)

/-- The number that these bytes are, the lowest first. -/
def ofLowBytes : List UInt8 → ℕ
  | [] => 0
  | b :: bs => b.toNat + 256 * ofLowBytes bs

@[simp] theorem length_lowBytes (k n : ℕ) : (lowBytes k n).length = k := by
  induction k generalizing n with
  | zero => rfl
  | succ k ih => rw [lowBytes, List.length_cons, ih]

theorem ofLowBytes_lowBytes (k n : ℕ) : ofLowBytes (lowBytes k n) = n % 256 ^ k := by
  induction k generalizing n with
  | zero => rw [pow_zero, Nat.mod_one]; rfl
  | succ k ih =>
    rw [lowBytes, ofLowBytes, ih, pow_succ', Nat.mod_mul]
    rfl

/-- The 32 bytes of a hash, the highest first. -/
def bytesOf (b : Bytes32) : List UInt8 := (lowBytes 32 b.toNat).reverse

/-- `BytesN<32>`. -/
def bytes32Codec : Codec ScVal Bytes32 where
  encode b := some (.bytes (bytesOf b))
  decode
    | .bytes l => if l.length = 32 then some (BitVec.ofNat 256 (ofLowBytes l.reverse)) else none
    | _ => none
  roundtrip {b _} h := by
    cases h
    have hlength : (bytesOf b).length = 32 := by rw [bytesOf, List.length_reverse, length_lowBytes]
    have hvalue : ofLowBytes (bytesOf b).reverse = b.toNat := by
      rw [bytesOf, List.reverse_reverse, ofLowBytes_lowBytes]
      exact Nat.mod_eq_of_lt b.isLt
    dsimp only
    rw [if_pos hlength, hvalue, BitVec.ofNat_toNat, BitVec.setWidth_eq]

/-! ### Structs and variants -/

/-- A struct with fields of these names. -/
def structCodec {α : Type} (names : List String) (fields : Codec (List ScVal) α) :
    Codec ScVal α where
  encode a := do
    let values ← fields.encode a
    if values.length = names.length then return .map (names.zip values) else none
  decode
    | .map entries =>
      if entries.map Prod.fst = names then fields.decode (entries.map Prod.snd) else none
    | _ => none
  roundtrip h := by
    simp only [Option.bind_eq_bind, Option.bind_eq_some_iff] at h
    obtain ⟨values, hvalues, h⟩ := h
    split at h
    · next hlength =>
      cases h
      dsimp only
      rw [List.map_fst_zip hlength.ge, List.map_snd_zip hlength.le, if_pos rfl]
      exact fields.roundtrip hvalues
    · cases h

/-- An enumeration whose variants have names and no fields. -/
def variantCodec {α : Type} (name : α → String) (ofName : String → Option α)
    (h : ∀ a, ofName (name a) = some a) : Codec ScVal α where
  encode a := some (.vec [.symbol (name a)])
  decode
    | .vec [.symbol s] => ofName s
    | _ => none
  roundtrip {a _} heq := by
    cases heq
    exact h a

/-- A struct is not read from a vector. -/
theorem structCodec_decode_vec {α : Type} (names : List String) (fields : Codec (List ScVal) α)
    (entries : List ScVal) : (structCodec names fields).decode (.vec entries) = none := rfl

/-! ### Enumerations -/

def orderStatusName : DexRouter.OrderStatus → String
  | .open => "Open"
  | .partiallyFilled => "PartiallyFilled"
  | .filled => "Filled"
  | .cancelled => "Cancelled"
  | .expired => "Expired"

def orderStatusOfName : String → Option DexRouter.OrderStatus
  | "Open" => some .open
  | "PartiallyFilled" => some .partiallyFilled
  | "Filled" => some .filled
  | "Cancelled" => some .cancelled
  | "Expired" => some .expired
  | _ => none

def orderStatusCodec : Codec ScVal DexRouter.OrderStatus :=
  variantCodec orderStatusName orderStatusOfName fun status => by cases status <;> rfl

def reportStatusName : ReportStatus → String
  | .pending => "Pending"
  | .verified => "Verified"
  | .challenged => "Challenged"
  | .rejected => "Rejected"

def reportStatusOfName : String → Option ReportStatus
  | "Pending" => some .pending
  | "Verified" => some .verified
  | "Challenged" => some .challenged
  | "Rejected" => some .rejected
  | _ => none

def reportStatusCodec : Codec ScVal ReportStatus :=
  variantCodec reportStatusName reportStatusOfName fun status => by cases status <;> rfl

def creditTypeName : CreditType → String
  | .carbon => "Carbon"
  | .biodiversity => "Biodiversity"
  | .basket => "Basket"
  | .blueCarbon => "BlueCarbon"

def creditTypeOfName : String → Option CreditType
  | "Carbon" => some .carbon
  | "Biodiversity" => some .biodiversity
  | "Basket" => some .basket
  | "BlueCarbon" => some .blueCarbon
  | _ => none

def creditTypeCodec : Codec ScVal CreditType :=
  variantCodec creditTypeName creditTypeOfName fun type => by cases type <;> rfl

/-- `Absent`, or `Present` with a triple. -/
def biodiversityCodec : Codec ScVal BiodiversityMetrics where
  encode
    | .absent => some (.vec [.symbol "Absent"])
    | .present habitat species units => do
      return .vec [.symbol "Present", .vec [← i128Codec.encode habitat, ← i128Codec.encode species,
        ← i128Codec.encode units]]
  decode
    | .vec [.symbol "Absent"] => some .absent
    | .vec [.symbol "Present", .vec [habitat, species, units]] => do
      return .present (← i128Codec.decode habitat) (← i128Codec.decode species)
        (← i128Codec.decode units)
    | _ => none
  roundtrip {metrics _} h := by
    cases metrics with
    | absent =>
      cases h
      rfl
    | present habitat species units =>
      simp only [Option.bind_eq_bind, Option.bind_eq_some_iff, Option.pure_def,
        Option.some.injEq] at h
      obtain ⟨_, hhabitat, _, hspecies, _, hunits, rfl⟩ := h
      simp only [i128Codec.roundtrip hhabitat, i128Codec.roundtrip hspecies,
        i128Codec.roundtrip hunits]
      rfl

/-! ### Structs -/

/-- The `Order` of the DEX router. -/
def orderCodec : Codec ScVal DexRouter.Order :=
  structCodec ["amount", "bond_id", "created_at", "expires_at", "id", "price_per_token",
      "quote_asset", "seller", "status"]
    ((i128Codec.cons <| u64Codec.cons <| u64Codec.cons <| u64Codec.cons <| u64Codec.cons <|
        i128Codec.cons <| symbolCodec.cons <| addressCodec.cons <| orderStatusCodec.cons .nil).comap
      (fun o => (o.amount, o.bondId, o.createdAt, o.expiresAt, o.id, o.pricePerToken, o.quoteAsset,
        o.seller, o.status, ()))
      (fun ⟨amount, bondId, createdAt, expiresAt, id, pricePerToken, quoteAsset, seller, status,
          ()⟩ =>
        { amount, bondId, createdAt, expiresAt, id, pricePerToken, quoteAsset, seller, status })
      fun _ => rfl)

/-- The `PeriodInfo` of the coupon engine. -/
def periodInfoCodec : Codec ScVal CouponEngine.PeriodInfo :=
  structCodec ["distributed", "end_time", "period_index", "report_id", "start_time",
      "total_credits_earned", "undistributed"]
    ((boolCodec.cons <| u64Codec.cons <| u32Codec.cons <| u64Codec.cons <| u64Codec.cons <|
        i128Codec.cons <| i128Codec.cons .nil).comap
      (fun p => (p.distributed, p.endTime, p.periodIndex, p.reportId, p.startTime,
        p.totalCreditsEarned, p.undistributed, ()))
      (fun ⟨distributed, endTime, periodIndex, reportId, startTime, totalCreditsEarned,
        undistributed, ()⟩ =>
        { distributed, endTime, periodIndex, reportId, startTime, totalCreditsEarned,
          undistributed })
      fun _ => rfl)

/-- The `Report` of the oracle consumer. -/
def reportCodec : Codec ScVal OracleConsumer.Report :=
  structCodec ["biodiversity", "carbon_sequestered", "id", "ipfs_evidence_hash", "methodology",
      "period_end", "period_start", "project_id", "project_metadata_hash", "provider", "status",
      "submitted_at", "verified_at"]
    ((biodiversityCodec.cons <| i128Codec.cons <| u64Codec.cons <| bytes32Codec.cons <|
        symbolCodec.cons <| u64Codec.cons <| u64Codec.cons <| u64Codec.cons <| bytes32Codec.cons <|
        addressCodec.cons <| reportStatusCodec.cons <| u64Codec.cons <| u64Codec.cons .nil).comap
      (fun r => (r.biodiversity, r.carbonSequestered, r.id, r.ipfsEvidenceHash, r.methodology,
        r.periodEnd, r.periodStart, r.projectId, r.projectMetadataHash, r.provider, r.status,
        r.submittedAt, r.verifiedAt, ()))
      (fun ⟨biodiversity, carbonSequestered, id, ipfsEvidenceHash, methodology, periodEnd,
        periodStart, projectId, projectMetadataHash, provider, status, submittedAt, verifiedAt,
        ()⟩ =>
        { biodiversity, carbonSequestered, id, ipfsEvidenceHash, methodology, periodEnd,
          periodStart, projectId, projectMetadataHash, provider, status, submittedAt, verifiedAt })
      fun _ => rfl)

/-- The `BondConfig` of the bond issuer. -/
def bondConfigCodec : Codec ScVal BondConfig :=
  structCodec ["coupon_schedule", "credit_type", "face_value", "maturity_date", "project_id",
      "total_supply"]
    (((vecCodec u64Codec).cons <| creditTypeCodec.cons <| i128Codec.cons <| u64Codec.cons <|
        bytes32Codec.cons <| i128Codec.cons .nil).comap
      (fun b => (b.couponSchedule, b.creditType, b.faceValue, b.maturityDate, b.projectId,
        b.totalSupply, ()))
      (fun ⟨couponSchedule, creditType, faceValue, maturityDate, projectId, totalSupply, ()⟩ =>
        { couponSchedule, creditType, faceValue, maturityDate, projectId, totalSupply })
      fun _ => rfl)

/-- The `SweepReceipt` of the coupon engine. -/
def sweepReceiptCodec : Codec ScVal CouponEngine.SweepReceipt :=
  structCodec ["amount", "biodiversity_amount", "bond_id", "carbon_amount", "destination"]
    ((i128Codec.cons <| i128Codec.cons <| u64Codec.cons <| i128Codec.cons <|
        addressCodec.cons .nil).comap
      (fun r => (r.amount, r.biodiversityAmount, r.bondId, r.carbonAmount, r.destination, ()))
      (fun ⟨amount, biodiversityAmount, bondId, carbonAmount, destination, ()⟩ =>
        { amount, biodiversityAmount, bondId, carbonAmount, destination })
      fun _ => rfl)

end ContractService
end NbsBond
