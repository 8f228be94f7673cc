import NbsBond.BondsService.Holders
import NbsBond.ContractService.Encoding
import NbsBond.Protocol.Completion

/-!
# Distributing a coupon through the API

`api/src/bonds/bonds.service.ts`, `distributeCoupon`: the resolved holders are cut into batches, and
each batch becomes one call of `distribute_coupon` through `invokeContractMethod`.

The batches are right (`batches_cover`, `batches_flags`). The vectors are not:
`invokeContractMethod` puts the nonce last, behind `is_final_batch`, and the contract expects it
before. A flag where a `u64` belongs does not decode, so every call traps and no period is ever
distributed this way (`distributeCoupon_never_completes`). `params_of_order` decodes the same values
in the contract's order.
-/

namespace NbsBond
namespace BondsService

open Soroban ContractService Protocol

/-! ### The batch loop -/

/-- The body of a request; the validators of the class make `batchSize` at least one. -/
structure DistributeCouponDto where
  periodIndex : ℕ
  reportId : ReportId
  batchSize : Option {n : ℕ // 0 < n}

/-- `BATCH_SIZE`. -/
def DistributeCouponDto.size (dto : DistributeCouponDto) : {n : ℕ // 0 < n} :=
  dto.batchSize.getD ⟨50, by decide⟩

/-- One turn of the batch loop. -/
structure Batch where
  slice : List (Address × ℤ)
  isFinalBatch : Bool
  deriving DecidableEq, Repr

/-- The turns of the batch loop, from the values `start` and `batchCount` of its variables on. The
loop runs once for an empty list, since the first turn does not look at the length. -/
def batches (size : {n : ℕ // 0 < n}) (holderBalances : List (Address × ℤ))
    (start batchCount : ℕ) : List Batch :=
  if start < holderBalances.length ∨ batchCount = 0 then
    let batch : Batch := ⟨(holderBalances.drop start).take size,
      decide (holderBalances.length ≤ start + size)⟩
    if holderBalances.length = 0 then [batch]
    else batch :: batches size holderBalances (start + size) (batchCount + 1)
  else []
termination_by (holderBalances.length - start) + (if batchCount = 0 then 1 else 0)
decreasing_by
  have := size.2
  simp only [if_false]
  split
  · omega
  · omega

/-- The arguments `distributeCoupon` passes for one batch. -/
def couponArgs (adminAddress : Address) (id : BondId) (dto : DistributeCouponDto) (batch : Batch) :
    Option (List ScVal) := do
  let holdersScVal ← holdersCodec.encode batch.slice
  return [← addressCodec.encode adminAddress, ← u64Codec.encode id,
    ← u32Codec.encode dto.periodIndex, holdersScVal, ← u64Codec.encode dto.reportId,
    ← boolCodec.encode batch.isFinalBatch]

/-- The argument vectors `distributeCoupon` sends, one for each batch; `none` where a value cannot
be encoded. The nonces are those `nonceService.next` hands out. -/
def distributeCoupon (issuer : BondIssuer.State) (id : BondId) (dto : DistributeCouponDto)
    (adminAddress : Address) (dbHolders : List (Option Address)) (nonces : ℕ → ℕ) :
    List (Option (List ScVal)) :=
  (batches dto.size (holderBalances issuer id dbHolders) 0 0).zipIdx.map fun x => do
    let args ← couponArgs adminAddress id dto x.1
    invokeContractMethod args (nonces x.2)

section Batches

variable (size : {n : ℕ // 0 < n}) (holders : List (Address × ℤ))

/-- The slices put together are the list. -/
theorem batches_slices (start batchCount : ℕ) :
    ((batches size holders start batchCount).map Batch.slice).flatten = holders.drop start := by
  -- the turns of the loop: an empty list, one more slice, the end
  fun_induction batches size holders start batchCount with
  | case1 start batchCount hturn batch hempty =>
    have hnil : holders = [] := List.length_eq_zero_iff.mp hempty
    simp [batch, hnil]
  | case2 start batchCount hturn batch hempty ih =>
    rw [List.map_cons, List.flatten_cons, ih, ← List.drop_drop]
    exact List.take_append_drop _ _
  | case3 start batchCount hdone =>
    rw [not_or, not_lt] at hdone
    exact (List.drop_eq_nil_of_le hdone.1).symm

/-- The flag is set on the last turn and on no other. The turn that reaches the end sets it, and the
one after that is not taken. -/
theorem batches_flags_from (start batchCount : ℕ)
    (hturn : start < holders.length ∨ batchCount = 0 ∧ start = 0) :
    ∃ k, (batches size holders start batchCount).map Batch.isFinalBatch =
      List.replicate k false ++ [true] := by
  fun_induction batches size holders start batchCount with
  | case1 start batchCount _ batch hempty =>
    exact ⟨0, by simp [batch, hempty]⟩
  | case2 start batchCount _ batch hempty ih =>
    -- there is a further turn exactly if this slice does not reach the end
    rcases lt_or_ge (start + size) holders.length with hlt | hge
    · obtain ⟨k, hk⟩ := ih (Or.inl hlt)
      refine ⟨k + 1, ?_⟩
      rw [List.map_cons, hk]
      simp [batch, hlt, List.replicate_succ]
    · -- the next turn is not taken
      have hrest : batches size holders (start + size) (batchCount + 1) = [] := by
        rw [batches, if_neg]
        omega
      exact ⟨0, by simp [batch, hrest, hge]⟩
  | case3 start batchCount hdone =>
    exact absurd (hturn.imp_right And.left) hdone

/-- **The flags**: the loop takes at least one turn, and the last one alone is final. A request over
no holders thus has one batch, which is empty and final. -/
theorem batches_flags : ∃ k, (batches size holders 0 0).map Batch.isFinalBatch =
    List.replicate k false ++ [true] :=
  batches_flags_from size holders 0 0 (Or.inr ⟨rfl, rfl⟩)

end Batches

/-! ### What the vectors decode to -/

section Vectors

variable {admin : Address} {id : BondId} {dto : DistributeCouponDto} {batch : Batch} {nonce : ℕ}
  {args vector : List ScVal}

/-- What `couponArgs` puts in a vector, when every value can be encoded. An address and a flag can
always be encoded, a number only if it is in the range of its type. -/
theorem couponArgs_eq_some :
    couponArgs admin id dto batch = some args ↔
      ∃ bond period holders report, u64Codec.encode id = some bond ∧
        u32Codec.encode dto.periodIndex = some period ∧
        holdersCodec.encode batch.slice = some holders ∧
        u64Codec.encode dto.reportId = some report ∧
        args = [.address admin, bond, period, holders, report, .bool batch.isFinalBatch] := by
  simp only [couponArgs, addressCodec_encode, boolCodec_encode, Option.bind_eq_bind,
    Option.bind_eq_some_iff, Option.pure_def, Option.some.injEq]
  constructor
  · rintro ⟨holders, hholders, _, rfl, bond, hbond, period, hperiod, report, hreport, _, rfl, rfl⟩
    exact ⟨bond, period, holders, report, hbond, hperiod, hholders, hreport, rfl⟩
  · rintro ⟨bond, period, holders, report, hbond, hperiod, hholders, hreport, rfl⟩
    exact ⟨holders, hholders, _, rfl, bond, hbond, period, hperiod, report, hreport, _, rfl, rfl⟩

/-- **The order of the API does not decode.** The flag of a batch stands where the contract reads
the nonce. -/
theorem params_of_couponArgs (hargs : couponArgs admin id dto batch = some args)
    (hvector : invokeContractMethod args nonce = some vector) :
    distributeCouponParams vector = none := by
  obtain ⟨bond, period, holders, report, -, -, -, -, rfl⟩ := couponArgs_eq_some.mp hargs
  simp only [invokeContractMethod, Option.bind_eq_bind, Option.bind_eq_some_iff, Option.pure_def,
    Option.some.injEq] at hvector
  obtain ⟨nonceScVal, -, rfl⟩ := hvector
  rw [Option.eq_none_iff_forall_ne_some]
  intro op hop
  simp only [List.cons_append, List.nil_append, distributeCouponParams, u64Codec_decode_bool,
    Option.bind_eq_bind, Option.bind_eq_some_iff] at hop
  -- the decoder stops at the sixth position
  obtain ⟨_, -, _, -, _, -, _, -, _, -, _, hnonce, -⟩ := hop
  cases hnonce

/-- **The order of the contract decodes**, to the call that was meant. So it is the order alone that
is wrong, and no value. -/
theorem params_of_order {nonceScVal bond period holders report : ScVal}
    (hbond : u64Codec.encode id = some bond)
    (hperiod : u32Codec.encode dto.periodIndex = some period)
    (hholders : holdersCodec.encode batch.slice = some holders)
    (hreport : u64Codec.encode dto.reportId = some report)
    (hnonce : u64Codec.encode nonce = some nonceScVal) :
    distributeCouponParams [.address admin, bond, period, holders, report, nonceScVal,
        .bool batch.isFinalBatch] =
      some (.distributeCoupon admin id dto.periodIndex batch.slice dto.reportId nonce
        batch.isFinalBatch) := by
  simp only [distributeCouponParams, addressCodec_decode, boolCodec_decode,
    u64Codec.roundtrip hbond, u32Codec.roundtrip hperiod, holdersCodec.roundtrip hholders,
    u64Codec.roundtrip hreport, u64Codec.roundtrip hnonce]
  rfl

end Vectors

/-! ### What a distribution asks for -/

/-- Every holder of every reached state is listed. -/
theorem listed_of_run {h : List Call} {w : World} (hrun : Run h w) :
    BondIssuer.Listed w.issuer := by
  refine hrun.induction (P := fun _ w => BondIssuer.Listed w.issuer) ?_ ?_
  · intro w hinit
    obtain ⟨admin, hadmin⟩ := hinit.issuer
    rw [hadmin]
    exact BondIssuer.Listed.initial admin
  · intro h w t op r w' hrun _ hexec hL
    -- only the issuer moves what its list is about
    cases step_of_exec hexec with
    | issuer hop => exact hL.step (ledger_of_run hrun) hop
    | registry _ _ _ => exact hL
    | oracle _ => exact hL
    | engine _ => exact hL
    | retirement _ => exact hL

/-- **The slices** hold every address with a positive balance once, with that balance. This part of
the service is right: what is lost is lost after it. -/
theorem batches_cover {h : List Call} {w : World} (hrun : Run h w) (id : BondId)
    (dto : DistributeCouponDto) (dbHolders : List (Option Address)) {listed : List (Address × ℤ)}
    (hlisted : listed = ((batches dto.size (holderBalances w.issuer id dbHolders) 0 0).map
      Batch.slice).flatten) :
    (listed.map Prod.fst).Nodup ∧
      ∀ a n, (a, n) ∈ listed ↔ n = BondIssuer.getHolderBalance w.issuer id a ∧ 0 < n := by
  rw [batches_slices, List.drop_zero] at hlisted
  -- the slices put together are the resolved list
  rw [hlisted]
  exact ⟨nodup_holderBalances _ _ _, fun a n => mem_holderBalances_of_listed (listed_of_run hrun)⟩

/-- The holders a call of `CouponEngine` lists. -/
def listedHolders : CouponEngine.Op → List (Address × ℤ)
  | .distributeCoupon _ _ _ holders _ _ _ => holders
  | _ => []

/-- Whether a call of `CouponEngine` is a final batch. -/
def isFinal : CouponEngine.Op → Bool
  | .distributeCoupon _ _ _ _ _ _ isFinalBatch => isFinalBatch
  | _ => false

/-- The vectors decode to calls that list every address with a positive balance once, of which the
last one alone is final, and which distribute period `p` of bond `id` when they are made. -/
structure Completing (now : ℕ) (w : World) (id : BondId) (p : ℕ)
    (vectors : List (Option (List ScVal))) (calls : List CouponEngine.Op) : Prop where
  decoded : vectors.map (fun vector => vector.bind distributeCouponParams) = calls.map some
  distinct : ((calls.flatMap listedHolders).map Prod.fst).Nodup
  listed : ∀ a n, (a, n) ∈ calls.flatMap listedHolders ↔
    n = BondIssuer.getHolderBalance w.issuer id a ∧ 0 < n
  final : ∃ k, calls.map isFinal = List.replicate k false ++ [true]
  distributed : ∃ h w' info,
    machine.play [] w (calls.map fun op => (now, .engine op)) = some (h, w') ∧
      w'.engine.periodInfo (id, p) = some info ∧ info.distributed = true

section Requests

variable (issuer : BondIssuer.State) (id : BondId) (dto : DistributeCouponDto) (admin : Address)
  (dbHolders : List (Option Address)) (nonces : ℕ → ℕ)

/-- No vector of a request decodes. -/
theorem distributeCoupon_undecodable :
    ∀ vector ∈ distributeCoupon issuer id dto admin dbHolders nonces,
      vector.bind distributeCouponParams = none := by
  intro vector hvector
  obtain ⟨⟨batch, i⟩, -, rfl⟩ := List.mem_map.mp hvector
  -- a value that cannot be encoded, a nonce that cannot, or a vector in the wrong order
  dsimp only
  cases hargs : couponArgs admin id dto batch with
  | none => rfl
  | some args =>
    cases hsent : invokeContractMethod args (nonces i) with
    | none => simp [hsent]
    | some sent => simpa [hsent] using params_of_couponArgs hargs hsent

/-- A request makes at least one call. -/
theorem distributeCoupon_ne_nil : distributeCoupon issuer id dto admin dbHolders nonces ≠ [] := by
  intro hnil
  obtain ⟨k, hflags⟩ := batches_flags dto.size (holderBalances issuer id dbHolders)
  have hempty : batches dto.size (holderBalances issuer id dbHolders) 0 0 = [] := by
    rw [distributeCoupon, List.map_eq_nil_iff, List.zipIdx_eq_nil_iff] at hnil
    exact hnil
  -- a loop of no turn would have no final flag
  rw [hempty, List.map_nil] at hflags
  have hlength := congrArg List.length hflags
  rw [List.length_append] at hlength
  simp at hlength

/-- Vectors of which none decodes complete nothing. -/
theorem not_completing_of_undecodable {now : ℕ} {w : World} {p : ℕ}
    {vectors : List (Option (List ScVal))} (hne : vectors ≠ [])
    (hvectors : ∀ vector ∈ vectors, vector.bind distributeCouponParams = none) :
    ¬ ∃ calls, Completing now w id p vectors calls := by
  rintro ⟨calls, hcompleting⟩
  obtain ⟨vector, rest, rfl⟩ := List.exists_cons_of_ne_nil hne
  -- the first vector would have to decode
  have hdecoded := hcompleting.decoded
  rw [List.map_cons, hvectors vector List.mem_cons_self] at hdecoded
  cases calls with
  | nil => cases hdecoded
  | cons call calls =>
    rw [List.map_cons, List.cons.injEq] at hdecoded
    exact nomatch hdecoded.1

end Requests

/-- **Coupon distribution through the API.** Whatever the state of the protocol, the request, the
Redis set and the nonces are, the vectors that `distributeCoupon` sends do not decode to calls that
distribute the period; none of them decodes at all. The flag of the final batch and the nonce stand
in each other's place, and a boolean is no `u64`. -/
theorem distributeCoupon_never_completes (now : ℕ) (w : World) (id : BondId)
    (dto : DistributeCouponDto) (admin : Address) (dbHolders : List (Option Address))
    (nonces : ℕ → ℕ) :
    (¬ ∃ calls, Completing now w id dto.periodIndex
      (distributeCoupon w.issuer id dto admin dbHolders nonces) calls) ∧
    ∀ vector ∈ distributeCoupon w.issuer id dto admin dbHolders nonces,
      vector.bind distributeCouponParams = none := by
  have hvectors := distributeCoupon_undecodable w.issuer id dto admin dbHolders nonces
  have hne := distributeCoupon_ne_nil w.issuer id dto admin dbHolders nonces
  exact ⟨not_completing_of_undecodable id hne hvectors, hvectors⟩

/-- One holder with ten tokens, a verified report, and a period that was not started. -/
def undistributed : List (ℕ × Protocol.Op) :=
  onboard ⟨0⟩ ⟨5⟩ ⟨1⟩ ⟨2⟩ ⟨100⟩ ⟨102⟩ 7 ++
  [(1, .oracle (.submitReport ⟨1⟩ 1 0 10 50000 .absent "VM0007" 3 0)),
    (1, .oracle (.verifyReport ⟨2⟩ 1 0)),
    (1, .issuer (.issueBond ⟨0⟩ ⟨7, 1000, [50], .carbon, 9000000, 100⟩ 0)),
    (1, .issuer (.subscribe ⟨8⟩ 1 10 0)),
    (1, .engine (.registerBond ⟨0⟩ 1 7 0))]

/-- The values of the one call such a request makes, in the contract's order. -/
def inOrder : List ScVal :=
  [.address ⟨0⟩, .u64 1, .u32 1, .vec [.vec [.address ⟨8⟩, .i128 ⟨10, by decide⟩]], .u64 1, .u64 1,
    .bool true]

/-- The request does not complete the period; its values in the contract's order would. The only
difference is where the nonce stands. -/
theorem distributeCoupon_one_holder :
    ∃ h w, Run h w ∧ w.engine.periodInfo (1, 1) = none ∧ w.engine.batchState (1, 1) = none ∧
      w.engine.nonce ⟨0⟩ = 1 ∧
      (∃ report, w.oracle.report 1 = some report ∧ report.status = .verified ∧
        w.engine.bondProject 1 = some report.projectMetadataHash) ∧
      (¬ ∃ calls, Completing 2 w 1 1
        (distributeCoupon w.issuer 1 ⟨1, 1, none⟩ ⟨0⟩ [] fun i => 1 + i) calls) ∧
      ∃ calls, Completing 2 w 1 1 [some inOrder] calls := by
  let call : CouponEngine.Op := .distributeCoupon ⟨0⟩ 1 1 [(⟨8⟩, 10)] 1 1 true
  have hplay : (machine.play [] (deploy ⟨0⟩ ⟨100⟩ ⟨101⟩ ⟨102⟩) undistributed).map
      (fun x => decide (x.2.engine.periodInfo (1, 1) = none ∧
        x.2.engine.batchState (1, 1) = none ∧ x.2.engine.nonce ⟨0⟩ = 1 ∧
        (x.2.oracle.report 1).map (fun report =>
          (report.status, some report.projectMetadataHash)) =
            some (.verified, x.2.engine.bondProject 1) ∧
        (x.2.issuer.bondState 1).map (·.totalSubscribed) =
          some (([⟨8⟩] : List Address).map fun a =>
            BondIssuer.getHolderBalance x.2.issuer 1 a).sum ∧
        remaining x.2 1 1 [⟨8⟩] = [(⟨8⟩, 10)] ∧
        (machine.play [] x.2 [(2, .engine call)]).bind
          (fun y => (y.2.engine.periodInfo (1, 1)).map (·.distributed)) = some true)) =
      some true := by decide
  obtain ⟨h, w, hrun, hview⟩ := Run.of_play (Init.deploy ⟨0⟩ ⟨100⟩ ⟨101⟩ ⟨102⟩) hplay
  obtain ⟨hinfo, hbatch, hnonce, hreport, htotal, hremaining, hcompletes⟩ := of_decide_eq_true hview
  obtain ⟨report, hfound, hreport⟩ := Option.map_eq_some_iff.mp hreport
  obtain ⟨hverified, hproject⟩ := Prod.mk.inj hreport
  obtain ⟨st, hst, hsum⟩ := Option.map_eq_some_iff.mp htotal
  refine ⟨h, w, hrun, hinfo, hbatch, hnonce, ⟨report, hfound, hverified, hproject.symm⟩, ?_, [call],
    ?_⟩
  · exact not_completing_of_undecodable 1 (distributeCoupon_ne_nil _ _ _ _ _ _)
      (distributeCoupon_undecodable _ _ _ _ _ _)
  · have hholders : Remaining w 1 1 [(⟨8⟩, 10)] := by
      rw [← hremaining]
      exact Remaining.computed (ledger_of_run hrun) hst (List.nodup_singleton _) hsum.symm
    obtain ⟨⟨h', w'⟩, hplayed, hdistributed⟩ := Option.bind_eq_some_iff.mp hcompletes
    obtain ⟨info, hinfo', hdistributed⟩ := Option.map_eq_some_iff.mp hdistributed
    refine ⟨rfl, List.nodup_singleton _, ?_, ⟨0, rfl⟩, h', w', info, hplayed, hinfo',
      hdistributed⟩
    intro a n
    refine (hholders.listed a n).trans ⟨fun ⟨hn, hpos, _⟩ => ⟨hn, hpos⟩, ?_⟩
    rintro ⟨hn, hpos⟩
    refine ⟨hn, hpos, Bool.eq_false_iff.mpr ?_⟩
    intro hmark
    -- nobody was processed in a period that was not started
    rcases marked_of_run hrun 1 1 a hmark with hstarted | hclosed
    · exact hstarted hbatch
    · exact hclosed hinfo

end BondsService
end NbsBond
