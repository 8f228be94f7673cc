import NbsBond.CouponEngine.ProRata
import NbsBond.Protocol.Batching
import NbsBond.Protocol.Credits

/-!
# Pro-rata allocation in the running protocol

The figures of a period are fixed by the call that opens it: the credits the report is worth and the
snapshot of `total_subscribed`. If the products of credits and scale fit an `i128` there, then in
whatever batches the period is distributed, and whatever is called in between, every paid holder
receives its pro-rata allocation, and what is left when the period is closed becomes dust
(`pro_rata_bounds`).
-/

namespace NbsBond
namespace Protocol

open Soroban OracleConsumer CouponEngine

variable {b : BondId} {p : ℕ} {h : List Call} {w w' : World} {o : Opening}

/-! ### What the history says of a period -/

/-- The period a call distributes. -/
def Op.period : Op → Option (BondId × ℕ)
  | .engine (.distributeCoupon _ b p _ _ _ _) => some (b, p)
  | _ => none

/-- The entries of holders and balances that a committed call paid for period `(b, p)`. -/
def paidIn (b : BondId) (p : ℕ) (c : Call) : List (Address × ℤ) :=
  match c.op with
  | .engine (.distributeCoupon _ b' p' holders _ _ _) =>
    if (b', p') = (b, p) then fresh (marks c.pre.engine b p) holders else []
  | _ => []

/-- The entries that were paid for period `(b, p)`. -/
def paid (b : BondId) (p : ℕ) (h : List Call) : List (Address × ℤ) := h.flatMap (paidIn b p)

/-- The figures with which period `(b, p)` was opened. -/
def opened (b : BondId) (p : ℕ) (h : List Call) : Option Opening :=
  h.findSome? fun c => if c.op.period = some (b, p) then opening c.pre c.op else none

theorem paid_cons (c : Call) : paid b p (c :: h) = paidIn b p c ++ paid b p h := List.flatMap_cons

theorem opened_cons_self {c : Call} (hc : c.op.period = some (b, p)) :
    opened b p (c :: h) = (opening c.pre c.op).or (opened b p h) := by
  unfold opened
  rw [List.findSome?_cons, if_pos hc]
  cases opening c.pre c.op <;> rfl

theorem opened_cons_of_ne {c : Call} (hc : c.op.period ≠ some (b, p)) :
    opened b p (c :: h) = opened b p h := by
  unfold opened
  rw [List.findSome?_cons, if_neg hc]

theorem Op.eq_of_period {op : Op} (h : op.period = some (b, p)) :
    ∃ caller holders reportId nonce isFinalBatch,
      op = .engine (.distributeCoupon caller b p holders reportId nonce isFinalBatch) := by
  unfold Op.period at h
  split at h
  · cases h
    exact ⟨_, _, _, _, _, rfl⟩
  · cases h

/-- Another call pays nothing for the period. -/
theorem paidIn_eq_nil {c : Call} (hc : c.op.period ≠ some (b, p)) : paidIn b p c = [] := by
  unfold paidIn
  split
  · next hop =>
    rw [hop] at hc
    apply if_neg
    rintro heq
    exact hc (congrArg some heq)
  · rfl

/-! ### The invariant of a period -/

/-- What a period allots to a balance. -/
def Opening.allotted (o : Opening) (balance : ℤ) : Credits :=
  CouponEngine.allotted o.totals o.supply balance

/-- What was allotted to the entries that were paid. -/
def given (b : BondId) (p : ℕ) (o : Opening) (h : List Call) : Credits :=
  ((paid b p h).map fun entry => o.allotted entry.2).sum

/-- Every address was paid once, for a positive balance, and received its allotment. An address that
appears again was passed over, whatever balance was given for it. -/
structure PaidOut (b : BondId) (p : ℕ) (o : Opening) (h : List Call) : Prop where
  nodup : ((paid b p h).map Prod.fst).Nodup
  positive : ∀ entry ∈ paid b p h, 0 < entry.2
  allocated : ∀ c ∈ h, c.op.period = some (b, p) →
    Allocated b p o.allotted (paidIn b p c) c.pre.engine c.post.engine

/-- A period in progress. The history says who was paid, and the tables what was paid; the fields
bring the two together. -/
structure Running (b : BondId) (p : ℕ) (o : Opening) (creditType : CreditType)
    (progress : Progress) (h : List Call) (w : World) : Prop where
  paidOut : PaidOut b p o h
  batch : Batch (fun _ => True) creditType progress
  totals : totals progress.batch = o.totals
  supply : progress.totalSubscribed = o.supply
  rates : ProRataRates creditType progress.batch progress.totalSubscribed
  nonneg : 0 ≤ o.totals
  marked : ∀ a, marks w.engine b p a = true ↔ a ∈ (paid b p h).map Prod.fst
  processed : progress.processedBalance = ((paid b p h).map Prod.snd).sum
  granted : soFar progress.batch = given b p o h

/-- A closed period: its record, and what the call that closed it left to the dust. It is stated
with the history up to now, since the record does not change any more. -/
structure Closed (b : BondId) (p : ℕ) (o : Opening) (info : PeriodInfo) (h : List Call) :
    Prop where
  paidOut : PaidOut b p o h
  nonneg : 0 ≤ o.totals
  supply : ((paid b p h).map Prod.snd).sum = o.supply
  earned : info.totalCreditsEarned = (given b p o h).total
  undistributed : info.undistributed = (o.totals - given b p o h).total
  dust : ∃ c ∈ h, c.op.period = some (b, p) ∧ c.post.engine.periodInfo (b, p) = some info ∧
    dust c.post.engine b = dust c.pre.engine b + (o.totals - given b p o h) ∧
    c.post.engine.undistributedTotal b =
      c.pre.engine.undistributedTotal b + (o.totals - given b p o h).total

/-- Another call leaves what the period paid out alone. -/
theorem PaidOut.frame (hL : PaidOut b p o h) {c : Call} (hc : c.op.period ≠ some (b, p)) :
    paid b p (c :: h) = paid b p h ∧ PaidOut b p o (c :: h) := by
  have hpaid : paid b p (c :: h) = paid b p h := by
    rw [paid_cons, paidIn_eq_nil hc, List.nil_append]
  refine ⟨hpaid, hpaid ▸ hL.nodup, hpaid ▸ hL.positive, ?_⟩
  rw [List.forall_mem_cons]
  exact ⟨fun hperiod => absurd hperiod hc, hL.allocated⟩

theorem given_congr {h' : List Call} (hpaid : paid b p h' = paid b p h) :
    given b p o h' = given b p o h := by
  unfold given
  rw [hpaid]

theorem Running.frame {creditType : CreditType} {progress : Progress}
    (hR : Running b p o creditType progress h w) {c : Call} (hc : c.op.period ≠ some (b, p))
    (hmarks : marks w'.engine b p = marks w.engine b p) :
    Running b p o creditType progress (c :: h) w' := by
  obtain ⟨hpaid, hpaidOut⟩ := hR.paidOut.frame hc
  refine { hR with paidOut := hpaidOut, marked := ?_, processed := ?_, granted := ?_ }
  · rw [hmarks, hpaid]
    exact hR.marked
  · rw [hpaid]
    exact hR.processed
  · rw [given_congr hpaid]
    exact hR.granted

theorem Closed.frame {info : PeriodInfo} (hC : Closed b p o info h) {c : Call}
    (hc : c.op.period ≠ some (b, p)) : Closed b p o info (c :: h) := by
  obtain ⟨hpaid, hpaidOut⟩ := hC.paidOut.frame hc
  obtain ⟨c₀, hmem, hrest⟩ := hC.dust
  rw [← given_congr hpaid] at hrest
  refine ⟨hpaidOut, hC.nonneg, ?_, ?_, ?_, c₀, List.mem_cons_of_mem c hmem, hrest⟩
  · rw [hpaid]
    exact hC.supply
  · rw [given_congr hpaid]
    exact hC.earned
  · rw [given_congr hpaid]
    exact hC.undistributed

/-- **A batch** of a period in progress. The payments of the call come to those of the history. -/
theorem Running.batch_step {creditType : CreditType} {progress progress' : Progress} {c : Call}
    (hR : Running b p o creditType progress h c.pre)
    (hA : Allots b p creditType progress progress' (paidIn b p c) c.pre.engine c.post.engine)
    (hfresh : ((paidIn b p c).map Prod.fst).Nodup ∧
      ∀ entry ∈ paidIn b p c, 0 < entry.2 ∧ marks c.pre.engine b p entry.1 = false) :
    Running b p o creditType progress' (c :: h) c.post := by
  have hallotted : CouponEngine.allotted (CouponEngine.totals progress.batch)
      progress.totalSubscribed = o.allotted := by
    unfold Opening.allotted
    rw [hR.totals, hR.supply]
  have hallocated := hA.allocated
  rw [hallotted] at hallocated
  refine ⟨⟨?_, ?_, ?_⟩, hA.batch, hA.totals.trans hR.totals, hA.supply.trans hR.supply, hA.rates,
    hR.nonneg, ?_, ?_, ?_⟩
  · -- who is paid now was not marked, and who was paid before was
    rw [paid_cons, List.map_append]
    apply List.Nodup.append hfresh.1 hR.paidOut.nodup
    intro a hnow hbefore
    obtain ⟨entry, hentry, rfl⟩ := List.mem_map.mp hnow
    have hmarked := (hR.marked entry.1).mpr hbefore
    rw [(hfresh.2 entry hentry).2] at hmarked
    cases hmarked
  · rw [paid_cons]
    intro entry hentry
    rcases List.mem_append.mp hentry with hnow | hbefore
    · exact (hfresh.2 entry hnow).1
    · exact hR.paidOut.positive entry hbefore
  · rw [List.forall_mem_cons]
    exact ⟨fun _ => hallocated, hR.paidOut.allocated⟩
  · intro a
    rw [hallocated.marked, hR.marked, paid_cons, List.map_append, List.mem_append, or_comm]
  · rw [hA.processed, hR.processed, paid_cons, List.map_append, List.sum_append, add_comm]
  · rw [hA.soFar, hR.granted, hallotted]
    unfold given
    rw [paid_cons, List.map_append, List.sum_append, add_comm]

/-- **Closing** the period after its last batch. What was processed is then all that was subscribed
when the period was opened. -/
theorem Running.close {creditType : CreditType} {progress : Progress} {c : Call}
    {info : PeriodInfo} (hR : Running b p o creditType progress (c :: h) c.post)
    (hc : c.op.period = some (b, p)) (hinfo : c.post.engine.periodInfo (b, p) = some info)
    (hF : Closes b progress info c.pre.engine c.post.engine) : Closed b p o info (c :: h) := by
  have hleft : CouponEngine.totals progress.batch - soFar progress.batch =
      o.totals - given b p o (c :: h) := by
    rw [hR.totals, hR.granted]
  have htotal : progress.batch.totalCredits - progress.batch.distributedSoFar =
      (o.totals - given b p o (c :: h)).total := by
    rw [← hleft, hR.batch.total, hR.batch.paid]
    simp only [Credits.total, Prod.fst_sub, Prod.snd_sub]
    ring
  have hnonneg : 0 ≤ o.totals - given b p o (c :: h) := hleft ▸ hR.batch.remainder_nonneg trivial
  refine ⟨hR.paidOut, hR.nonneg, ?_, ?_, ?_, c, List.mem_cons_self, hc, hinfo, ?_, ?_⟩
  · rw [← hR.processed, hF.processed, hR.supply]
  · rw [hF.earned, hR.batch.paid, hR.granted]
  · rw [hF.undistributed, htotal]
  · rw [hF.dust, hleft, positivePart_of_nonneg hnonneg]
  · rw [hF.combined, htotal, max_eq_left]
    exact add_nonneg hnonneg.1 hnonneg.2

/-! ### Every period of a run -/

/-- Where period `(b, p)` stands, and what is known of it if its products fit. A period is never
reopened, so these three follow each other. -/
inductive Tracked (b : BondId) (p : ℕ) (h : List Call) (w : World) : Prop
  | unstarted (hbatch : w.engine.batchState (b, p) = none)
      (hinfo : w.engine.periodInfo (b, p) = none) (hnone : ∀ c ∈ h, c.op.period ≠ some (b, p))
  | running {creditType : CreditType} {o : Opening} {progress : Progress}
      (hopened : opened b p h = some o) (htype : w.engine.bondCreditType b = some creditType)
      (hbatch : w.engine.batchState (b, p) = some progress.batch)
      (hbalance : w.engine.distributionBalance (b, p) =
        some (progress.totalSubscribed, progress.processedBalance))
      (hinfo : w.engine.periodInfo (b, p) = none)
      (hexact : 0 < o.supply → Fits o.totals o.supply →
        Running b p o creditType progress h w)
  | closed {o : Opening} {info : PeriodInfo} (hopened : opened b p h = some o)
      (hinfo : w.engine.periodInfo (b, p) = some info) (hdistributed : info.distributed = true)
      (hexact : 0 < o.supply → Fits o.totals o.supply → Closed b p o info h)

/-- A call that is no distribution of the period leaves it where it stands. -/
theorem Tracked.frame (hT : Tracked b p h w) {t : ℕ} {op : Op} {r : Ret}
    (hop : op.period ≠ some (b, p))
    (hbatches : w'.engine.batchState (b, p) = w.engine.batchState (b, p))
    (hinfos : w'.engine.periodInfo (b, p) = w.engine.periodInfo (b, p))
    (hbalances : w'.engine.distributionBalance (b, p) = w.engine.distributionBalance (b, p))
    (hmarks : marks w'.engine b p = marks w.engine b p)
    (htypes : ∀ creditType, w.engine.bondCreditType b = some creditType →
      w'.engine.bondCreditType b = some creditType) :
    Tracked b p (⟨t, w, op, r, w'⟩ :: h) w' := by
  have hopened : opened b p (⟨t, w, op, r, w'⟩ :: h) = opened b p h := opened_cons_of_ne hop
  cases hT with
  | unstarted hbatch hinfo hnone =>
    refine .unstarted (hbatches.trans hbatch) (hinfos.trans hinfo) ?_
    rw [List.forall_mem_cons]
    exact ⟨hop, hnone⟩
  | running ho htype hbatch hbalance hinfo hexact =>
    refine .running (hopened.trans ho) (htypes _ htype) (hbatches.trans hbatch)
      (hbalances.trans hbalance) (hinfos.trans hinfo) ?_
    intro hsupply hfits
    exact (hexact hsupply hfits).frame hop hmarks
  | closed ho hinfo hdistributed hexact =>
    refine .closed (hopened.trans ho) (hinfos.trans hinfo) hdistributed ?_
    intro hsupply hfits
    exact (hexact hsupply hfits).frame hop

/-- Before its first batch a period is in progress with nothing paid. -/
theorem Running.start {deps : Deps} {projectId : Bytes32} {creditType : CreditType}
    {reportId : ReportId} {report : Report} {supply : ℤ} {batch : BatchState}
    (hO : Opened deps b projectId creditType reportId report supply batch)
    (hworth : 0 ≤ worth report) (hnone : ∀ c ∈ h, c.op.period ≠ some (b, p))
    (hunmarked : ∀ a, marks w.engine b p a = false) (hsupply : 0 < supply)
    (hfits : Fits (CouponEngine.totals batch) supply) :
    Running b p ⟨creditType, CouponEngine.totals batch, supply⟩ creditType ⟨batch, supply, 0⟩ h
      w := by
  have hpaid : paid b p h = [] := by
    unfold paid
    rw [List.flatMap_eq_nil_iff]
    exact fun c hc => paidIn_eq_nil (hnone c hc)
  have hnonneg := creditTotals_nonneg hworth hO.credits
  obtain ⟨hcarbon, hbio⟩ := hfits hsupply
  refine ⟨⟨?_, ?_, ?_⟩, hO.batch_ok hworth hsupply.le fun _ => hfits, rfl, rfl, ?_, hnonneg, ?_, ?_,
    ?_⟩
  · rw [hpaid]
    exact List.nodup_nil
  · rw [hpaid]
    intro entry hentry
    cases hentry
  · intro c hc hperiod
    exact absurd hperiod (hnone c hc)
  · show CouponEngine.rates creditType batch = _
    -- neither product wrapped, so the stored rates are those of the allocation
    have hcarbonRate := perToken_eq hnonneg.1 hsupply hcarbon
    have hbioRate := perToken_eq hnonneg.2 hsupply hbio
    rw [hO.rates_eq]
    exact Prod.ext hcarbonRate hbioRate
  · intro a
    simp [hunmarked a, hpaid]
  · rw [hpaid]
    rfl
  · show CouponEngine.soFar batch = _
    rw [hO.computed, given, hpaid]
    rfl

/-- A batch starts from a period in progress: one that was, or one it has just opened. -/
theorem Tracked.start (hT : Tracked b p h w) (hrun : Run h w) {c : Call} {caller : Address}
    {holders : List (Address × ℤ)} {reportId : ReportId} {nonce : ℕ} {isFinalBatch : Bool}
    (hpre : c.pre = w)
    (hop : c.op = .engine (.distributeCoupon caller b p holders reportId nonce isFinalBatch))
    {projectId : Bytes32} {creditType : CreditType} {progress : Progress}
    (htype : w.engine.bondCreditType b = some creditType)
    (hstart : startBatch w.deps w.engine b p projectId creditType reportId = .ok progress)
    (hopen : ∀ info, w.engine.periodInfo (b, p) = some info → info.distributed = false) :
    w.engine.periodInfo (b, p) = none ∧
      ∃ o, opened b p (c :: h) = some o ∧
        (0 < o.supply → Fits o.totals o.supply → Running b p o creditType progress h w) := by
  have hperiod : c.op.period = some (b, p) := by
    rw [hop]
    rfl
  rw [opened_cons_self hperiod, hpre, hop]
  cases hT with
  | unstarted hbatch hinfo hnone =>
    refine ⟨hinfo, ?_⟩
    obtain ⟨hresumed, -⟩ | ⟨-, hzero, report, hO⟩ := startBatch_ok hstart
    · rw [hbatch] at hresumed
      cases hresumed
    · have hworth := World.worth_nonneg (lifeCycle_of_run hrun) hO.found
      -- marks are left by batches, and this period had none
      have hunmarked : ∀ a, marks w.engine b p a = false := by
        intro a
        rw [← Bool.not_eq_true]
        intro hmarked
        rcases marked_of_run hrun b p a hmarked with hsome | hsome
        · exact hsome hbatch
        · exact hsome hinfo
      refine ⟨⟨creditType, totals progress.batch, progress.totalSubscribed⟩, ?_, ?_⟩
      · rw [opening_eq htype hbatch hO, Option.some_or]
      · intro hsupply hfits
        have hR := Running.start hO hworth hnone hunmarked hsupply hfits
        obtain ⟨batch, supply, processed⟩ := progress
        cases hzero
        exact hR
  | @running _ o stored ho htype' hbatch hbalance hinfo hexact =>
    refine ⟨hinfo, o, ?_, ?_⟩
    · -- a period that is in progress is not opened again
      have hnone : opening w (.engine (.distributeCoupon caller b p holders reportId nonce
          isFinalBatch)) = none := if_neg (by simp [hbatch])
      rw [hnone, Option.none_or, ho]
    · obtain ⟨hresumed, -, hbalance'⟩ | ⟨hnone, -⟩ := startBatch_ok hstart
      · have hsame : progress = stored := by
          rw [hbatch] at hresumed
          rw [hbalance] at hbalance'
          obtain ⟨batch, supply, processed⟩ := progress
          cases stored
          cases hresumed
          cases hbalance'
          rfl
        rw [htype] at htype'
        cases htype'
        exact hsame ▸ hexact
      · rw [hbatch] at hnone
        cases hnone
  | closed _ hinfo hdistributed _ =>
    -- a closed period takes no further batch
    rw [hopen _ hinfo] at hdistributed
    cases hdistributed

/-- A call of the protocol that is no distribution of the period leaves its tables alone. -/
theorem Step.keeps_period {t : ℕ} {op : Op} {r : Ret} (hstep : Step t w op w' r)
    (hop : op.period ≠ some (b, p)) :
    w'.engine.batchState (b, p) = w.engine.batchState (b, p) ∧
      w'.engine.periodInfo (b, p) = w.engine.periodInfo (b, p) ∧
      w'.engine.distributionBalance (b, p) = w.engine.distributionBalance (b, p) ∧
      marks w'.engine b p = marks w.engine b p := by
  rcases hstep.tables with ⟨op', _, rfl, hcall⟩ | ⟨-, hsame⟩
  · apply exec_keeps_period hcall
    rintro caller holders reportId nonce isFinalBatch rfl
    exact hop rfl
  · exact hsame.keeps_period b p

/-- **One call.** A call of another bond or of another period leaves this one where it is. -/
theorem Tracked.step (hT : Tracked b p h w) (hrun : Run h w) {t : ℕ} {op : Op} {r : Ret}
    (hstep : Step t w op w' r) : Tracked b p (⟨t, w, op, r, w'⟩ :: h) w' := by
  have htypes : ∀ creditType, w.engine.bondCreditType b = some creditType →
      w'.engine.bondCreditType b = some creditType :=
    fun _ htype => (periods_of_run hrun).keeps_type hstep htype
  by_cases hop : op.period = some (b, p)
  swap
  · -- the period stays where it stands
    obtain ⟨hbatches, hinfos, hbalances, hmarks⟩ := hstep.keeps_period hop
    exact hT.frame hop hbatches hinfos hbalances hmarks htypes
  obtain ⟨caller, holders, reportId, nonce, isFinalBatch, rfl⟩ := Op.eq_of_period hop
  cases hstep with
  | @engine _ s r hcall =>
    obtain ⟨hopen, projectId, creditType, progress, progress', htype, hstart, hallots, hafter⟩ :=
      exec_allocates hcall
    obtain ⟨c, hc⟩ : ∃ c : Call, c = ⟨t, w, .engine (.distributeCoupon caller b p holders reportId
      nonce isFinalBatch), .engine r, { w with engine := s }⟩ := ⟨_, rfl⟩
    rw [← hc]
    obtain ⟨hinfo, o, hopened, hrunning⟩ :=
      hT.start hrun (congrArg Soroban.Call.pre hc) (congrArg Soroban.Call.op hc) htype hstart hopen
    -- in the terms of the history
    have hadvanced : 0 < o.supply → Fits o.totals o.supply →
        Running b p o creditType progress' (c :: h) { w with engine := s } := by
      intro hsupply hfits
      have hR := hrunning hsupply hfits
      have hpaid : paidIn b p c = fresh (marks w.engine b p) holders := by
        rw [hc]
        exact if_pos rfl
      have hA := hallots hR.batch hR.rates
      have hsound := fresh_sound (marks w.engine b p) holders
      rw [← hpaid] at hA hsound
      subst hc
      exact hR.batch_step hA hsound
    rcases hafter with ⟨-, hbatch, hbalance, hinfo'⟩ | ⟨-, hbatch, info, hinfo', hcloses⟩
    · exact .running hopened (htypes _ htype) hbatch hbalance (hinfo'.trans hinfo) hadvanced
    · refine .closed hopened hinfo' hcloses.distributed ?_
      intro hsupply hfits
      subst hc
      exact (hadvanced hsupply hfits).close rfl hinfo' hcloses

theorem tracked_of_run (hrun : Run h w) (b : BondId) (p : ℕ) : Tracked b p h w := by
  apply hrun.induction (P := fun h w => Tracked b p h w)
  · -- a new engine has neither batches nor records
    intro w hinit
    obtain ⟨admin, hadmin⟩ := hinit.engine
    refine .unstarted ?_ ?_ ?_
    · rw [hadmin]
      rfl
    · rw [hadmin]
      rfl
    · intro c hc
      cases hc
  · intro h w t op r w' hrun _ hexec hT
    exact hT.step hrun (step_of_exec hexec)

/-! ### The bounds -/

/-- The bounds for one type: of `T` credits over a snapshot `S`, holders with the given balances get
their allotments, and `left` is left over. -/
structure Bounds (T S : ℤ) (balances : List ℤ) (left : ℤ) : Prop where
  share : ∀ x ∈ balances, ProRata.allot fixedPoint T S x * S ≤ T * x
  mono : Monotone (ProRata.allot fixedPoint T S)
  sum : (balances.map (ProRata.allot fixedPoint T S)).sum ≤ T
  rest : left = T - (balances.map (ProRata.allot fixedPoint T S)).sum
  nonneg : 0 ≤ left
  bound : left * fixedPoint < S + balances.length * fixedPoint

theorem Bounds.of_sum {T S : ℤ} {balances : List ℤ} (hT : 0 ≤ T) (hS : 0 < S)
    (hpos : ∀ x ∈ balances, 0 < x) (hsum : balances.sum = S) :
    Bounds T S balances (T - (balances.map (ProRata.allot fixedPoint T S)).sum) := by
  have hF : (0 : ℤ) < fixedPoint := by decide
  have hle := ProRata.sum_allot_le hF hT hS hsum.le
  exact ⟨fun x hx => ProRata.allot_le_share hF hS (hpos x hx).le, ProRata.allot_mono hF hT hS, hle,
    rfl, sub_nonneg.mpr hle, ProRata.remainder_lt hF hS hsum⟩

/-- The balances of the holders that were paid for period `(b, p)`. -/
def balances (b : BondId) (p : ℕ) (h : List Call) : List ℤ := (paid b p h).map Prod.snd

/-- What was given, type by type. -/
theorem given_eq : given b p o h =
    (((balances b p h).map (ProRata.allot fixedPoint o.totals.1 o.supply)).sum,
      ((balances b p h).map (ProRata.allot fixedPoint o.totals.2 o.supply)).sum) := by
  unfold given balances
  induction paid b p h with
  | nil => rfl
  | cons entry paid ih =>
    simp only [List.map_cons, List.sum_cons, ih]
    rfl

/-- Period `(b, p)`, closed with the record `info`, was a pro-rata allocation of the figures `o`
that left `left` over. -/
structure Apportioned (b : BondId) (p : ℕ) (o : Opening) (info : PeriodInfo) (left : Credits)
    (h : List Call) : Prop where
  /-- Every holder was paid once, for a positive balance. -/
  holders : ((paid b p h).map Prod.fst).Nodup
  positive : ∀ entry ∈ paid b p h, 0 < entry.2
  /-- Every batch gave the holders it paid their allotments, and nobody else anything. -/
  allotted : ∀ c ∈ h, c.op.period = some (b, p) →
    (∀ entry ∈ paidIn b p c,
      Received b entry.1 (o.allotted entry.2) c.pre.engine c.post.engine) ∧
    ∀ a, a ∉ (paidIn b p c).map Prod.fst → Received b a 0 c.pre.engine c.post.engine
  carbon : Bounds o.totals.1 o.supply (balances b p h) left.1
  biodiversity : Bounds o.totals.2 o.supply (balances b p h) left.2
  /-- The call that closed the period left the rest to the dust. -/
  dust : ∃ c ∈ h, c.op.period = some (b, p) ∧ c.post.engine.periodInfo (b, p) = some info ∧
    dust c.post.engine b = dust c.pre.engine b + left ∧
    c.post.engine.undistributedTotal b = c.pre.engine.undistributedTotal b + left.total
  earned : info.totalCreditsEarned = (o.totals - left).total
  undistributed : info.undistributed = left.total

theorem Closed.apportioned {info : PeriodInfo} (hC : Closed b p o info h) (hsupply : 0 < o.supply) :
    Apportioned b p o info (o.totals - given b p o h) h := by
  -- the loop skips entries without a positive balance
  have hpos : ∀ x ∈ balances b p h, 0 < x := by
    intro x hx
    obtain ⟨entry, hentry, rfl⟩ := List.mem_map.mp hx
    exact hC.paidOut.positive entry hentry
  refine ⟨hC.paidOut.nodup, hC.paidOut.positive, ?_, ?_, ?_, hC.dust, ?_, hC.undistributed⟩
  · intro c hc hperiod
    have hallocated := hC.paidOut.allocated c hc hperiod
    exact ⟨hallocated.received, hallocated.others⟩
  · rw [given_eq]
    exact .of_sum hC.nonneg.1 hsupply hpos hC.supply
  · rw [given_eq]
    exact .of_sum hC.nonneg.2 hsupply hpos hC.supply
  · rw [hC.earned, sub_sub_cancel]

/-- **Pro-rata allocation.** In every run, every closed period was opened with some figures, and if
tokens were subscribed and the products of the figures fit, then the period was a pro-rata
allocation of them, whatever the batches and the calls in between. The figures are those of the call
that opened the period, so later changes of the holdings or of the report do not matter. -/
theorem pro_rata_bounds (hrun : Run h w) {info : PeriodInfo}
    (hclosed : w.engine.periodInfo (b, p) = some info) :
    ∃ o, opened b p h = some o ∧ (0 < o.supply → Fits o.totals o.supply →
      ∃ left, Apportioned b p o info left h) := by
  cases tracked_of_run hrun b p with
  | unstarted _ hinfo _ =>
    rw [hinfo] at hclosed
    cases hclosed
  | running _ _ _ _ hinfo _ =>
    rw [hinfo] at hclosed
    cases hclosed
  | closed hopened hinfo _ hexact =>
    rw [hinfo] at hclosed
    cases hclosed
    refine ⟨_, hopened, ?_⟩
    intro hsupply hfits
    exact ⟨_, (hexact hsupply hfits).apportioned hsupply⟩

/-- A Basket period in two batches: of 7 and 5 credits over three tokens, one each is left over. -/
theorem pro_rata_bounds_basket :
    ∃ h w o info left, Run h w ∧ opened 1 0 h = some o ∧ o.totals = (7, 5) ∧ o.supply = 3 ∧
      balances 1 0 h = [2, 1] ∧ Apportioned 1 0 o info left h ∧ left.total = 2 := by
  let ops : List (ℕ × Op) := (onboard ⟨0⟩ ⟨5⟩ ⟨1⟩ ⟨2⟩ ⟨100⟩ ⟨102⟩ 7).append
    [(1, .oracle (.submitReport ⟨1⟩ 1 0 10 7000 (.present 5 0 0) "VM0007" 3 0)),
      (1, .oracle (.verifyReport ⟨2⟩ 1 0)),
      (1, .issuer (.issueBond ⟨0⟩ ⟨7, 1000, [50], .basket, 9000000, 100⟩ 0)),
      (1, .issuer (.subscribe ⟨8⟩ 1 1 0)),
      (1, .issuer (.subscribe ⟨9⟩ 1 2 0)),
      (1, .engine (.registerBond ⟨0⟩ 1 7 0)),
      (2, .engine (.distributeCoupon ⟨0⟩ 1 0 [(⟨8⟩, 1)] 1 1 false)),
      (3, .engine (.distributeCoupon ⟨0⟩ 1 0 [(⟨8⟩, 1), (⟨9⟩, 2)] 1 2 true))]
  have hplay : (machine.play [] (deploy ⟨0⟩ ⟨100⟩ ⟨101⟩ ⟨102⟩) ops).map
      (fun x => ((x.2.engine.periodInfo (1, 0)).map PeriodInfo.undistributed,
        (opened 1 0 x.1).map fun o => (o.totals, o.supply), balances 1 0 x.1)) =
      some (some 2, some ((7, 5), 3), [2, 1]) := by decide
  obtain ⟨h, w, hrun, hview⟩ := Run.of_play (Init.deploy ⟨0⟩ ⟨100⟩ ⟨101⟩ ⟨102⟩) hplay
  simp only [Prod.mk.injEq, Option.map_eq_some_iff] at hview
  obtain ⟨⟨info, hinfo, hleft⟩, ⟨o, ho, htotals, hsupply⟩, hbalances⟩ := hview
  obtain ⟨o', hopened, hbounds⟩ := pro_rata_bounds hrun hinfo
  rw [ho] at hopened
  cases hopened
  have hfits : Fits o.totals o.supply := by
    rw [htotals, hsupply]
    decide
  obtain ⟨left, hA⟩ := hbounds (by omega) hfits
  exact ⟨h, w, o, info, left, hrun, ho, htotals, hsupply, hbalances, hA,
    hA.undistributed.symm.trans hleft⟩

end Protocol
end NbsBond
