import NbsBond.CouponEngine.Batching
import NbsBond.CouponEngine.Payments
import NbsBond.CouponEngine.Slices
import NbsBond.Protocol.Credits

/-!
# A coupon in one call or in many

The admin distributes the coupon of a period to a list of holders in one call of
`distribute_coupon`, or cuts the list into batches and makes one call for each, of which the last is
final. Between two batches others may call the protocol as they like, as long as they leave the
bond alone; calls that fail are rolled back.

`batching_irrelevant` says that the two ways succeed together and then leave the same entries of
`CouponEngine` behind. On the side of the single call the list is cut step by step
(`distribute_append`); each step is compared with one batch of the other side by
`distribute_agree`.
-/

namespace NbsBond
namespace Protocol

open Soroban OracleConsumer CouponEngine

variable {Q : Set BondId} {b : BondId} {p : ℕ} {reportId : ReportId} {caller : Address}

/-! ### The two ways -/

/-- A batch after the first one: the calls attempted before it, with their ledger times, its own
ledger time, and its holders. -/
structure Segment where
  between : List (ℕ × Op)
  time : ℕ
  holders : List (Address × ℤ)

/-- The call of `distribute_coupon` with the nonce the caller has in `w`. -/
def couponCall (w : World) (caller : Address) (b : BondId) (p : ℕ) (reportId : ReportId)
    (holders : List (Address × ℤ)) (isFinalBatch : Bool) : Op :=
  .engine (.distributeCoupon caller b p holders reportId (w.engine.nonce caller) isFinalBatch)

/-- A distribution in batches; only the last one is final. -/
def distributeBatches (caller : Address) (b : BondId) (p : ℕ) (reportId : ReportId) :
    World → ℕ → List (Address × ℤ) → List Segment → Result Error (World × Ret)
  | w, time, holders, [] => machine.exec time w (couponCall w caller b p reportId holders true)
  | w, time, holders, segment :: rest => do
    let (w, _) ← machine.exec time w (couponCall w caller b p reportId holders false)
    distributeBatches caller b p reportId (machine.attempts w segment.between) segment.time
      segment.holders rest

/-- The bond whose entries in `CouponEngine` a call may write. -/
def Op.touches : Op → Option BondId
  | .engine op => op.bond?
  | .retirement (.retireCredits _ _ b _ _ _ _ _ _) => some b
  | _ => none

/-- No call between the batches is about a bond of `Q`. -/
def Foreign (Q : Set BondId) (rest : List Segment) : Prop :=
  ∀ segment ∈ rest, ∀ o ∈ segment.between, ∀ b, o.2.touches = some b → b ∉ Q

/-! ### Calls in between -/

/-- **A foreign call** leaves the entries of `Q` alone. What it does to other bonds, to nonces and
to the other contracts is free. -/
theorem Step.agree {now : ℕ} {w w' : World} {op : Op} {r : Ret} (hstep : Step now w op w' r)
    (hforeign : ∀ b, op.touches = some b → b ∉ Q) : Agree Q w.engine w'.engine := by
  cases hstep with
  | issuer _ => exact Agree.refl Q _
  | registry _ _ _ => exact Agree.refl Q _
  | oracle _ => exact Agree.refl Q _
  | engine h => exact exec_agree hforeign h
  | retirement h =>
    obtain ⟨_, _, b', _, _, _, _, _, _, _, rfl, hdeduct⟩ | ⟨-, rfl⟩ :=
      CreditRetirement.exec_deducts h
    · exact deductCredits_frame (hforeign b' rfl) hdeduct
    · exact Agree.refl Q _

/-- Where a batch of the period can go on, in a world `w`: the slice of `Q` is that of `s`, the
caller is the admin, and the report is on record as `report`, verified. -/
structure Resumes (Q : Set BondId) (caller : Address) (reportId : ReportId) (report : Report)
    (s : CouponEngine.State) (w : World) : Prop where
  agree : Agree Q s w.engine
  admin : w.engine.admin = some caller
  lifeCycle : LifeCycle (docket w.oracle)
  found : w.oracle.report reportId = some report
  verified : report.status = .verified

/-- Foreign calls do not get in the way. -/
theorem Resumes.attempts {report : Report} {s : CouponEngine.State} {w : World}
    {ops : List (ℕ × Op)} (hW : Resumes Q caller reportId report s w)
    (hforeign : ∀ o ∈ ops, ∀ b, o.2.touches = some b → b ∉ Q) :
    Resumes Q caller reportId report s (machine.attempts w ops) := by
  refine Machine.attempts_invariant hW ?_
  intro o ho w w' r hW hexec
  have hstep := step_of_exec hexec
  have hagree := hstep.agree (hforeign o ho)
  refine ⟨hW.agree.trans hagree, ?_, ?_, hstep.keeps_report hW.lifeCycle hW.found hW.verified,
    hW.verified⟩
  · rw [← hagree.admin]
    exact hW.admin
  · obtain ⟨op', -, hmove⟩ | ⟨-, hsame⟩ := hstep.docket
    · exact hW.lifeCycle.step hmove
    · rw [hsame]
      exact hW.lifeCycle

/-! ### One batch -/

/-- The call of `distribute_coupon`, with the nonce of the moment, is the admin check followed by
the distribution. -/
theorem exec_couponCall (time : ℕ) (w : World) (holders : List (Address × ℤ))
    (isFinalBatch : Bool) :
    machine.exec time w (couponCall w caller b p reportId holders isFinalBatch) = (do
      let (s, result) ← liftError Error.engine (do
        requireAdmin w.engine.admin caller .notInitialized .unauthorized
        distribute w.deps { w.engine with
          nonce := Function.update w.engine.nonce caller (w.engine.nonce caller + 1) } b p holders
          reportId isFinalBatch)
      return ({ w with engine := s }, .engine (.coupon result))) := by
  have hsigned : (couponCall w caller b p reportId holders isFinalBatch).Signed w :=
    ⟨List.not_mem_nil, List.not_mem_nil⟩
  have hnonce : useNonce w.engine.nonce caller (w.engine.nonce caller)
      CouponEngineError.invalidNonce =
      .ok (Function.update w.engine.nonce caller (w.engine.nonce caller + 1)) := by
    simp
  rw [exec_of_signed hsigned]
  simp only [couponCall, run, CouponEngine.exec, distributeCoupon, hnonce, liftError_bind,
    bind_assoc]
  rfl

/-- What a call of `distribute_coupon` on the world `w` must leave behind, if the distribution
alone leaves `x` behind. -/
structure Matches (Q : Set BondId) (w : World) (x : CouponEngine.State × CouponResult)
    (y : World × Ret) : Prop where
  agree : Agree Q x.1 y.1.engine
  result : y.2 = .engine (.coupon x.2)
  world : y.1 = { w with engine := y.1.engine }

/-- **One batch** on the side of the batches, against the same holders on the side of the single
call. -/
theorem couponCall_agree {deps : Deps} {s : CouponEngine.State} {w : World} (hb : b ∈ Q)
    (hagree : Agree Q s w.engine) (hadmin : w.engine.admin = some caller)
    (hreport : deps.getReport reportId = w.deps.getReport reportId)
    (hsupply : s.batchState (b, p) = none →
      deps.totalSubscribed b = w.deps.totalSubscribed b) (time : ℕ)
    (holders : List (Address × ℤ)) (isFinalBatch : Bool) :
    Lockstep (Matches Q w)
      (liftError Error.engine (distribute deps s b p holders reportId isFinalBatch))
      (machine.exec time w (couponCall w caller b p reportId holders isFinalBatch)) := by
  have hchecked : requireAdmin w.engine.admin caller CouponEngineError.notInitialized
      CouponEngineError.unauthorized = .ok () := by
    rw [requireAdmin_eq_ok]
    exact hadmin
  -- the nonces are no part of a slice
  have hbumped : Agree Q s { w.engine with
      nonce := Function.update w.engine.nonce caller (w.engine.nonce caller + 1) } :=
    { hagree with }
  have hstep := (distribute_agree hb hbumped hreport hsupply holders isFinalBatch).liftError
    (f := Error.engine)
  rw [exec_couponCall, hchecked]
  -- a `pure` after the right side changes nothing
  rw [← bind_pure (liftError Error.engine (distribute deps s b p holders reportId isFinalBatch))]
  refine hstep.bind ?_
  intro x y _ _ h
  exact .pure ⟨h.1, congrArg (fun result => Ret.engine (.coupon result)) h.2.symm, rfl⟩

/-! ### All batches -/

/-- A period can be distributed from `s`: a call on `reportId` starts from figures that fit, on a
verified report. -/
def Distributable (deps : Deps) (b : BondId) (p : ℕ) (reportId : ReportId)
    (s : CouponEngine.State) : Prop :=
  ∀ projectId creditType progress, s.bondProject b = some projectId →
    s.bondCreditType b = some creditType →
    startBatch deps s b p projectId creditType reportId = .ok progress →
    CouponEngine.Batch (fun _ => True) creditType progress ∧
      ∃ report, deps.getReport reportId = some report ∧ report.status = .verified

/-- A batch that leaves the period open leaves it distributable. -/
theorem Distributable.next {deps : Deps} {s s' : CouponEngine.State} {result : CouponResult}
    {holders : List (Address × ℤ)} (hD : Distributable deps b p reportId s)
    (h : distribute deps s b p holders reportId false = .ok (s', result)) :
    Distributable deps b p reportId s' ∧ s'.batchState (b, p) ≠ none ∧
      ∃ report, deps.getReport reportId = some report ∧ report.status = .verified := by
  obtain ⟨projectId, creditType, progress, progress', hproject, htype, hstart, htypes, hbatch, hB,
    hresume⟩ := distribute_open trivial
      (fun projectId creditType progress h₁ h₂ h₃ =>
        (hD projectId creditType progress h₁ h₂ h₃).1) h
  have hreport := (hD projectId creditType progress hproject htype hstart).2
  refine ⟨?_, ?_, hreport⟩
  · intro projectId' creditType' progress'' _ htype' hstart'
    rw [htypes, htype] at htype'
    cases htype'
    rw [hresume] at hstart'
    cases hstart'
    exact ⟨hB, hreport⟩
  · rw [hbatch]
    exact Option.some_ne_none _

/-- **All batches**, against the whole list in one distribution. -/
theorem distributeBatches_agree {deps : Deps} (hb : b ∈ Q) {rest : List Segment}
    (hforeign : Foreign Q rest) {s : CouponEngine.State} {w : World}
    (hD : Distributable deps b p reportId s) (hagree : Agree Q s w.engine)
    (hadmin : w.engine.admin = some caller) (hL : LifeCycle (docket w.oracle))
    (hreport : deps.getReport reportId = w.deps.getReport reportId)
    (hsupply : s.batchState (b, p) = none →
      deps.totalSubscribed b = w.deps.totalSubscribed b) (time : ℕ)
    (holders : List (Address × ℤ)) :
    Lockstep (fun x y => Agree Q x.1 y.1.engine ∧ y.2 = .engine (.coupon x.2))
      (liftError Error.engine
        (distribute deps s b p (holders ++ rest.flatMap Segment.holders) reportId true))
      (distributeBatches caller b p reportId w time holders rest) := by
  induction rest generalizing s w time holders with
  | nil =>
    rw [List.flatMap_nil, List.append_nil]
    refine (couponCall_agree hb hagree hadmin hreport hsupply time holders true).mono ?_
    intro x y _ _ h
    exact ⟨h.agree, h.result⟩
  | cons segment rest ih =>
    -- cut the first batch off on both sides
    rw [List.flatMap_cons, distribute_append (P := fun _ => True) (fun _ => trivial)
      (fun projectId creditType progress h₁ h₂ h₃ => (hD projectId creditType progress h₁ h₂ h₃).1),
      liftError_bind]
    unfold distributeBatches
    refine (couponCall_agree hb hagree hadmin hreport hsupply time holders false).bind ?_
    rintro ⟨s₁, result⟩ ⟨w₁, ret⟩ hleft _ ⟨hagree₁, -, hworld⟩
    rw [liftError_eq_ok] at hleft
    dsimp only at hagree₁ hworld ⊢
    obtain ⟨hD₁, hopen, report, hfound, hverified⟩ := hD.next hleft
    -- the call has changed the engine alone, and the calls in between leave the slice alone
    have hfound₁ : w.oracle.report reportId = some report := by
      rw [← World.deps_getReport, ← hreport]
      exact hfound
    have hW₁ : Resumes Q caller reportId report s₁ w₁ := by
      refine ⟨hagree₁, ?_, ?_, ?_, hverified⟩
      · rw [← hagree₁.admin, (distribute_callers hleft).admin, hagree.admin]
        exact hadmin
      · rw [hworld]
        exact hL
      · rw [hworld]
        exact hfound₁
    have hW₂ := hW₁.attempts (hforeign segment List.mem_cons_self)
    refine ih (fun segment' hsegment' => hforeign segment' (List.mem_cons_of_mem _ hsegment')) hD₁
      hW₂.agree hW₂.admin hW₂.lifeCycle ?_ (fun hnone => absurd hnone hopen) segment.time
      segment.holders
    rw [hfound, World.deps_getReport.mpr hW₂.found]

/-! ### The whole distribution -/

/-- Period `(b, p)` has not been started. -/
structure Unstarted (w : World) (b : BondId) (p : ℕ) : Prop where
  batch : w.engine.batchState (b, p) = none
  info : w.engine.periodInfo (b, p) = none

/-- Only periods that were started have processed anybody. -/
theorem marked_of_run {h : List Call} {w : World} (hrun : Run h w) : Marked w.engine := by
  apply engine_of_run hrun
  · intro admin b p a hmark
    cases hmark
  · intro h w op s r _ hM hop
    exact hM.step hop
  · intro s s' hsame hM
    exact hsame.periods.marked hM

/-- A period that was not started can be distributed, if the products its rates are computed from
fit. -/
theorem Distributable.start {h : List Call} {w : World} (hrun : Run h w)
    (hnone : w.engine.batchState (b, p) = none) {holders : List (Address × ℤ)}
    (hexact : Exact (fun _ => True) w (couponCall w caller b p reportId holders true))
    (nonces : Address → ℕ) :
    Distributable w.deps b p reportId { w.engine with nonce := nonces } := by
  intro projectId creditType progress _ htype hstart
  obtain ⟨hbatch, -⟩ | ⟨-, hprocessed, report, hO⟩ := startBatch_ok hstart
  · -- there is no batch to resume
    rw [show ({ w.engine with nonce := nonces } : CouponEngine.State).batchState (b, p) = none
      from hnone] at hbatch
    cases hbatch
  · refine ⟨?_, report, hO.found, hO.verified⟩
    have hB := hO.batch_ok (P := fun _ => True)
      (World.worth_nonneg (lifeCycle_of_run hrun) hO.found)
      (World.supply_nonneg (ledger_of_run hrun) hO.subscribed)
      (fun _ => hexact _ (opening_eq htype hnone hO) trivial)
    obtain ⟨batch, supply, processed⟩ := progress
    cases hprocessed
    exact hB

/-- The two ways run in lockstep. -/
theorem coupon_lockstep {h : List Call} {w : World} (hrun : Run h w) (hb : b ∈ Q)
    (hnone : w.engine.batchState (b, p) = none) {rest : List Segment} (hforeign : Foreign Q rest)
    (time : ℕ) (first : List (Address × ℤ))
    (hexact : Exact (fun _ => True) w
      (couponCall w caller b p reportId (first ++ rest.flatMap Segment.holders) true)) :
    Lockstep (fun x y => Agree Q x.1.engine y.1.engine ∧ x.2 = y.2)
      (machine.exec time w
        (couponCall w caller b p reportId (first ++ rest.flatMap Segment.holders) true))
      (distributeBatches caller b p reportId w time first rest) := by
  rw [exec_couponCall]
  cases hadmin : requireAdmin w.engine.admin caller CouponEngineError.notInitialized
      CouponEngineError.unauthorized with
  | error e =>
    -- neither way gets past the admin check
    cases rest with
    | nil =>
      unfold distributeBatches
      rw [exec_couponCall, hadmin]
      cases e with
      | error e => exact .error _
      | trap => exact .error _
    | cons segment rest =>
      unfold distributeBatches
      rw [exec_couponCall, hadmin]
      cases e with
      | error e => exact .error _
      | trap => exact .error _
  | ok _ =>
    rw [requireAdmin_eq_ok] at hadmin
    have hall := distributeBatches_agree hb hforeign
      (Distributable.start hrun hnone hexact
        (Function.update w.engine.nonce caller (w.engine.nonce caller + 1)))
      { Agree.refl Q w.engine with } hadmin (lifeCycle_of_run hrun) rfl (fun _ => rfl) time first
    rw [← bind_pure (distributeBatches caller b p reportId w time first rest)]
    refine hall.bind ?_
    rintro ⟨s, result⟩ ⟨w₂, ret⟩ _ _ ⟨hagree, hret⟩
    exact .pure ⟨hagree, hret.symm⟩

/-- The single call pays everybody once. -/
theorem couponCall_paidOnce {h : List Call} {w w' : World} {ret : Ret} (hrun : Run h w)
    (hunstarted : Unstarted w b p) {time : ℕ} {holders : List (Address × ℤ)}
    (hexact : Exact (fun _ => True) w (couponCall w caller b p reportId holders true))
    (hexec : machine.exec time w (couponCall w caller b p reportId holders true) =
      .ok (w', ret)) :
    ∃ projectId creditType batch supply, w.engine.bondProject b = some projectId ∧
      w.engine.bondCreditType b = some creditType ∧
      openBatch w.deps b projectId creditType reportId = .ok (batch, supply) ∧
      PaidOnce b p (rates creditType batch) holders w.engine w'.engine := by
  rw [exec_couponCall] at hexec
  simp only [bind_eq_ok, liftError_eq_ok, pure_eq_ok, Prod.mk.injEq] at hexec
  obtain ⟨⟨s₁, result⟩, ⟨_, -, hdistribute⟩, rfl, -⟩ := hexec
  have hD := Distributable.start hrun hunstarted.batch hexact
    (Function.update w.engine.nonce caller (w.engine.nonce caller + 1))
  obtain ⟨projectId, creditType, progress, hproject, htype, hstart, hpayments⟩ :=
    distribute_payments (P := fun _ => True) (fun _ => trivial)
      (fun projectId creditType progress h₁ h₂ h₃ => (hD projectId creditType progress h₁ h₂ h₃).1)
      hdistribute
  -- the period is opened by this call, and nobody was marked before it
  have hopened : openBatch w.deps b projectId creditType reportId =
      .ok (progress.batch, progress.totalSubscribed) := by
    unfold startBatch at hstart
    rw [show ({ w.engine with
      nonce := Function.update w.engine.nonce caller (w.engine.nonce caller + 1) } :
        CouponEngine.State).batchState (b, p) = none from hunstarted.batch] at hstart
    simp only [bind_eq_ok, pure_eq_ok] at hstart
    obtain ⟨⟨batch, supply⟩, hopened, rfl⟩ := hstart
    exact hopened
  have hfresh : ∀ a, w.engine.holderDistributed (b, p, a) = false := by
    intro a
    cases hmark : w.engine.holderDistributed (b, p, a) with
    | false => rfl
    | true =>
      rcases marked_of_run hrun b p a hmark with hbatch | hinfo
      · exact absurd hunstarted.batch hbatch
      · exact absurd hunstarted.info hinfo
  have hpaid := hpayments.paidOnce hfresh
  exact ⟨projectId, creditType, progress.batch, progress.totalSubscribed, hproject, htype, hopened,
    hpaid.marked, hpaid.byType, hpaid.combined⟩

/-- What a call of `distribute_coupon` leaves alone, besides the tables of its bond. -/
theorem couponCall_callers {w w' : World} {ret : Ret} {time : ℕ} {holders : List (Address × ℤ)}
    {isFinalBatch : Bool}
    (hexec : machine.exec time w (couponCall w caller b p reportId holders isFinalBatch) =
      .ok (w', ret)) :
    w' = { w with engine := w'.engine } ∧ w'.engine.deductCaller = w.engine.deductCaller ∧
      w'.engine.nonce =
        Function.update w.engine.nonce caller (w.engine.nonce caller + 1) := by
  rw [exec_couponCall] at hexec
  simp only [bind_eq_ok, liftError_eq_ok, pure_eq_ok, Prod.mk.injEq] at hexec
  obtain ⟨⟨s₁, result⟩, ⟨_, -, hdistribute⟩, rfl, -⟩ := hexec
  have hsame := distribute_callers hdistribute
  exact ⟨rfl, hsame.deductCaller, hsame.nonces⟩

/-- With no calls in between, batches use up as many nonces of the caller as there are batches. -/
theorem distributeBatches_callers {rest : List Segment}
    (halone : ∀ segment ∈ rest, segment.between = []) {w w' : World} {ret : Ret} {time : ℕ}
    {holders : List (Address × ℤ)}
    (h : distributeBatches caller b p reportId w time holders rest = .ok (w', ret)) :
    w' = { w with engine := w'.engine } ∧ w'.engine.deductCaller = w.engine.deductCaller ∧
      w'.engine.nonce = Function.update w.engine.nonce caller
        (w.engine.nonce caller + 1 + rest.length) := by
  induction rest generalizing w time holders with
  | nil => exact couponCall_callers h
  | cons segment rest ih =>
    unfold distributeBatches at h
    rw [bind_eq_ok] at h
    obtain ⟨⟨w₁, ret₁⟩, hfirst, hrest⟩ := h
    dsimp only at hrest
    rw [List.forall_mem_cons] at halone
    rw [halone.1] at hrest
    obtain ⟨hworld₁, hdeduct₁, hnonce₁⟩ := couponCall_callers hfirst
    obtain ⟨hworld, hdeduct, hnonce⟩ := ih halone.2 hrest
    change w' = { w₁ with engine := w'.engine } at hworld
    change w'.engine.deductCaller = w₁.engine.deductCaller at hdeduct
    change w'.engine.nonce = Function.update w₁.engine.nonce caller
      (w₁.engine.nonce caller + 1 + rest.length) at hnonce
    refine ⟨?_, hdeduct.trans hdeduct₁, ?_⟩
    · rw [hworld, hworld₁]
    · rw [hnonce, hnonce₁, Function.update_self, Function.update_idem, List.length_cons]
      congr 1
      omega

/-- **Batches do not matter.** In every reached state, for a period that was not started and a
report whose products fit: the batches of any cut of a list of holders all succeed exactly when the
single call on the list does. Then both give the same answer and leave the same entries of all bonds
of `Q` behind, whatever is called in between on bonds outside `Q`; every address was paid once, for
its first positive balance; and if nothing was called in between, the nonce of the admin is all that
differs. -/
theorem batching_irrelevant {h : List Call} {w : World} (hrun : Run h w) (Q : Set BondId)
    {b : BondId} (hb : b ∈ Q) {p : ℕ} (hunstarted : Unstarted w b p) (caller : Address)
    (reportId : ReportId) (time : ℕ) (first : List (Address × ℤ)) {rest : List Segment}
    (hforeign : Foreign Q rest)
    (hexact : Exact (fun _ => True) w
      (couponCall w caller b p reportId (first ++ rest.flatMap Segment.holders) true)) :
    ((∃ x, machine.exec time w
        (couponCall w caller b p reportId (first ++ rest.flatMap Segment.holders) true) = .ok x) ↔
      ∃ y, distributeBatches caller b p reportId w time first rest = .ok y) ∧
    ∀ w₁ r₁ w₂ r₂, machine.exec time w
        (couponCall w caller b p reportId (first ++ rest.flatMap Segment.holders) true) =
        .ok (w₁, r₁) →
      distributeBatches caller b p reportId w time first rest = .ok (w₂, r₂) →
      r₁ = r₂ ∧ Agree Q w₁.engine w₂.engine ∧
      (∃ projectId creditType batch supply, w.engine.bondProject b = some projectId ∧
        w.engine.bondCreditType b = some creditType ∧
        openBatch w.deps b projectId creditType reportId = .ok (batch, supply) ∧
        PaidOnce b p (rates creditType batch) (first ++ rest.flatMap Segment.holders) w.engine
          w₂.engine) ∧
      ((∀ segment ∈ rest, segment.between = []) →
        w₂ = { w₁ with engine := { w₁.engine with
          nonce := Function.update w₁.engine.nonce caller
            (w₁.engine.nonce caller + rest.length) } }) := by
  have hlockstep := coupon_lockstep hrun hb hunstarted.batch hforeign time first hexact
  refine ⟨hlockstep.ok_iff, ?_⟩
  intro w₁ r₁ w₂ r₂ hsingle hbatched
  obtain ⟨hagree, hret⟩ := hlockstep.rel hsingle hbatched
  refine ⟨hret, hagree, ?_, ?_⟩
  · obtain ⟨projectId, creditType, batch, supply, hproject, htype, hopened, hpaid⟩ :=
      couponCall_paidOnce hrun hunstarted hexact hsingle
    exact ⟨projectId, creditType, batch, supply, hproject, htype, hopened, hpaid.agree hb hagree⟩
  · intro halone
    -- nothing is called in between, so the slice of all bonds is compared
    have hforeign' : Foreign Set.univ rest := by
      intro segment hsegment o ho
      rw [halone segment hsegment] at ho
      cases ho
    have hlockstep' := coupon_lockstep hrun (Set.mem_univ b) hunstarted.batch hforeign' time first
      hexact
    have heq := (hlockstep'.rel hsingle hbatched).1.eq_of_univ
    obtain ⟨hworld₁, hdeduct₁, hnonce₁⟩ := couponCall_callers hsingle
    obtain ⟨hworld₂, hdeduct₂, hnonce₂⟩ := distributeBatches_callers halone hbatched
    dsimp only at heq
    have hengine : w₂.engine = { w₁.engine with
        nonce := Function.update w₁.engine.nonce caller
          (w₁.engine.nonce caller + rest.length) } := by
      rw [heq, hnonce₂, hdeduct₂, ← hdeduct₁, hnonce₁, Function.update_self, Function.update_idem]
    rw [hworld₂, ← hengine]
    generalize w₂.engine = engine
    rw [hworld₁]

/-- Seven tokens in three batches, the first holder named twice, the second one first with a balance
that is not positive, and a subscription in between. -/
theorem batching_irrelevant_three_batches :
    ∃ h w w₁ w₂ r, Run h w ∧
      machine.exec 2 w (couponCall w ⟨0⟩ 1 0 1 [(⟨8⟩, 3), (⟨8⟩, 5), (⟨9⟩, -1), (⟨9⟩, 4)] true) =
        .ok (w₁, r) ∧
      distributeBatches ⟨0⟩ 1 0 1 w 2 [(⟨8⟩, 3)]
        [⟨[(3, .issuer (.subscribe ⟨8⟩ 1 6 1))], 4, [(⟨8⟩, 5), (⟨9⟩, -1)]⟩, ⟨[], 5, [(⟨9⟩, 4)]⟩] =
        .ok (w₂, r) ∧
      Agree Set.univ w₁.engine w₂.engine := by
  let ops : List (ℕ × Op) := (onboard ⟨0⟩ ⟨5⟩ ⟨1⟩ ⟨2⟩ ⟨100⟩ ⟨102⟩ 7).append
    [(1, .oracle (.submitReport ⟨1⟩ 1 0 10 5000 .absent "VM0007" 3 0)),
      (1, .oracle (.verifyReport ⟨2⟩ 1 0)),
      (1, .issuer (.issueBond ⟨0⟩ ⟨7, 1000, [50], .carbon, 9000000, 100⟩ 0)),
      (1, .issuer (.subscribe ⟨8⟩ 1 3 0)),
      (1, .issuer (.subscribe ⟨9⟩ 1 4 0)),
      (1, .engine (.registerBond ⟨0⟩ 1 7 0))]
  let rest : List Segment :=
    [⟨[(3, .issuer (.subscribe ⟨8⟩ 1 6 1))], 4, [(⟨8⟩, 5), (⟨9⟩, -1)]⟩, ⟨[], 5, [(⟨9⟩, 4)]⟩]
  let single (w : World) : Op :=
    couponCall w ⟨0⟩ 1 0 1 [(⟨8⟩, 3), (⟨8⟩, 5), (⟨9⟩, -1), (⟨9⟩, 4)] true
  have hplay : (machine.play [] (deploy ⟨0⟩ ⟨100⟩ ⟨101⟩ ⟨102⟩) ops).map
      (fun x => (x.2.engine.batchState (1, 0), x.2.engine.periodInfo (1, 0),
        decide (Exact (fun _ => True) x.2 (single x.2)),
        (machine.exec 2 x.2 (single x.2)).toOption.isSome)) =
      some (none, none, true, true) := by decide
  obtain ⟨h, w, hrun, hview⟩ := Run.of_play (Init.deploy ⟨0⟩ ⟨100⟩ ⟨101⟩ ⟨102⟩) hplay
  simp only [Prod.mk.injEq] at hview
  obtain ⟨hbatch, hinfo, hexact, hsingle⟩ := hview
  have hforeign : Foreign Set.univ rest := by
    intro segment hsegment o ho b hb
    simp only [rest, List.mem_cons, List.not_mem_nil, or_false] at hsegment
    rcases hsegment with rfl | rfl
    · rw [List.mem_singleton] at ho
      subst ho
      cases hb
    · cases ho
  obtain ⟨hiff, hsame⟩ := batching_irrelevant hrun Set.univ (Set.mem_univ 1) ⟨hbatch, hinfo⟩ ⟨0⟩ 1 2
    [(⟨8⟩, 3)] hforeign (of_decide_eq_true hexact)
  cases hfirst : machine.exec 2 w (single w) with
  | error _ =>
    rw [hfirst] at hsingle
    cases hsingle
  | ok x =>
    obtain ⟨w₁, r₁⟩ := x
    obtain ⟨⟨w₂, r₂⟩, hbatched⟩ := hiff.mp ⟨(w₁, r₁), hfirst⟩
    obtain ⟨rfl, hagree, -, -⟩ := hsame w₁ r₁ w₂ r₂ hfirst hbatched
    exact ⟨h, w, w₁, w₂, r₁, hrun, hfirst, hbatched, hagree⟩

end Protocol
end NbsBond
