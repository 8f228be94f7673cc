import NbsBond.CouponEngine.Credits
import NbsBond.Protocol.Periods

/-!
# Credits in the running protocol

The accounts of `CouponEngine` along runs of the protocol. The engine multiplies without checking
for overflow in one place, the computation of the per-token rates on the first batch of a period;
`Exact` is the condition on a call that these products fit. Under it the combined balances agree
with the split ones (`balances_agree`), and no credit is created or destroyed
(`credits_conserved`).
-/

namespace NbsBond
namespace Protocol

open Soroban OracleConsumer CouponEngine

variable {P : CreditType → Prop}

/-- What the rates of a period are computed from. -/
structure Opening where
  creditType : CreditType
  totals : Credits
  supply : ℤ

/-- The figures of the period a call opens, if it opens one. -/
def opening (w : World) : Op → Option Opening
  | .engine (.distributeCoupon _ b p _ reportId _ _) =>
    if w.engine.batchState (b, p) = none then do
      let creditType ← w.engine.bondCreditType b
      let report ← w.oracle.report reportId
      let totals ← (creditTotals creditType report).toOption
      let supply ← w.deps.totalSubscribed b
      return ⟨creditType, totals, supply⟩
    else none
  | _ => none

/-- If the call opens a period of a bond whose type is among `P`, the products its rates are
computed from fit an `i128`. -/
def Exact (P : CreditType → Prop) (w : World) (op : Op) : Prop :=
  ∀ o ∈ opening w op, P o.creditType → Fits o.totals o.supply

instance (P : CreditType → Prop) [DecidablePred P] (w : World) (op : Op) :
    Decidable (Exact P w op) := inferInstanceAs (Decidable (∀ _ ∈ _, _ → _))

/-- The figures of a period that is being opened. -/
theorem opening_eq {w : World} {caller : Address} {b : BondId} {p : ℕ}
    {holders : List (Address × ℤ)} {reportId : ReportId} {nonce : ℕ} {isFinalBatch : Bool}
    {projectId : Bytes32} {creditType : CreditType} {report : Report} {supply : ℤ}
    {batch : BatchState} (htype : w.engine.bondCreditType b = some creditType)
    (hnone : w.engine.batchState (b, p) = none)
    (hO : Opened w.deps b projectId creditType reportId report supply batch) :
    opening w (.engine (.distributeCoupon caller b p holders reportId nonce isFinalBatch)) =
      some ⟨creditType, totals batch, supply⟩ := by
  have hreport : w.oracle.report reportId = some report := World.deps_getReport.mp hO.found
  simp [opening, hnone, htype, hreport, hO.credits, hO.subscribed, Except.toOption]

/-- What the engine reads as subscribed is the total of an issued bond. -/
theorem World.deps_totalSubscribed {w : World} {b : BondId} {supply : ℤ}
    (h : w.deps.totalSubscribed b = some supply) :
    ∃ st, w.issuer.bondState b = some st ∧ st.totalSubscribed = supply := by
  change (BondIssuer.totalSubscribed w.issuer b).toOption = some supply at h
  rw [toOption_eq_some] at h
  simp only [BondIssuer.totalSubscribed, bind_eq_ok, orError_eq_ok, pure_eq_ok] at h
  obtain ⟨_, -, st, hst, hsupply⟩ := h
  exact ⟨st, hst, hsupply⟩

/-- What is subscribed is not negative. -/
theorem World.supply_nonneg {w : World} (hB : BondIssuer.LedgerInv w.issuer) {b : BondId}
    {supply : ℤ} (h : w.deps.totalSubscribed b = some supply) : 0 ≤ supply := by
  obtain ⟨st, hst, rfl⟩ := World.deps_totalSubscribed h
  exact hB.total_nonneg hst

/-- What the engine reads as a report was measured, so it is worth something non-negative. -/
theorem World.worth_nonneg {w : World} (hL : LifeCycle (OracleConsumer.docket w.oracle))
    {r : ReportId} {report : Report} (h : w.deps.getReport r = some report) :
    0 ≤ worth report := by
  obtain ⟨hcarbon, hbio⟩ := hL.measured r report (World.deps_getReport.mp h)
  exact CouponEngine.worth_nonneg hcarbon hbio

/-- A committed call of `CouponEngine` moves credits as `CreditStep` says; a retirement is a
deduction; no other call touches the engine. -/
theorem Step.credits {now : ℕ} {w w' : World} {op : Op} {r : Ret} (hP : P .basket)
    (hB : BondIssuer.LedgerInv w.issuer) (hL : LifeCycle (OracleConsumer.docket w.oracle))
    (hI : PeriodInv w) (hS : Solvent P w.engine) (hexact : Exact P w op)
    (hstep : Step now w op w' r) :
    Accounts w'.engine ∧
    ((∃ op' r', op = .engine op' ∧ r = .engine r' ∧
        CreditStep P w.deps w.engine w'.engine op' r') ∨
      (∃ signers holder b projectId periodIndex amount creditType certificateHash nonce,
        op = .retirement (.retireCredits signers holder b projectId periodIndex amount creditType
          certificateHash nonce) ∧ IsStored (storageType creditType) ∧
        Credited b holder (-bucket (storageType creditType) amount) w.engine w'.engine) ∨
      ((∀ op', op ≠ .engine op') ∧
        (∀ signers holder b projectId periodIndex amount creditType certificateHash nonce,
          op ≠ .retirement (.retireCredits signers holder b projectId periodIndex amount creditType
            certificateHash nonce)) ∧ w'.engine = w.engine)) := by
  have hA := hS.accounts
  cases hstep with
  | issuer _ => exact ⟨hA, Or.inr (Or.inr ⟨nofun, nofun, rfl⟩)⟩
  | registry _ _ _ => exact ⟨hA, Or.inr (Or.inr ⟨nofun, nofun, rfl⟩)⟩
  | oracle _ => exact ⟨hA, Or.inr (Or.inr ⟨nofun, nofun, rfl⟩)⟩
  | retirement h =>
    obtain ⟨signers, holder, b, projectId, periodIndex, amount, creditType, certificateHash, nonce,
      left, rfl, hdeduct⟩ | ⟨hother, rfl⟩ := CreditRetirement.exec_deducts h
    · obtain ⟨hcredited, hstored, hA'⟩ := deductCredits_ok hA hdeduct
      exact ⟨hA', Or.inr (Or.inl ⟨signers, holder, b, projectId, periodIndex, amount, creditType,
        certificateHash, nonce, rfl, hstored, hcredited⟩)⟩
    · refine ⟨hA, Or.inr (Or.inr ⟨nofun, ?_, rfl⟩)⟩
      intro signers holder b projectId periodIndex amount creditType certificateHash nonce heq
      cases heq
      exact hother _ _ _ _ _ _ _ _ _ rfl
  | @engine op' s' r' h =>
    -- the type the engine caches at registration is still the issuer's
    have hregistered : ∀ b creditType config, w.engine.bondCreditType b = some creditType →
        w.deps.getBond b = some config → config.creditType = creditType := by
      intro b creditType config htype hconfig
      obtain ⟨config', hconfig', hsame⟩ := hI.registered b creditType htype
      rw [World.deps_getBond, hconfig'] at hconfig
      cases hconfig
      exact hsame
    obtain ⟨hcredit, hA'⟩ := exec_credits hP hS hregistered (by
      -- the report and the snapshot a period is opened with come from the other contracts
      rintro caller b p holders reportId nonce isFinalBatch rfl projectId creditType report supply
        batch htype hnone hO
      refine ⟨World.worth_nonneg hL hO.found, World.supply_nonneg hB hO.subscribed, ?_⟩
      intro hcreditType
      exact hexact _ (opening_eq htype hnone hO) hcreditType) h
    exact ⟨hA', Or.inl ⟨op', r', rfl, rfl, hcredit⟩⟩

/-- **One call** keeps the engine solvent. A call of the oracle, of a registry or of the issuer does
not touch the accounts. -/
theorem Step.solvent {now : ℕ} {w w' : World} {op : Op} {r : Ret} (hP : P .basket)
    (hB : BondIssuer.LedgerInv w.issuer) (hL : LifeCycle (OracleConsumer.docket w.oracle))
    (hI : PeriodInv w) (hS : Solvent P w.engine) (hexact : Exact P w op)
    (hstep : Step now w op w' r) :
    Solvent P w'.engine := by
  obtain ⟨hA, ⟨op', r', -, -, hcredit⟩ | ⟨_, _, _, _, _, _, _, _, _, -, -, hcredited⟩ |
    ⟨-, -, hsame⟩⟩ := hstep.credits hP hB hL hI hS hexact
  · exact hS.step hA hcredit
  · exact hS.credited hA hcredited rfl rfl rfl
  · rw [hsame]
    exact hS

/-- The engine is solvent in every state that exact calls reach. -/
theorem solvent_of_run {h : List Call} {w : World} (hP : P .basket) (hrun : Run h w)
    (hexact : ∀ c ∈ h, Exact P c.pre c.op) : Solvent P w.engine := by
  refine hrun.induction (P := fun h w => (∀ c ∈ h, Exact P c.pre c.op) → Solvent P w.engine)
    ?_ ?_ hexact
  · intro w hinit _
    obtain ⟨admin, hadmin⟩ := hinit.engine
    rw [hadmin]
    exact Solvent.initial admin
  · intro h w t op r w' hrun _ hexec ih hexact
    rw [List.forall_mem_cons] at hexact
    exact (step_of_exec hexec).solvent hP (ledger_of_run hrun) (lifeCycle_of_run hrun)
      (periods_of_run hrun) (ih hexact.2) hexact.1

/-! ### Combined and split balances -/

/-- Combined and split balances do not drift apart, and the guards that compare them never
fail. -/
structure NoDrift (s : CouponEngine.State) : Prop where
  accrued : ∀ b a, s.accruedCredits (b, a) =
    s.accruedCreditsByType (b, a, .carbon) + s.accruedCreditsByType (b, a, .biodiversity)
  undistributed : ∀ b, s.undistributedTotal b =
    s.undistributedByType (b, .carbon) + s.undistributedByType (b, .biodiversity)
  basket : ∀ b, s.undistributedByType (b, .basket) = 0 ∧
    ∀ a, s.accruedCreditsByType (b, a, .basket) = 0
  blueCarbon : ∀ b, s.undistributedByType (b, .blueCarbon) = 0 ∧
    ∀ a, s.accruedCreditsByType (b, a, .blueCarbon) = 0
  carbonBond : ∀ b, s.bondCreditType b = some .carbon ∨ s.bondCreditType b = some .blueCarbon →
    s.undistributedByType (b, .biodiversity) = 0 ∧
      ∀ a, s.accruedCreditsByType (b, a, .biodiversity) = 0
  biodiversityBond : ∀ b, s.bondCreditType b = some .biodiversity →
    s.undistributedByType (b, .carbon) = 0 ∧ ∀ a, s.accruedCreditsByType (b, a, .carbon) = 0
  claims : ∀ caller b nonce, claimCredits s caller b nonce ≠ .error (.error .accountingMismatch)
  sweeps : ∀ caller b destination nonce,
    sweepUndistributed s caller b destination nonce ≠ .error (.error .accountingMismatch)

theorem NoDrift.of_accounts {s : CouponEngine.State} (hA : Accounts s) : NoDrift s where
  accrued := hA.combined
  undistributed := hA.dusted
  basket b := ⟨hA.dustClean b .basket (by simp [IsStored]),
    fun a => hA.clean b a .basket (by simp [IsStored])⟩
  blueCarbon b := ⟨hA.dustClean b .blueCarbon (by simp [IsStored]),
    fun a => hA.clean b a .blueCarbon (by simp [IsStored])⟩
  carbonBond b htype := by
    have hdust := hA.dustSuits b
    have hpurse := hA.suits b
    rcases htype with htype | htype
    · rw [htype] at hdust hpurse
      exact ⟨hdust, hpurse⟩
    · rw [htype] at hdust hpurse
      exact ⟨hdust, hpurse⟩
  biodiversityBond b htype := by
    have hdust := hA.dustSuits b
    have hpurse := hA.suits b
    rw [htype] at hdust hpurse
    exact ⟨hdust, hpurse⟩
  claims := claimCredits_no_mismatch hA
  sweeps := sweepUndistributed_no_mismatch hA

/-- **Combined and split balances agree** in every run that opens the periods of Basket bonds on
reports whose products fit. Only the rates are computed without a check, so nothing else has to be
asked of a call. -/
theorem balances_agree {h : List Call} {w : World} (hrun : Run h w)
    (hexact : ∀ c ∈ h, Exact (fun creditType => creditType = .basket) c.pre c.op) :
    NoDrift w.engine :=
  .of_accounts
    (solvent_of_run (P := fun creditType => creditType = .basket) rfl hrun hexact).accounts

/-- The calls that bring a Basket bond with one subscribed token and a verified report about. -/
def basketBond (carbonSequestered : ℤ) : List (ℕ × Op) :=
  onboard ⟨0⟩ ⟨5⟩ ⟨1⟩ ⟨2⟩ ⟨100⟩ ⟨102⟩ 7 ++
  [(1, .oracle (.submitReport ⟨1⟩ 1 0 10 carbonSequestered (.present 5 0 0) "VM0007" 3 0)),
    (1, .oracle (.verifyReport ⟨2⟩ 1 0)),
    (1, .issuer (.issueBond ⟨0⟩ ⟨7, 1000, [50], .basket, 9000000, 100⟩ 0)),
    (1, .issuer (.subscribe ⟨8⟩ 1 1 0)),
    (1, .engine (.registerBond ⟨0⟩ 1 7 0)),
    (2, .engine (.distributeCoupon ⟨0⟩ 1 0 [(⟨8⟩, 1)] 1 1 true))]

/-- A Basket coupon that fits. -/
theorem balances_agree_basket :
    ∃ h w, Run h w ∧ w.engine.accruedCredits (1, ⟨8⟩) = 12 ∧ NoDrift w.engine := by
  have hplay : (machine.play [] (deploy ⟨0⟩ ⟨100⟩ ⟨101⟩ ⟨102⟩) (basketBond 7000)).map
      (fun x => (x.2.engine.accruedCredits (1, ⟨8⟩),
        x.1.all fun c => Exact (fun creditType => creditType = .basket) c.pre c.op)) =
      some (12, true) := by decide
  obtain ⟨h, w, hrun, hview⟩ := Run.of_play (Init.deploy ⟨0⟩ ⟨100⟩ ⟨101⟩ ⟨102⟩) hplay
  rw [Prod.mk.injEq] at hview
  obtain ⟨haccrued, hall⟩ := hview
  refine ⟨h, w, hrun, haccrued, balances_agree hrun ?_⟩
  intro c hc
  exact of_decide_eq_true (List.all_eq_true.mp hall c hc)

/-- With carbon credits just below `2 ^ 128 / FIXED_POINT` the rate wraps to a negative one: the
holder's carbon share is `-1`, the combined figures are charged for it, the split ones are not, and
the dust can never be swept. -/
theorem balances_drift :
    ∃ h w, Run h w ∧ ¬ NoDrift w.engine ∧
      sweepUndistributed w.engine ⟨0⟩ 1 ⟨0⟩ 2 = .error (.error .accountingMismatch) := by
  have hplay : (machine.play [] (deploy ⟨0⟩ ⟨100⟩ ⟨101⟩ ⟨102⟩)
      (basketBond ((2 ^ 128 / 10000000 - 1) * 1000))).map
      (fun x => fault (sweepUndistributed x.2.engine ⟨0⟩ 1 ⟨0⟩ 2)) =
      some (some (.error .accountingMismatch)) := by decide
  obtain ⟨h, w, hrun, hview⟩ := Run.of_play (Init.deploy ⟨0⟩ ⟨100⟩ ⟨101⟩ ⟨102⟩) hplay
  have hsweep : sweepUndistributed w.engine ⟨0⟩ 1 ⟨0⟩ 2 = .error (.error .accountingMismatch) :=
    fault_eq_some.mp hview
  exact ⟨h, w, hrun, fun hN => hN.sweeps ⟨0⟩ 1 ⟨0⟩ 2 hsweep, hsweep⟩

/-! ### Conservation -/

/-- The carbon and biodiversity credits the closed period `(b, p)` was computed with: what the
report its record names is worth to the bond. -/
def issued (w : World) (b : BondId) (p : ℕ) : Credits :=
  match w.engine.periodInfo (b, p) with
  | none => 0
  | some info =>
    match w.engine.bondCreditType b, w.oracle.report info.reportId with
    | some creditType, some report => ((creditTotals creditType report).toOption).getD 0
    | _, _ => 0

/-- What a committed claim on bond `b` paid out. -/
def claimedIn (b : BondId) (c : Call) : Credits :=
  match c.op, c.ret with
  | .engine (.claimCredits _ b' _), .engine (.claimed receipt) =>
    if b = b' then receipt.credits else 0
  | _, _ => 0

/-- What a committed deduction on bond `b` took, called directly or by a retirement. -/
def deductedIn (b : BondId) (c : Call) : Credits :=
  match c.op with
  | .engine (.deductCredits _ b' _ amount creditType) =>
    if b = b' then bucket (storageType creditType) amount else 0
  | .retirement (.retireCredits _ _ b' _ _ amount creditType _ _) =>
    if b = b' then bucket (storageType creditType) amount else 0
  | _ => 0

theorem issued_none {w : World} {b : BondId} {p : ℕ}
    (h : w.engine.periodInfo (b, p) = none) : issued w b p = 0 := by
  unfold issued
  rw [h]

theorem Backed.issued {w : World} {b : BondId} {p : ℕ} {info : PeriodInfo} {report : Report}
    {t : Credits} (hinfo : w.engine.periodInfo (b, p) = some info)
    (h : Backed w b info.reportId report t) : issued w b p = t := by
  obtain ⟨creditType, htype, hcredits⟩ := h.credits
  unfold Protocol.issued
  rw [hinfo]
  dsimp only
  rw [htype, h.found]
  dsimp only
  rw [hcredits]
  rfl

/-- A period whose record a call leaves alone was computed with the same credits afterwards. -/
theorem PeriodInv.issued_eq {now : ℕ} {w w' : World} {op : Op} {r : Ret} (hI : PeriodInv w)
    (hL : LifeCycle (OracleConsumer.docket w.oracle)) (hstep : Step now w op w' r) {b : BondId}
    {p : ℕ} (hsame : w'.engine.periodInfo (b, p) = w.engine.periodInfo (b, p)) :
    issued w' b p = issued w b p := by
  cases hinfo : w.engine.periodInfo (b, p) with
  | none =>
    rw [hinfo] at hsame
    rw [issued_none hinfo, issued_none hsame]
  | some info =>
    rw [hinfo] at hsame
    obtain ⟨report, t, hrecorded⟩ := hI.infos b p info hinfo
    have hkept : Backed w' b info.reportId report t :=
      hrecorded.backed.mono (fun _ _ hrep hverified => hstep.keeps_report hL hrep hverified)
        (fun _ htype => hI.keeps_type hstep htype)
    rw [hrecorded.backed.issued hinfo, hkept.issued hsame]

/-- The credits a run has brought about on bond `b`: closed periods with what they were computed
with, open ones with what they have paid. -/
noncomputable def minted (w : World) (b : BondId) : Credits :=
  ∑ᶠ p, issued w b p + ∑ᶠ p, running w.engine b p

/-- The last batch of a period adds the period, with the credits it was opened with, to the closed
ones. -/
theorem issued_final {now : ℕ} {w w' : World} {op : Op} {r : Ret}
    (hL : LifeCycle (OracleConsumer.docket w.oracle)) (hI : PeriodInv w)
    (hstep : Step now w op w' r) {b₀ : BondId} {p₀ : ℕ} {projectId : Bytes32}
    {creditType : CreditType} {reportId : ReportId} {progress progress' : Progress} {x : Credits}
    {s₁ : CouponEngine.State} {report : Report}
    (hopen : ∀ info, w.engine.periodInfo (b₀, p₀) = some info → info.distributed = false)
    (htype : w.engine.bondCreditType b₀ = some creditType)
    (hstart : startBatch w.deps w.engine b₀ p₀ projectId creditType reportId = .ok progress)
    (hadvanced : Advanced P b₀ p₀ creditType progress progress' x w.engine s₁)
    (hfinalised : Finalised b₀ p₀ progress' report s₁ w'.engine) (b : BondId)
    (hfinite : (issued w b).support.Finite) :
    (issued w' b).support.Finite ∧
      ∑ᶠ p, issued w' b p =
        ∑ᶠ p, issued w b p + if b = b₀ then totals progress.batch else 0 := by
  obtain ⟨info, hnamed, hinfos⟩ : ∃ info : PeriodInfo,
      info.reportId = progress'.batch.reportId ∧
      w'.engine.periodInfo = Function.update w.engine.periodInfo (b₀, p₀) (some info) := by
    rw [hfinalised.stored, hadvanced.stored]
    exact ⟨_, rfl, rfl⟩
  have hothers : ∀ p, (b, p) ≠ (b₀, p₀) → issued w' b p = issued w b p := by
    intro p hkey
    exact hI.issued_eq hL hstep (by rw [hinfos, Function.update_of_ne hkey])
  by_cases hb : b = b₀
  · subst hb
    have hnone : issued w b p₀ = 0 := issued_none (hI.closed_once hopen)
    -- the record names the report, which stays verified, so it is still worth what it was
    have hnew : issued w' b p₀ = totals progress.batch := by
      obtain ⟨hreport, report', hbacked, -⟩ := hI.start htype hstart
      have hinfo := congrFun hinfos (b, p₀)
      rw [Function.update_self] at hinfo
      refine Backed.issued hinfo (?_ : Backed w' b info.reportId report' _)
      rw [hnamed, hadvanced.report, hreport]
      exact hbacked.mono (fun _ _ hrep hverified => hstep.keeps_report hL hrep hverified)
        (fun _ htype => hI.keeps_type hstep htype)
    have hissued : issued w' b = Function.update (issued w b) p₀ (totals progress.batch) := by
      ext1 p
      by_cases hp : p = p₀
      · rw [hp, Function.update_self, hnew]
      · rw [Function.update_of_ne hp]
        refine hothers p ?_
        rintro ⟨⟩
        exact hp rfl
    rw [hissued]
    refine ⟨FinSum.support_update hfinite _ _, ?_⟩
    rw [FinSum.finsum_update hfinite, hnone, sub_zero, if_pos rfl]
  · have hissued : issued w' b = issued w b := by
      ext1 p
      refine hothers p ?_
      rintro ⟨⟩
      exact hb rfl
    rw [hissued, if_neg hb, add_zero]
    exact ⟨hfinite, rfl⟩

/-- **One call, one bond.** What leaves the stock was claimed or deducted, and what enters it was
minted. -/
theorem Step.flow {now : ℕ} {w w' : World} {op : Op} {r : Ret} (hP : ∀ creditType, P creditType)
    (hB : BondIssuer.LedgerInv w.issuer) (hL : LifeCycle (OracleConsumer.docket w.oracle))
    (hI : PeriodInv w) (hS : Solvent P w.engine) (hexact : Exact P w op)
    (hstep : Step now w op w' r) (b : BondId)
    (hfinite : (issued w b).support.Finite) :
    (issued w' b).support.Finite ∧
    stock w'.engine b + claimedIn b ⟨now, w, op, r, w'⟩ + deductedIn b ⟨now, w, op, r, w'⟩ +
      minted w b = stock w.engine b + minted w' b := by
  have hA := hS.accounts
  -- a call that touches no period mints nothing
  have hframe : w'.engine.periodInfo = w.engine.periodInfo →
      w'.engine.batchState = w.engine.batchState →
      (issued w' b).support.Finite ∧ minted w' b = minted w b := by
    intro hinfos hbatches
    have hissued : issued w' b = issued w b := by
      ext1 p
      exact hI.issued_eq hL hstep (by rw [hinfos])
    unfold minted
    rw [hissued, running_congr hbatches]
    exact ⟨hfinite, rfl⟩
  -- taking `x` off an account touches no period
  have hout : ∀ {b₀ : BondId} {holder : Address} {x : Credits},
      Credited b₀ holder (-x) w.engine w'.engine → (issued w' b).support.Finite ∧
        stock w'.engine b + (if b = b₀ then x else 0) + minted w b =
          stock w.engine b + minted w' b := by
    intro b₀ holder x hcredited
    obtain ⟨hinfos, hbatches, -, -⟩ := hcredited.books.periods
    obtain ⟨hfin, hminted⟩ := hframe hinfos hbatches
    refine ⟨hfin, ?_⟩
    rw [hcredited.stock hA b, hminted]
    split
    · abel
    · abel
  obtain ⟨hA', ⟨op', r', rfl, rfl, hmove⟩ | ⟨signers, holder, b₀, projectId, periodIndex, amount,
    creditType, certificateHash, nonce, rfl, hstored, hcredited⟩ | ⟨hengine, hretire, hsame⟩⟩ :=
    hstep.credits (hP .basket) hB hL hI hS hexact
  · cases hmove with
    | register htype hs' =>
      have hstock : stock w'.engine = stock w.engine :=
        stock_congr (by rw [hs']) (by rw [hs'])
      obtain ⟨hfin, hminted⟩ := hframe (by rw [hs']) (by rw [hs'])
      refine ⟨hfin, ?_⟩
      rw [hstock, hminted]
      show stock w.engine b + 0 + 0 + minted w b = _
      abel
    | @batch _ b₀ p₀ _ _ _ _ _ _ _ x _ htype hstart hadvanced =>
      have hinfos : w'.engine.periodInfo = w.engine.periodInfo := by rw [hadvanced.stored]
      have hissued : issued w' b = issued w b := by
        ext1 p
        exact hI.issued_eq hL hstep (by rw [hinfos])
      refine ⟨by rw [hissued]; exact hfinite, ?_⟩
      show stock w'.engine b + 0 + 0 + minted w b = _
      unfold minted
      rw [hissued, hadvanced.stock b, hadvanced.running hS hstart b]
      abel
    | @final _ b₀ p₀ _ reportId _ _ _ progress progress' x s₁ report _ hopen htype hstart hadvanced
        hfinalised =>
      have hflow := hfinalised.flow (hP _) hS htype hstart hadvanced b
      obtain ⟨hfin, hsum⟩ := issued_final hL hI hstep hopen htype hstart hadvanced hfinalised b
        hfinite
      refine ⟨hfin, ?_⟩
      show stock w'.engine b + 0 + 0 + minted w b = _
      unfold minted
      rw [hsum]
      calc stock w'.engine b + 0 + 0 + (∑ᶠ p, issued w b p + ∑ᶠ p, running w.engine b p)
          = ∑ᶠ p, issued w b p + (stock w'.engine b + ∑ᶠ p, running w.engine b p) := by abel
        _ = _ := by rw [hflow]; abel
    | @claim caller b₀ nonce receipt hcredited haccrued =>
      obtain ⟨hfin, hflow⟩ := hout hcredited
      refine ⟨hfin, ?_⟩
      show stock w'.engine b + (if b = b₀ then receipt.credits else 0) + 0 + minted w b = _
      rw [add_zero]
      exact hflow
    | @sweep _ b₀ destination _ receipt hcredited =>
      obtain ⟨hinfos, hbatches, -, -⟩ := hcredited.books.periods
      obtain ⟨hfin, hminted⟩ := hframe hinfos hbatches
      refine ⟨hfin, ?_⟩
      show stock w'.engine b + 0 + 0 + minted w b = _
      rw [stock_sweep hA hcredited b, hminted]
      abel
    | grant hs' =>
      have hstock : stock w'.engine = stock w.engine :=
        stock_congr (by rw [hs']) (by rw [hs'])
      obtain ⟨hfin, hminted⟩ := hframe (by rw [hs']) (by rw [hs'])
      refine ⟨hfin, ?_⟩
      rw [hstock, hminted]
      show stock w.engine b + 0 + 0 + minted w b = _
      abel
    | @deduct _ b₀ holder amount _ creditType hstored hcredited =>
      obtain ⟨hfin, hflow⟩ := hout hcredited
      refine ⟨hfin, ?_⟩
      show stock w'.engine b + 0 +
        (if b = b₀ then bucket (storageType creditType) amount else 0) + minted w b = _
      rw [add_zero]
      exact hflow
  · obtain ⟨hfin, hflow⟩ := hout hcredited
    refine ⟨hfin, ?_⟩
    show stock w'.engine b + 0 +
      (if b = b₀ then bucket (storageType creditType) amount else 0) + minted w b = _
    rw [add_zero]
    exact hflow
  · obtain ⟨hfin, hminted⟩ := hframe (by rw [hsame]) (by rw [hsame])
    refine ⟨hfin, ?_⟩
    have hclaimed : claimedIn b ⟨now, w, op, r, w'⟩ = 0 := by
      unfold claimedIn
      split
      · next heq _ => exact absurd heq (hengine _)
      · rfl
    have hdeducted : deductedIn b ⟨now, w, op, r, w'⟩ = 0 := by
      unfold deductedIn
      split
      · next heq => exact absurd heq (hengine _)
      · next heq => exact absurd heq (hretire _ _ _ _ _ _ _ _ _)
      · rfl
    rw [hclaimed, hdeducted, hsame, hminted]
    abel

/-- **Conservation**, per type: stock, claims and deductions add up to what was minted. Of what was
minted a part is still held by holders or as dust, and the rest has left by one of the two ways. -/
theorem minted_of_run {h : List Call} {w : World} (hrun : Run h w) (hP : ∀ creditType, P creditType)
    (hexact : ∀ c ∈ h, Exact P c.pre c.op) (b : BondId) :
    (issued w b).support.Finite ∧
      stock w.engine b + (h.map (claimedIn b)).sum + (h.map (deductedIn b)).sum = minted w b := by
  refine hrun.induction (P := fun h w => (∀ c ∈ h, Exact P c.pre c.op) →
    (issued w b).support.Finite ∧
      stock w.engine b + (h.map (claimedIn b)).sum + (h.map (deductedIn b)).sum = minted w b)
    ?_ ?_ hexact
  · intro w hinit _
    obtain ⟨admin, hadmin⟩ := hinit.engine
    -- nothing is issued, nothing is running and nobody holds anything
    have hissued : issued w b = 0 := by
      ext1 p
      exact issued_none (by rw [hadmin]; rfl)
    have hrunning : running w.engine b = 0 := by
      rw [hadmin]
      rfl
    have hpurse : purse w.engine b = 0 := by
      rw [hadmin]
      rfl
    have hdust : dust w.engine b = 0 := by
      rw [hadmin]
      rfl
    refine ⟨?_, ?_⟩
    · rw [hissued, Function.support_zero]
      exact Set.finite_empty
    · unfold stock minted
      rw [hissued, hrunning, hpurse, hdust]
      simp
  · intro h w t op r w' hrun _ hexec ih hexact
    rw [List.forall_mem_cons] at hexact
    obtain ⟨hnow, hbefore⟩ := hexact
    obtain ⟨hfinite, hbalance⟩ := ih hbefore
    obtain ⟨hfinite', hflow⟩ := (step_of_exec hexec).flow hP (ledger_of_run hrun)
      (lifeCycle_of_run hrun) (periods_of_run hrun) (solvent_of_run (hP .basket) hrun hbefore) hnow
      b hfinite
    refine ⟨hfinite', ?_⟩
    rw [List.map_cons, List.map_cons, List.sum_cons, List.sum_cons]
    rw [← hbalance] at hflow
    have hcancel : stock w.engine b + (stock w'.engine b +
        (claimedIn b ⟨t, w, op, r, w'⟩ + (h.map (claimedIn b)).sum) +
        (deductedIn b ⟨t, w, op, r, w'⟩ + (h.map (deductedIn b)).sum)) =
        stock w.engine b + minted w' b := by
      rw [← hflow]
      abel
    exact add_left_cancel hcancel

/-! ### In the figures of the contract -/

/-- What a committed `claim_credits` on bond `b` returned. -/
def claimedAmount (b : BondId) (c : Call) : ℤ :=
  match c.op, c.ret with
  | .engine (.claimCredits _ b' _), .engine (.claimed receipt) =>
    if b = b' then receipt.accrued else 0
  | _, _ => 0

/-- The amount of a committed deduction on bond `b`. -/
def deductedAmount (b : BondId) (c : Call) : ℤ :=
  match c.op with
  | .engine (.deductCredits _ b' _ amount _) => if b = b' then amount else 0
  | .retirement (.retireCredits _ _ b' _ _ amount _ _ _) => if b = b' then amount else 0
  | _ => 0

/-- What the record of a closed period adds up to. -/
def closedAmount (w : World) (b : BondId) (p : ℕ) : ℤ :=
  match w.engine.periodInfo (b, p) with
  | none => 0
  | some info => info.totalCreditsEarned + info.undistributed

/-- `distributed_so_far` of an open period. -/
def openAmount (w : World) (b : BondId) (p : ℕ) : ℤ :=
  match w.engine.batchState (b, p) with
  | none => 0
  | some batch => batch.distributedSoFar

/-- The total, as a homomorphism. -/
def totalHom : Credits →+ ℤ := AddMonoidHom.fst ℤ ℤ + AddMonoidHom.snd ℤ ℤ

theorem total_eq_totalHom (x : Credits) : x.total = totalHom x := rfl

/-- What a call claims and deducts is split without rest. -/
theorem Step.amounts {now : ℕ} {w w' : World} {op : Op} {r : Ret} (hP : P .basket)
    (hB : BondIssuer.LedgerInv w.issuer) (hL : LifeCycle (OracleConsumer.docket w.oracle))
    (hI : PeriodInv w) (hS : Solvent P w.engine) (hexact : Exact P w op)
    (hstep : Step now w op w' r) (b : BondId) :
    (claimedIn b ⟨now, w, op, r, w'⟩).total = claimedAmount b ⟨now, w, op, r, w'⟩ ∧
      (deductedIn b ⟨now, w, op, r, w'⟩).total = deductedAmount b ⟨now, w, op, r, w'⟩ := by
  -- a split amount on another bond counts for nothing, in either form
  have hsplit : ∀ {b₀ : BondId} {x : Credits} {n : ℤ}, x.total = n →
      (if b = b₀ then x else 0).total = if b = b₀ then n else 0 := by
    intro b₀ x n hx
    split
    · exact hx
    · rfl
  obtain ⟨-, ⟨op', r', rfl, rfl, hmove⟩ | ⟨_, _, _, _, _, _, _, _, _, rfl, hstored, -⟩ |
    ⟨hengine, hretire, -⟩⟩ := hstep.credits hP hB hL hI hS hexact
  · cases hmove with
    | register _ _ => exact ⟨rfl, rfl⟩
    | batch _ _ _ => exact ⟨rfl, rfl⟩
    | final _ _ _ _ _ => exact ⟨rfl, rfl⟩
    | claim _ haccrued => exact ⟨hsplit haccrued.symm, rfl⟩
    | sweep _ => exact ⟨rfl, rfl⟩
    | grant _ => exact ⟨rfl, rfl⟩
    | deduct hstored _ => exact ⟨rfl, hsplit (total_bucket hstored _)⟩
  · exact ⟨rfl, hsplit (total_bucket hstored _)⟩
  · cases op with
    | engine op' => exact absurd rfl (hengine op')
    | retirement op' =>
      cases op' with
      | retireCredits => exact absurd rfl (hretire _ _ _ _ _ _ _ _ _)
      | extendRetirementTtl _ => exact ⟨rfl, rfl⟩
      | totalRetirements => exact ⟨rfl, rfl⟩
    | issuer _ => exact ⟨rfl, rfl⟩
    | registry _ _ => exact ⟨rfl, rfl⟩
    | oracle _ => exact ⟨rfl, rfl⟩

/-- The combined sums over a history are the totals of the split ones. -/
theorem amounts_of_run {h : List Call} {w : World} (hrun : Run h w) (hP : P .basket)
    (hexact : ∀ c ∈ h, Exact P c.pre c.op) (b : BondId) :
    (h.map (claimedIn b)).sum.total = (h.map (claimedAmount b)).sum ∧
      (h.map (deductedIn b)).sum.total = (h.map (deductedAmount b)).sum := by
  have hcall : ∀ c ∈ h, (claimedIn b c).total = claimedAmount b c ∧
      (deductedIn b c).total = deductedAmount b c := by
    intro c hc
    -- each call is judged in the state it was made in, which the calls before it reached
    obtain ⟨h₁, h₂, rfl⟩ := List.append_of_mem hc
    obtain ⟨hpast, -, hexec⟩ := hrun.past
    have hbefore : ∀ d ∈ h₂, Exact P d.pre d.op := by
      intro d hd
      exact hexact d (List.mem_append_right _ (List.mem_cons_of_mem _ hd))
    exact (step_of_exec hexec).amounts hP (ledger_of_run hpast) (lifeCycle_of_run hpast)
      (periods_of_run hpast) (solvent_of_run hP hpast hbefore) (hexact c hc) b
  constructor
  · rw [total_eq_totalHom, map_list_sum, List.map_map]
    exact congrArg List.sum (List.map_congr_left fun c hc => (hcall c hc).1)
  · rw [total_eq_totalHom, map_list_sum, List.map_map]
    exact congrArg List.sum (List.map_congr_left fun c hc => (hcall c hc).2)

/-- The credits of bond `b` are conserved along history `h` up to state `w`. -/
structure Conserved (h : List Call) (w : World) (b : BondId) : Prop where
  combined : ∑ᶠ a, w.engine.accruedCredits (b, a) + w.engine.undistributedTotal b +
      (h.map (claimedAmount b)).sum + (h.map (deductedAmount b)).sum =
    ∑ᶠ p, closedAmount w b p + ∑ᶠ p, openAmount w b p
  carbon : ∑ᶠ a, w.engine.accruedCreditsByType (b, a, .carbon) +
      w.engine.undistributedByType (b, .carbon) + (h.map (claimedIn b)).sum.1 +
      (h.map (deductedIn b)).sum.1 =
    ∑ᶠ p, (issued w b p).1 + ∑ᶠ p, (running w.engine b p).1
  biodiversity : ∑ᶠ a, w.engine.accruedCreditsByType (b, a, .biodiversity) +
      w.engine.undistributedByType (b, .biodiversity) + (h.map (claimedIn b)).sum.2 +
      (h.map (deductedIn b)).sum.2 =
    ∑ᶠ p, (issued w b p).2 + ∑ᶠ p, (running w.engine b p).2
  /-- What a closed period was computed with adds up to its record. -/
  recorded : ∀ p, (issued w b p).total = closedAmount w b p
  /-- All the sums are sums of finitely many figures. -/
  finite : (purse w.engine b).support.Finite ∧ (issued w b).support.Finite ∧
    (running w.engine b).support.Finite

/-- No balance is negative. -/
structure NonNegative (s : CouponEngine.State) : Prop where
  accrued : ∀ b a, 0 ≤ s.accruedCredits (b, a)
  accruedByType : ∀ b a creditType, 0 ≤ s.accruedCreditsByType (b, a, creditType)
  undistributed : ∀ b, 0 ≤ s.undistributedTotal b
  undistributedByType : ∀ b creditType, 0 ≤ s.undistributedByType (b, creditType)

theorem NonNegative.of_accounts {s : CouponEngine.State} (hA : Accounts s) : NonNegative s where
  accrued b a := by
    rw [hA.combined b a]
    exact add_nonneg (hA.nonneg b a).1 (hA.nonneg b a).2
  accruedByType b a creditType := by
    cases creditType with
    | carbon => exact (hA.nonneg b a).1
    | biodiversity => exact (hA.nonneg b a).2
    | basket => exact (hA.clean b a .basket (by simp [IsStored])).ge
    | blueCarbon => exact (hA.clean b a .blueCarbon (by simp [IsStored])).ge
  undistributed b := by
    rw [hA.dusted b]
    exact add_nonneg (hA.dustNonneg b).1 (hA.dustNonneg b).2
  undistributedByType b creditType := by
    cases creditType with
    | carbon => exact (hA.dustNonneg b).1
    | biodiversity => exact (hA.dustNonneg b).2
    | basket => exact (hA.dustClean b .basket (by simp [IsStored])).ge
    | blueCarbon => exact (hA.dustClean b .blueCarbon (by simp [IsStored])).ge

/-- **Credit conservation.** In every run in which the products of every opened period fit, for
every bond: what holders have accrued, what is undistributed, what was claimed and what was deducted
add up to what closed periods were recorded with and open ones have distributed, combined and for
each type; and no balance is negative. -/
theorem credits_conserved {h : List Call} {w : World} (hrun : Run h w)
    (hexact : ∀ c ∈ h, Exact (fun _ => True) c.pre c.op) :
    (∀ b, Conserved h w b) ∧ NonNegative w.engine := by
  have hS := solvent_of_run trivial hrun hexact
  have hA := hS.accounts
  have hI := periods_of_run hrun
  refine ⟨?_, .of_accounts hA⟩
  intro b
  obtain ⟨hfinite, hbalance⟩ := minted_of_run hrun (fun _ => trivial) hexact b
  obtain ⟨hclaimed, hdeducted⟩ := amounts_of_run hrun trivial hexact b
  have hrecorded : ∀ p, (issued w b p).total = closedAmount w b p := by
    intro p
    unfold closedAmount
    split
    · next hnone => rw [issued_none hnone]; rfl
    · next info hinfo =>
      obtain ⟨report, t, hrecorded⟩ := hI.infos b p info hinfo
      rw [hrecorded.backed.issued hinfo, hrecorded.earned]
  have hopen : ∀ p, (running w.engine b p).total = openAmount w b p := by
    intro p
    unfold running openAmount
    cases hbatch : w.engine.batchState (b, p) with
    | none => rfl
    | some batch =>
      obtain ⟨creditType, supply, processed, -, -, hB⟩ := hS.batches b p batch hbatch
      exact hB.paid.symm
  -- a homomorphism turns the equation of pairs into one of integers
  have happly : ∀ f : Credits →+ ℤ, ∑ᶠ a, f (purse w.engine b a) + f (dust w.engine b) +
      f (h.map (claimedIn b)).sum + f (h.map (deductedIn b)).sum =
      ∑ᶠ p, f (issued w b p) + ∑ᶠ p, f (running w.engine b p) := by
    intro f
    have hf := congrArg f hbalance
    unfold stock minted at hf
    rw [map_add, map_add, map_add, map_add, f.map_finsum (hA.finite b), f.map_finsum hfinite,
      f.map_finsum (hS.finite b)] at hf
    exact hf
  refine ⟨?_, ?_, ?_, hrecorded, hA.finite b, hfinite, hS.finite b⟩
  · have htotal := happly totalHom
    rw [← hclaimed, ← hdeducted, finsum_congr (hA.combined b), hA.dusted b,
      ← finsum_congr hrecorded, ← finsum_congr hopen]
    exact htotal
  · exact happly (AddMonoidHom.fst ℤ ℤ)
  · exact happly (AddMonoidHom.snd ℤ ℤ)

/-- A closed period of a Basket bond with a claim, a retirement and a sweep after it, and a second
period that is still open. -/
theorem credits_conserved_basket :
    ∃ h w, Run h w ∧ (h.map (claimedAmount 1)).sum = 7 ∧ (h.map (deductedAmount 1)).sum = 4 ∧
      closedAmount w 1 0 = 17 ∧ openAmount w 1 1 = 3 ∧ Conserved h w 1 ∧ NonNegative w.engine := by
  let ops : List (ℕ × Op) := (onboard ⟨0⟩ ⟨5⟩ ⟨1⟩ ⟨2⟩ ⟨100⟩ ⟨102⟩ 7).append
    [(1, .oracle (.submitReport ⟨1⟩ 1 0 10 12000 (.present 5 0 0) "VM0007" 3 0)),
      (1, .oracle (.verifyReport ⟨2⟩ 1 0)),
      (1, .oracle (.submitReport ⟨1⟩ 1 10 20 8000 (.present 2 0 0) "VM0007" 4 1)),
      (1, .oracle (.verifyReport ⟨2⟩ 2 1)),
      (1, .issuer (.issueBond ⟨0⟩ ⟨7, 1000, [50], .basket, 9000000, 100⟩ 0)),
      (1, .issuer (.subscribe ⟨8⟩ 1 3 0)),
      (1, .issuer (.subscribe ⟨9⟩ 1 4 0)),
      (1, .engine (.registerBond ⟨0⟩ 1 7 0)),
      (1, .engine (.registerDeductCaller ⟨0⟩ ⟨101⟩ 1)),
      (2, .engine (.distributeCoupon ⟨0⟩ 1 0 [(⟨8⟩, 3)] 1 2 false)),
      (2, .engine (.distributeCoupon ⟨0⟩ 1 0 [(⟨9⟩, 4)] 1 3 true)),
      (2, .engine (.claimCredits ⟨8⟩ 1 0)),
      (2, .retirement (.retireCredits [] ⟨9⟩ 1 7 0 4 .blueCarbon 6 0)),
      (2, .engine (.sweepUndistributed ⟨0⟩ 1 ⟨0⟩ 4)),
      (2, .engine (.distributeCoupon ⟨0⟩ 1 1 [(⟨8⟩, 3)] 2 5 false))]
  have hplay : (machine.play [] (deploy ⟨0⟩ ⟨100⟩ ⟨101⟩ ⟨102⟩) ops).map
      (fun x => ((x.1.map (claimedAmount 1)).sum, (x.1.map (deductedAmount 1)).sum,
        closedAmount x.2 1 0, openAmount x.2 1 1,
        x.1.all fun c => Exact (fun _ => True) c.pre c.op)) =
      some (7, 4, 17, 3, true) := by decide
  obtain ⟨h, w, hrun, hview⟩ := Run.of_play (Init.deploy ⟨0⟩ ⟨100⟩ ⟨101⟩ ⟨102⟩) hplay
  simp only [Prod.mk.injEq] at hview
  obtain ⟨hclaimed, hdeducted, hclosed, hopen, hall⟩ := hview
  have hexact : ∀ c ∈ h, Exact (fun _ => True) c.pre c.op := by
    intro c hc
    exact of_decide_eq_true (List.all_eq_true.mp hall c hc)
  obtain ⟨hconserved, hnonneg⟩ := credits_conserved hrun hexact
  exact ⟨h, w, hrun, hclaimed, hdeducted, hclosed, hopen, hconserved 1, hnonneg⟩

end Protocol
end NbsBond
