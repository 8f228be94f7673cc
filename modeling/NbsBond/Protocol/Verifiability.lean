import NbsBond.Protocol.Supermajority

/-!
# Verification and its threshold

`set_signature_threshold` refuses a threshold above the number of active providers, because a report
could then never collect enough signatures. The provider of a report cannot sign it, so for a report
of an active provider the bound is off by one: a threshold equal to the number of active providers
is accepted and cannot be reached, unless a provider that has signed was removed since.

`verifiable_iff` is this for one report in one state. Along a run it takes calls that keep the
threshold below the number of active providers (`margin_of_run`).
-/

namespace NbsBond
namespace Protocol

open Soroban OracleConsumer

/-- Report `r` is pending and has no open challenge. -/
structure Waiting (s : OracleConsumer.State) (r : ReportId) (rep : Report) : Prop where
  report : s.report r = some rep
  pending : rep.status = .pending
  closed : ∀ ch, s.challenge r = some ch → ch.resolved = true

/-- `a` may sign report `rep`: an active provider that did not submit it. -/
def MaySign (s : OracleConsumer.State) (rep : Report) (a : Address) : Prop :=
  isActive s a = true ∧ a ≠ rep.provider

instance (s : OracleConsumer.State) (rep : Report) (a : Address) : Decidable (MaySign s rep a) :=
  inferInstanceAs (Decidable (_ ∧ _))

/-- The addresses that have signed report `r` or may sign it. -/
def signers (s : OracleConsumer.State) (r : ReportId) (rep : Report) : Set Address :=
  {a | a ∈ s.reportVerifiers r ∨ MaySign s rep a}

/-- Report `r` is verified. -/
def IsVerified (s : OracleConsumer.State) (r : ReportId) : Prop :=
  ∃ rep, s.report r = some rep ∧ rep.status = .verified

/-- In the state `w` that the run `h` has reached, enough addresses have signed report `r` or may
sign it, and calls of `verify_report` by providers active now get it verified. -/
structure Verifiable (h : List Call) (w : World) (r : ReportId) (rep : Report) : Prop where
  enough : w.oracle.signatureThreshold ≤ (signers w.oracle r rep).ncard
  verified : ∃ calls w', Run (calls ++ h) w' ∧
    (∀ c ∈ calls, ∃ a nonce, c.op = .oracle (.verifyReport a r nonce) ∧
      isActive w.oracle a = true) ∧ IsVerified w'.oracle r

/-- Nobody is missing but the provider: it is active, so are all that have signed, and the threshold
asks for all active providers. -/
structure OneShort (s : OracleConsumer.State) (r : ReportId) (rep : Report) : Prop where
  threshold : s.signatureThreshold = activeProviderCount s
  active : isActive s rep.provider = true
  verifiers : ∀ a ∈ s.reportVerifiers r, isActive s a = true

/-! ### Counting the signers -/

/-- **Off by one.** The signers reach the threshold unless they are one short. Those that have
signed and those that still may make up the set. -/
theorem signers_enough_iff {h : List Call} {w : World} (hrun : Run h w) {r : ReportId}
    {rep : Report} (hrep : w.oracle.report r = some rep) (htwo : 2 ≤ activeProviderCount w.oracle) :
    w.oracle.signatureThreshold ≤ (signers w.oracle r rep).ncard ↔
      ¬ OneShort w.oracle r rep := by
  have hE := electorate_of_run hrun
  have hL := lifeCycle_of_run hrun
  have hcount : (actives w.oracle).ncard = activeProviderCount w.oracle :=
    hE.activeCount_eq_ncard.symm
  have hbounded : w.oracle.signatureThreshold ≤ max (activeProviderCount w.oracle) 1 := hE.bounded
  have hactives : (actives w.oracle).Finite := hE.finite_active
  have hfinite : (signers w.oracle r rep).Finite :=
    ((List.finite_toSet (w.oracle.reportVerifiers r)).union hactives).subset
      fun _ ha => ha.imp id And.left
  have hsub : actives w.oracle \ {rep.provider} ⊆ signers w.oracle r rep := fun a ha => Or.inr ha
  constructor
  · rintro henough ⟨hthreshold, hactive, hverifiers⟩
    -- whoever has signed may sign
    have hall : signers w.oracle r rep = actives w.oracle \ {rep.provider} := by
      refine subset_antisymm ?_ hsub
      rintro a (ha | ha)
      · refine ⟨hverifiers a ha, ?_⟩
        rintro rfl
        exact hL.foreign r rep hrep ha
      · exact ha
    have hmem : rep.provider ∈ actives w.oracle := hactive
    rw [hall, Set.ncard_sdiff_singleton_of_mem hmem, hcount, hthreshold] at henough
    omega
  · intro hshort
    by_cases hactive : isActive w.oracle rep.provider = true
    swap
    · -- the provider is not among the active ones, so all of these may sign
      have hwhole : actives w.oracle \ {rep.provider} = actives w.oracle :=
        Set.sdiff_singleton_eq_self hactive
      have hle := Set.ncard_le_ncard hsub hfinite
      rw [hwhole, hcount] at hle
      omega
    have hmem : rep.provider ∈ actives w.oracle := hactive
    have hless : (actives w.oracle \ {rep.provider}).ncard = activeProviderCount w.oracle - 1 := by
      rw [Set.ncard_sdiff_singleton_of_mem hmem, hcount]
    by_cases hverifiers : ∀ a ∈ w.oracle.reportVerifiers r, isActive w.oracle a = true
    · have hne : w.oracle.signatureThreshold ≠ activeProviderCount w.oracle := fun hthreshold =>
        hshort ⟨hthreshold, hactive, hverifiers⟩
      -- the threshold is below the number of active providers, and one of them is left out
      have hle := Set.ncard_le_ncard hsub hfinite
      omega
    · -- a signature of a provider that was removed stands in for the missing one
      push Not at hverifiers
      obtain ⟨b, hb, hinactive⟩ := hverifiers
      have hnew : b ∉ actives w.oracle \ {rep.provider} := fun hmem => hinactive hmem.1
      have hsigned : b ∈ signers w.oracle r rep := Or.inl hb
      have hle := Set.ncard_le_ncard (Set.insert_subset hsigned hsub) hfinite
      rw [Set.ncard_insert_of_notMem hnew hactives.sdiff] at hle
      omega

/-! ### Signing one after the other -/

/-- What a signature short of the threshold leaves of the conditions for the next one. So the next
signature can be given in the state that this one has left. -/
structure Ready (s s' : OracleConsumer.State) (r : ReportId) (rep : Report) : Prop where
  waiting : Waiting s' r rep
  active : ∀ a, isActive s' a = isActive s a
  threshold : s'.signatureThreshold = s.signatureThreshold

theorem Ready.refl {s : OracleConsumer.State} {r : ReportId} {rep : Report}
    (hwaiting : Waiting s r rep) : Ready s s r rep := ⟨hwaiting, fun _ => rfl, rfl⟩

theorem Ready.trans {s s₁ s₂ : OracleConsumer.State} {r : ReportId} {rep : Report}
    (h₁ : Ready s s₁ r rep) (h₂ : Ready s₁ s₂ r rep) : Ready s s₂ r rep :=
  ⟨h₂.waiting, fun a => (h₂.active a).trans (h₁.active a), h₂.threshold.trans h₁.threshold⟩

/-- **One signature.** An active provider other than the report's own signs it; then the report is
verified, or the signatures are still short of the threshold. -/
theorem sign_once {h : List Call} {w : World} (hrun : Run h w) {r : ReportId} {rep : Report}
    {a : Address} (hwaiting : Waiting w.oracle r rep) (ha : MaySign w.oracle rep a) :
    ∃ c w', Run (c :: h) w' ∧ (∃ nonce, c.op = .oracle (.verifyReport a r nonce)) ∧
      (IsVerified w'.oracle r ∨ Ready w.oracle w'.oracle r rep ∧
        (w'.oracle.reportVerifiers r).length < w.oracle.signatureThreshold ∧
        ∀ b, b ∈ w'.oracle.reportVerifiers r ↔ b ∈ w.oracle.reportVerifiers r ∨ b = a) := by
  obtain ⟨hrep, hpending, hclosed⟩ := hwaiting
  obtain ⟨hactive, hother⟩ := ha
  let s₁ : OracleConsumer.State := addVerifier { w.oracle with
    nonce := Function.update w.oracle.nonce a (w.oracle.nonce a + 1) } r a
  -- the guards of `verify_report`, one by one
  have hverify : verifyReport (lastTime h) w.oracle a r (w.oracle.nonce a) =
      .ok (verifyIfReached (lastTime h) s₁ r rep) := by
    unfold isActive at hactive
    split at hactive
    · next p hp =>
      simp only [verifyReport, bind_eq_ok, orError_eq_ok, ensure_eq_ok, useNonce_eq_ok, pure_eq_ok]
      exact ⟨p, hp, (), hactive, _, ⟨trivial, rfl⟩, rep, hrep, (), hpending, (), hclosed, (),
        hother, rfl⟩
    · cases hactive
  have hexec : machine.exec (lastTime h) w (.oracle (.verifyReport a r (w.oracle.nonce a))) =
      .ok ({ w with oracle := verifyIfReached (lastTime h) s₁ r rep }, .oracle none) :=
    exec_of_oracle (by rw [OracleConsumer.exec, hverify]; rfl)
  refine ⟨_, _, hrun.call (le_refl _) hexec, ⟨_, rfl⟩, ?_⟩
  -- the signature adds to the list and touches nothing else
  have hcouncil : council s₁ = council w.oracle := council_addVerifier _ _ _
  have hdocket : docket s₁ = (docket w.oracle).sign r a := docket_addVerifier _ _ _
  have hthreshold : s₁.signatureThreshold = w.oracle.signatureThreshold :=
    congrArg Council.threshold hcouncil
  have hverifiers : ∀ b, b ∈ s₁.reportVerifiers r ↔ b ∈ w.oracle.reportVerifiers r ∨ b = a := by
    intro b
    show b ∈ (docket s₁).verifiers r ↔ _
    rw [hdocket]
    exact Docket.mem_sign_verifiers _ _ _
  by_cases hreached : s₁.signatureThreshold ≤ (s₁.reportVerifiers r).length
  · left
    -- the report is verified by this signature
    refine ⟨{ rep with status := .verified, verifiedAt := lastTime h }, ?_, rfl⟩
    show (docket (verifyIfReached (lastTime h) s₁ r rep)).report r = _
    rw [verifyIfReached, if_pos hreached, docket_releaseReportLock, Docket.release_report]
    exact Function.update_self _ _ _
  · right
    have hleft : verifyIfReached (lastTime h) s₁ r rep = s₁ := by
      -- nothing but the signature is written
      rw [verifyIfReached, if_neg hreached]
    dsimp only
    rw [hleft]
    refine ⟨⟨⟨?_, hpending, ?_⟩, ?_, hthreshold⟩, ?_, hverifiers⟩
    · show (docket s₁).report r = _
      rw [hdocket, Docket.sign_report]
      exact hrep
    · intro ch hch
      change (docket s₁).challenge r = some ch at hch
      rw [hdocket, Docket.sign_challenge] at hch
      exact hclosed ch hch
    · intro b
      exact congrArg (Council.isActive · b) hcouncil
    · rw [← hthreshold]
      exact not_le.mp hreached

/-- **A sequence of signatures.** All of `l` sign, in turn, unless the report is verified before. -/
theorem sign_all {l : List Address} {h : List Call} {w : World} (hrun : Run h w) {r : ReportId}
    {rep : Report} (hwaiting : Waiting w.oracle r rep) (hl : ∀ a ∈ l, MaySign w.oracle rep a) :
    ∃ calls w', Run (calls ++ h) w' ∧
      (∀ c ∈ calls, ∃ a nonce, c.op = .oracle (.verifyReport a r nonce) ∧ a ∈ l) ∧
      (IsVerified w'.oracle r ∨ Ready w.oracle w'.oracle r rep ∧
        (l ≠ [] → (w'.oracle.reportVerifiers r).length < w.oracle.signatureThreshold) ∧
        ∀ b, b ∈ w'.oracle.reportVerifiers r ↔ b ∈ w.oracle.reportVerifiers r ∨ b ∈ l) := by
  induction l generalizing h w with
  | nil =>
    -- nobody signs
    refine ⟨[], w, hrun, fun c hc => absurd hc List.not_mem_nil,
      Or.inr ⟨.refl hwaiting, fun hne => absurd rfl hne, fun b => ?_⟩⟩
    simp
  | cons a l ih =>
    rw [List.forall_mem_cons] at hl
    obtain ⟨c, w₁, hrun₁, ⟨nonce, hop⟩, hsigned⟩ := sign_once hrun hwaiting hl.1
    have hc : ∃ b n, c.op = .oracle (.verifyReport b r n) ∧ b ∈ a :: l :=
      ⟨a, nonce, hop, List.mem_cons_self⟩
    obtain hverified | ⟨hready, hshort, hverifiers⟩ := hsigned
    -- the first signature was enough
    · exact ⟨[c], w₁, hrun₁, fun d hd => List.mem_singleton.mp hd ▸ hc, Or.inl hverified⟩
    -- the others may still sign
    have hl₁ : ∀ b ∈ l, MaySign w₁.oracle rep b := fun b hb =>
      ⟨(hready.active b).trans (hl.2 b hb).1, (hl.2 b hb).2⟩
    obtain ⟨calls, w₂, hrun₂, hcalls, hrest⟩ := ih hrun₁ hready.waiting hl₁
    refine ⟨calls ++ [c], w₂, ?_, fun d hd => ?_, ?_⟩
    · rw [List.append_assoc]
      exact hrun₂
    · rcases List.mem_append.mp hd with hd | hd
      · obtain ⟨b, n, hop, hb⟩ := hcalls d hd
        exact ⟨b, n, hop, List.mem_cons_of_mem a hb⟩
      · exact List.mem_singleton.mp hd ▸ hc
    · obtain hverified | ⟨hready₂, hshort₂, hverifiers₂⟩ := hrest
      · exact Or.inl hverified
      refine Or.inr ⟨hready.trans hready₂, fun _ => ?_, fun b => ?_⟩
      · by_cases hl : l = []
        · -- nobody signed after `a`
          have hsame : ∀ b, b ∈ w₂.oracle.reportVerifiers r ↔ b ∈ w₁.oracle.reportVerifiers r := by
            intro b
            rw [hverifiers₂, hl]
            simp
          have hlength : (w₂.oracle.reportVerifiers r).length =
              (w₁.oracle.reportVerifiers r).length :=
            ((List.perm_ext_iff_of_nodup ((lifeCycle_of_run hrun₂).distinct r)
              ((lifeCycle_of_run hrun₁).distinct r)).mpr hsame).length_eq
          rw [hlength]
          exact hshort
        · rw [← hready.threshold]
          exact hshort₂ hl
      · rw [hverifiers₂, hverifiers, List.mem_cons, or_assoc]

/-- Enough signers get a report verified. -/
theorem verified_of_enough {h : List Call} {w : World} (hrun : Run h w) {r : ReportId}
    {rep : Report} (hwaiting : Waiting w.oracle r rep) (htwo : 2 ≤ activeProviderCount w.oracle)
    (henough : w.oracle.signatureThreshold ≤ (signers w.oracle r rep).ncard) :
    Verifiable h w r rep := by
  have hE := electorate_of_run hrun
  -- everybody who may sign
  let l : List Address := w.oracle.providerList.filter fun a => MaySign w.oracle rep a
  have hl : ∀ a, a ∈ l ↔ MaySign w.oracle rep a := by
    intro a
    rw [List.mem_filter, decide_eq_true_iff]
    exact ⟨And.right, fun ha => ⟨hE.mem_of_isActive ha.1, ha⟩⟩
  -- one of two active providers is not the submitter
  have hne : l ≠ [] := by
    intro hnil
    -- the active providers would all be the report's own
    have hsub : actives w.oracle ⊆ {rep.provider} := by
      intro a ha
      by_contra hother
      have hmem := (hl a).mpr ⟨ha, hother⟩
      rw [hnil] at hmem
      cases hmem
    have hle := Set.ncard_le_ncard hsub
    rw [Set.ncard_singleton, show (actives w.oracle).ncard = activeProviderCount w.oracle from
      hE.activeCount_eq_ncard.symm] at hle
    omega
  obtain ⟨calls, w', hrun', hcalls, hend⟩ := sign_all hrun hwaiting fun a ha => (hl a).mp ha
  refine ⟨henough, calls, w', hrun', fun c hc => ?_, ?_⟩
  · obtain ⟨a, nonce, hop, ha⟩ := hcalls c hc
    exact ⟨a, nonce, hop, ((hl a).mp ha).1⟩
  · obtain hverified | ⟨-, hshort, hverifiers⟩ := hend
    · exact hverified
    -- otherwise all signers have signed, and that is enough
    have hset : signers w.oracle r rep = {a | a ∈ w'.oracle.reportVerifiers r} :=
      Set.ext fun a => by
        show _ ∨ _ ↔ a ∈ w'.oracle.reportVerifiers r
        rw [hverifiers, hl]
    -- nobody signs twice, so that the list is as long as the set is large
    have hall : (signers w.oracle r rep).ncard = (w'.oracle.reportVerifiers r).length := by
      have hdistinct : (w'.oracle.reportVerifiers r).Nodup := (lifeCycle_of_run hrun').distinct r
      rw [hset, ← List.toFinset_card_of_nodup hdistinct, ← Set.ncard_coe_finset,
        List.coe_toFinset]
    have hlt := hshort hne
    omega

/-- **Verifiability** of one report: not one short. -/
theorem verifiable_iff {h : List Call} {w : World} (hrun : Run h w) {r : ReportId} {rep : Report}
    (hwaiting : Waiting w.oracle r rep) (htwo : 2 ≤ activeProviderCount w.oracle) :
    Verifiable h w r rep ↔ ¬ OneShort w.oracle r rep :=
  ⟨fun hverifiable => (signers_enough_iff hrun hwaiting.report htwo).mp hverifiable.enough,
    fun hshort => verified_of_enough hrun hwaiting htwo
      ((signers_enough_iff hrun hwaiting.report htwo).mpr hshort)⟩

/-! ### Runs -/

/-- The call does not use up the margin of the threshold. -/
def Op.LeavesMargin (w : World) : Op → Prop
  | .oracle op => op.LeavesMargin w.oracle
  | _ => True

/-- Along a run that leaves a margin there is one. -/
theorem margin_of_run {h : List Call} {w : World} (hrun : Run h w)
    (hmargin : ∀ c ∈ h, c.op.LeavesMargin c.pre) : Margin (council w.oracle) := by
  have hboth : Electorate (council w.oracle) ∧ Margin (council w.oracle) := by
    refine hrun.guarded (G := fun w op => op.LeavesMargin w)
      (P := fun w => Electorate (council w.oracle) ∧ Margin (council w.oracle)) ?_ ?_ hmargin
    · rintro w hinit
      obtain ⟨admin, hadmin⟩ := hinit.oracle
      rw [hadmin]
      exact ⟨Electorate.initial admin, Or.inr (Nat.zero_le 1)⟩
    · rintro t w op r w' ⟨hE, hM⟩ hop hexec
      obtain ⟨op', rfl, hmove⟩ | ⟨-, hsame⟩ := (step_of_exec hexec).move
      -- the margin is counted among the active providers, so the electorate goes first
      · exact ⟨hE.step hmove, hM.step hE hmove hop⟩
      · rw [hsame]
        exact ⟨hE, hM⟩
  exact hboth.2

/-- **Verification and deadlock.** In every reached state with two active providers, a pending
report without open challenge can be verified if and only if it is not one short; and after a run
whose calls all leave a margin every such report can be verified. One short means that the
threshold asks for all active providers, and the provider of the report, which cannot sign it, is
one of them. -/
theorem verification_deadlock_iff {h : List Call} {w : World} (hrun : Run h w)
    (htwo : 2 ≤ activeProviderCount w.oracle) :
    (∀ r rep, Waiting w.oracle r rep →
      (Verifiable h w r rep ↔ ¬ OneShort w.oracle r rep)) ∧
    ((∀ c ∈ h, c.op.LeavesMargin c.pre) → ∀ r rep, Waiting w.oracle r rep →
      Verifiable h w r rep) := by
  refine ⟨fun r rep hwaiting => verifiable_iff hrun hwaiting htwo,
    fun hmargin r rep hwaiting => (verifiable_iff hrun hwaiting htwo).mpr fun hshort => ?_⟩
  have hroom : w.oracle.signatureThreshold < activeProviderCount w.oracle ∨
      activeProviderCount w.oracle ≤ 1 := margin_of_run hrun hmargin
  have hthreshold := hshort.threshold
  -- one short means no room
  omega

/-- The call retires nobody, and sets the threshold below the number of active providers. -/
def Op.keepsRoom (w : World) : Op → Bool
  | .oracle (.setSignatureThreshold _ threshold _) => threshold < activeProviderCount w.oracle
  | .oracle (.removeProvider ..) => false
  | .oracle (.resolveChallenge ..) => false
  | .oracle (.resolveChallengeByVerifier ..) => false
  | _ => true

theorem Op.leavesMargin_of_keepsRoom {w : World} {op : Op} (h : op.keepsRoom w = true) :
    op.LeavesMargin w := by
  rcases op with op | ⟨registryId, op⟩ | op | op | op
  case oracle =>
    cases op with
    | setSignatureThreshold caller threshold nonce => exact Or.inl (of_decide_eq_true h)
    | removeProvider | resolveChallenge | resolveChallengeByVerifier => cases h
    | _ => exact fun v hretires => hretires.elim
  all_goals trivial

/-- With three providers and a threshold of two, the report of one of them can be verified. -/
theorem verification_deadlock_iff_three_providers : ∃ h w rep, Run h w ∧
    w.oracle.signatureThreshold = 2 ∧ Waiting w.oracle 1 rep ∧ Verifiable h w 1 rep := by
  let ops : List (ℕ × Op) := (onboard ⟨0⟩ ⟨5⟩ ⟨1⟩ ⟨2⟩ ⟨100⟩ ⟨102⟩ 7).append
    [(1, .oracle (.registerProvider ⟨0⟩ ⟨3⟩ "VM0007" 3)),
      (1, .oracle (.setSignatureThreshold ⟨0⟩ 2 4)),
      (1, .oracle (.submitReport ⟨1⟩ 1 0 10 5000 .absent "VM0007" 3 0))]
  have hplay : (machine.play [] (deploy ⟨0⟩ ⟨100⟩ ⟨101⟩ ⟨102⟩) ops).map
      (fun p => (p.1.all fun c => c.op.keepsRoom c.pre, p.2.oracle.signatureThreshold,
        activeProviderCount p.2.oracle, (p.2.oracle.report 1).map Report.status,
        p.2.oracle.challenge 1)) = some (true, 2, 3, some .pending, none) := by decide
  obtain ⟨h, w, hrun, hview⟩ := Run.of_play (Init.deploy ⟨0⟩ ⟨100⟩ ⟨101⟩ ⟨102⟩) hplay
  simp only [Prod.mk.injEq, Option.map_eq_some_iff] at hview
  obtain ⟨hall, hthreshold, hcount, ⟨rep, hrep, hpending⟩, hnone⟩ := hview
  have hwaiting : Waiting w.oracle 1 rep := ⟨hrep, hpending, fun ch hch => by
    rw [hnone] at hch
    cases hch⟩
  refine ⟨h, w, rep, hrun, hthreshold, hwaiting, ?_⟩
  exact (verification_deadlock_iff hrun (by omega)).2 (fun c hc =>
    Op.leavesMargin_of_keepsRoom (List.all_eq_true.mp hall c hc)) 1 rep hwaiting

/-- With two providers and a threshold of two, the report of one of them cannot be verified. The
other one can sign it, and nobody else is left. -/
theorem verification_deadlocks : ¬ ∀ (h : List Call) (w : World), Run h w →
    2 ≤ activeProviderCount w.oracle → ∀ r rep, Waiting w.oracle r rep →
      Verifiable h w r rep := by
  intro hclaim
  let ops : List (ℕ × Op) := (onboard ⟨0⟩ ⟨5⟩ ⟨1⟩ ⟨2⟩ ⟨100⟩ ⟨102⟩ 7).append
    [(1, .oracle (.setSignatureThreshold ⟨0⟩ 2 3)),
      (1, .oracle (.submitReport ⟨1⟩ 1 0 10 5000 .absent "VM0007" 3 0))]
  have hplay : (machine.play [] (deploy ⟨0⟩ ⟨100⟩ ⟨101⟩ ⟨102⟩) ops).map
      (fun p => ((p.2.oracle.report 1).map fun rep =>
          (rep.status, isActive p.2.oracle rep.provider),
        decide (p.2.oracle.signatureThreshold = 2 ∧ activeProviderCount p.2.oracle = 2 ∧
          p.2.oracle.challenge 1 = none ∧ p.2.oracle.reportVerifiers 1 = []))) =
      some (some (.pending, true), true) := by decide
  obtain ⟨h, w, hrun, hview⟩ := Run.of_play (Init.deploy ⟨0⟩ ⟨100⟩ ⟨101⟩ ⟨102⟩) hplay
  simp only [Prod.mk.injEq, Option.map_eq_some_iff, decide_eq_true_eq] at hview
  obtain ⟨⟨rep, hrep, hpending, hactive⟩, hthreshold, hcount, hnone, hunsigned⟩ := hview
  have hwaiting : Waiting w.oracle 1 rep := ⟨hrep, hpending, fun ch hch => by
    rw [hnone] at hch
    cases hch⟩
  have htwo : 2 ≤ activeProviderCount w.oracle := by omega
  have hshort : OneShort w.oracle 1 rep := by
    refine ⟨hthreshold.trans hcount.symm, hactive, fun a ha => ?_⟩
    rw [hunsigned] at ha
    cases ha
  exact (verifiable_iff hrun hwaiting htwo).mp (hclaim h w hrun htwo 1 rep hwaiting) hshort

end Protocol
end NbsBond
