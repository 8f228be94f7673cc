import NbsBond.Protocol.Retirements

/-!
# Totals by type

`get_retired_by_type` reads the key `RetiredByType`, which no entrypoint writes: in every run from
a fresh contract it answers zero. So the totals by type agree with a holder's records, and add up
to the holder's total, if and only if the holder has retired nothing.
-/

namespace NbsBond

/-- The credit types. -/
def CreditType.all : List CreditType := [.carbon, .biodiversity, .basket, .blueCarbon]

namespace CreditRetirement

open Soroban Int128 Ledger

/-- The records of a type. -/
def ofType (c : CreditType) (records : List RetirementRecord) : List RetirementRecord :=
  records.filter (·.creditType = c)

/-- What the totals by type are to say of a holder with these records among others. -/
structure TypeTotals (s : State) (records : List RetirementRecord) (holder : Address) : Prop where
  byType : ∀ c, getRetiredByType s holder c = amount (ofType c (ofHolder holder records))
  total : (CreditType.all.map (getRetiredByType s holder)).sum = getTotalRetired s holder

/-! ### Nothing writes the totals by type -/

theorem getRetirementCount_retiredByType (s : State) :
    (getRetirementCount s).1.retiredByType = s.retiredByType := by
  unfold getRetirementCount
  split <;> rfl

theorem recordRetirement_retiredByType {now : ℕ} {s s' : State} {holder : Address} {b : BondId}
    {projectId : Bytes32} {period : CouponEngine.PeriodInfo} {periodIndex : ℕ} {amount : ℤ}
    {creditType : CreditType} {certificateHash : Bytes32} {id : ℕ}
    (h : recordRetirement now s holder b projectId period periodIndex amount creditType
      certificateHash = .ok (s', id)) : s'.retiredByType = s.retiredByType := by
  simp only [recordRetirement, bind_eq_ok, orError_eq_ok, checkedAdd_eq_some, pure_eq_ok,
    Prod.mk.injEq] at h
  have hcount := getRetirementCount_retiredByType { s with
    retiredPerBond := s.retiredPerBond.write (b, holder)
      (wrap ((s.retiredPerBond.read (b, holder)).getD 0 + amount)) }
  generalize getRetirementCount _ = counted at h hcount
  obtain ⟨s₁, count⟩ := counted
  obtain ⟨_, -, rfl, -⟩ := h
  exact hcount

theorem extendRetirementTtl_retiredByType {s s' : State} {id : ℕ}
    (h : extendRetirementTtl s id = .ok s') : s'.retiredByType = s.retiredByType := by
  simp only [extendRetirementTtl, bind_eq_ok, orError_eq_ok, pure_eq_ok] at h
  obtain ⟨record, -, _, -, _, -, rfl⟩ := h
  split <;> rfl

theorem exec_retiredByType {now : ℕ} {self : Address} {issuer : BondIssuer.State}
    {engine engine' : CouponEngine.State} {s s' : State} {op : Op} {r : ℕ}
    (h : exec now self issuer engine s op = .ok ((s', engine'), r)) :
    s'.retiredByType = s.retiredByType := by
  cases op with
  | retireCredits signers holder b projectId periodIndex amount creditType certificateHash nonce =>
    simp only [exec, retireCredits, bind_eq_ok, pure_eq_ok, Prod.mk.injEq] at h
    obtain ⟨_, -, _, -, _, -, _, -, _, -, _, -, _, -, _, -, _, -, _, -, _, -, ⟨s₁, id⟩, hrecord,
      ⟨rfl, -⟩, -⟩ := h
    have hkeep := recordRetirement_retiredByType hrecord
    exact hkeep
  | extendRetirementTtl id =>
    simp only [exec, bind_eq_ok, pure_eq_ok, Prod.mk.injEq] at h
    obtain ⟨_, hextend, ⟨rfl, -⟩, -⟩ := h
    exact extendRetirementTtl_retiredByType hextend
  | totalRetirements =>
    simp only [exec, pure_eq_ok, Prod.mk.injEq] at h
    obtain ⟨⟨rfl, -⟩, -⟩ := h
    exact getRetirementCount_retiredByType s

end CreditRetirement

namespace Protocol

open Soroban CreditRetirement CreditRetirement.Ledger

section Runs

variable {w₀ w : World} {h : List Call} {holder : Address}

/-- **The totals by type stay zero.** The entry is not in the store of a new deployment, and no
entrypoint writes it. -/
theorem getRetiredByType_of_run (hstart : ∃ admin, w₀.retirement = construct admin)
    (hrun : Soroban.Run machine (· = w₀) h w) (c : CreditType) :
    getRetiredByType w.retirement holder c = 0 := by
  obtain ⟨admin, hconstruct⟩ := hstart
  have hkeep : w.retirement.retiredByType = w₀.retirement.retiredByType := by
    refine hrun.induction
      (P := fun _ w => w.retirement.retiredByType = w₀.retirement.retiredByType) ?_ ?_
    · rintro w rfl
      rfl
    · intro h w t op r w' _ _ hexec ih
      cases step_of_exec hexec with
      | retirement hretire => exact (exec_retiredByType hretire).trans ih
      | _ => exact ih
  rw [getRetiredByType, hkeep, hconstruct]
  rfl

/-- A holder has a record just if it has retired. -/
theorem ofHolder_ne_nil (hrun : Soroban.Run machine (· = w₀) h w) :
    ofHolder holder (newRecords h) ≠ [] ↔
      ∃ c ∈ h, ∃ x ∈ c.op.retiresCredits, x.1.2 = holder := by
  constructor
  · intro hne
    obtain ⟨record, hmem⟩ := List.exists_mem_of_ne_nil _ hne
    obtain ⟨hnew, hholder⟩ := List.mem_filter.mp hmem
    obtain ⟨c, hc, hrecord⟩ := List.mem_filterMap.mp hnew
    have hc : c ∈ h := List.mem_reverse.mp hc
    cases ledger_of_mem hrun hc with
    | retire _ hrecord' hretires _ _ _ _ _ =>
      obtain rfl := Option.some.inj (hrecord.symm.trans hrecord')
      exact ⟨c, hc, _, hretires, of_decide_eq_true hholder⟩
    | other _ hrecord' _ _ =>
      rw [hrecord'] at hrecord
      cases hrecord
  · rintro ⟨c, hc, x, hx, rfl⟩
    cases ledger_of_mem hrun hc with
    | @retire record _ hrecord hretires _ _ _ _ _ =>
      obtain rfl := Option.some.inj (hretires.symm.trans hx)
      have hnew : record ∈ newRecords h :=
        List.mem_filterMap.mpr ⟨c, List.mem_reverse.mpr hc, hrecord⟩
      exact List.ne_nil_of_mem (List.mem_filter.mpr ⟨hnew, decide_eq_true rfl⟩)
    | other _ _ hretires _ =>
      rw [hretires] at hx
      cases hx

/-- What a holder has retired in all is zero just if it has no record. -/
theorem amount_ofHolder_eq_zero {records : List RetirementRecord} {L : Ledger}
    (hissued : L.Issued records) :
    amount (ofHolder holder records) = 0 ↔ ofHolder holder records = [] := by
  refine ⟨fun hzero => ?_, fun hnil => by rw [hnil]; rfl⟩
  by_contra hne
  have hpositive : 0 < amount (ofHolder holder records) := by
    refine List.sum_pos _ (fun x hx => ?_) (by simpa using hne)
    obtain ⟨record, hmem, rfl⟩ := List.mem_map.mp hx
    exact hissued.positive record (List.mem_filter.mp hmem).1
  exact hpositive.ne' hzero

/-- **Totals by type.** In a run from a fresh `CreditRetirement` they are right for the holders that
have retired nothing, and for no other. The query reads a key that no entrypoint writes, so its
answer is zero for everybody. -/
theorem type_totals (hstart : ∃ admin, w₀.retirement = construct admin)
    (hrun : Soroban.Run machine (· = w₀) h w) (holder : Address) :
    TypeTotals w.retirement (newRecords h) holder ↔
      ∀ c ∈ h, ∀ x ∈ c.op.retiresCredits, x.1.2 ≠ holder := by
  have hzero : ∀ c, getRetiredByType w.retirement holder c = 0 :=
    getRetiredByType_of_run hstart hrun
  obtain ⟨hissued, hreplay, -⟩ := replay_of_run hrun
  have htotal : getTotalRetired w.retirement holder = amount (ofHolder holder (newRecords h)) := by
    obtain ⟨admin, hconstruct⟩ := hstart
    have hempty : w₀.ledger.retired holder = 0 := by
      rw [World.ledger, hconstruct]
      rfl
    calc getTotalRetired w.retirement holder
        = (w₀.ledger.replay (newRecords h)).retired holder := congrArg (·.retired holder) hreplay
      _ = amount (ofHolder holder (newRecords h)) := by rw [replay_retired, hempty, zero_add]
  have hnone : (∀ c ∈ h, ∀ x ∈ c.op.retiresCredits, x.1.2 ≠ holder) ↔
      ofHolder holder (newRecords h) = [] := by
    rw [← not_iff_not, ← ne_eq, ofHolder_ne_nil hrun]
    push Not
    rfl
  rw [hnone]
  constructor
  · intro htotals
    have hsum := htotals.total
    rw [funext hzero, htotal] at hsum
    exact (amount_ofHolder_eq_zero hissued).mp hsum.symm
  · intro hnil
    refine ⟨fun c => ?_, ?_⟩
    · rw [hzero, hnil]
      rfl
    · rw [funext hzero, htotal, hnil]
      rfl

end Runs

/-- A bond whose coupon is distributed, and one retirement of its credits. -/
def oneRetirement : List (ℕ × Op) :=
  retirableBond.append [(2, .retirement (.retireCredits [] ⟨9⟩ 1 7 0 3 .blueCarbon 6 0))]

/-- One retirement, and the total of its type stays zero. -/
theorem type_totals_zero : ∃ w₀ h w, (∃ admin, w₀.retirement = construct admin) ∧
    Soroban.Run machine (· = w₀) h w ∧
      (newRecords h).map (fun record => (record.holder, record.creditType, record.amount)) =
        [(⟨9⟩, .blueCarbon, 3)] ∧
      (getRetiredByType w.retirement ⟨9⟩ .blueCarbon, getTotalRetired w.retirement ⟨9⟩) = (0, 3) ∧
      ¬ TypeTotals w.retirement (newRecords h) ⟨9⟩ := by
  let w₀ : World := deploy ⟨0⟩ ⟨100⟩ ⟨101⟩ ⟨102⟩
  have hplay : (machine.play [] w₀ oneRetirement).map
      (fun x => ((newRecords x.1).map
          (fun record => (record.holder, record.creditType, record.amount)),
        (getRetiredByType x.2.retirement ⟨9⟩ .blueCarbon, getTotalRetired x.2.retirement ⟨9⟩),
        amount (ofType .blueCarbon (ofHolder ⟨9⟩ (newRecords x.1))))) =
      some ([(⟨9⟩, .blueCarbon, 3)], (0, 3), 3) := by decide
  obtain ⟨h, w, hrun, hview⟩ := run_of_play hplay
  simp only [Prod.mk.injEq] at hview
  obtain ⟨hrecords, ⟨hbyType, htotal⟩, hamount⟩ := hview
  refine ⟨w₀, h, w, ⟨⟨0⟩, rfl⟩, hrun, hrecords, Prod.ext hbyType htotal, fun htotals => ?_⟩
  have hsame := htotals.byType .blueCarbon
  rw [hbyType, hamount] at hsame
  exact absurd hsame (by decide)

/-- In the same run the totals of the holder `8`, which retires nothing, are right. -/
theorem type_totals_other : ∃ w₀ h w, (∃ admin, w₀.retirement = construct admin) ∧
    Soroban.Run machine (· = w₀) h w ∧ newIds h = [1] ∧
      TypeTotals w.retirement (newRecords h) ⟨8⟩ := by
  let w₀ : World := deploy ⟨0⟩ ⟨100⟩ ⟨101⟩ ⟨102⟩
  have hplay : (machine.play [] w₀ oneRetirement).map
      (fun x => (newIds x.1, x.1.all fun c => decide (∀ x ∈ c.op.retiresCredits, x.1.2 ≠ ⟨8⟩))) =
      some ([1], true) := by decide
  obtain ⟨h, w, hrun, hview⟩ := run_of_play hplay
  simp only [Prod.mk.injEq] at hview
  obtain ⟨hids, hall⟩ := hview
  have hstart : ∃ admin, w₀.retirement = construct admin := ⟨⟨0⟩, rfl⟩
  refine ⟨w₀, h, w, hstart, hrun, hids, (type_totals hstart hrun ⟨8⟩).mpr fun c hc => ?_⟩
  exact of_decide_eq_true (List.all_eq_true.mp hall c hc)

end Protocol
end NbsBond
