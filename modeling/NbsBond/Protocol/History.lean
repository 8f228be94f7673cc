import NbsBond.CouponEngine.History
import NbsBond.Protocol.Periods

/-!
# The history of periods in the running protocol

Whatever is distributed in which order, the stored count and the stored records are those of the
periods that were closed (`history_of_run`). Read by index and up to the count, the history is all
of them exactly when their indices are those below the count (`history_complete_iff`).
-/

namespace NbsBond
namespace Protocol

open Soroban OracleConsumer CouponEngine

/-- The period of bond `b` that a call of the protocol closes when it is committed. -/
def Op.closing (b : BondId) : Op → Option ℕ
  | .engine op => op.closing b
  | _ => none

/-- The periods of bond `b` that were closed, the last one first. -/
def closings (b : BondId) (h : List Call) : List ℕ := h.flatMap fun c => (c.op.closing b).toList

theorem history_of_run {h : List Call} {w : World} (hrun : Run h w) (b : BondId) :
    History w.engine b (closings b h) := by
  apply hrun.induction (P := fun h w => History w.engine b (closings b h))
  · intro w hinit
    obtain ⟨admin, hadmin⟩ := hinit.engine
    rw [hadmin]
    exact .initial admin b
  · intro h w t op r w' _ _ hexec hH
    have hcons : closings b (⟨t, w, op, r, w'⟩ :: h) = (op.closing b).toList ++ closings b h :=
      List.flatMap_cons
    rw [hcons]
    rcases (step_of_exec hexec).tables with ⟨op', _, rfl, hop⟩ | ⟨hop, hsame⟩
    · exact hH.step hop
    · -- a call of another contract closes no period
      have hnone : op.closing b = none := by
        cases op with
        | engine op' => exact absurd rfl (hop op')
        | issuer _ => rfl
        | registry _ _ => rfl
        | oracle _ => rfl
        | retirement _ => rfl
      rw [hnone]
      exact hH.frame (fun p => congrFun hsame.periods.infos (b, p)) (congrFun hsame.counts b)

/-- **The history is complete** exactly when every closed index is below the number of closed
periods, and these do not exhaust the count. The query takes the positions of a range for indices of
periods, and an index that was never closed is passed over. -/
theorem history_complete_iff {h : List Call} {w : World} (hrun : Run h w) (b : BondId) :
    Complete w.engine b (closings b h) ↔
      (∀ p ∈ closings b h, p < (closings b h).length) ∧ (closings b h).length < 2 ^ 32 :=
  (history_of_run hrun b).complete_iff

/-- The calls that bring a Carbon bond with one subscribed token and a verified report about, and
then close the given periods of it. -/
def closePeriods (periods : List ℕ) : List (ℕ × Op) :=
  onboard ⟨0⟩ ⟨5⟩ ⟨1⟩ ⟨2⟩ ⟨100⟩ ⟨102⟩ 7 ++
  [(1, .oracle (.submitReport ⟨1⟩ 1 0 10 7000 .absent "VM0007" 3 0)),
    (1, .oracle (.verifyReport ⟨2⟩ 1 0)),
    (1, .issuer (.issueBond ⟨0⟩ ⟨7, 1000, [50], .carbon, 9000000, 100⟩ 0)),
    (1, .issuer (.subscribe ⟨8⟩ 1 1 0)),
    (1, .engine (.registerBond ⟨0⟩ 1 7 0))] ++
  periods.zipIdx.map fun x => (2, .engine (.distributeCoupon ⟨0⟩ 1 x.1 [(⟨8⟩, 1)] 1 (x.2 + 1) true))

/-- Two periods closed in the wrong order are found, one on each page. -/
theorem history_complete_two_periods :
    ∃ h w, Run h w ∧ closings 1 h = [0, 1] ∧ Complete w.engine 1 (closings 1 h) ∧
      (getPeriodInfoRange w.engine 1 0 1 ++ getPeriodInfoRange w.engine 1 1 1).map
        PeriodInfo.periodIndex = [0, 1] := by
  have hplay : (machine.play [] (deploy ⟨0⟩ ⟨100⟩ ⟨101⟩ ⟨102⟩) (closePeriods [1, 0])).map
      (fun x => (closings 1 x.1, (getPeriodInfoRange x.2.engine 1 0 1 ++
        getPeriodInfoRange x.2.engine 1 1 1).map PeriodInfo.periodIndex)) =
      some ([0, 1], [0, 1]) := by decide
  obtain ⟨h, w, hrun, hview⟩ := Run.of_play (Init.deploy ⟨0⟩ ⟨100⟩ ⟨101⟩ ⟨102⟩) hplay
  rw [Prod.mk.injEq] at hview
  obtain ⟨hclosings, hpages⟩ := hview
  refine ⟨h, w, hrun, hclosings, (history_complete_iff hrun 1).mpr ?_, hpages⟩
  rw [hclosings]
  decide

/-- The first period to be closed has index 5: it is recorded, and the history is empty. The count
is one, so the query looks for index 0. -/
theorem history_misses_period :
    ∃ h w, Run h w ∧ closings 1 h = [5] ∧ (getPeriodInfo w.engine 1 5).isOk = true ∧
      getPeriodInfoRange w.engine 1 0 (getPeriodCount w.engine 1) = [] ∧
      ¬ Complete w.engine 1 (closings 1 h) := by
  have hplay : (machine.play [] (deploy ⟨0⟩ ⟨100⟩ ⟨101⟩ ⟨102⟩) (closePeriods [5])).map
      (fun x => (closings 1 x.1, (getPeriodInfo x.2.engine 1 5).isOk,
        getPeriodInfoRange x.2.engine 1 0 (getPeriodCount x.2.engine 1))) =
      some ([5], true, []) := by decide
  obtain ⟨h, w, hrun, hview⟩ := Run.of_play (Init.deploy ⟨0⟩ ⟨100⟩ ⟨101⟩ ⟨102⟩) hplay
  simp only [Prod.mk.injEq] at hview
  obtain ⟨hclosings, hfound, hrange⟩ := hview
  refine ⟨h, w, hrun, hclosings, hfound, hrange, ?_⟩
  intro hC
  obtain ⟨info, hinfo⟩ := (history_of_run hrun 1).recorded 5 (by simp [hclosings])
  have hmem := (hC.mem info).mpr ⟨5, by simp [hclosings], hinfo⟩
  rw [hrange] at hmem
  cases hmem

end Protocol
end NbsBond
