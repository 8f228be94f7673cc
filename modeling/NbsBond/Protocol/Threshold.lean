import NbsBond.OracleConsumer.Threshold
import NbsBond.Protocol.Supermajority

/-!
# The signature threshold stays in range

The number of signatures a report needs is stored on its own, while the set of providers that can
give them shrinks by removals and by slashing. `signature_threshold_in_range` says that the stored
number follows.
-/

namespace NbsBond
namespace Protocol

open Soroban OracleConsumer

/-- **Signature threshold.** In every reached state the threshold is between one and the number of
active providers, or one if there is none, and the list of providers names each registered one
once. A call that lowers the threshold is a `set_signature_threshold` by the admin, or deactivates a
provider and leaves the threshold at the number of active providers, one at least. -/
theorem signature_threshold_in_range {h : List Call} {w : World} (hrun : Run h w) :
    (1 ≤ w.oracle.signatureThreshold ∧
      w.oracle.signatureThreshold ≤ max 1 (actives w.oracle).ncard) ∧
    (∀ c ∈ h, c.post.oracle.signatureThreshold < c.pre.oracle.signatureThreshold →
      (∃ caller threshold nonce, c.op = .oracle (.setSignatureThreshold caller threshold nonce) ∧
        c.pre.oracle.admin = some caller) ∨
      ∃ op v, c.op = .oracle op ∧ op.Retires c.pre.oracle v ∧ v ∈ actives c.pre.oracle ∧
        v ∉ actives c.post.oracle ∧
        c.post.oracle.signatureThreshold = max 1 (actives c.post.oracle).ncard) ∧
    ∀ a, w.oracle.providerList.count a = if (w.oracle.provider a).isSome then 1 else 0 := by
  have hE := electorate_of_run hrun
  refine ⟨⟨hE.positive, ?bounded⟩, ?lowered, ?roll⟩
  case bounded =>
    calc w.oracle.signatureThreshold
        ≤ max (council w.oracle).activeCount 1 := hE.bounded
      _ = max 1 (actives w.oracle).ncard := by
        rw [hE.activeCount_eq_ncard, max_comm]
        rfl
  case lowered =>
    intro c hc hlower
    obtain ⟨h₁, h₂, rfl⟩ := List.append_of_mem hc
    obtain ⟨hpast, htime, hexec⟩ := hrun.past
    have hpost : Run (c :: h₂) c.post := .call hpast htime hexec
    rcases (step_of_exec hexec).move with ⟨op, hop, hmove⟩ | ⟨-, hsame⟩
    swap
    · rw [hsame] at hlower
      exact absurd hlower (lt_irrefl _)
    rcases hmove.threshold_change (electorate_of_run hpast) with hkept | hset | ⟨v, hv, hclamped⟩
    · omega
    · obtain ⟨caller, threshold, nonce, rfl, hadmin⟩ := hset
      exact .inl ⟨caller, threshold, nonce, hop, hadmin⟩
    · refine .inr ⟨op, v, hop, hv, hclamped.before, ?_, ?_⟩
      · exact Bool.eq_false_iff.mp hclamped.after
      · rw [hclamped.threshold]
        exact congrArg (max 1) (electorate_of_run hpost).activeCount_eq_ncard
  case roll =>
    intro a
    have hlisted : a ∈ w.oracle.providerList ↔ w.oracle.provider a ≠ none := hE.listed a
    split
    · next hsome =>
      have hmem := hlisted.mpr (Option.isSome_iff_ne_none.mp hsome)
      exact List.count_eq_one_of_mem hE.roll hmem
    · next hnone =>
      apply List.count_eq_zero_of_not_mem
      rw [hlisted, ← Option.isSome_iff_ne_none]
      exact hnone

/-- Two providers and a threshold of two: the removal of one lowers the threshold to one, for the
one that is left. -/
theorem signature_threshold_in_range_removal : ∃ h w c, Run h w ∧ c ∈ h ∧
    c.pre.oracle.signatureThreshold = 2 ∧ c.post.oracle.signatureThreshold = 1 ∧
    max 1 (actives c.post.oracle).ncard = 1 ∧ w.oracle.providerList.count ⟨2⟩ = 1 := by
  let ops : List (ℕ × Op) := (onboard ⟨0⟩ ⟨5⟩ ⟨1⟩ ⟨2⟩ ⟨100⟩ ⟨102⟩ 7).append
    [(1, .oracle (.setSignatureThreshold ⟨0⟩ 2 3)), (2, .oracle (.removeProvider ⟨0⟩ ⟨2⟩ 4))]
  have hplay : (machine.play [] (deploy ⟨0⟩ ⟨100⟩ ⟨101⟩ ⟨102⟩) ops).map
      (fun p => (p.1.any fun c => decide (c.op = .oracle (.removeProvider ⟨0⟩ ⟨2⟩ 4) ∧
          c.pre.oracle.signatureThreshold = 2 ∧ c.post.oracle.signatureThreshold = 1),
        (p.2.oracle.provider ⟨2⟩).isSome)) = some (true, true) := by decide
  obtain ⟨h, w, hrun, hview⟩ := Run.of_play (Init.deploy ⟨0⟩ ⟨100⟩ ⟨101⟩ ⟨102⟩) hplay
  simp only [Prod.mk.injEq, List.any_eq_true, decide_eq_true_eq] at hview
  obtain ⟨⟨c, hc, hop, hbefore, hafter⟩, hregistered⟩ := hview
  obtain ⟨-, hlowered, hroll⟩ := signature_threshold_in_range hrun
  refine ⟨h, w, c, hrun, hc, hbefore, hafter, ?_, ?_⟩
  · rcases hlowered c hc (by omega) with ⟨_, _, _, hset, -⟩ | ⟨_, _, -, -, -, -, hclamped⟩
    · rw [hop] at hset
      cases hset
    · exact hclamped.symm.trans hafter
  · rw [hroll, if_pos hregistered]

end Protocol
end NbsBond
