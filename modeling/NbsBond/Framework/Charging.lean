import Mathlib

/-!
# Charging one sum to another

A sum over keys is bounded by a sum over resources when every key that counts for something names a
resource worth at least as much, and no two keys name the same one (`sum_le_of_charge`). What a
history of events adds up to can be taken apart by the account each event belongs to
(`sum_le_by_account`), which is how the total of a ledger is charged account by account.

The values are those of any ordered additive monoid, so that amounts of several kinds, ordered
componentwise, are charged at once.
-/

namespace Charging

variable {κ ι ε M : Type} [AddCommMonoid M] [PartialOrder M] [IsOrderedAddMonoid M]

/-- **Charging.** Each key of `keys` counts for nothing, or names a resource of `resources` that
covers it. -/
theorem sum_le_of_charge [DecidableEq κ] [DecidableEq ι] {keys : Finset κ} {resources : Finset ι}
    (name : κ → Option ι) {value : κ → M} {worth : ι → M} (hworth : ∀ i, 0 ≤ worth i)
    (hcharge : ∀ k ∈ keys, value k ≤ 0 ∨
      ∃ i ∈ resources, name k = some i ∧ value k ≤ worth i)
    (honce : ∀ k k' i, name k = some i → name k' = some i → k = k') :
    ∑ k ∈ keys, value k ≤ ∑ i ∈ resources, worth i := by
  -- On the keys: the resource that the newest one names is taken out of the set before the others
  -- are charged.
  induction keys using Finset.induction_on generalizing resources with
  | empty => exact Finset.sum_nonneg fun i _ => hworth i
  | insert k keys hk ih =>
    rw [Finset.sum_insert hk]
    rcases hcharge k (Finset.mem_insert_self k keys) with hnothing | ⟨i, hi, hname, hcovered⟩
    · have hrest := ih fun k' hk' => hcharge k' (Finset.mem_insert_of_mem hk')
      calc value k + ∑ k' ∈ keys, value k'
          ≤ 0 + ∑ i ∈ resources, worth i := add_le_add hnothing hrest
        _ = ∑ i ∈ resources, worth i := zero_add _
    · -- `k` uses its resource up, and the others name different ones
      have hrest : ∑ k' ∈ keys, value k' ≤ ∑ j ∈ resources.erase i, worth j := by
        refine ih fun k' hk' => ?_
        rcases hcharge k' (Finset.mem_insert_of_mem hk') with hnothing | ⟨j, hj, hname', hcovered'⟩
        · exact .inl hnothing
        · refine .inr ⟨j, Finset.mem_erase.mpr ⟨?_, hj⟩, hname', hcovered'⟩
          -- A key that named the same resource would be `k` itself, which is not among the others.
          rintro rfl
          rw [honce k k' j hname hname'] at hk
          exact hk hk'
      calc value k + ∑ k' ∈ keys, value k'
          ≤ worth i + ∑ j ∈ resources.erase i, worth j := add_le_add hcovered hrest
        _ = ∑ j ∈ resources, worth j := Finset.add_sum_erase resources worth hi

/-- What the events of a history add up to is at most what the accounts add up to, if each event
is. -/
theorem sum_le_by_account {events : List ε} {accounts : Finset κ} {amount : ε → M}
    {entry : κ → ε → M} (hsplit : ∀ e ∈ events, amount e ≤ ∑ k ∈ accounts, entry k e) :
    (events.map amount).sum ≤ ∑ k ∈ accounts, (events.map (entry k)).sum := by
  -- On the events: each is split into the accounts, and the sums are exchanged.
  induction events with
  | nil => simp
  | cons e events ih =>
    rw [List.forall_mem_cons] at hsplit
    simp only [List.map_cons, List.sum_cons, Finset.sum_add_distrib]
    exact add_le_add hsplit.1 (ih hsplit.2)

end Charging
