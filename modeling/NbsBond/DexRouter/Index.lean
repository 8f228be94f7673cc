import NbsBond.DexRouter.Orders
import NbsBond.DexRouter.Sweep

/-!
# The orders of a bond

Orders are stored under their ids, and the ids of the orders of a bond are listed a second time
under the bond. A listing writes both and nothing else writes the list, so the list of a bond has
every order of it once (`Indexed`).
-/

namespace NbsBond
namespace DexRouter

open Soroban

/-- What a call appends to the list of a bond when `count` orders were listed before. -/
def Op.appends (count : ℕ) (bondId : BondId) : Op → List ℕ
  | .listBondTokens _ listedId _ _ _ _ _ => if listedId = bondId then [count + 1] else []
  | _ => []

theorem Op.eq_of_mem_appends {op : Op} {count o : ℕ} {bondId : BondId}
    (h : o ∈ op.appends count bondId) : o = count + 1 := by
  unfold Op.appends at h
  split at h
  · split at h
    · exact List.mem_singleton.mp h
    · cases h
  · cases h

variable {now : ℕ} {issuer issuer' : BondIssuer.State} {s s' : State} {op : Op} {ret : Ret}

/-- Only a listing writes the lists. -/
theorem exec_bondOrders (h : exec now issuer s op = .ok ((s', issuer'), ret)) (bondId : BondId) :
    s'.bondOrders bondId = s.bondOrders bondId ++ op.appends s.orderCount bondId := by
  cases op with
  | listBondTokens seller listedId amount pricePerToken quoteAsset expiresAfterSeconds nonce =>
    simp only [exec, listBondTokens, bind_eq_ok, pure_eq_ok, Prod.mk.injEq] at h
    obtain ⟨⟨s₁, id⟩, ⟨_, -, _, -, _, -, _, -, _, -, rfl, rfl⟩, ⟨rfl, rfl⟩, rfl⟩ := h
    by_cases hb : listedId = bondId
    · subst hb
      simp [Op.appends]
    · simp [Op.appends, hb, Function.update_of_ne (Ne.symm hb)]
  | cancelListing caller orderId nonce =>
    simp only [exec, cancelListing, bind_eq_ok, pure_eq_ok, Prod.mk.injEq] at h
    obtain ⟨_, ⟨_, -, _, -, _, -, _, -, rfl⟩, ⟨rfl, rfl⟩, rfl⟩ := h
    exact (List.append_nil _).symm
  | executePurchase signers buyer orderId maxPrice amount nonce =>
    simp only [exec, executePurchase, bind_eq_ok, pure_eq_ok, Prod.mk.injEq] at h
    obtain ⟨_, ⟨_, -, _, -, _, -, _, -, _, -, _, -, _, -, _, -, _, -, _, -, _, -, _, -, _, -, rfl⟩,
      heq, rfl⟩ := h
    cases heq
    exact (List.append_nil _).symm
  | depositQuote caller quoteAsset amount nonce =>
    simp only [exec, depositQuote, bind_eq_ok, pure_eq_ok, Prod.mk.injEq] at h
    obtain ⟨_, ⟨_, -, _, -, _, -, rfl⟩, ⟨rfl, rfl⟩, rfl⟩ := h
    exact (List.append_nil _).symm
  | withdrawQuote caller quoteAsset amount nonce =>
    simp only [exec, withdrawQuote, bind_eq_ok, pure_eq_ok, Prod.mk.injEq] at h
    obtain ⟨_, ⟨_, -, _, -, _, -, rfl⟩, ⟨rfl, rfl⟩, rfl⟩ := h
    exact (List.append_nil _).symm
  | cleanExpiredOrders caller nonce =>
    simp only [exec, cleanExpiredOrders, cleanExpiredOrdersRangeImpl_eq, bind_eq_ok, pure_eq_ok,
      Prod.mk.injEq] at h
    obtain ⟨⟨_, _⟩, ⟨_, -, _, -, h⟩, ⟨rfl, rfl⟩, rfl⟩ := h
    split at h
    · cases h
      exact (List.append_nil _).symm
    · cases h
      exact (List.append_nil _).symm
  | cleanExpiredOrdersRange caller nonce startId endId =>
    simp only [exec, cleanExpiredOrdersRange, cleanExpiredOrdersRangeImpl_eq, bind_eq_ok,
      pure_eq_ok, Prod.mk.injEq] at h
    obtain ⟨⟨_, _⟩, ⟨_, -, _, -, _, -, rfl, rfl⟩, ⟨rfl, rfl⟩, rfl⟩ := h
    exact (List.append_nil _).symm

/-- An order that was not there was created. -/
theorem OrderMove.of_none {o : ℕ} {after : Option Order}
    (hmove : OrderMove now op ret o none after) : after = op.creates now ret o := by
  cases hmove with
  | same _ hcreates => exact hcreates.symm
  | list _ _ _ hcreates => exact hcreates.symm

/-- A created order is of the id and of the bond under which it is listed. -/
theorem RouterStep.creates_iff (hstep : RouterStep now issuer issuer' s s' op ret) (o : ℕ)
    (bondId : BondId) : (∃ order ∈ op.creates now ret o, order.id = o ∧ order.bondId = bondId) ↔
      o ∈ op.appends s.orderCount bondId := by
  cases hstep with
  | @list _ listedId =>
    simp only [Op.creates, Op.appends, Ret.order.injEq]
    by_cases ho : s.orderCount + 1 = o
    · subst ho
      by_cases hb : listedId = bondId <;> simp [hb]
    · by_cases hb : listedId = bondId <;> simp [hb, ho, Ne.symm ho]
  | _ => simp [Op.creates, Op.appends]

theorem Op.creates_id {o : ℕ} {order : Order} (h : op.creates now ret o = some order) :
    order.id = o := by
  unfold Op.creates at h
  split at h
  · split at h
    · cases h
      rfl
    · cases h
  · cases h

/-- Every order is stored under its id, and listed once under its bond. Orders are never removed
from the list of their bond, whatever becomes of them. -/
structure Indexed (s : State) : Prop where
  id : ∀ o order, s.order o = some order → order.id = o
  listed : ∀ b o, o ∈ s.bondOrders b ↔ ∃ order, s.order o = some order ∧ order.bondId = b
  nodup : ∀ b, (s.bondOrders b).Nodup

theorem Indexed.initial (admin : Address) : Indexed (construct admin) where
  id _ _ h := by cases h
  listed _ _ := by simp [construct]
  nodup _ := List.nodup_nil

/-- **One call.** -/
theorem Indexed.step (hI : Indexed s) (h : exec now issuer s op = .ok ((s', issuer'), ret))
    (hfresh : ∀ o, s.orderCount < o → s.order o = none) : Indexed s' := by
  have hstep := exec_router h
  have hmove := hstep.orderMove hfresh
  -- the new id was not in use
  have hunused : ∀ {b o}, o ∈ op.appends s.orderCount b → s.order o = none := by
    intro b o ho
    rw [Op.eq_of_mem_appends ho]
    exact hfresh _ (Nat.lt_succ_self _)
  refine ⟨?_, ?_, ?_⟩
  · intro o order' horder'
    specialize hmove o
    rw [horder'] at hmove
    cases hold : s.order o with
    | none =>
      rw [hold] at hmove
      exact Op.creates_id hmove.of_none.symm
    | some order =>
      rw [hold] at hmove
      obtain ⟨_, heq, hterms⟩ := hmove.keeps_terms
      cases heq
      exact hterms.id.trans (hI.id o order hold)
  · intro b o
    specialize hmove o
    rw [exec_bondOrders h, List.mem_append, hI.listed]
    cases hold : s.order o with
    | none =>
      rw [hold] at hmove
      rw [hmove.of_none, ← hstep.creates_iff]
      constructor
      · rintro (⟨_, heq, -⟩ | ⟨order, horder, -, hb⟩)
        · cases heq
        · exact ⟨order, horder, hb⟩
      · rintro ⟨order, horder, hb⟩
        exact .inr ⟨order, horder, Op.creates_id horder, hb⟩
    | some order =>
      -- the order is of the same bond afterwards, and no other is appended under its id
      rw [hold] at hmove
      obtain ⟨order', hnew, hterms⟩ := hmove.keeps_terms
      have hnot : o ∉ op.appends s.orderCount b := by
        intro ho
        rw [hunused ho] at hold
        cases hold
      simp only [hnew, hnot, or_false, Option.some.injEq, exists_eq_left', hterms.bondId]
  · intro b
    rw [exec_bondOrders h]
    apply List.Nodup.append (hI.nodup b)
    · unfold Op.appends
      split
      · split
        · exact List.nodup_singleton _
        · exact List.nodup_nil
      · exact List.nodup_nil
    · intro o ho happended
      obtain ⟨order, hold, -⟩ := (hI.listed b o).mp ho
      rw [hunused happended] at hold
      cases hold

end DexRouter
end NbsBond
