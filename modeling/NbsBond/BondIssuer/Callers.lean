import NbsBond.BondIssuer.Ledger
import NbsBond.Shared.Nonces

/-!
# The callers of `BondIssuer`

Every entrypoint is authorized by one address, compares the nonce that it presents and moves it on.
No other address loses tokens by the call.
-/

namespace NbsBond
namespace BondIssuer

open Soroban

/-- The caller of an entrypoint and the nonce it presents. -/
def Op.ticket : Op → Option (Address × ℕ)
  | .issueBond caller _ nonce => some (caller, nonce)
  | .subscribe investor _ _ nonce => some (investor, nonce)
  | .transfer sender _ _ _ nonce => some (sender, nonce)
  | .redeem holder _ _ nonce => some (holder, nonce)
  | .matureBond caller _ nonce => some (caller, nonce)

theorem appendIfNew_nonce (s : State) (bondId : BondId) (balance : ℤ) (holder : Address) :
    (appendIfNew s bondId balance holder).nonce = s.nonce := by
  unfold appendIfNew
  split <;> rfl

theorem transfer_uses {now : ℕ} {s s' : State} {sender recipient : Address} {bondId : BondId}
    {amount : ℤ} {nonce : ℕ} (h : transfer now s sender recipient bondId amount nonce = .ok s') :
    Uses s.nonce (some (sender, nonce)) s'.nonce := by
  simp only [transfer, bind_eq_ok, useNonce_eq_ok, pure_eq_ok] at h
  obtain ⟨_, ⟨rfl, rfl⟩, _, -, _, -, _, -, _, -, _, -, _, -, _, -, _, -, _, -, rfl⟩ := h
  rw [appendIfNew_nonce]
  exact .one sender

/-- **Every entrypoint uses up one nonce of its caller.** Every entrypoint of this contract has
one. -/
theorem exec_uses {now : ℕ} {s s' : State} {op : Op} {r : Option BondId}
    (h : exec now s op = .ok (s', r)) : Uses s.nonce op.ticket s'.nonce := by
  cases op with
  | issueBond caller config nonce =>
    simp only [exec, issueBond, bind_eq_ok, useNonce_eq_ok, pure_eq_ok, Prod.mk.injEq] at h
    obtain ⟨⟨_, _⟩, ⟨_, ⟨rfl, rfl⟩, _, -, _, -, _, -, _, -, _, -, _, -, rfl, -⟩, rfl, -⟩ := h
    exact .one caller
  | subscribe investor bondId amount nonce =>
    simp only [exec, subscribe, bind_eq_ok, useNonce_eq_ok, pure_eq_ok, Prod.mk.injEq] at h
    obtain ⟨_, ⟨_, ⟨rfl, rfl⟩, _, -, _, -, _, -, _, -, _, -, _, -, _, -, _, -, rfl⟩, rfl, -⟩ := h
    show Uses s.nonce _ (appendIfNew _ _ _ _).nonce
    rw [appendIfNew_nonce]
    exact .one investor
  | transfer sender recipient bondId amount nonce =>
    simp only [exec, bind_eq_ok, pure_eq_ok, Prod.mk.injEq] at h
    obtain ⟨_, h, rfl, -⟩ := h
    exact transfer_uses h
  | redeem holder bondId amount nonce =>
    simp only [exec, redeem, bind_eq_ok, useNonce_eq_ok, pure_eq_ok, Prod.mk.injEq] at h
    obtain ⟨_, ⟨_, ⟨rfl, rfl⟩, _, -, _, -, _, -, _, -, _, -, _, -, _, -, rfl⟩, rfl, -⟩ := h
    exact .one holder
  | matureBond caller bondId nonce =>
    simp only [exec, matureBond, bind_eq_ok, useNonce_eq_ok, pure_eq_ok, Prod.mk.injEq] at h
    obtain ⟨_, ⟨_, ⟨rfl, rfl⟩, _, -, _, -, _, -, _, -, _, -, rfl⟩, rfl, -⟩ := h
    exact .one caller

/-- **A call takes tokens only from its caller.** What it adds to others is not bounded here; that
is the ledger's. -/
theorem LedgerStep.idle {s s' : State} {op : Op} (h : LedgerStep s s' op) {a : Address}
    (hidle : ∀ nonce, op.ticket ≠ some (a, nonce)) (b : BondId) :
    s.holderBalance (b, a) ≤ s'.holderBalance (b, a) := by
  cases h with
  | issue _ _ _ _ hbalance => rw [hbalance]
  | mature _ _ _ _ hbalance => rw [hbalance]
  | @subscribe investor bondId amount nonce _ _ hpos _ _ _ _ _ _ hbalance =>
    rw [hbalance, Function.update_apply]
    split
    · next hkey =>
      rw [hkey]
      omega
    · exact le_rfl
  | @redeem holder bondId amount nonce _ _ _ _ _ _ _ hbalance =>
    have hother : (b, a) ≠ (bondId, holder) := by
      rintro ⟨⟩
      exact hidle nonce rfl
    rw [hbalance, Function.update_of_ne hother]
  | @transfer sender recipient bondId amount nonce _ hpos _ _ _ _ _ hbalance =>
    have hother : (b, a) ≠ (bondId, sender) := by
      rintro ⟨⟩
      exact hidle nonce rfl
    rw [hbalance, Function.update_apply, Function.update_of_ne hother]
    split
    · next hkey =>
      rw [hkey]
      omega
    · exact le_rfl

end BondIssuer
end NbsBond
