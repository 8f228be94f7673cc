import NbsBond.BondIssuer.Ledger

/-!
# The holder list

`HolderList` is an index: an address is appended when its balance grows from zero, and never taken
off. Hence every holder is in it, some addresses more than once, and some that hold nothing any
more. `HolderCount` is its length.
-/

namespace NbsBond
namespace BondIssuer

open Soroban

variable {s s' : State} {b : BondId}

/-! ### Reading a range -/

/-- Reading consecutive entries of a list gives a segment of it. -/
theorem filterMap_getElem? {α : Type} (l : List α) (start n : ℕ) (hle : start + n ≤ l.length) :
    (List.range' start n).filterMap (fun i => l[i]?) = (l.drop start).take n := by
  induction n generalizing start with
  | zero => rw [List.take_zero]; rfl
  | succ n ih =>
    have hstart : start < l.length := by omega
    have hrest := ih (start + 1) (by omega)
    have hentry : l[start]? = some l[start] := List.getElem?_eq_getElem hstart
    rw [List.range'_succ, List.filterMap_cons, hentry, List.drop_eq_getElem_cons hstart,
      List.take_succ_cons]
    dsimp only
    rw [hrest]

/-- A range is a segment of the list. -/
theorem getHolderListRange_eq (s : State) (b : BondId) (start count : ℕ) :
    getHolderListRange s b start count = ((s.holderList b).drop start).take count := by
  unfold getHolderListRange
  dsimp only
  split
  · next h =>
    rcases h with rfl | h
    · rw [List.take_zero]
    · rw [List.drop_eq_nil_of_le h, List.take_nil]
  · next h =>
    rw [not_or, not_le] at h
    rw [filterMap_getElem? _ _ _ (by omega)]
    rcases le_total (start + count) (s.holderList b).length with hle | hle
    · rw [min_eq_left hle, Nat.add_sub_cancel_left]
    · -- the segment reaches the end of the list
      have hlength : ((s.holderList b).drop start).length = (s.holderList b).length - start :=
        List.length_drop
      rw [min_eq_right hle, List.take_of_length_le hlength.le, List.take_of_length_le]
      rw [hlength]
      omega

/-! ### The invariant -/

/-- Every holder is listed, and the stored count is the length of the list. Nothing is said of
repetitions, since an address may be listed more than once. -/
structure Listed (s : State) : Prop where
  holders : ∀ b a, s.holderBalance (b, a) ≠ 0 → a ∈ s.holderList b
  count : ∀ b n, s.holderCount b = some n → n = (s.holderList b).length

theorem Listed.initial (admin : Address) : Listed (construct admin) where
  holders _ _ h := absurd rfl h
  count _ _ h := by cases h

theorem Listed.getHolderCount (h : Listed s) (b : BondId) :
    getHolderCount s b = (s.holderList b).length := by
  unfold BondIssuer.getHolderCount
  split
  · next n hn => exact h.count b n hn
  · rfl

/-- A call that leaves the lists alone may only move balances of listed addresses. -/
theorem Listed.congr (h : Listed s) (hlist : s'.holderList = s.holderList)
    (hcount : s'.holderCount = s.holderCount)
    (hbalance : ∀ b a, s'.holderBalance (b, a) ≠ 0 → a ∈ s.holderList b) : Listed s' where
  holders b a ha := by
    rw [hlist]
    exact hbalance b a ha
  count b n hn := by
    rw [hcount] at hn
    rw [hlist]
    exact h.count b n hn

/-- **One credit.** A call writes balances of listed addresses and of `a`, and records `a` if it had
nothing. -/
theorem Listed.appendIfNew (h : Listed s) {a : Address} {old : ℤ}
    (hlist : s'.holderList = s.holderList) (hcount : s'.holderCount = s.holderCount)
    (hold : old ≠ 0 → a ∈ s.holderList b)
    (hbalance : ∀ b' a', (b', a') ≠ (b, a) → s'.holderBalance (b', a') ≠ 0 →
      a' ∈ s.holderList b') : Listed (appendIfNew s' b old a) := by
  unfold BondIssuer.appendIfNew
  split
  swap
  · next hne =>
    refine h.congr hlist hcount ?_
    intro b' a' ha'
    by_cases hkey : (b', a') = (b, a)
    · cases hkey
      exact hold hne
    · exact hbalance b' a' hkey ha'
  -- the address is appended
  refine ⟨?_, ?_⟩
  · intro b' a' ha'
    show a' ∈ Function.update s'.holderList b (s'.holderList b ++ [a]) b'
    rw [hlist]
    by_cases hkey : (b', a') = (b, a)
    · cases hkey
      rw [Function.update_self]
      exact List.mem_append_right _ (List.mem_singleton_self a)
    · have hmem := hbalance b' a' hkey ha'
      by_cases hb : b' = b
      · subst hb
        rw [Function.update_self]
        exact List.mem_append_left _ hmem
      · rw [Function.update_of_ne hb]
        exact hmem
  · intro b' n hn
    change Function.update s'.holderCount b _ b' = some n at hn
    show n = (Function.update s'.holderList b (s'.holderList b ++ [a]) b').length
    by_cases hb : b' = b
    · subst hb
      rw [Function.update_self] at hn ⊢
      cases hn
      rfl
    · rw [Function.update_of_ne hb] at hn ⊢
      rw [hcount] at hn
      rw [hlist]
      exact h.count b' n hn

/-- **One call** keeps the lists in order. A balance that grows from zero is listed in the same
call. -/
theorem Listed.step {now : ℕ} {op : Op} {r : Option BondId} (h : Listed s) (hI : LedgerInv s)
    (hexec : exec now s op = .ok (s', r)) : Listed s' := by
  cases op with
  | issueBond caller config nonce =>
    simp only [exec, issueBond, bind_eq_ok, pure_eq_ok, Prod.mk.injEq] at hexec
    obtain ⟨_, ⟨_, -, _, -, _, -, _, -, _, -, _, -, _, -, rfl⟩, rfl, -⟩ := hexec
    -- nobody holds the new bond
    have hfresh := hI.unissued (s.bondCount + 1) (hI.fresh _ (Nat.lt_succ_self _))
    refine ⟨?_, ?_⟩
    · intro b a ha
      have hne : b ≠ s.bondCount + 1 := by
        rintro rfl
        exact ha (hfresh a)
      show a ∈ Function.update s.holderList (s.bondCount + 1) [] b
      rw [Function.update_of_ne hne]
      exact h.holders b a ha
    · intro b n hn
      change Function.update s.holderCount (s.bondCount + 1) (some 0) b = some n at hn
      show n = (Function.update s.holderList (s.bondCount + 1) [] b).length
      by_cases hb : b = s.bondCount + 1
      · subst hb
        rw [Function.update_self] at hn ⊢
        cases hn
        rfl
      · rw [Function.update_of_ne hb] at hn ⊢
        exact h.count b n hn
  | subscribe investor b amount nonce =>
    simp only [exec, subscribe, bind_eq_ok, pure_eq_ok, Prod.mk.injEq] at hexec
    obtain ⟨_, ⟨nonces, -, _, -, config, -, state, -, _, -, _, -, _, -, _, -, balance, -, rfl⟩,
      rfl, -⟩ := hexec
    have hlisted : Listed (BondIssuer.appendIfNew { s with
        nonce := nonces
        holderBalance := Function.update s.holderBalance (b, investor) balance } b
        (s.holderBalance (b, investor)) investor) := by
      refine h.appendIfNew rfl rfl (h.holders b investor) ?_
      intro b' a' hne ha'
      dsimp only at ha'
      rw [Function.update_of_ne hne] at ha'
      exact h.holders b' a' ha'
    exact hlisted.congr rfl rfl hlisted.holders
  | transfer sender recipient b amount nonce =>
    simp only [exec, transfer, bind_eq_ok, ensure_eq_ok, pure_eq_ok, Prod.mk.injEq] at hexec
    obtain ⟨_, ⟨nonces, -, _, hne, _, hpos, config, -, state, -, _, -, _, -, _, hfunds, _, -, _, -,
      rfl⟩, rfl, -⟩ := hexec
    have hsender : sender ∈ s.holderList b := h.holders b sender (by omega)
    refine h.appendIfNew rfl rfl ?_ ?_
    · rw [Function.update_of_ne (by simp [hne])]
      exact h.holders b recipient
    · intro b' a' hne' ha'
      dsimp only at ha'
      rw [Function.update_of_ne hne'] at ha'
      by_cases hkey : (b', a') = (b, sender)
      · cases hkey
        exact hsender
      · rw [Function.update_of_ne hkey] at ha'
        exact h.holders b' a' ha'
  | redeem holder b amount nonce =>
    simp only [exec, redeem, bind_eq_ok, ensure_eq_ok, pure_eq_ok, Prod.mk.injEq] at hexec
    obtain ⟨_, ⟨_, -, _, hpos, _, -, state, -, _, -, _, hfunds, _, -, _, -, rfl⟩, rfl, -⟩ := hexec
    refine h.congr rfl rfl ?_
    intro b' a' ha'
    by_cases hkey : (b', a') = (b, holder)
    · cases hkey
      exact h.holders b holder (by omega)
    · dsimp only at ha'
      rw [Function.update_of_ne hkey] at ha'
      exact h.holders b' a' ha'
  | matureBond caller b nonce =>
    simp only [exec, matureBond, bind_eq_ok, pure_eq_ok, Prod.mk.injEq] at hexec
    obtain ⟨_, ⟨_, -, _, -, config, -, state, -, _, -, _, -, rfl⟩, rfl, -⟩ := hexec
    exact h.congr rfl rfl h.holders

end BondIssuer
end NbsBond
