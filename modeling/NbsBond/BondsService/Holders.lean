import NbsBond.BondIssuer.Holders

/-!
# Resolving the holders of a bond

`api/src/bonds/bonds.service.ts`, `resolveOnChainHolders` and what it calls. The candidates are the
members of the Redis set `bond:<id>:holders` and the on-chain holder list, which is read in pages;
those with a positive balance are kept.

A candidate is the string of an address. Such strings are canonical, so an address stands for its
string, and `none` for a member of the Redis set that `Address.fromString` rejects. Reads of
`BondIssuer` are its own queries; a balance comes back as a decimal string, and `> '0'` compares
strings.
-/

namespace NbsBond
namespace BondsService

open Soroban

variable {issuer : BondIssuer.State} {id : BondId}

/-- `getHolderBalance`: what cannot be resolved on-chain has `'0'`. -/
def getHolderBalance (issuer : BondIssuer.State) (id : BondId) : Option Address → String
  | some address => toString (BondIssuer.getHolderBalance issuer id address)
  | none => "0"

def pageSize : ℕ := 200

/-- The loop of `readOnChainHolderList` over its pages, from index `start` on. -/
def readPages (issuer : BondIssuer.State) (id : BondId) (count start : ℕ) : List Address :=
  if start < count then
    let page := BondIssuer.getHolderListRange issuer id start pageSize
    if page = [] then [] else page ++ readPages issuer id count (start + pageSize)
  else []
termination_by count - start
decreasing_by
  simp only [pageSize]
  omega

/-- `readOnChainHolderList`. -/
def readOnChainHolderList (issuer : BondIssuer.State) (id : BondId) : List Address :=
  readPages issuer id (BondIssuer.getHolderCount issuer id) 0

/-- `resolveOnChainHolders`; a set of strings keeps the order of insertion. -/
def resolveOnChainHolders (issuer : BondIssuer.State) (id : BondId)
    (dbHolders : List (Option Address)) : List (Option Address) :=
  let candidates := (dbHolders ++ (readOnChainHolderList issuer id).map some).eraseDups
  candidates.filter fun address => "0" < getHolderBalance issuer id address

/-- The body of the first loop of `distributeCoupon`: a resolved holder with its balance, read once
more. `BigInt` undoes the decimal string. -/
def holderBalance (issuer : BondIssuer.State) (id : BondId) (candidate : Option Address) :
    Option (Address × ℤ) := do
  let address ← candidate
  let balance := getHolderBalance issuer id (some address)
  if "0" < balance then return (address, ← balance.toInt?) else none

/-- The array that loop fills. -/
def holderBalances (issuer : BondIssuer.State) (id : BondId) (dbHolders : List (Option Address)) :
    List (Address × ℤ) :=
  (resolveOnChainHolders issuer id dbHolders).filterMap (holderBalance issuer id)

/-! ### Comparing decimal strings -/

/-- The decimal digits of a positive number start with a digit that is not zero. -/
theorem toDigits_head {n : ℕ} (hpos : 0 < n) :
    ∃ c rest, Nat.toDigits 10 n = c :: rest ∧ '0' < c := by
  -- by induction on the number, dropping its last digit
  induction n using Nat.strong_induction_on with
  | _ n ih =>
    rcases lt_or_ge n 10 with hn | hn
    · refine ⟨n.digitChar, [], Nat.toDigits_of_lt_base hn, ?_⟩
      interval_cases n <;> decide
    · obtain ⟨c, rest, hdigits, hc⟩ := ih (n / 10) (by omega) (by omega)
      refine ⟨c, rest ++ [(n % 10).digitChar], ?_, hc⟩
      rw [Nat.toDigits_of_base_le (by decide) hn, hdigits, List.cons_append]

/-- **The string comparison** says whether the number is positive. A negative number begins with a
dash, which comes before every digit. -/
theorem zero_lt_toString {n : ℤ} : "0" < toString n ↔ 0 < n := by
  have hzero : "0".toList = ['0'] := rfl
  rw [String.lt_iff, hzero, Int.toString_eq_repr, Int.repr_eq_if]
  rcases lt_trichotomy n 0 with hneg | rfl | hpos
  · -- a minus sign comes before the digits
    have hminus : ("-" ++ (-n).toNat.repr).toList = '-' :: (-n).toNat.repr.toList := by
      rw [String.toList_append]
      rfl
    rw [if_neg (not_le.mpr hneg), hminus, List.cons_lt_cons_iff]
    constructor
    · rintro (hlt | ⟨heq, -⟩)
      · exact absurd hlt (by decide)
      · exact absurd heq (by decide)
    · intro hpos
      exact absurd hpos (not_lt.mpr hneg.le)
  · rw [if_pos le_rfl, Int.toNat_zero, Nat.toList_repr, Nat.toDigits_zero]
    exact iff_of_false (lt_irrefl _) (lt_irrefl _)
  · obtain ⟨c, rest, hdigits, hc⟩ := toDigits_head (n := n.toNat) (by omega)
    rw [if_pos hpos.le, Nat.toList_repr, hdigits, List.cons_lt_cons_iff]
    exact iff_of_true (Or.inl hc) hpos

/-! ### Reading pages -/

/-- The pages put together are the list, if the count is its length. -/
theorem readPages_eq (issuer : BondIssuer.State) (id : BondId) (start : ℕ) :
    readPages issuer id (issuer.holderList id).length start =
      (issuer.holderList id).drop start := by
  fun_induction readPages issuer id (issuer.holderList id).length start with
  | case1 start hlt page hpage =>
    -- a page that starts before the end of the list is not empty
    have hsegment := BondIssuer.getHolderListRange_eq issuer id start pageSize
    change page = _ at hsegment
    rw [hpage] at hsegment
    have hlength := congrArg List.length hsegment
    rw [List.length_take, List.length_drop, List.length_nil] at hlength
    simp only [pageSize] at hlength
    omega
  | case2 start hlt page hpage ih =>
    have hsegment : page = ((issuer.holderList id).drop start).take pageSize :=
      BondIssuer.getHolderListRange_eq issuer id start pageSize
    rw [ih, hsegment, ← List.drop_drop]
    exact List.take_append_drop _ _
  | case3 start hge => exact (List.drop_eq_nil_of_le (not_lt.mp hge)).symm

/-- The on-chain list is read completely. -/
theorem readOnChainHolderList_eq (hL : BondIssuer.Listed issuer) (id : BondId) :
    readOnChainHolderList issuer id = issuer.holderList id := by
  unfold readOnChainHolderList
  rw [hL.getHolderCount, readPages_eq, List.drop_zero]

/-! ### The holders that are kept -/

theorem nodup_eraseDups {α : Type} [BEq α] [LawfulBEq α] (l : List α) : l.eraseDups.Nodup := by
  -- by induction on the length, since the tail is filtered first
  induction hn : l.length using Nat.strong_induction_on generalizing l with
  | _ n ih =>
    cases l with
    | nil => exact List.nodup_nil
    | cons a l =>
      have hlength : (l.filter fun b => !b == a).length < n := by
        have hle := List.length_filter_le (fun b => !b == a) l
        rw [← hn, List.length_cons]
        omega
      rw [List.eraseDups_cons, List.nodup_cons, List.mem_eraseDups, List.mem_filter]
      refine ⟨?_, ih _ hlength _ rfl⟩
      rintro ⟨-, hne⟩
      simp at hne

theorem mem_resolveOnChainHolders {dbHolders : List (Option Address)} {candidate : Option Address} :
    candidate ∈ resolveOnChainHolders issuer id dbHolders ↔
      (candidate ∈ dbHolders ∨ ∃ a ∈ readOnChainHolderList issuer id, some a = candidate) ∧
      ∃ a, candidate = some a ∧ 0 < BondIssuer.getHolderBalance issuer id a := by
  unfold resolveOnChainHolders
  dsimp only
  rw [List.mem_filter, List.mem_eraseDups, List.mem_append, List.mem_map, decide_eq_true_eq]
  refine and_congr Iff.rfl ?_
  cases candidate with
  | none =>
    -- a string that is no address has balance '0'
    refine iff_of_false (lt_irrefl _) ?_
    rintro ⟨a, ha, -⟩
    cases ha
  | some a =>
    refine zero_lt_toString.trans ⟨fun hpos => ⟨a, rfl, hpos⟩, ?_⟩
    rintro ⟨a', ha', hpos⟩
    cases ha'
    exact hpos

theorem holderBalance_eq_some {candidate : Option Address} {entry : Address × ℤ} :
    holderBalance issuer id candidate = some entry ↔
      candidate = some entry.1 ∧ entry.2 = BondIssuer.getHolderBalance issuer id entry.1 ∧
        0 < entry.2 := by
  obtain ⟨a, n⟩ := entry
  cases candidate with
  | none => simp [holderBalance]
  | some a' =>
    -- `BigInt` reads back the decimal it was given
    have hbigint : (toString (BondIssuer.getHolderBalance issuer id a')).toInt? =
        some (BondIssuer.getHolderBalance issuer id a') := by
      rw [Int.toString_eq_repr]
      exact Int.toInt?_repr _
    show (if "0" < toString (BondIssuer.getHolderBalance issuer id a') then _ else none) = _ ↔ _
    simp only [zero_lt_toString, getHolderBalance, hbigint]
    constructor
    · intro h
      split at h
      · next hpos =>
        cases h
        exact ⟨rfl, rfl, hpos⟩
      · cases h
    · rintro ⟨ha, hn, hpos⟩
      cases ha
      subst hn
      rw [if_pos hpos]
      rfl

/-- **What is passed to the contract**: every listed or known holder with a positive balance, with
that balance. -/
theorem mem_holderBalances {dbHolders : List (Option Address)} {a : Address} {n : ℤ} :
    (a, n) ∈ holderBalances issuer id dbHolders ↔
      (some a ∈ dbHolders ∨ a ∈ readOnChainHolderList issuer id) ∧
        n = BondIssuer.getHolderBalance issuer id a ∧ 0 < n := by
  unfold holderBalances
  rw [List.mem_filterMap]
  constructor
  · rintro ⟨candidate, hmem, hentry⟩
    obtain ⟨rfl, hn, hpos⟩ := holderBalance_eq_some.mp hentry
    obtain ⟨hknown, -⟩ := mem_resolveOnChainHolders.mp hmem
    refine ⟨hknown.imp_right ?_, hn, hpos⟩
    rintro ⟨a', ha', heq⟩
    cases heq
    exact ha'
  · rintro ⟨hknown, rfl, hpos⟩
    refine ⟨some a, mem_resolveOnChainHolders.mpr ⟨hknown.imp_right ?_, a, rfl, hpos⟩,
      holderBalance_eq_some.mpr ⟨rfl, rfl, hpos⟩⟩
    intro ha
    exact ⟨a, ha, rfl⟩

/-- No address is passed twice. -/
theorem nodup_holderBalances (issuer : BondIssuer.State) (id : BondId)
    (dbHolders : List (Option Address)) :
    ((holderBalances issuer id dbHolders).map Prod.fst).Nodup := by
  have hcandidates : (resolveOnChainHolders issuer id dbHolders).Nodup :=
    List.Nodup.filter _ (nodup_eraseDups _)
  -- the candidates are a set, and an entry names the candidate it came from
  have hmap : (holderBalances issuer id dbHolders).map Prod.fst =
      (resolveOnChainHolders issuer id dbHolders).filterMap
        fun candidate => (holderBalance issuer id candidate).map Prod.fst := by
    unfold holderBalances
    rw [List.map_filterMap]
  rw [hmap]
  refine hcandidates.filterMap ?_
  intro c c' a hc hc'
  obtain ⟨entry, hentry, rfl⟩ := Option.map_eq_some_iff.mp hc
  obtain ⟨entry', hentry', heq⟩ := Option.map_eq_some_iff.mp hc'
  have hsame : c = some entry.1 := (holderBalance_eq_some.mp hentry).1
  have hsame' : c' = some entry'.1 := (holderBalance_eq_some.mp hentry').1
  rw [hsame, hsame', heq]

/-- If every holder is listed, everybody with a positive balance is passed. -/
theorem mem_holderBalances_of_listed (hL : BondIssuer.Listed issuer)
    {dbHolders : List (Option Address)} {a : Address} {n : ℤ} :
    (a, n) ∈ holderBalances issuer id dbHolders ↔
      n = BondIssuer.getHolderBalance issuer id a ∧ 0 < n := by
  rw [mem_holderBalances, readOnChainHolderList_eq hL]
  refine ⟨And.right, ?_⟩
  rintro ⟨rfl, hpos⟩
  exact ⟨Or.inr (hL.holders id a hpos.ne'), rfl, hpos⟩

end BondsService
end NbsBond
