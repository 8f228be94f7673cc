import NbsBond.CreditRetirement.Model
import NbsBond.Framework.Posting

/-!
# The retirement ledger

What readers of `CreditRetirement` see is a `Ledger`: they cannot tell an entry that was never
written from one that holds the default, nor in which tier an entry is. A retirement writes one
record to the ledger and posts it to the accounts of its holder, `exec_ledger`; every other call
leaves the ledger alone.

`Kept` is what the ledger is for. `kept_iff` says of the ledger after a list of records that it is
`Kept` if and only if these records `Fit`: the counter and the totals per bond, which the contract
adds up unchecked, stay in the range of their types.
-/

namespace NbsBond
namespace CreditRetirement

open Soroban Int128 Posting

/-- What readers see. It is what is compared with the records; that the entries may be in either
tier has no place in it. -/
@[ext] structure Ledger where
  count : ℕ
  record : ℕ → Option RetirementRecord
  holderIds : Address → List ℕ
  bondHolderIds : BondId × Address → List ℕ
  retired : Address → ℤ
  retiredPerBond : BondId × Address → ℤ

/-- The ledger of a state. -/
def ledger (s : State) : Ledger where
  count := (s.retirementCount.read ()).getD 0
  record := s.retirement.read
  holderIds holder := (s.holderRetirements.read holder).getD []
  bondHolderIds key := (s.bondHolderRetirements.read key).getD []
  retired holder := (s.retiredCredits.read holder).getD 0
  retiredPerBond key := (s.retiredPerBond.read key).getD 0

/-- The account of a record among those kept per bond. -/
def RetirementRecord.key (record : RetirementRecord) : BondId × Address :=
  (record.bondId, record.holder)

namespace Ledger

variable {L : Ledger} {records : List RetirementRecord}

/-- One more record. This is what one retirement does to the six tables; the total per bond is added
with a plain `+` in the source, and so it is wrapped here. -/
def write (L : Ledger) (record : RetirementRecord) : Ledger where
  count := record.id
  record := post RetirementRecord.id (fun _ r => some r) L.record record
  holderIds := post RetirementRecord.holder (fun ids r => ids ++ [r.id]) L.holderIds record
  bondHolderIds := post RetirementRecord.key (fun ids r => ids ++ [r.id]) L.bondHolderIds record
  retired := post RetirementRecord.holder (fun total r => total + r.amount) L.retired record
  retiredPerBond :=
    post RetirementRecord.key (fun total r => wrap (total + r.amount)) L.retiredPerBond record

/-- Several more records, oldest first. -/
def replay (L : Ledger) (records : List RetirementRecord) : Ledger := records.foldl write L

/-- The records of a holder. -/
def ofHolder (holder : Address) (records : List RetirementRecord) : List RetirementRecord :=
  records.filter (·.holder = holder)

/-- The records of a holder on a bond. -/
def ofKey (key : BondId × Address) (records : List RetirementRecord) : List RetirementRecord :=
  records.filter (·.key = key)

/-- The sum of their amounts. -/
def amount (records : List RetirementRecord) : ℤ := (records.map RetirementRecord.amount).sum

/-! ### The accounts after several records -/

theorem replay_append {records' : List RetirementRecord} :
    L.replay (records ++ records') = (L.replay records).replay records' :=
  List.foldl_append

theorem replay_holderIds {holder : Address} :
    (L.replay records).holderIds holder =
      L.holderIds holder ++ (ofHolder holder records).map RetirementRecord.id := by
  -- each table by itself, as the others do not enter into it
  have hfold : (L.replay records).holderIds =
      records.foldl (post RetirementRecord.holder fun ids r => ids ++ [r.id]) L.holderIds :=
    (List.foldl_hom holderIds fun _ _ => rfl).symm
  rw [hfold, foldl_post, foldl_concat]
  rfl

theorem replay_bondHolderIds {key : BondId × Address} :
    (L.replay records).bondHolderIds key =
      L.bondHolderIds key ++ (ofKey key records).map RetirementRecord.id := by
  have hfold : (L.replay records).bondHolderIds =
      records.foldl (post RetirementRecord.key fun ids r => ids ++ [r.id]) L.bondHolderIds :=
    (List.foldl_hom bondHolderIds fun _ _ => rfl).symm
  rw [hfold, foldl_post, foldl_concat]
  rfl

theorem replay_retired {holder : Address} :
    (L.replay records).retired holder = L.retired holder + amount (ofHolder holder records) := by
  have hfold : (L.replay records).retired =
      records.foldl (post RetirementRecord.holder fun total r => total + r.amount) L.retired :=
    (List.foldl_hom retired fun _ _ => rfl).symm
  rw [hfold, foldl_post, foldl_add]
  rfl

theorem replay_retiredPerBond {key : BondId × Address} (hrange : InRange (L.retiredPerBond key)) :
    (L.replay records).retiredPerBond key =
      wrap (L.retiredPerBond key + amount (ofKey key records)) := by
  have hfold : (L.replay records).retiredPerBond =
      records.foldl (post RetirementRecord.key fun total r => wrap (total + r.amount))
        L.retiredPerBond :=
    (List.foldl_hom retiredPerBond fun _ _ => rfl).symm
  rw [hfold, foldl_post]
  -- the table holds totals in range, so wrapping at every step is wrapping at the end
  nth_rewrite 1 [← wrap_of_inRange hrange]
  exact foldl_wrap

/-! ### Records as they are issued -/

/-- The ids a reader finds. In an old store a list may name an id of which there is no record. -/
def Stored (L : Ledger) (id : ℕ) : Prop :=
  (∃ record, L.record id = some record) ∨ (∃ holder, id ∈ L.holderIds holder) ∨
    ∃ key, id ∈ L.bondHolderIds key

/-- The counter is a `u64` and at least every stored id; the totals per bond are `i128`s. This is
what the ledger is before the records in question. -/
structure Sound (L : Ledger) : Prop where
  count_lt : L.count < 2 ^ 64
  counted : ∀ id, L.Stored id → id ≤ L.count
  inRange : ∀ key, InRange (L.retiredPerBond key)

/-- The ids are what the counter gives, modulo `2 ^ 64`. Every record is given the id that the
counter shows after those before it. -/
inductive Issued (L : Ledger) : List RetirementRecord → Prop
  | nil : Issued L []
  | snoc {records : List RetirementRecord} {record : RetirementRecord}
      (hissued : Issued L records)
      (hid : record.id = ((L.replay records).count + 1) % 2 ^ 64)
      (hpositive : 0 < record.amount) : Issued L (records ++ [record])

/-- Nothing the contract adds up unchecked wraps. The other sums are checked by the source, and
cannot wrap. -/
structure Fits (L : Ledger) (records : List RetirementRecord) : Prop where
  count : L.count + records.length < 2 ^ 64
  retiredPerBond : ∀ key, L.retiredPerBond key + amount (ofKey key records) ≤ maxValue

/-- One more retirement fits. These are the two additions that the contract makes without a
check. -/
structure Room (L : Ledger) (key : BondId × Address) (amount : ℤ) : Prop where
  count : L.count + 1 < 2 ^ 64
  retiredPerBond : L.retiredPerBond key + amount ≤ maxValue

instance (L : Ledger) (key : BondId × Address) (amount : ℤ) : Decidable (L.Room key amount) :=
  decidable_of_iff (L.count + 1 < 2 ^ 64 ∧ L.retiredPerBond key + amount ≤ maxValue)
    ⟨fun h => ⟨h.1, h.2⟩, fun h => ⟨h.count, h.retiredPerBond⟩⟩

theorem Issued.positive (hissued : Issued L records) :
    ∀ record ∈ records, 0 < record.amount := by
  induction hissued with
  | nil => exact fun _ hmem => absurd hmem List.not_mem_nil
  | snoc _ _ hpositive ih =>
    intro record hmem
    -- the record is one of the earlier ones, or the last
    rcases List.mem_append.mp hmem with hmem | hmem
    · exact ih record hmem
    · rw [List.mem_singleton.mp hmem]
      exact hpositive

theorem Issued.amount_nonneg (hissued : Issued L records) (key : BondId × Address) :
    0 ≤ amount (ofKey key records) := by
  refine List.sum_nonneg fun x hx => ?_
  obtain ⟨record, hmem, rfl⟩ := List.mem_map.mp hx
  exact (hissued.positive record (List.mem_filter.mp hmem).1).le

/-- What a holder retires on one bond is part of what it retires. -/
theorem Issued.amount_ofKey_le (hissued : Issued L records) (key : BondId × Address) :
    amount (ofKey key records) ≤ amount (ofHolder key.2 records) := by
  have hsub : (ofKey key records).Sublist (ofHolder key.2 records) :=
    List.monotone_filter_right records fun record hkey =>
      decide_eq_true (congrArg Prod.snd (of_decide_eq_true hkey))
  -- the records of the bond are among those of the holder, and no amount is negative
  refine (hsub.map RetirementRecord.amount).sum_le_sum fun x hx => ?_
  obtain ⟨record, hmem, rfl⟩ := List.mem_map.mp hx
  exact (hissued.positive record (List.mem_filter.mp hmem).1).le

theorem amount_ofKey_snoc {key : BondId × Address} {record : RetirementRecord} :
    amount (ofKey key (records ++ [record])) =
      amount (ofKey key records) + if record.key = key then record.amount else 0 := by
  unfold amount ofKey
  rw [List.filter_append, List.map_append, List.sum_append]
  by_cases hkey : record.key = key
  · simp [hkey]
  · simp [hkey]

theorem Fits.replay_retiredPerBond (hL : L.Sound) (hissued : Issued L records)
    (hfits : Fits L records) (key : BondId × Address) :
    (L.replay records).retiredPerBond key = L.retiredPerBond key + amount (ofKey key records) := by
  have hmin := (hL.inRange key).1
  have hnonneg := hissued.amount_nonneg key
  rw [Ledger.replay_retiredPerBond (hL.inRange key)]
  exact wrap_of_inRange ⟨by omega, hfits.retiredPerBond key⟩

theorem Fits.of_snoc {record : RetirementRecord} (hissued : Issued L (records ++ [record]))
    (hfits : Fits L (records ++ [record])) : Fits L records where
  count := by
    have hcount := hfits.count
    rw [List.length_append] at hcount
    omega
  retiredPerBond key := by
    have htotal := hfits.retiredPerBond key
    have hpositive := hissued.positive record (by simp)
    -- the last amount is positive, so without it there is even more room
    rw [amount_ofKey_snoc] at htotal
    split at htotal <;> omega

/-- The ids of records that fit are consecutive. -/
theorem Fits.ids (hissued : Issued L records) (hfits : Fits L records) :
    records.map RetirementRecord.id = List.range' (L.count + 1) records.length ∧
      (L.replay records).count = L.count + records.length := by
  induction hissued with
  | nil => exact ⟨rfl, rfl⟩
  | @snoc records record hissued hid hpositive ih =>
    have hbefore : Fits L records := hfits.of_snoc (hissued.snoc hid hpositive)
    obtain ⟨hids, hcount⟩ := ih hbefore
    have hlt := hfits.count
    rw [List.length_append, List.length_singleton] at hlt
    -- the counter has not wrapped so far
    rw [hcount, Nat.mod_eq_of_lt (by omega)] at hid
    constructor
    · rw [List.map_append, hids, List.length_append, List.length_singleton, List.range'_concat]
      simp only [List.map_cons, List.map_nil, hid]
      congr 2
      omega
    · rw [replay_append, List.length_append, List.length_singleton]
      exact hid.trans (by omega)

/-- **One more record.** The condition is one for every record, checked against the ledger as it was
before it. -/
theorem fits_snoc {record : RetirementRecord} (hL : L.Sound)
    (hissued : Issued L (records ++ [record])) (hbefore : Issued L records) :
    Fits L (records ++ [record]) ↔
      Fits L records ∧ Room (L.replay records) record.key record.amount := by
  constructor
  · intro hfits
    -- what fits with the record fits without it
    have hfits₁ : Fits L records := hfits.of_snoc hissued
    refine ⟨hfits₁, ?_, ?_⟩
    · have hcount := hfits.count
      rw [List.length_append, List.length_singleton] at hcount
      rw [(hfits₁.ids hbefore).2]
      exact hcount
    · have htotal := hfits.retiredPerBond record.key
      rw [amount_ofKey_snoc, if_pos rfl] at htotal
      rw [hfits₁.replay_retiredPerBond hL hbefore]
      omega
  · rintro ⟨hfits, hcount, htotal⟩
    rw [(hfits.ids hbefore).2] at hcount
    rw [hfits.replay_retiredPerBond hL hbefore] at htotal
    refine ⟨?_, ?_⟩
    · rw [List.length_append, List.length_singleton]
      exact hcount
    · intro key
      rw [amount_ofKey_snoc]
      split
      -- the account of the record
      · next hkey =>
        subst hkey
        omega
      · rw [add_zero]
        exact hfits.retiredPerBond key

/-- A counter that wraps breaks the sequence of ids. -/
theorem count_lt_of_ids (hL : L.Sound) (hissued : Issued L records)
    (hids : records.map RetirementRecord.id = List.range' (L.count + 1) records.length) :
    L.count + records.length < 2 ^ 64 := by
  cases hissued with
  | nil => exact hL.count_lt
  | @snoc records record _ hid _ =>
    rw [List.map_append, List.length_append, List.length_singleton, List.range'_concat] at hids
    have hlast := (List.append_inj' hids rfl).2
    -- whatever the counter was, the id is below `2 ^ 64`
    have hlt : record.id < 2 ^ 64 := hid ▸ Nat.mod_lt _ (by norm_num)
    simp only [List.map_cons, List.map_nil, List.cons.injEq, and_true] at hlast
    rw [List.length_append, List.length_singleton]
    omega

/-! ### What the ledger is for -/

/-- The list has grown by these ids, each of which it has once, in increasing order. `grown` says
that nothing was lost from the list, and `once` that no id of the old list came back. -/
structure Lists (before after new : List ℕ) : Prop where
  grown : after = before ++ new
  increasing : new.Pairwise (· < ·)
  once : ∀ id ∈ new, after.count id = 1

/-- The ledger `L'` after these records agrees with them. All fields but the first compare the
ledger with the one before. -/
structure Kept (L : Ledger) (records : List RetirementRecord) (L' : Ledger) : Prop where
  /-- The ids are consecutive. -/
  ids : records.map RetirementRecord.id = List.range' (L.count + 1) records.length
  recorded : ∀ record ∈ records, L'.record record.id = some record
  retired : ∀ holder, L'.retired holder - L.retired holder = amount (ofHolder holder records)
  retiredPerBond : ∀ holder, ∑ᶠ b, (L'.retiredPerBond (b, holder) - L.retiredPerBond (b, holder)) =
    amount (ofHolder holder records)
  holderIds : ∀ holder, Lists (L.holderIds holder) (L'.holderIds holder)
    ((ofHolder holder records).map RetirementRecord.id)
  bondHolderIds : ∀ key, Lists (L.bondHolderIds key) (L'.bondHolderIds key)
    ((ofKey key records).map RetirementRecord.id)

/-- The bonds a holder has retired on. -/
def bonds (holder : Address) (records : List RetirementRecord) : Finset BondId :=
  ((ofHolder holder records).map RetirementRecord.bondId).toFinset

theorem ofKey_eq {b : BondId} {holder : Address} :
    ofKey (b, holder) records = records.filter fun r => r.bondId = b && r.holder = holder :=
  List.filter_congr fun r _ => by simp [RetirementRecord.key]

/-- What a holder has retired is what it has retired on each bond. -/
theorem sum_ofKey {holder : Address} {s : Finset BondId} (hs : bonds holder records ⊆ s) :
    ∑ b ∈ s, amount (ofKey (b, holder) records) = amount (ofHolder holder records) := by
  simp only [ofKey_eq]
  refine sum_filter_fibre fun r hr hholder => hs ?_
  exact List.mem_toFinset.mpr (List.mem_map_of_mem (List.mem_filter.mpr ⟨hr, hholder⟩))

theorem finsum_increase {holder : Address} {s : Finset BondId} (hL : L.Sound)
    (hs : bonds holder records ⊆ s) :
    ∑ᶠ b, ((L.replay records).retiredPerBond (b, holder) - L.retiredPerBond (b, holder)) =
      ∑ b ∈ s, ((L.replay records).retiredPerBond (b, holder) - L.retiredPerBond (b, holder)) := by
  -- outside the finite set nothing has changed
  refine finsum_eq_sum_of_support_subset _ fun b hb => hs ?_
  by_contra hother
  -- nothing was retired on another bond
  have hnone : ofKey (b, holder) records = [] := by
    refine List.filter_eq_nil_iff.mpr fun record hmem hkey => hother ?_
    obtain ⟨rfl, rfl⟩ := Prod.mk.inj (of_decide_eq_true hkey)
    exact List.mem_toFinset.mpr
      (List.mem_map_of_mem (List.mem_filter.mpr ⟨hmem, decide_eq_true rfl⟩))
  refine hb ?_
  have hrange := hL.inRange (b, holder)
  dsimp only
  rw [replay_retiredPerBond hrange, hnone]
  have hzero : amount ([] : List RetirementRecord) = 0 := rfl
  rw [hzero, add_zero, wrap_of_inRange hrange, sub_self]

/-- The totals per bond add up to the total only if none of them wraps. -/
theorem fits_of_sum {holder : Address} {b : BondId} (hL : L.Sound) (hissued : Issued L records)
    (hsum : ∑ᶠ b, ((L.replay records).retiredPerBond (b, holder) - L.retiredPerBond (b, holder)) =
      amount (ofHolder holder records)) :
    L.retiredPerBond (b, holder) + amount (ofKey (b, holder) records) ≤ maxValue := by
  -- add the bond in question to the finite set
  have hs : bonds holder records ⊆ insert b (bonds holder records) := Finset.subset_insert _ _
  rw [finsum_increase hL hs, ← sum_ofKey hs] at hsum
  -- each of them is at most what was retired
  have hle : ∀ b' ∈ insert b (bonds holder records),
      (L.replay records).retiredPerBond (b', holder) - L.retiredPerBond (b', holder) ≤
        amount (ofKey (b', holder) records) := by
    intro b' _
    have hmin := (hL.inRange (b', holder)).1
    have hnonneg := hissued.amount_nonneg (b', holder)
    -- a total that wraps comes out smaller
    have hwrap : wrap (L.retiredPerBond (b', holder) + amount (ofKey (b', holder) records)) ≤
        L.retiredPerBond (b', holder) + amount (ofKey (b', holder) records) :=
      wrap_le (by omega)
    rw [replay_retiredPerBond (hL.inRange (b', holder))]
    omega
  have heq := (Finset.sum_eq_sum_iff_of_le hle).mp hsum b (Finset.mem_insert_self _ _)
  rw [replay_retiredPerBond (hL.inRange (b, holder))] at heq
  have hexact : wrap (L.retiredPerBond (b, holder) + amount (ofKey (b, holder) records)) =
      L.retiredPerBond (b, holder) + amount (ofKey (b, holder) records) := by
    omega
  exact (wrap_eq_self_iff.mp hexact).2

/-- New ids are larger than those a list has. -/
theorem lists_of_ids {before : List ℕ} {p : RetirementRecord → Bool}
    (hids : records.map RetirementRecord.id = List.range' (L.count + 1) records.length)
    (hbefore : ∀ id ∈ before, id ≤ L.count) :
    Lists before (before ++ (records.filter p).map RetirementRecord.id)
      ((records.filter p).map RetirementRecord.id) := by
  have hsub : ((records.filter p).map RetirementRecord.id).Sublist
      -- the new ids are a part of consecutive numbers above the counter
      (List.range' (L.count + 1) records.length) :=
    hids ▸ List.filter_sublist.map _
  have hincreasing : ((records.filter p).map RetirementRecord.id).Pairwise (· < ·) :=
    (List.pairwise_lt_range' 1).sublist hsub
  refine ⟨rfl, hincreasing, fun id hid => ?_⟩
  -- so none of them is an old one
  have hnew : L.count < id := by
    have hmem := hsub.subset hid
    rw [List.mem_range'_1] at hmem
    omega
  have hold : id ∉ before := fun hmem => absurd (hbefore id hmem) (not_le.mpr hnew)
  rw [List.count_append, List.count_eq_zero_of_not_mem hold,
    List.count_eq_one_of_mem (hincreasing.imp ne_of_lt) hid]

/-- Records that fit do not overwrite each other, nor one that was there before. -/
theorem Fits.record (hL : L.Sound) (hissued : Issued L records) (hfits : Fits L records) :
    (∀ record ∈ records, (L.replay records).record record.id = some record) ∧
      ∀ id record, (L.replay records).record id = some record → id ≤ L.count + records.length := by
  -- induction on the records: each is written under an id above all before it
  induction hissued with
  | nil => exact ⟨fun _ hmem => absurd hmem List.not_mem_nil,
      fun id record hrecord => hL.counted id (.inl ⟨record, hrecord⟩)⟩
  | @snoc records new hissued hid hpositive ih =>
    have hbefore : Fits L records := hfits.of_snoc (hissued.snoc hid hpositive)
    obtain ⟨hrecorded, hcounted⟩ := ih hbefore
    have hlt := hfits.count
    rw [List.length_append, List.length_singleton] at hlt
    rw [(hbefore.ids hissued).2, Nat.mod_eq_of_lt (by omega)] at hid
    have hreplay : (L.replay (records ++ [new])).record =
        Function.update (L.replay records).record new.id (some new) := by
      rw [replay_append]
      rfl
    rw [hreplay]
    constructor
    · intro record hmem
      rcases List.mem_append.mp hmem with hmem | hmem
      -- the earlier record has a smaller id
      · have hle := hcounted _ _ (hrecorded record hmem)
        rw [Function.update_of_ne (by omega)]
        exact hrecorded record hmem
      · rw [List.mem_singleton.mp hmem]
        exact Function.update_self ..
    · intro id record hrecord
      rw [List.length_append, List.length_singleton]
      by_cases hnew : id = new.id
      · omega
      · rw [Function.update_of_ne hnew] at hrecord
        have hle := hcounted id record hrecord
        omega

/-- **The ledger agrees with the records just if they fit.** One direction reads the two conditions
off the first and the fourth field of `Kept`; the others follow from them. -/
theorem kept_iff (hL : L.Sound) (hissued : Issued L records) :
    Kept L records (L.replay records) ↔ Fits L records := by
  constructor
  · intro hkept
    refine ⟨count_lt_of_ids hL hissued hkept.ids, ?_⟩
    rintro ⟨b, holder⟩
    exact fits_of_sum hL hissued (hkept.retiredPerBond holder)
  · intro hfits
    obtain ⟨hids, -⟩ := hfits.ids hissued
    refine ⟨hids, (hfits.record hL hissued).1, ?_, ?_, ?_, ?_⟩
    · intro holder
      rw [replay_retired]
      omega
    -- the total of the holder is the sum over its bonds
    · intro holder
      rw [finsum_increase hL subset_rfl, ← sum_ofKey subset_rfl]
      refine Finset.sum_congr rfl fun b _ => ?_
      rw [hfits.replay_retiredPerBond hL hissued]
      omega
    · intro holder
      rw [replay_holderIds]
      exact lists_of_ids hids fun id hmem => hL.counted id (.inr (.inl ⟨holder, hmem⟩))
    · intro key
      rw [replay_bondHolderIds]
      exact lists_of_ids hids fun id hmem => hL.counted id (.inr (.inr ⟨key, hmem⟩))

end Ledger

/-! ### What a call does to the ledger -/

/-- What an operation retires, on whose account. -/
def Op.retires : Op → Option ((BondId × Address) × ℤ)
  | .retireCredits _ holder b _ _ amount _ _ _ => some ((b, holder), amount)
  | _ => none

/-- The engine takes what the record says from the accrual and from its bucket, and nothing else.
The engine is called in the same transaction, and its own checks are `covered`. -/
structure Deducts (record : RetirementRecord) (engine engine' : CouponEngine.State) : Prop where
  covered : record.amount ≤ engine.accruedCredits record.key ∧
    record.amount ≤ engine.accruedCreditsByType
      (record.bondId, record.holder, CouponEngine.storageType record.creditType)
  state : engine' = { engine with
    accruedCredits := Function.update engine.accruedCredits record.key
      (engine.accruedCredits record.key - record.amount)
    accruedCreditsByType := Function.update engine.accruedCreditsByType
      (record.bondId, record.holder, CouponEngine.storageType record.creditType)
      (engine.accruedCreditsByType
        (record.bondId, record.holder, CouponEngine.storageType record.creditType) -
          record.amount) }

/-- An accepted retirement: `id` is its answer. `total` is the one sum per holder that the source
checks. -/
structure Retires (engine engine' : CouponEngine.State) (s s' : State) (op : Op) (id : ℕ)
    (record : RetirementRecord) : Prop where
  retires : op.retires = some (record.key, record.amount)
  answer : id = record.id
  next : record.id = ((ledger s).count + 1) % 2 ^ 64
  positive : 0 < record.amount
  /-- The holder's total is checked. -/
  total : (ledger s).retired record.holder + record.amount ≤ maxValue
  deducts : Deducts record engine engine'
  ledger : ledger s' = (ledger s).write record

theorem getRetirementCount_ledger (s : State) :
    ledger (getRetirementCount s).1 = ledger s ∧
      (getRetirementCount s).2 = (ledger s).count := by
  unfold getRetirementCount
  -- the counter is copied when it is read, unless it is there already
  cases hcount : s.retirementCount.persistent () with
  | some count => exact ⟨rfl, by simp [ledger, Tiered.read, hcount]⟩
  | none =>
    -- what is copied is what was read
    have hread : s.retirementCount.read () = s.retirementCount.legacy () := by
      rw [Tiered.read, hcount, Option.none_or]
    refine ⟨?_, by rw [ledger, hread]⟩
    ext1
    case count => simp [ledger, Tiered.read_write, hread]
    all_goals rfl

/-- What a posting leaves for readers. -/
theorem read_post {κ α : Type} [DecidableEq κ] (t : Tiered κ α) (default : α)
    (key : RetirementRecord → κ) (op : α → RetirementRecord → α) (record : RetirementRecord) :
    (fun k => ((t.write (key record) (op ((t.read (key record)).getD default) record)).read
      k).getD default) = post key op (fun k => (t.read k).getD default) record := by
  -- readers see the default where nothing is stored
  funext k
  rw [Tiered.read_write, post]
  by_cases hk : k = key record
  · rw [hk, Function.update_self, Function.update_self]
    rfl
  · rw [Function.update_of_ne hk, Function.update_of_ne hk]

theorem recordRetirement_ledger {now : ℕ} {s s' : State} {holder : Address} {b : BondId}
    {projectId : Bytes32} {period : CouponEngine.PeriodInfo} {periodIndex : ℕ} {amount : ℤ}
    {creditType : CreditType} {certificateHash : Bytes32} {id : ℕ}
    (h : recordRetirement now s holder b projectId period periodIndex amount creditType
      certificateHash = .ok (s', id)) :
    ∃ record, record.key = (b, holder) ∧ record.amount = amount ∧ record.creditType = creditType ∧
      id = record.id ∧ record.id = ((ledger s).count + 1) % 2 ^ 64 ∧
        (ledger s).retired holder + amount ≤ maxValue ∧ ledger s' = (ledger s).write record := by
  simp only [recordRetirement, bind_eq_ok, orError_eq_ok, checkedAdd_eq_some, pure_eq_ok,
    Prod.mk.injEq] at h
  -- the id is taken after the total per bond is written, so the state in between has to be named
  obtain ⟨hledger, hcount⟩ := getRetirementCount_ledger { s with
    retiredPerBond := s.retiredPerBond.write (b, holder)
      (wrap ((s.retiredPerBond.read (b, holder)).getD 0 + amount)) }
  generalize getRetirementCount _ = counted at h hledger hcount
  obtain ⟨s₁, count⟩ := counted
  obtain ⟨total, ⟨⟨-, hmax⟩, rfl⟩, rfl, rfl⟩ := h
  -- the counter's migration and the write to `RetiredPerBond` leave the other accounts alone
  have hcount₁ : count = (ledger s).count := hcount
  have hrecord : s₁.retirement.read = (ledger s).record := (congrArg Ledger.record hledger :)
  have hholder : (ledger s₁).holderIds = (ledger s).holderIds :=
    (congrArg Ledger.holderIds hledger :)
  have hkey : (ledger s₁).bondHolderIds = (ledger s).bondHolderIds :=
    (congrArg Ledger.bondHolderIds hledger :)
  have hretired : (ledger s₁).retired = (ledger s).retired := (congrArg Ledger.retired hledger :)
  let record : RetirementRecord :=
    ⟨(count + 1) % 2 ^ 64, holder, b, projectId, periodIndex, period.reportId,
      yearFromTimestamp period.endTime, period.startTime, period.endTime, amount, creditType, now,
      certificateHash⟩
  refine ⟨record, rfl, rfl, rfl, rfl, by rw [← hcount₁], hretired ▸ hmax,
    -- one table after the other
    Ledger.ext ?_ ?_ ?_ ?_ ?_ ?_⟩
  · simp [ledger, Ledger.write, Tiered.read_write, record]
  · calc (s₁.retirement.write record.id record).read
        = Function.update s₁.retirement.read record.id (some record) := Tiered.read_write ..
      _ = ((ledger s).write record).record := by rw [hrecord]; rfl
  · calc _ = post RetirementRecord.holder (fun ids r => ids ++ [r.id]) (ledger s₁).holderIds
          record := read_post s₁.holderRetirements [] _ _ record
      _ = ((ledger s).write record).holderIds := by rw [hholder]; rfl
  · calc _ = post RetirementRecord.key (fun ids r => ids ++ [r.id]) (ledger s₁).bondHolderIds
          record := read_post s₁.bondHolderRetirements [] _ _ record
      _ = ((ledger s).write record).bondHolderIds := by rw [hkey]; rfl
  · calc _ = post RetirementRecord.holder (fun total r => total + r.amount) (ledger s₁).retired
          record := read_post s₁.retiredCredits 0 _ _ record
      _ = ((ledger s).write record).retired := by rw [hretired]; rfl
  · calc _ = _ := congrArg Ledger.retiredPerBond hledger
      _ = ((ledger s).write record).retiredPerBond :=
        read_post s.retiredPerBond 0 RetirementRecord.key
          (fun total r => wrap (total + r.amount)) record

theorem deducts_of_ok {engine engine' : CouponEngine.State} {signers : List Address} {left : ℤ}
    {record : RetirementRecord}
    (h : CouponEngine.deductCredits engine signers record.bondId record.holder record.amount
      record.creditType = .ok (engine', left)) : Deducts record engine engine' := by
  simp only [CouponEngine.deductCredits, bind_eq_ok, ensure_eq_ok, pure_eq_ok, Prod.mk.injEq] at h
  obtain ⟨_, -, _, -, _, -, _, hcombined, _, hbyType, rfl, -⟩ := h
  exact ⟨⟨hcombined, hbyType⟩, rfl⟩

/-- Re-homing a record is invisible. -/
theorem extendRetirementTtl_ledger {s s' : State} {id : ℕ}
    (h : extendRetirementTtl s id = .ok s') : ledger s' = ledger s := by
  simp only [extendRetirementTtl, bind_eq_ok, orError_eq_ok, pure_eq_ok] at h
  obtain ⟨record, hrecord, _, -, _, -, rfl⟩ := h
  -- the record is copied to the other tier, or was there
  split
  · simp only [ledger, Tiered.read_write_read hrecord]
  · rfl

/-- **Inversion.** All claims about the ledger rest on this; the entrypoints are not unfolded
again. -/
theorem exec_ledger {now : ℕ} {self : Address} {issuer : BondIssuer.State}
    {engine engine' : CouponEngine.State} {s s' : State} {op : Op} {r : ℕ}
    (h : exec now self issuer engine s op = .ok ((s', engine'), r)) :
    (∃ record, Retires engine engine' s s' op r record) ∨
      op.retires = none ∧ ledger s' = ledger s := by
  cases op with
  | retireCredits signers holder b projectId periodIndex amount creditType certificateHash nonce =>
    simp only [exec, retireCredits, bind_eq_ok, ensure_eq_ok, orError_eq_ok, toOption_eq_some,
      pure_eq_ok, Prod.mk.injEq] at h
    -- the checks of the function in order, then what it deducts and records
    obtain ⟨nonces, -, _, hpositive, _, -, _, -, _, -, _, -, _, -, _, -, _, -, _, -,
      ⟨engine₁, left⟩, hdeduct, ⟨s₁, id⟩, hrecord, ⟨rfl, rfl⟩, rfl⟩ := h
    obtain ⟨record, hkey, rfl, rfl, hanswer, hnext, htotal, hledger⟩ :=
      recordRetirement_ledger hrecord
    obtain ⟨rfl, rfl⟩ := Prod.mk.inj hkey
    exact .inl ⟨record, rfl, hanswer, hnext, hpositive, htotal, deducts_of_ok hdeduct, hledger⟩
  | extendRetirementTtl id =>
    simp only [exec, bind_eq_ok, pure_eq_ok, Prod.mk.injEq] at h
    obtain ⟨s₁, hextend, ⟨rfl, rfl⟩, -⟩ := h
    exact .inr ⟨rfl, extendRetirementTtl_ledger hextend⟩
  | totalRetirements =>
    simp only [exec, pure_eq_ok, Prod.mk.injEq] at h
    obtain ⟨⟨rfl, rfl⟩, -⟩ := h
    exact .inr ⟨rfl, (getRetirementCount_ledger s).1⟩

/-! ### Before the first retirement -/

/-- A store of the old layout: the counter is in instance storage only. The sound part is what a
contract that has run under the old layout leaves behind. -/
structure Legacy (s : State) : Prop where
  unmigrated : s.retirementCount.persistent () = none
  sound : (ledger s).Sound

/-- An empty store, or one of the old layout. -/
def Start (s : State) : Prop := (∃ admin, s = construct admin) ∨ Legacy s

theorem Start.sound {s : State} (hs : Start s) : (ledger s).Sound := by
  rcases hs with ⟨admin, rfl⟩ | hlegacy
  · have hzero : InRange 0 := by decide
    refine ⟨Nat.two_pow_pos 64, ?_, fun _ => hzero⟩
    -- nothing is stored
    rintro id (⟨record, hrecord⟩ | ⟨holder, hmem⟩ | ⟨key, hmem⟩)
    · cases hrecord
    · cases hmem
    · cases hmem
  · exact hlegacy.sound

end CreditRetirement
end NbsBond
