import NbsBond.CreditRetirement.Ledger

/-!
# Keeping a certificate alive

`extend_retirement_ttl` copies a legacy record into persistent storage before it extends it, but
extends the two indexes of its holder where they are. What it does to the answers of the queries is
nothing, since these are read off the ledger. `extendRetirementTtl_iff` says when it goes through:
both index entries must be persistent already.
-/

namespace NbsBond
namespace CreditRetirement

open Soroban

variable {s s' : State} {id : ℕ} {record : RetirementRecord}

/-- The queries answer the same. Moving an entry from one tier to the other is meant to be
invisible, and this is how that is seen. -/
structure SameAnswers (s s' : State) : Prop where
  retirementRecord : ∀ id, getRetirementRecord s' id = getRetirementRecord s id
  retirementCertificate : ∀ id, getRetirementCertificate s' id = getRetirementCertificate s id
  holderRetirements : ∀ holder, getHolderRetirements s' holder = getHolderRetirements s holder
  bondRetirements : ∀ b holder, getBondRetirements s' b holder = getBondRetirements s b holder
  bondCertificates : ∀ b holder, getBondCertificates s' b holder = getBondCertificates s b holder
  totalRetired : ∀ holder, getTotalRetired s' holder = getTotalRetired s holder
  totalRetirements : (getRetirementCount s').2 = (getRetirementCount s).2

/-- The answers are read off the ledger. -/
theorem SameAnswers.of_ledger (h : ledger s' = ledger s) : SameAnswers s s' := by
  have hrecord : s'.retirement.read = s.retirement.read := congrArg Ledger.record h
  have hholder := congrArg Ledger.holderIds h
  have hbond := congrArg Ledger.bondHolderIds h
  refine ⟨fun id => ?_, fun id => ?_, congrFun hholder, fun b holder => congrFun hbond (b, holder),
    fun b holder => ?_, congrFun (congrArg Ledger.retired h), ?_⟩
  · rw [getRetirementRecord, hrecord, getRetirementRecord]
  · rw [getRetirementCertificate, hrecord, getRetirementCertificate]
  · have hids : (s'.bondHolderRetirements.read (b, holder)).getD [] =
        (s.bondHolderRetirements.read (b, holder)).getD [] := congrFun hbond (b, holder)
    rw [getBondCertificates, hids, hrecord, getBondCertificates]
  · rw [(getRetirementCount_ledger s').2, h, (getRetirementCount_ledger s).2]

/-- What is to come of the call: the record is persistent and nothing else is seen. The contract
extends the lifetime after it has moved the record, so this is what a caller gets for its call. -/
structure KeptAlive (s s' : State) (id : ℕ) : Prop where
  rehomed : s'.retirement.persistent id ≠ none
  answers : SameAnswers s s'

/-- Both index entries of the record are persistent. -/
structure Indexed (s : State) (record : RetirementRecord) : Prop where
  holder : s.holderRetirements.persistent record.holder ≠ none
  bondHolder : s.bondHolderRetirements.persistent (record.bondId, record.holder) ≠ none

theorem extendTtl_eq_ok {κ α : Type} {t : Tiered κ α} {k : κ} {u : Unit} :
    extendTtl t k = .ok u ↔ t.persistent k ≠ none := by
  simp only [extendTtl, bind_eq_ok, orTrap_eq_ok, pure_eq_ok, and_true, ne_eq,
    ← Option.isSome_iff_ne_none, Option.isSome_iff_exists]

/-- The call goes through just if both index entries are persistent, and re-homes the record. -/
theorem extendRetirementTtl_eq_ok (hrecord : getRetirementRecord s id = .ok record) :
    extendRetirementTtl s id = .ok s' ↔ Indexed s record ∧
      (if s.retirement.persistent id = none then
        { s with retirement := s.retirement.write id record } else s) = s' := by
  have hread : s.retirement.read id = some record := orError_eq_ok.mp hrecord
  simp only [extendRetirementTtl, bind_eq_ok, orError_eq_ok, extendTtl_eq_ok, pure_eq_ok]
  constructor
  · rintro ⟨record', hread', _, hholder, _, hbondHolder, rfl⟩
    obtain rfl := Option.some.inj (hread.symm.trans hread')
    -- re-homing the record does not touch the indexes
    refine ⟨⟨?_, ?_⟩, rfl⟩
    · split at hholder <;> exact hholder
    · split at hbondHolder <;> exact hbondHolder
  · rintro ⟨⟨hholder, hbondHolder⟩, rfl⟩
    refine ⟨record, hread, (), ?_, (), ?_, rfl⟩
    · split <;> exact hholder
    · split <;> exact hbondHolder

/-- **Keeping a certificate alive.** For a record that can be read, the call does so if and only if
both index entries of the record are persistent. The lifetime of an entry that is not there cannot
be extended: the host traps, and the copy of the record that the call has made goes with it. -/
theorem extendRetirementTtl_iff (hrecord : getRetirementRecord s id = .ok record) :
    (∃ s', extendRetirementTtl s id = .ok s' ∧ KeptAlive s s' id) ↔ Indexed s record := by
  constructor
  · rintro ⟨s', hextend, -⟩
    exact ((extendRetirementTtl_eq_ok hrecord).mp hextend).1
  · intro hindexed
    have hextend := (extendRetirementTtl_eq_ok hrecord).mpr ⟨hindexed, rfl⟩
    refine ⟨_, hextend, ?_, .of_ledger (extendRetirementTtl_ledger hextend)⟩
    split
    · simp [Tiered.write]
    · assumption

/-- A store of the old layout: one certificate, entirely in instance storage. -/
def legacyStore : State :=
  { construct ⟨0⟩ with
    retirementCount := ⟨fun _ => none, fun _ => some 1⟩
    retirement := ⟨fun _ => none, fun id =>
      if id = 1 then some ⟨1, ⟨9⟩, 1, 7, 0, 1, 2024, 1704067200, 1735603200, 3, .carbon,
        1735603201, 6⟩ else none⟩
    holderRetirements := ⟨fun _ => none, fun holder => if holder = ⟨9⟩ then some [1] else none⟩
    bondHolderRetirements := ⟨fun _ => none, fun key =>
      if key = (1, ⟨9⟩) then some [1] else none⟩
    retiredCredits := ⟨fun _ => none, fun holder => if holder = ⟨9⟩ then some 3 else none⟩ }

/-- Its certificate can be read, and cannot be kept alive. The record and its index entries are
those of the old layout. -/
theorem extendRetirementTtl_traps :
    (∃ record, getRetirementRecord legacyStore 1 = .ok record ∧ record.amount = 3) ∧
      getHolderRetirements legacyStore ⟨9⟩ = [1] ∧ getBondRetirements legacyStore 1 ⟨9⟩ = [1] ∧
      fault (extendRetirementTtl legacyStore 1) = some .trap ∧
      ¬ ∃ s', extendRetirementTtl legacyStore 1 = .ok s' ∧ KeptAlive legacyStore s' 1 := by
  have htrap : fault (extendRetirementTtl legacyStore 1) = some .trap := by decide
  refine ⟨⟨_, rfl, rfl⟩, rfl, rfl, htrap, ?_⟩
  rintro ⟨s', hextend, -⟩
  rw [hextend] at htrap
  cases htrap

/-- The same store with both index entries in persistent storage. -/
def indexedStore : State :=
  { legacyStore with
    holderRetirements := legacyStore.holderRetirements.write ⟨9⟩ [1]
    bondHolderRetirements := legacyStore.bondHolderRetirements.write (1, ⟨9⟩) [1] }

theorem extendRetirementTtl_iff_indexed :
    ∃ s', extendRetirementTtl indexedStore 1 = .ok s' ∧ KeptAlive indexedStore s' 1 :=
  (extendRetirementTtl_iff rfl).mpr ⟨by decide, by decide⟩

end CreditRetirement
end NbsBond
