import NbsBond.CreditRetirement.Ledger
import NbsBond.Protocol.Model

/-!
# Retirements in a run

A run issues records, `newRecords`, and its effect on the ledger of `CreditRetirement` is to replay
them, `replay_of_run`. The start need not be a fresh deployment: all that is asked is that
`CreditRetirement` has an empty store, or one of the old layout.

`retirement_ledger` says that a run keeps the ledger if and only if each of its retirements finds
room for the next id and for the total on its bond, the two sums the contract does not check.
-/

namespace NbsBond
namespace Protocol

open Soroban CreditRetirement Int128

/-- What an external call retires, on whose account. -/
def Op.retiresCredits : Op → Option ((BondId × Address) × ℤ)
  | .retirement op => op.retires
  | _ => none

/-- The id a retirement has handed out. `total_retirements` answers with a number too, which is no
new id. -/
def handedOut (c : Call) : Option ℕ :=
  match c.op.retiresCredits, c.ret with
  | some _, .retirement id => some id
  | _, _ => none

/-- The record of a retirement: what is stored under its id. -/
def newRecord (c : Call) : Option RetirementRecord :=
  (handedOut c).bind c.post.retirement.retirement.read

/-- The ids a history has handed out, oldest first. -/
def newIds (h : List Call) : List ℕ := h.reverse.filterMap handedOut

/-- The records of a history, oldest first. -/
def newRecords (h : List Call) : List RetirementRecord := h.reverse.filterMap newRecord

/-- The ledger of retirements. -/
def World.ledger (w : World) : Ledger := CreditRetirement.ledger w.retirement

/-- A retirement has room. -/
def Careful (w : World) (op : Op) : Prop := ∀ x ∈ op.retiresCredits, w.ledger.Room x.1 x.2

instance (w : World) (op : Op) : Decidable (Careful w op) :=
  inferInstanceAs (Decidable (∀ x ∈ op.retiresCredits, w.ledger.Room x.1 x.2))

section Runs

variable {now : ℕ} {w₀ w w' : World} {op : Op} {r : Ret} {h : List Call}

/-- A committed call is a retirement, or leaves the ledger alone. For a retirement this says all
that is used of it later: the id it takes, the checks it has passed, and what it writes. -/
inductive LedgerMove (c : Call) : Prop
  | retire {record : RetirementRecord} (hhanded : handedOut c = some record.id)
      (hrecord : newRecord c = some record)
      (hretires : c.op.retiresCredits = some (record.key, record.amount))
      (hnext : record.id = (c.pre.ledger.count + 1) % 2 ^ 64) (hpositive : 0 < record.amount)
      (htotal : c.pre.ledger.retired record.holder + record.amount ≤ maxValue)
      (hdeducts : Deducts record c.pre.engine c.post.engine)
      (hledger : c.post.ledger = c.pre.ledger.write record)
  | other (hhanded : handedOut c = none) (hrecord : newRecord c = none)
      (hretires : c.op.retiresCredits = none) (hledger : c.post.ledger = c.pre.ledger)

theorem Step.ledger (hstep : Step now w op w' r) : LedgerMove ⟨now, w, op, r, w'⟩ := by
  -- only `CreditRetirement` touches the ledger
  cases hstep with
  | issuer _ => exact .other rfl rfl rfl rfl
  | registry _ _ _ => exact .other rfl rfl rfl rfl
  | oracle _ => exact .other rfl rfl rfl rfl
  | engine _ => exact .other rfl rfl rfl rfl
  | @retirement op s e id hexec =>
    rcases exec_ledger hexec with ⟨record, hretires⟩ | ⟨hretires, hledger⟩
    · obtain rfl := hretires.answer
      have hhanded : handedOut ⟨now, w, .retirement op, .retirement record.id,
          { w with retirement := s, engine := e }⟩ = some record.id := by
        simp only [handedOut, Op.retiresCredits, hretires.retires]
      -- the record stands under the id that was handed out
      have hstored : s.retirement.read record.id = some record := by
        have hrecord : s.retirement.read = _ := congrArg Ledger.record hretires.ledger
        rw [hrecord]
        exact Function.update_self ..
      refine .retire hhanded ?_ hretires.retires hretires.next hretires.positive hretires.total
        hretires.deducts hretires.ledger
      rw [newRecord, hhanded]
      exact hstored
    · have hhanded : handedOut ⟨now, w, .retirement op, .retirement id,
          { w with retirement := s, engine := e }⟩ = none := by
        simp only [handedOut, Op.retiresCredits, hretires]
      refine .other hhanded ?_ hretires hledger
      rw [newRecord, hhanded]
      rfl

/-! ### The records of a run -/

theorem newRecords_cons {c : Call} :
    newRecords (c :: h) = newRecords h ++ (newRecord c).toList := by
  -- the new record comes last, as the lists are oldest first
  rw [newRecords, List.reverse_cons, List.filterMap_append]
  cases hrecord : newRecord c <;> simp [newRecords, hrecord]

theorem newIds_cons {c : Call} : newIds (c :: h) = newIds h ++ (handedOut c).toList := by
  rw [newIds, List.reverse_cons, List.filterMap_append]
  cases hhanded : handedOut c <;> simp [newIds, hhanded]

/-- The calls of a run. -/
theorem ledger_of_mem {Init : World → Prop} {c : Call} (hrun : Soroban.Run machine Init h w)
    (hc : c ∈ h) : LedgerMove c := by
  obtain ⟨-, -, hexec⟩ := hrun.of_mem hc
  exact (step_of_exec hexec).ledger

/-- **A run replays its records.** What is stored at the end is thus determined by the records and
the start. -/
theorem replay_of_run (hrun : Soroban.Run machine (· = w₀) h w) :
    w₀.ledger.Issued (newRecords h) ∧ w.ledger = w₀.ledger.replay (newRecords h) ∧
      newIds h = (newRecords h).map RetirementRecord.id := by
  refine hrun.induction (P := fun h w => w₀.ledger.Issued (newRecords h) ∧
    w.ledger = w₀.ledger.replay (newRecords h) ∧
      newIds h = (newRecords h).map RetirementRecord.id) ?_ ?_
  · rintro w rfl
    exact ⟨.nil, rfl, rfl⟩
  -- one more record, or none
  · rintro h w t op r w' _ _ hexec ⟨hissued, hreplay, hids⟩
    rw [newRecords_cons, newIds_cons]
    cases (step_of_exec hexec).ledger with
    | @retire record hhanded hrecord _ hnext hpositive _ _ hledger =>
      rw [hrecord, hhanded, Option.toList_some, Option.toList_some]
      dsimp only at hnext hledger
      refine ⟨hissued.snoc (hreplay ▸ hnext) hpositive, ?_, ?_⟩
      · rw [hledger, hreplay, Ledger.replay_append]
        rfl
      · rw [hids, List.map_append]
        rfl
    | other hhanded hrecord _ hledger =>
      dsimp only at hledger
      rw [hrecord, hhanded, Option.toList_none, Option.toList_none, List.append_nil,
        List.append_nil, hledger]
      exact ⟨hissued, hreplay, hids⟩

/-- Records fit just if each finds room. Both sides are about the same sums: the one over all
records at the end, the other at each call. -/
theorem fits_iff_careful (hL : w₀.ledger.Sound) (hrun : Soroban.Run machine (· = w₀) h w) :
    w₀.ledger.Fits (newRecords h) ↔ ∀ c ∈ h, Careful c.pre c.op := by
  refine hrun.induction
    (P := fun h _ => w₀.ledger.Fits (newRecords h) ↔ ∀ c ∈ h, Careful c.pre c.op) ?_ ?_
  · rintro w rfl
    -- without records nothing is asked of the start but that it is sound
    refine ⟨fun _ c hc => absurd hc List.not_mem_nil, fun _ => ⟨hL.count_lt, fun key => ?_⟩⟩
    exact (add_zero (w.ledger.retiredPerBond key)).trans_le (hL.inRange key).2
  · intro h w t op r w' hrun ht hexec ih
    have hissued := (replay_of_run (hrun.call ht hexec)).1
    obtain ⟨hbefore, hreplay, -⟩ := replay_of_run hrun
    rw [List.forall_mem_cons, ← ih, newRecords_cons, and_comm]
    rw [newRecords_cons] at hissued
    -- the last record finds room on top of those before it
    cases (step_of_exec hexec).ledger with
    | @retire record _ hrecord hretires _ _ _ _ _ =>
      have hcareful : Careful w op ↔ w.ledger.Room record.key record.amount := by
        rw [Careful, hretires]
        exact ⟨fun h => h _ rfl, fun h x hx => Option.some.inj hx ▸ h⟩
      rw [hrecord, Option.toList_some] at hissued ⊢
      rw [Ledger.fits_snoc hL hissued hbefore, hcareful, hreplay]
    | other _ hrecord hretires _ =>
      have hcareful : Careful w op := by
        intro x hx
        rw [hretires] at hx
        cases hx
      rw [hrecord, Option.toList_none, List.append_nil]
      exact (and_iff_left hcareful).symm

/-- A retirement that has room does not overwrite a record. The id it takes is one more than the
counter, which is at least every id in use. -/
theorem keeps_record {c : Call} (hL : w₀.ledger.Sound)
    (hrun : Soroban.Run machine (· = w₀) h w) (hcareful : ∀ c ∈ h, Careful c.pre c.op)
    (hc : c ∈ h) {id : ℕ} {record : RetirementRecord}
    (hrecord : c.pre.ledger.record id = some record) :
    c.post.ledger.record id = some record := by
  cases ledger_of_mem hrun hc with
  | @retire new _ _ hretires hnext _ _ _ hledger =>
    obtain ⟨h₂, h₁, rfl⟩ := List.append_of_mem hc
    obtain ⟨hpast, -, -⟩ := hrun.past
    obtain ⟨hissued, hreplay, -⟩ := replay_of_run hpast
    have hfits : w₀.ledger.Fits (newRecords h₁) := (fits_iff_careful hL hpast).mpr fun d hd =>
      hcareful d (List.mem_append_right h₂ (List.mem_cons_of_mem c hd))
    -- the ids that are stored are at most the count, and the new one is the next
    have hle : id ≤ c.pre.ledger.count := by
      rw [hreplay] at hrecord ⊢
      rw [(hfits.ids hissued).2]
      exact (hfits.record hL hissued).2 id record hrecord
    have hroom := (hcareful c hc _ hretires).count
    rw [Nat.mod_eq_of_lt hroom] at hnext
    rw [hledger]
    have hne : id ≠ new.id := by omega
    exact (Function.update_of_ne hne ..).trans hrecord
  | other _ _ _ hledger =>
    rw [hledger]
    exact hrecord

/-- What a run from `w₀` to `w` is to leave in the ledger of retirements. -/
structure RetirementLedger (w₀ : World) (h : List Call) (w : World) : Prop where
  /-- Ids, totals and lists agree with the new records. -/
  ledger : Ledger.Kept w₀.ledger (newRecords h) w.ledger
  handedOut : newIds h = (newRecords h).map RetirementRecord.id
  /-- No record is overwritten. -/
  kept : ∀ c ∈ h, ∀ id record, c.pre.ledger.record id = some record →
    c.post.ledger.record id = some record
  /-- Each call that writes a record makes one deduction, of what the record says. -/
  deducted : ∀ c ∈ h, ∀ record, newRecord c = some record →
    Deducts record c.pre.engine c.post.engine

theorem RetirementLedger.careful (hL : w₀.ledger.Sound)
    (hrun : Soroban.Run machine (· = w₀) h w) (hledger : RetirementLedger w₀ h w) :
    ∀ c ∈ h, Careful c.pre c.op := by
  obtain ⟨hissued, hreplay, -⟩ := replay_of_run hrun
  have hkept := hledger.ledger
  -- what is kept is what fits, by the library of ledgers
  rw [hreplay, Ledger.kept_iff hL hissued] at hkept
  exact (fits_iff_careful hL hrun).mp hkept

/-- **The retirement ledger.** From an empty store or one of the old layout, whatever the other
contracts hold, a run keeps the ledger if and only if each of its retirements finds room. Room is
for the next id and for the total on the bond, the two sums that the contract does not check. -/
theorem retirement_ledger (hstart : Start w₀.retirement)
    (hrun : Soroban.Run machine (· = w₀) h w) :
    RetirementLedger w₀ h w ↔ ∀ c ∈ h, Careful c.pre c.op := by
  have hL : w₀.ledger.Sound := hstart.sound
  refine ⟨fun hledger => hledger.careful hL hrun, fun hcareful => ?_⟩
  obtain ⟨hissued, hreplay, hids⟩ := replay_of_run hrun
  refine ⟨?_, hids, ?_, ?_⟩
  -- what fits is kept
  · rw [hreplay, Ledger.kept_iff hL hissued]
    exact (fits_iff_careful hL hrun).mpr hcareful
  · intro c hc id record hrecord
    exact keeps_record hL hrun hcareful hc hrecord
  · intro c hc record hrecord
    cases ledger_of_mem hrun hc with
    | retire _ hrecord' _ _ _ _ hdeducts _ =>
      obtain rfl := Option.some.inj (hrecord.symm.trans hrecord')
      exact hdeducts
    | other _ hrecord' _ _ =>
      rw [hrecord'] at hrecord
      cases hrecord

/-- Where no total on a bond exceeds its holder's total, as in an empty store, only the counter can
lack room: the holder's total is checked. -/
theorem careful_iff_count (hL : w₀.ledger.Sound)
    (htotals : ∀ key, w₀.ledger.retiredPerBond key ≤ w₀.ledger.retired key.2)
    (hrun : Soroban.Run machine (· = w₀) h w) {c : Call} (hc : c ∈ h) :
    Careful c.pre c.op ↔ ∀ x ∈ c.op.retiresCredits, c.pre.ledger.count + 1 < 2 ^ 64 := by
  refine ⟨fun hcareful x hx => (hcareful x hx).count, fun hcount x hx => ⟨hcount x hx, ?_⟩⟩
  cases ledger_of_mem hrun hc with
  | @retire record _ _ hretires _ _ htotal _ _ =>
    obtain rfl : (record.key, record.amount) = x := Option.some.inj (hretires.symm.trans hx)
    obtain ⟨h₂, h₁, rfl⟩ := List.append_of_mem hc
    obtain ⟨hissued, hreplay, -⟩ := replay_of_run hrun.past.1
    have hrange := hL.inRange record.key
    have hnonneg := hissued.amount_nonneg record.key
    have hle : c.pre.ledger.retiredPerBond record.key ≤ c.pre.ledger.retired record.holder :=
      calc c.pre.ledger.retiredPerBond record.key
          = wrap (w₀.ledger.retiredPerBond record.key +
              Ledger.amount (Ledger.ofKey record.key (newRecords h₁))) := by
            rw [hreplay, Ledger.replay_retiredPerBond hrange]
        _ ≤ w₀.ledger.retiredPerBond record.key +
              Ledger.amount (Ledger.ofKey record.key (newRecords h₁)) :=
            wrap_le (hrange.1.trans (le_add_of_nonneg_right hnonneg))
        -- each retirement on a bond counts for its holder too
        _ ≤ w₀.ledger.retired record.holder +
              Ledger.amount (Ledger.ofHolder record.holder (newRecords h₁)) :=
            add_le_add (htotals record.key) (hissued.amount_ofKey_le record.key)
        _ = c.pre.ledger.retired record.holder := by rw [hreplay, Ledger.replay_retired]
    exact (add_le_add_left hle record.amount).trans htotal
  | other _ _ hretires _ =>
    rw [hretires] at hx
    cases hx

end Runs

/-! ### Two runs -/

/-- A bond of which the holder `9` has credits to retire. -/
def retirableBond : List (ℕ × Op) :=
  onboard ⟨0⟩ ⟨5⟩ ⟨1⟩ ⟨2⟩ ⟨100⟩ ⟨102⟩ 7 ++
    [(1, .oracle (.submitReport ⟨1⟩ 1 0 10 12000 (.present 5 0 0) "VM0007" 3 0)),
      (1, .oracle (.verifyReport ⟨2⟩ 1 0)),
      (1, .issuer (.issueBond ⟨0⟩ ⟨7, 1000, [50], .basket, 9000000, 100⟩ 0)),
      (1, .issuer (.subscribe ⟨8⟩ 1 3 0)),
      (1, .issuer (.subscribe ⟨9⟩ 1 4 0)),
      (1, .engine (.registerBond ⟨0⟩ 1 7 0)),
      (1, .engine (.registerDeductCaller ⟨0⟩ ⟨101⟩ 1)),
      (2, .engine (.distributeCoupon ⟨0⟩ 1 0 [(⟨8⟩, 3), (⟨9⟩, 4)] 1 2 true))]

/-- A computed run from `w₀`. -/
theorem run_of_play {β : Type} {w₀ : World} {ops : List (ℕ × Op)}
    {f : List Call × World → β} {b : β}
    (hplay : (machine.play [] w₀ ops).map f = some b) :
    ∃ h w, Soroban.Run machine (· = w₀) h w ∧ f (h, w) = b :=
  Run.of_play rfl hplay

/-- Two retirements from an empty store, with a deduction each. -/
theorem retirement_ledger_two : ∃ w₀ h w, Start w₀.retirement ∧
    Soroban.Run machine (· = w₀) h w ∧ newIds h = [1, 2] ∧
      (newRecords h).map RetirementRecord.amount = [3, 1] ∧ RetirementLedger w₀ h w := by
  let w₀ : World := deploy ⟨0⟩ ⟨100⟩ ⟨101⟩ ⟨102⟩
  have hplay : (machine.play [] w₀ (retirableBond ++
      [(2, .retirement (.retireCredits [] ⟨9⟩ 1 7 0 3 .blueCarbon 6 0)),
        (3, .retirement .totalRetirements),
        (3, .retirement (.retireCredits [] ⟨9⟩ 1 7 0 1 .carbon 6 1))])).map
      (fun x => (newIds x.1, (newRecords x.1).map RetirementRecord.amount,
        x.1.all fun c => Careful c.pre c.op)) = some ([1, 2], [3, 1], true) := by decide
  obtain ⟨h, w, hrun, hview⟩ := run_of_play hplay
  simp only [Prod.mk.injEq] at hview
  obtain ⟨hids, hamounts, hall⟩ := hview
  have hstart : Start w₀.retirement := .inl ⟨⟨0⟩, rfl⟩
  refine ⟨w₀, h, w, hstart, hrun, hids, hamounts, (retirement_ledger hstart hrun).mpr ?_⟩
  intro c hc
  exact of_decide_eq_true (List.all_eq_true.mp hall c hc)

/-- A store of the old layout, in which the holder `9` has retired the greatest `i128` on bond 1. -/
def fullStore : CreditRetirement.State :=
  { construct ⟨0⟩ with
    retirementCount := ⟨fun _ => none, fun _ => some 5⟩
    retiredPerBond :=
      ⟨fun _ => none, fun key => if key = (1, ⟨9⟩) then some maxValue else none⟩ }

theorem fullStore_legacy : Legacy fullStore := by
  refine ⟨rfl, ?_, ?_, ?_⟩
  · decide
  · rintro id (⟨record, hrecord⟩ | ⟨holder, hmem⟩ | ⟨key, hmem⟩)
    · cases hrecord
    · cases hmem
    · cases hmem
  · intro key
    by_cases hkey : key = (1, ⟨9⟩)
    · rw [hkey]
      decide
    · have hzero : (ledger fullStore).retiredPerBond key = 0 := by
        simp [ledger, fullStore, Tiered.read, hkey]
      rw [hzero]
      decide

/-- The total on the bond wraps, and the holder's total does not. -/
theorem retiredPerBond_wraps : ∃ w₀ h w, Legacy w₀.retirement ∧
    Soroban.Run machine (· = w₀) h w ∧
      (newRecords h).map (fun record => (record.holder, record.bondId, record.amount)) =
        [(⟨9⟩, 1, 4)] ∧
      (w₀.ledger.retired ⟨9⟩, w.ledger.retired ⟨9⟩) = (0, 4) ∧
      (w₀.ledger.retiredPerBond (1, ⟨9⟩), w.ledger.retiredPerBond (1, ⟨9⟩)) =
        (maxValue, minValue + 3) ∧
      ¬ RetirementLedger w₀ h w := by
  let w₀ : World := { deploy ⟨0⟩ ⟨100⟩ ⟨101⟩ ⟨102⟩ with retirement := fullStore }
  have hplay : (machine.play [] w₀ (retirableBond ++
      [(2, .retirement (.retireCredits [] ⟨9⟩ 1 7 0 4 .blueCarbon 6 0))])).map
      (fun x => ((newRecords x.1).map (fun record => (record.holder, record.bondId, record.amount)),
        x.2.ledger.retired ⟨9⟩, x.2.ledger.retiredPerBond (1, ⟨9⟩),
        x.1.all fun c => Careful c.pre c.op)) =
      some ([(⟨9⟩, 1, 4)], 4, minValue + 3, false) := by decide
  obtain ⟨h, w, hrun, hview⟩ := run_of_play hplay
  simp only [Prod.mk.injEq] at hview
  obtain ⟨hrecords, hretired, hperBond, hall⟩ := hview
  refine ⟨w₀, h, w, fullStore_legacy, hrun, hrecords, ?_, ?_, ?_⟩
  · rw [hretired]
    rfl
  · rw [hperBond]
    rfl
  · intro hledger
    have hL : w₀.ledger.Sound := fullStore_legacy.sound
    have hcareful := hledger.careful hL hrun
    have htrue : (h.all fun c => Careful c.pre c.op) = true :=
      List.all_eq_true.mpr fun c hc => decide_eq_true (hcareful c hc)
    rw [htrue] at hall
    cases hall

end Protocol
end NbsBond
