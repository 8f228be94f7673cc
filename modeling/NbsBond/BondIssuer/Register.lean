import NbsBond.BondIssuer.Holders
import NbsBond.Framework.Paging

/-!
# The register of a bond's holders

Over a whole run the holder list of a bond is a register: it lists exactly the addresses that have
held the bond at some time (`mem_holderList`). It lists an address once more each time its balance
grows from zero, so an entry is repeated exactly when an address that gave all its tokens away
receives some again.
-/

namespace NbsBond
namespace BondIssuer

open Soroban

variable {h : List (Call State Op (Option BondId))} {s s' : State} {b : BondId} {a : Address}

/-- The balance an operation adds tokens to. -/
def Op.credited : Op → Option (BondId × Address)
  | .subscribe investor bondId _ _ => some (bondId, investor)
  | .transfer _ recipient bondId _ _ => some (bondId, recipient)
  | _ => none

/-- After some call of the history, `a` held tokens of `b`. -/
def EverHeld (h : List (Call State Op (Option BondId))) (b : BondId) (a : Address) : Prop :=
  ∃ c ∈ h, 0 < c.post.holderBalance (b, a)

@[simp] theorem everHeld_nil : ¬ EverHeld [] b a := by
  simp [EverHeld]

@[simp] theorem everHeld_cons {c : Call State Op (Option BondId)} :
    EverHeld (c :: h) b a ↔ 0 < c.post.holderBalance (b, a) ∨ EverHeld h b a := by
  simp [EverHeld]

/-- No call of the history credited `b` to an address that had held it before and held nothing of it
any more. Such a credit is the only way for an address to get onto the list twice. -/
def NoReturn (h : List (Call State Op (Option BondId))) (b : BondId) : Prop :=
  ∀ h₁ c h₂, h = h₁ ++ c :: h₂ → ∀ a, c.op.credited = some (b, a) →
    c.pre.holderBalance (b, a) = 0 → ¬ EverHeld h₂ b a

theorem noReturn_nil : NoReturn [] b := by
  intro h₁ c h₂ hsplit
  simp at hsplit

theorem noReturn_cons {c : Call State Op (Option BondId)} :
    NoReturn (c :: h) b ↔
      (∀ a, c.op.credited = some (b, a) → c.pre.holderBalance (b, a) = 0 → ¬ EverHeld h b a) ∧
        NoReturn h b := by
  constructor
  -- a split of a longer history is at its newest call, or further back
  · intro hreturn
    refine ⟨hreturn [] c h rfl, ?_⟩
    intro h₁ d h₂ hsplit
    exact hreturn (c :: h₁) d h₂ (by rw [hsplit, List.cons_append])
  · rintro ⟨hhead, htail⟩ h₁ d h₂ hsplit
    cases h₁ with
    | nil =>
      rw [List.nil_append, List.cons.injEq] at hsplit
      obtain ⟨rfl, rfl⟩ := hsplit
      exact hhead
    | cons d' h₁ =>
      rw [List.cons_append, List.cons.injEq] at hsplit
      exact htail h₁ d h₂ hsplit.2

/-! ### One call -/

/-- A credit raises the balance it goes to. -/
theorem LedgerStep.credited_lt {op : Op} (h : LedgerStep s s' op)
    (hcredited : op.credited = some (b, a)) :
    s.holderBalance (b, a) < s'.holderBalance (b, a) := by
  -- only a subscription and a transfer credit anybody
  cases h with
  | issue => cases hcredited
  | redeem => cases hcredited
  | mature => cases hcredited
  | subscribe hpos _ _ _ _ _ _ hbalance =>
    cases hcredited
    rw [hbalance, Function.update_self]
    omega
  | transfer _ hpos _ _ _ _ _ hbalance =>
    cases hcredited
    rw [hbalance, Function.update_self]
    omega

theorem appendIfNew_holderList (s : State) (bondId : BondId) (balance : ℤ) (holder : Address) :
    (appendIfNew s bondId balance holder).holderList =
      if balance = 0 then Function.update s.holderList bondId (s.holderList bondId ++ [holder])
      else s.holderList := by
  unfold appendIfNew
  split <;> rfl

/-- **What a call does to the lists.** An issuance starts one, a credit to an empty balance appends
to one. -/
theorem exec_holderList {now : ℕ} {op : Op} {r : Option BondId}
    (hexec : exec now s op = .ok (s', r)) :
    (op.credited = none ∧ s'.bondCount = s.bondCount + 1 ∧
      s'.holderList = Function.update s.holderList (s.bondCount + 1) []) ∨
    (op.credited = none ∧ s'.bondCount = s.bondCount ∧ s'.holderList = s.holderList) ∨
    (∃ b a, op.credited = some (b, a) ∧ s.bondState b ≠ none ∧ s'.bondCount = s.bondCount ∧
      s'.holderList = if s.holderBalance (b, a) = 0 then
        Function.update s.holderList b (s.holderList b ++ [a]) else s.holderList) := by
  cases op with
  | issueBond caller config nonce =>
    simp only [exec, issueBond, bind_eq_ok, pure_eq_ok, Prod.mk.injEq] at hexec
    obtain ⟨_, ⟨_, -, _, -, _, -, _, -, _, -, _, -, _, -, rfl⟩, rfl, -⟩ := hexec
    exact .inl ⟨rfl, rfl, rfl⟩
  | subscribe investor b amount nonce =>
    simp only [exec, subscribe, bind_eq_ok, orError_eq_ok, pure_eq_ok, Prod.mk.injEq] at hexec
    obtain ⟨_, ⟨_, -, _, -, _, -, state, hst, _, -, _, -, _, -, _, -, _, -, rfl⟩, rfl, -⟩ := hexec
    -- the investor is pushed if its balance was zero
    refine .inr (.inr ⟨b, investor, rfl, by simp [hst], by simp, ?_⟩)
    exact appendIfNew_holderList ..
  | transfer sender recipient b amount nonce =>
    simp only [exec, transfer, bind_eq_ok, ensure_eq_ok, orError_eq_ok, pure_eq_ok,
      Prod.mk.injEq] at hexec
    obtain ⟨_, ⟨_, -, _, hne, _, -, _, -, state, hst, _, -, _, -, _, -, _, -, _, -, rfl⟩, rfl,
      -⟩ := hexec
    refine .inr (.inr ⟨b, recipient, rfl, by simp [hst], by simp, ?_⟩)
    -- what the recipient has is not touched by the debit of the sender
    rw [appendIfNew_holderList, Function.update_of_ne (by simp [hne])]
  | redeem holder b amount nonce =>
    simp only [exec, redeem, bind_eq_ok, pure_eq_ok, Prod.mk.injEq] at hexec
    obtain ⟨_, ⟨_, -, _, -, _, -, _, -, _, -, _, -, _, -, _, -, rfl⟩, rfl, -⟩ := hexec
    exact .inr (.inl ⟨rfl, rfl, rfl⟩)
  | matureBond caller b nonce =>
    simp only [exec, matureBond, bind_eq_ok, pure_eq_ok, Prod.mk.injEq] at hexec
    obtain ⟨_, ⟨_, -, _, -, _, -, _, -, _, -, _, -, rfl⟩, rfl, -⟩ := hexec
    exact .inr (.inl ⟨rfl, rfl, rfl⟩)

/-- The lists and the ledger of a reachable state. The last part is for a new bond: its list is
empty before it is issued. -/
structure Registered (s : State) : Prop where
  ledger : LedgerInv s
  listed : Listed s
  /-- Ids not in use have no listed holder. -/
  unlisted : ∀ b, s.bondCount < b → s.holderList b = []

theorem Registered.initial (admin : Address) : Registered (construct admin) where
  ledger := .initial admin
  listed := .initial admin
  unlisted _ _ := rfl

theorem Registered.step {now : ℕ} {op : Op} {r : Option BondId} (hR : Registered s)
    (hexec : exec now s op = .ok (s', r)) : Registered s' where
  ledger := hR.ledger.step (exec_ledger hexec)
  listed := hR.listed.step hR.ledger hexec
  unlisted b hb := by
    rcases exec_holderList hexec with ⟨-, hcount, hlist⟩ | ⟨-, hcount, hlist⟩ |
      ⟨b₀, a, -, hissued, hcount, hlist⟩
    · have hne : b ≠ s.bondCount + 1 := by omega
      rw [hlist, Function.update_of_ne hne]
      exact hR.unlisted b (by omega)
    · rw [hlist]
      exact hR.unlisted b (by omega)
    · -- a bond with a state was issued
      rw [hcount] at hb
      have hne : b ≠ b₀ := by
        rintro rfl
        exact hissued (hR.ledger.fresh b hb)
      have hnil := hR.unlisted b hb
      rw [hlist]
      split
      · rw [Function.update_of_ne hne, hnil]
      · exact hnil

theorem Registered.of_run (hrun : Run machine Init h s) : Registered s := by
  refine hrun.invariant ?_ ?_
  · rintro s ⟨admin, rfl⟩
    exact .initial admin
  · intro t s op r s' hR hexec
    exact hR.step hexec

/-- The effect of a committed call on the holder list of `b`. Of one bond there are only these two
cases, whoever calls what. -/
inductive RegisterStep (b : BondId) (s s' : State) (op : Op) : Prop
  /-- Nobody's balance of `b` grew from zero. -/
  | keep (hlist : s'.holderList b = s.holderList b)
      (hcredited : ∀ a, op.credited = some (b, a) → s.holderBalance (b, a) ≠ 0)
  /-- The balance of `a` did, and `a` is listed. -/
  | enter {a : Address} (hcredited : op.credited = some (b, a))
      (hzero : s.holderBalance (b, a) = 0) (hlist : s'.holderList b = s.holderList b ++ [a])

theorem Registered.exec {now : ℕ} {op : Op} {r : Option BondId} (hR : Registered s)
    (hexec : exec now s op = .ok (s', r)) (b : BondId) : RegisterStep b s s' op := by
  rcases exec_holderList hexec with ⟨hnone, -, hlist⟩ | ⟨hnone, -, hlist⟩ |
    ⟨b₀, a, hcredited, -, -, hlist⟩
  · -- the list of the new bond was empty before
    refine .keep ?_ (by simp [hnone])
    by_cases hb : b = s.bondCount + 1
    · rw [hlist, hb, Function.update_self, hR.unlisted _ (Nat.lt_succ_self _)]
    · rw [hlist, Function.update_of_ne hb]
  · exact .keep (congrFun hlist b) (by simp [hnone])
  by_cases hb : b = b₀
  -- a credit of another bond leaves this list
  swap
  · refine .keep ?_ ?_
    · rw [hlist]
      split
      · exact Function.update_of_ne hb ..
      · rfl
    · intro a' ha'
      rw [hcredited] at ha'
      cases ha'
      exact absurd rfl hb
  subst hb
  split at hlist
  · next hzero => exact .enter hcredited hzero (by rw [hlist, Function.update_self])
  · next hzero =>
    refine .keep (congrFun hlist b) ?_
    intro a' ha'
    rw [hcredited] at ha'
    cases ha'
    exact hzero

/-- After a call the list holds what it held before and whoever has tokens now. -/
theorem Registered.mem_holderList {now : ℕ} {op : Op} {r : Option BondId} (hR : Registered s)
    (hexec : BondIssuer.exec now s op = .ok (s', r)) :
    a ∈ s'.holderList b ↔ 0 < s'.holderBalance (b, a) ∨ a ∈ s.holderList b := by
  have hledger := exec_ledger hexec
  constructor
  · intro ha
    cases hR.exec hexec b with
    | keep hlist _ => exact .inr (hlist ▸ ha)
    | enter hcredited hzero hlist =>
      rw [hlist, List.mem_append, List.mem_singleton] at ha
      rcases ha with ha | rfl
      · exact .inr ha
      · -- its balance was zero and grew
        have hlt := hledger.credited_lt hcredited
        exact .inl (by omega)
  · rintro (hpos | ha)
    -- whoever has tokens is listed, by the invariant
    · exact (hR.step hexec).listed.holders b a hpos.ne'
    · cases hR.exec hexec b with
      | keep hlist _ => exact hlist ▸ ha
      | enter _ _ hlist => exact hlist ▸ List.mem_append_left _ ha

/-! ### Whole runs -/

/-- **The register.** The list holds exactly the addresses that have held the bond. It does not say
how often: see `nodup_holderList`. -/
theorem mem_holderList (hrun : Run machine Init h s) (b : BondId) (a : Address) :
    a ∈ s.holderList b ↔ EverHeld h b a := by
  induction hrun with
  | start hs =>
    obtain ⟨admin, rfl⟩ := hs
    simp [construct]
  | call hrun ht hexec ih =>
    rw [everHeld_cons, ← ih]
    exact (Registered.of_run hrun).mem_holderList hexec

/-- Pages of `c` entries, read one after another, are the start of the list. -/
theorem pages_eq_take (s : State) (b : BondId) (c n : ℕ) :
    ((List.range n).flatMap fun k => getHolderListRange s b (k * c) c) =
      (s.holderList b).take (n * c) := by
  simp only [getHolderListRange_eq]
  exact Paging.flatMap_take_drop (s.holderList b) c n

/-- **The holder list misses nobody.** Whoever holds tokens is listed, whoever is listed has held
some, the stored count is the length of the list, and pages read until the count is reached make up
the list. An address stays on the list when it has given its tokens away, so that the list may name
more than the present holders. -/
theorem holderList_complete (hrun : Run machine Init h s) (b : BondId) :
    (∀ a, 0 < s.holderBalance (b, a) → a ∈ s.holderList b) ∧
    (∀ a ∈ s.holderList b, EverHeld h b a) ∧
    getHolderCount s b = (s.holderList b).length ∧
    ∀ c n, 1 ≤ c → getHolderCount s b ≤ n * c →
      ((List.range n).flatMap fun k => getHolderListRange s b (k * c) c) = s.holderList b := by
  have hlisted := (Registered.of_run hrun).listed
  have hcount := hlisted.getHolderCount b
  refine ⟨?_, ?_, hcount, ?_⟩
  · intro a ha
    exact hlisted.holders b a ha.ne'
  · intro a ha
    exact (mem_holderList hrun b a).mp ha
  · intro c n _ hn
    -- pages that reach the count take the whole list
    rw [hcount] at hn
    rw [pages_eq_take, List.take_of_length_le hn]

/-- Two investors, the first of whom gives everything to the second: both stay listed. -/
theorem holderList_complete_transfer :
    ∃ h s, Run machine Init h s ∧ s.holderBalance (1, ⟨1⟩) = 0 ∧ EverHeld h 1 ⟨1⟩ ∧
      (getHolderListRange s 1 0 1 ++ getHolderListRange s 1 1 1) = [⟨1⟩, ⟨2⟩] := by
  let config : BondConfig := ⟨7, 1000, [50], .carbon, 100, 1000⟩
  let ops : List (ℕ × Op) :=
    [(0, .issueBond ⟨0⟩ config 0), (1, .subscribe ⟨1⟩ 1 60 0), (2, .transfer ⟨1⟩ ⟨2⟩ 1 60 1)]
  have hplay : (machine.play [] (construct ⟨0⟩) ops).map (fun p =>
      (p.2.holderBalance (1, ⟨1⟩), p.2.holderList 1, getHolderCount p.2 1)) =
      some (0, [⟨1⟩, ⟨2⟩], 2) := by decide
  have hinit : Init (construct ⟨0⟩) := ⟨⟨0⟩, rfl⟩
  obtain ⟨h, s, hrun, hview⟩ := Run.of_play hinit hplay
  simp only [Prod.mk.injEq] at hview
  obtain ⟨hzero, hlist, hcount⟩ := hview
  obtain ⟨-, hheld, -, hpages⟩ := holderList_complete hrun 1
  refine ⟨h, s, hrun, hzero, hheld ⟨1⟩ (by simp [hlist]), ?_⟩
  have hpages := hpages 1 2 le_rfl hcount.le
  rw [hlist] at hpages
  simpa [List.range_succ] using hpages

/-- The list is free of duplicates exactly when nobody returned. -/
theorem nodup_holderList (hrun : Run machine Init h s) (b : BondId) :
    (s.holderList b).Nodup ↔ NoReturn h b := by
  induction hrun with
  | start hs =>
    obtain ⟨admin, rfl⟩ := hs
    simp [construct, noReturn_nil]
  | call hrun ht hexec ih =>
    rw [noReturn_cons, ← ih]
    -- the list grows by one entry, and the question is whether that was there before
    cases (Registered.of_run hrun).exec hexec b with
    | keep hlist hcredited =>
      rw [hlist]
      refine ⟨fun hnodup => ⟨?_, hnodup⟩, And.right⟩
      intro a ha hzero
      exact absurd hzero (hcredited a ha)
    | @enter a hcredited hzero hlist =>
      rw [hlist, List.nodup_append_comm, List.singleton_append, List.nodup_cons,
        mem_holderList hrun]
      -- the call credits `a` only
      refine and_congr_left' ⟨?_, fun hfirst => hfirst a hcredited hzero⟩
      intro hnever a' ha' _
      dsimp only at ha'
      rw [hcredited] at ha'
      cases ha'
      exact hnever

/-- **Distinct holders.** The holder list names no address twice, so that its length counts the
addresses that have held the bond, exactly when no address that had given all its tokens away
received some again. The contract pushes an address whenever its balance was zero, and does not look
whether the list has it. -/
theorem holderList_distinct_iff (hrun : Run machine Init h s) (b : BondId) :
    ((s.holderList b).Nodup ∧ getHolderCount s b = Set.ncard {a | EverHeld h b a}) ↔
      NoReturn h b := by
  rw [← nodup_holderList hrun]
  refine ⟨And.left, fun hnodup => ⟨hnodup, ?_⟩⟩
  have hset : {a | EverHeld h b a} = ((s.holderList b).toFinset : Set Address) := by
    ext a
    rw [Set.mem_ofPred_eq, List.coe_toFinset, Set.mem_ofPred_eq, mem_holderList hrun]
  rw [hset, Set.ncard_coe_finset, List.toFinset_card_of_nodup hnodup]
  exact (Registered.of_run hrun).listed.getHolderCount b

/-- Subscriptions alone: the two investors are two holders. -/
theorem holderList_distinct_two :
    ∃ h s, Run machine Init h s ∧ NoReturn h 1 ∧ Set.ncard {a | EverHeld h 1 a} = 2 := by
  let config : BondConfig := ⟨7, 1000, [50], .carbon, 100, 1000⟩
  let ops : List (ℕ × Op) :=
    [(0, .issueBond ⟨0⟩ config 0), (1, .subscribe ⟨1⟩ 1 60 0), (2, .subscribe ⟨2⟩ 1 5 0)]
  have hplay : (machine.play [] (construct ⟨0⟩) ops).map (fun p =>
      (p.2.holderList 1, getHolderCount p.2 1)) = some ([⟨1⟩, ⟨2⟩], 2) := by decide
  have hinit : Init (construct ⟨0⟩) := ⟨⟨0⟩, rfl⟩
  obtain ⟨h, s, hrun, hview⟩ := Run.of_play hinit hplay
  simp only [Prod.mk.injEq] at hview
  obtain ⟨hlist, hcount⟩ := hview
  have hreturn : NoReturn h 1 := by
    rw [← nodup_holderList hrun, hlist]
    decide
  have hdistinct := (holderList_distinct_iff hrun 1).mpr hreturn
  exact ⟨h, s, hrun, hreturn, hdistinct.2.symm.trans hcount⟩

/-- An investor gives everything away and gets it back: it is listed twice, and the count is three
although two addresses have held the bond. -/
theorem holderList_repeats :
    ∃ h s, Run machine Init h s ∧ s.holderList 1 = [⟨1⟩, ⟨2⟩, ⟨1⟩] ∧
      ¬ (s.holderList 1).Nodup ∧ getHolderCount s 1 ≠ Set.ncard {a | EverHeld h 1 a} := by
  let config : BondConfig := ⟨7, 1000, [50], .carbon, 100, 1000⟩
  let ops : List (ℕ × Op) :=
    [(0, .issueBond ⟨0⟩ config 0), (1, .subscribe ⟨1⟩ 1 60 0), (2, .transfer ⟨1⟩ ⟨2⟩ 1 60 1),
      (3, .transfer ⟨2⟩ ⟨1⟩ 1 60 0)]
  have hplay : (machine.play [] (construct ⟨0⟩) ops).map (fun p =>
      (p.2.holderList 1, getHolderCount p.2 1)) = some ([⟨1⟩, ⟨2⟩, ⟨1⟩], 3) := by decide
  have hinit : Init (construct ⟨0⟩) := ⟨⟨0⟩, rfl⟩
  obtain ⟨h, s, hrun, hview⟩ := Run.of_play hinit hplay
  simp only [Prod.mk.injEq] at hview
  obtain ⟨hlist, hcount⟩ := hview
  refine ⟨h, s, hrun, hlist, by rw [hlist]; decide, ?_⟩
  have hset : {a | EverHeld h 1 a} = (({⟨1⟩, ⟨2⟩} : Finset Address) : Set Address) := by
    ext a
    rw [Set.mem_ofPred_eq, ← mem_holderList hrun, hlist]
    simp [or_comm]
  rw [hcount, hset, Set.ncard_coe_finset]
  decide

end BondIssuer
end NbsBond
