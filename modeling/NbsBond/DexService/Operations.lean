import NbsBond.ContractService.Sending

/-!
# Marketplace operations and the nonce mirror

`api/src/marketplace/dex.service.ts`. Five operations send a call to the DEX router. Each takes a
nonce of the user's from the mirror and has the transaction signed with the key of the admin; only
`buyBondTokens` looks after the mirror itself when the call fails. (A purchase that the escrow check
turns away fails before it takes a nonce.)

`restored_iff` says when a failed call leaves the mirror as it ought to: the mirror of the user in
step with the chain again, and every other one untouched.
-/

namespace NbsBond
namespace DexService

open ContractService

/-- The address of the DEX router, and that of the admin key. -/
structure Config where
  dexRouter : Address
  admin : Address

/-- The part that the operations share: a nonce of the user's, and the call. -/
def invoke (cfg : Config) (w : Nonces) (user : Address) (fate : Fate) :
    Nonces × Except Stage Unit :=
  sendTransaction (w.next (cfg.dexRouter, user)) cfg.dexRouter cfg.admin user fate

/-- `listBondTokens`. -/
def listBondTokens (cfg : Config) (w : Nonces) (sellerAddress : Address) (fate : Fate) :
    Nonces × Except Stage Unit :=
  invoke cfg w sellerAddress fate

/-- `buyBondTokens`: the mirror is read from the chain when the call fails; `readable` says whether
that works. -/
def buyBondTokens (cfg : Config) (w : Nonces) (buyerAddress : Address) (fate : Fate)
    (readable : Bool) : Nonces × Except Stage Unit :=
  match invoke cfg w buyerAddress fate with
  | (w, .ok ()) => (w, .ok ())
  | (w, .error stage) => (w.sync (cfg.dexRouter, buyerAddress) readable, .error stage)

/-- `cancelOrder`. -/
def cancelOrder (cfg : Config) (w : Nonces) (callerAddress : Address) (fate : Fate) :
    Nonces × Except Stage Unit :=
  invoke cfg w callerAddress fate

/-- `depositQuote`. -/
def depositQuote (cfg : Config) (w : Nonces) (callerAddress : Address) (fate : Fate) :
    Nonces × Except Stage Unit :=
  invoke cfg w callerAddress fate

/-- `withdrawQuote`. -/
def withdrawQuote (cfg : Config) (w : Nonces) (callerAddress : Address) (fate : Fate) :
    Nonces × Except Stage Unit :=
  invoke cfg w callerAddress fate

inductive Operation where
  | listBondTokens
  | buyBondTokens
  | cancelOrder
  | depositQuote
  | withdrawQuote
  deriving DecidableEq, Repr

/-- An operation for `user`. -/
def Operation.run (op : Operation) (cfg : Config) (w : Nonces) (user : Address) (fate : Fate)
    (readable : Bool) : Nonces × Except Stage Unit :=
  match op with
  | .listBondTokens => DexService.listBondTokens cfg w user fate
  | .buyBondTokens => DexService.buyBondTokens cfg w user fate readable
  | .cancelOrder => DexService.cancelOrder cfg w user fate
  | .depositQuote => DexService.depositQuote cfg w user fate
  | .withdrawQuote => DexService.withdrawQuote cfg w user fate

/-! ### Failed calls -/

/-- From `w` to `w'` the mirror of `p` is in step with the chain again and no other has changed.
Being in step means that the next nonce handed out is the one that the contract expects. -/
structure Restored (w w' : Nonces) (p : Pair) : Prop where
  inStep : w'.InStep p
  others : w.SameElsewhere w' p

theorem invoke_fails (cfg : Config) (w : Nonces) (user : Address) (stage : Stage) :
    invoke cfg w user (.fails stage) =
      (if stage.Polled then (w.next (cfg.dexRouter, user)).rollback (cfg.dexRouter, cfg.admin)
        else w.next (cfg.dexRouter, user), .error stage) :=
  sendTransaction_fails ..

section

variable {cfg : Config} {w : Nonces} {user : Address} {stage : Stage}

/-- The nonce of a call that failed is given back if it is the admin's own and the confirmation
failed. -/
theorem invoke_restored_iff (hmirror : ∀ p, w.InStep p) :
    Restored w (invoke cfg w user (.fails stage)).1 (cfg.dexRouter, user) ↔
      stage.Polled ∧ user = cfg.admin := by
  rw [invoke_fails]
  by_cases hpolled : stage.Polled
  · rw [if_pos hpolled]
    by_cases huser : user = cfg.admin
    · rw [huser, (hmirror _).next_rollback]
      exact iff_of_true ⟨hmirror _, fun _ _ => rfl⟩ ⟨hpolled, rfl⟩
    · -- the admin's mirror is behind now
      refine iff_of_false (fun h => ?_) fun h => huser h.2
      have hne : (cfg.dexRouter, cfg.admin) ≠ (cfg.dexRouter, user) :=
        fun heq => huser (congrArg Prod.snd heq).symm
      exact (hmirror _).rollback_ne hne (h.others _ hne)
  · rw [if_neg hpolled]
    -- and here the user's is ahead
    refine iff_of_false (fun h => ?_) fun h => hpolled h.1
    have hin := h.inStep
    unfold Nonces.InStep at hin
    rw [(hmirror _).next, Function.update_self] at hin
    exact absurd (Option.some.inj hin) (by
      change (w.onChainNonce (cfg.dexRouter, user) : ℤ) + 1 ≠ w.onChainNonce (cfg.dexRouter, user)
      omega)

/-- With the user's mirror read from the chain it is the admin's that may be left behind. -/
theorem sync_restored_iff (hmirror : ∀ p, w.InStep p) :
    Restored w ((invoke cfg w user (.fails stage)).1.sync (cfg.dexRouter, user) true)
      (cfg.dexRouter, user) ↔ ¬ stage.Polled ∨ user = cfg.admin := by
  rw [invoke_fails]
  by_cases hpolled : stage.Polled
  · rw [if_pos hpolled]
    by_cases huser : user = cfg.admin
    · rw [huser, (hmirror _).next_rollback]
      exact iff_of_true ⟨Function.update_self .., fun _ hq => Function.update_of_ne hq ..⟩
        (Or.inr rfl)
    · refine iff_of_false (fun h => ?_) fun h => h.elim (· hpolled) huser
      have hne : (cfg.dexRouter, cfg.admin) ≠ (cfg.dexRouter, user) :=
        fun heq => huser (congrArg Prod.snd heq).symm
      have hothers := h.others _ hne
      rw [Nonces.sync_nonce, Function.update_of_ne hne] at hothers
      exact (hmirror _).rollback_ne hne hothers
  · rw [if_neg hpolled]
    refine iff_of_true ⟨Function.update_self .., fun q hq => ?_⟩ (Or.inl hpolled)
    rw [Nonces.sync_nonce, Function.update_of_ne hq, Nonces.next_nonce, Function.update_of_ne hq]

theorem buyBondTokens_fails (readable : Bool) :
    buyBondTokens cfg w user (.fails stage) readable =
      ((invoke cfg w user (.fails stage)).1.sync (cfg.dexRouter, user) readable, .error stage) := by
  unfold buyBondTokens
  rw [invoke_fails]

/-- **A failed call restores the mirror** if the transaction was sent and not confirmed and the user
is the admin, or if it is a purchase that failed before that and the chain can be read; and in no
other case. The rollback of a failed confirmation is for the key that signs, which is the admin's,
while the nonce was taken from the mirror of the user. -/
theorem restored_iff (op : Operation) (readable : Bool) (hmirror : ∀ p, w.InStep p) :
    (op.run cfg w user (.fails stage) readable).2 = .error stage ∧
      (Restored w (op.run cfg w user (.fails stage) readable).1 (cfg.dexRouter, user) ↔
        stage.Polled ∧ user = cfg.admin ∨
          op = .buyBondTokens ∧ readable = true ∧ ¬ stage.Polled) := by
  have hplain : op ≠ .buyBondTokens →
      (invoke cfg w user (.fails stage)).2 = .error stage ∧
        (Restored w (invoke cfg w user (.fails stage)).1 (cfg.dexRouter, user) ↔
          stage.Polled ∧ user = cfg.admin ∨
            op = .buyBondTokens ∧ readable = true ∧ ¬ stage.Polled) := by
    intro hop
    rw [invoke_restored_iff hmirror, invoke_fails]
    exact ⟨rfl, (or_iff_left fun h => hop h.1).symm⟩
  cases op with
  | buyBondTokens =>
    change (buyBondTokens cfg w user (.fails stage) readable).2 = _ ∧
      (Restored w (buyBondTokens cfg w user (.fails stage) readable).1 _ ↔ _)
    rw [buyBondTokens_fails]
    refine ⟨rfl, ?_⟩
    cases readable with
    | true =>
      rw [sync_restored_iff hmirror]
      tauto
    | false =>
      -- the mirror stays as the call has left it
      change Restored w (invoke cfg w user (.fails stage)).1 _ ↔ _
      rw [invoke_restored_iff hmirror]
      simp
  | listBondTokens => exact hplain (by decide)
  | cancelOrder => exact hplain (by decide)
  | depositQuote => exact hplain (by decide)
  | withdrawQuote => exact hplain (by decide)

end

/-- Mirrors in step with a chain on which nobody has made a call. -/
def untouched : Nonces := ⟨fun _ => some 0, fun _ => 0⟩

/-- The purchase of a user fails in simulation. -/
theorem restored_failed_purchase :
    Restored untouched (Operation.buyBondTokens.run ⟨⟨1⟩, ⟨2⟩⟩ untouched ⟨3⟩ (.fails .simulation)
      true).1 (⟨1⟩, ⟨3⟩) := by
  have hmirror : ∀ p, untouched.InStep p := fun _ => rfl
  refine (restored_iff .buyBondTokens true hmirror).2.mpr (Or.inr ⟨rfl, rfl, ?_⟩)
  decide

/-- The deposit of a user fails on the chain: the user's mirror is ahead, and the admin's behind.
The nonce was the user's, and the rollback went to the key that signed. -/
theorem failed_deposit_not_restored :
    ¬ ∀ (cfg : Config) (w : Nonces) (op : Operation) (user : Address) (stage : Stage),
      (∀ p, w.InStep p) →
        Restored w (op.run cfg w user (.fails stage) true).1 (cfg.dexRouter, user) := by
  intro hclaim
  have h := hclaim ⟨⟨1⟩, ⟨2⟩⟩ untouched .depositQuote ⟨3⟩ .failed fun _ => rfl
  have hin := h.inStep
  unfold Nonces.InStep at hin
  revert hin
  decide

end DexService
end NbsBond
