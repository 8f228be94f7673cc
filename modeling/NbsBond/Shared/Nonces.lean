import NbsBond.Framework.Numbered
import NbsBond.Shared.Types

/-!
# Presented nonces

Every contract keeps the next nonce of each address. Almost every entrypoint has the nonce that its
caller presents compared with it, and moves it on; the others leave the nonces alone. `Uses` says
which of the two a call does, given the `ticket` it presents.
-/

namespace NbsBond

open Soroban

/-- What a call that presents this ticket, an address and its nonce, does to the nonces. Each kind
of call is proved to be one of the two, once for each contract. -/
inductive Uses (nonces : Address → ℕ) : Option (Address × ℕ) → (Address → ℕ) → Prop
  | none : Uses nonces none nonces
  | one (a : Address) :
      Uses nonces (some (a, nonces a)) (Function.update nonces a (nonces a + 1))

/-- The nonce of `a` that a ticket presents. Another address presents nothing to `a`. -/
def presented (a : Address) (ticket : Option (Address × ℕ)) : Option ℕ :=
  (ticket.filter fun x => x.1 = a).map Prod.snd

theorem presented_self (a : Address) (n : ℕ) : presented a (some (a, n)) = some n := by
  simp [presented]

theorem presented_of_ne {a b : Address} (h : b ≠ a) (n : ℕ) : presented a (some (b, n)) = none := by
  simp [presented, h]

/-- A use counts for the address that presents the ticket. -/
theorem Uses.counts {nonces nonces' : Address → ℕ} {ticket : Option (Address × ℕ)}
    (h : Uses nonces ticket nonces') (a : Address) :
    Counts (presented a ticket) (nonces a) (nonces' a) := by
  cases h with
  | none => exact .inl ⟨rfl, rfl⟩
  -- Either the ticket is of `a`, and its nonce moves on, or the update is elsewhere.
  | one b =>
    by_cases hb : b = a
    · subst hb
      exact .inr ⟨presented_self b _, Function.update_self _ _ _⟩
    · exact .inl ⟨presented_of_ne hb _, Function.update_of_ne (Ne.symm hb) _ _⟩

end NbsBond
