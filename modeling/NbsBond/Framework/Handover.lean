import NbsBond.Framework.Run

/-!
# Handing over a role in two steps

The holder of a role names a candidate, and the candidate takes the role over once a deadline has
passed; until then the holder may call it off or name somebody else. A system may hold such a role
anywhere in its state and change it in any of its calls: `Seat` is the part of the state that
matters, `Act` what a call does to it, and `Transfer` the rules.

`Run.warranted` is what the rules are for. In a run of a system that follows them, whoever takes the
role over was named by the holder of the time, in the last call that concerned the role at all, and
the deadline set there has passed.
-/

namespace Soroban

/-- A role: who holds it, and who may take it over from when on. There is one candidate at a time,
and a new proposal replaces the old one. -/
structure Seat (α : Type) where
  holder : Option α
  pending : Option (α × ℕ)

/-- What a call does to a role. -/
inductive Act (α : Type) where
  | propose (proposer candidate : α)
  | cancel
  | accept (candidate : α)
  | other

/-- The rules. `deadline t` is the deadline of a proposal made at time `t`. Who may cancel is left
to the contract; what matters here is that a candidate is not accepted before its deadline. -/
inductive Transfer {α : Type} (deadline : ℕ → ℕ) (now : ℕ) (s : Seat α) : Act α → Seat α → Prop
  | propose {proposer candidate : α} (hholder : s.holder = some proposer) :
      Transfer deadline now s (.propose proposer candidate)
        ⟨s.holder, some (candidate, deadline now)⟩
  | cancel : Transfer deadline now s .cancel ⟨s.holder, none⟩
  | accept {candidate : α} {due : ℕ} (hpending : s.pending = some (candidate, due))
      (hdue : due ≤ now) : Transfer deadline now s (.accept candidate) ⟨some candidate, none⟩
  | other : Transfer deadline now s .other s

namespace Transfer

variable {α : Type} {deadline : ℕ → ℕ} {now : ℕ} {s s' : Seat α} {act : Act α}

/-- The holder changes only when a candidate accepts. -/
theorem holder_eq (h : Transfer deadline now s act s') (hact : ∀ a, act ≠ .accept a) :
    s'.holder = s.holder := by
  cases h with
  | propose => rfl
  | cancel => rfl
  | accept => exact absurd rfl (hact _)
  | other => rfl

theorem accept_holder {a : α} (h : Transfer deadline now s (.accept a) s') :
    s'.holder = some a := by
  cases h
  rfl

end Transfer

/-! ### Along a run -/

namespace Run

variable {σ ω ρ ε α : Type} {M : Machine σ ω ρ ε} {Init : σ → Prop} {deadline : ℕ → ℕ}
  {seat : σ → Seat α} {act : ω → Act α} {h : List (Call σ ω ρ)} {s : σ}

/-- Among the calls `h`, the last one that concerned the role is `d`, a proposal of `candidate` by
the holder of the time. -/
structure Proposed (seat : σ → Seat α) (act : ω → Act α) (candidate : α) (d : Call σ ω ρ)
    (h : List (Call σ ω ρ)) : Prop where
  last : ∃ newer older, h = newer ++ d :: older ∧ ∀ e ∈ newer, act e.op = .other
  proposal : ∃ proposer, act d.op = .propose proposer candidate ∧
    (seat d.pre).holder = some proposer

/-- A call that does not concern the role leaves the last proposal the last one. -/
theorem Proposed.cons {candidate : α} {c d : Call σ ω ρ} (hP : Proposed seat act candidate d h)
    (hc : act c.op = .other) : Proposed seat act candidate d (c :: h) := by
  obtain ⟨newer, older, rfl, hnewer⟩ := hP.last
  exact ⟨⟨c :: newer, older, rfl, List.forall_mem_cons.mpr ⟨hc, hnewer⟩⟩, hP.proposal⟩

/-- An acceptance on record is older than the last proposal. -/
theorem Proposed.mem_newer {candidate a : α} {c d : Call σ ω ρ} {newer older : List (Call σ ω ρ)}
    (hP : Proposed seat act candidate d (newer ++ c :: older)) (hc : act c.op = .accept a) :
    d ∈ newer := by
  obtain ⟨⟨since, before, hlast, hsince⟩, proposer, hd, -⟩ := hP
  rcases List.append_eq_append_iff.mp hlast with ⟨l, rfl, hl⟩ | ⟨l, rfl, hl⟩
  · -- `c` would be the proposal or a call since, and neither is an acceptance
    cases l with
    | nil =>
      rw [List.nil_append, List.cons.injEq] at hl
      rw [hl.1, hd] at hc
      cases hc
    | cons e l =>
      rw [List.cons_append, List.cons.injEq] at hl
      have hother := hsince e (List.mem_append_right _ List.mem_cons_self)
      rw [← hl.1, hc] at hother
      cases hother
  · cases l with
    | nil =>
      rw [List.nil_append, List.cons.injEq] at hl
      rw [← hl.1, hd] at hc
      cases hc
    | cons e l =>
      rw [List.cons_append, List.cons.injEq] at hl
      rw [← hl.1]
      exact List.mem_append_right _ List.mem_cons_self

/-- **A candidate was proposed.** Whoever may take the role over was named by the holder of the
time, and the role has not been touched since. -/
theorem proposed (hrun : Run M Init h s) (hinit : ∀ s, Init s → (seat s).pending = none)
    (hstep : ∀ t s o r s', M.exec t s o = .ok (s', r) →
      Transfer deadline t (seat s) (act o) (seat s'))
    {candidate : α} {due : ℕ} (hpending : (seat s).pending = some (candidate, due)) :
    ∃ d, Proposed seat act candidate d h ∧ due = deadline d.time := by
  refine hrun.induction (P := fun h s => ∀ candidate due,
    (seat s).pending = some (candidate, due) →
      ∃ d, Proposed seat act candidate d h ∧ due = deadline d.time) ?_ ?_ _ _ hpending
  · intro s hs candidate due hpending
    -- nobody has been proposed yet
    rw [hinit s hs] at hpending
    cases hpending
  · intro h s t o r s' _ _ hexec ih candidate due hpending
    have htransfer := hstep t s o r s' hexec
    generalize hact : act o = a at htransfer
    generalize hs' : seat s' = seat' at htransfer hpending
    cases htransfer with
    | @propose proposer _ hholder =>
      -- the call itself is the last proposal
      cases hpending
      exact ⟨⟨t, s, o, r, s'⟩, ⟨⟨[], h, rfl, nofun⟩, proposer, hact, hholder⟩, rfl⟩
    | cancel => cases hpending
    | accept => cases hpending
    | other =>
      -- the role is as it was, and so is the proposal for it
      obtain ⟨d, hP, hdue⟩ := ih candidate due hpending
      exact ⟨d, hP.cons hact, hdue⟩

/-- **Handover rule.** Whoever takes the role over was proposed by the holder of the time, and the
deadline of that proposal has passed. -/
theorem warranted {h₁ h₂ : List (Call σ ω ρ)} {c : Call σ ω ρ} {candidate : α}
    (hrun : Run M Init (h₁ ++ c :: h₂) s) (hinit : ∀ s, Init s → (seat s).pending = none)
    (hstep : ∀ t s o r s', M.exec t s o = .ok (s', r) →
      Transfer deadline t (seat s) (act o) (seat s'))
    (hc : act c.op = .accept candidate) :
    ∃ d, Proposed seat act candidate d h₂ ∧ deadline d.time ≤ c.time := by
  obtain ⟨hpast, -, hexec⟩ := hrun.past
  have htransfer := hstep _ _ _ _ _ hexec
  rw [hc] at htransfer
  generalize seat c.post = seat' at htransfer
  cases htransfer with
  | accept hpending hdue =>
    obtain ⟨d, hP, rfl⟩ := hpast.proposed hinit hstep hpending
    exact ⟨d, hP, hdue⟩

end Run

end Soroban
