import NbsBond.Framework.Run

/-!
# Nonces in flight

`api/src/common/services/nonce.service.ts`, at the granularity of whole operations on one pair of
contract and address. `next` hands out the mirrored nonce and increments it, `rollback` decrements
it, `sync` overwrites it with the nonce of the contract. A nonce that `next` handed out is in flight
until its transaction is confirmed, or fails or times out and is rolled back.

The three operations agree on what the mirror means as long as there is one transaction at a time:
it is above everything in flight. `KeepsFresh` says of a state that calls of `next` go well from
there on, `keepsFresh_iff` that this is exactly that the mirror is above the chain and above
everything in flight. `Careful` is the condition on a step under which it stays so, and
`fresh_iff_careful` the result: in a run of careful steps every nonce handed out is fresh, and after
the first careless one further calls of `next` alone bring about one that is not.
-/

namespace NbsBond
namespace NonceService
namespace Mirror

open Soroban

/-- The mirror, the chain, and the nonces in flight. What is in flight is not known to the service:
it is there for the statement. -/
structure State where
  /-- `nonce:<contract>:<address>`, absent when it has expired. -/
  nonce : Option ℤ
  /-- The nonce the contract expects. -/
  onChainNonce : ℕ
  inFlight : List ℤ
  deriving DecidableEq, Repr

/-! ### Operations -/

/-- `next`, when the key is present: `INCR`, and the value before it. The transaction that carries
the nonce is not sent here, so from now on it is in flight. -/
def next (s : State) : Option (State × ℤ) :=
  s.nonce.map fun nonce =>
    ({ s with nonce := some (nonce + 1), inFlight := nonce :: s.inFlight }, nonce)

/-- `rollback`: `DECR`, which takes a missing key for 0. The nonce that failed is not looked at, so
what is decremented is the newest one. -/
def rollback (s : State) : State := { s with nonce := some (s.nonce.getD 0 - 1) }

/-- `sync`. -/
def sync (s : State) : State := { s with nonce := some s.onChainNonce }

/-- `next` when `INCR` fails: the nonce that `sync` returns. Unlike `next` it leaves the mirror
where it is, so that the nonce may come again. -/
def nextFallback (s : State) : State × ℤ :=
  ({ sync s with inFlight := s.onChainNonce :: s.inFlight }, s.onChainNonce)

/-- One step. -/
inductive Op where
  | next
  | nextFallback
  | sync
  /-- The transaction with this nonce is included and succeeds. -/
  | confirm (nonce : ℤ)
  /-- It is reported `FAILED`, or polling times out. -/
  | fail (nonce : ℤ)
  /-- The key expires. -/
  | expire
  deriving DecidableEq, Repr

/-- The effect of a step, with the nonce it hands out; `none` if it cannot take place. A
transaction is only included with the nonce the contract expects. -/
def step (s : State) : Op → Option (State × Option ℤ)
  | .next => (next s).map fun x => (x.1, some x.2)
  | .nextFallback => some ((nextFallback s).1, some (nextFallback s).2)
  | .sync => some (sync s, none)
  | .confirm nonce =>
    if nonce ∈ s.inFlight ∧ nonce = s.onChainNonce then
      some ({ s with onChainNonce := s.onChainNonce + 1, inFlight := s.inFlight.erase nonce }, none)
    else none
  | .fail nonce =>
    if nonce ∈ s.inFlight then
      some (rollback { s with inFlight := s.inFlight.erase nonce }, none)
    else none
  | .expire => some ({ s with nonce := none }, none)

/-- The steps on one pair, in any order. -/
def machine : Machine State Op (Option ℤ) Unit := ⟨fun _ s op => orTrap (step s op)⟩

/-- Nothing is in flight, and the mirror is absent or right. -/
structure Init (s : State) : Prop where
  idle : s.inFlight = []
  nonce : ∀ m, s.nonce = some m → m = s.onChainNonce

/-! ### Fresh nonces -/

/-- A nonce that may be handed out: not in flight, not below the chain, not negative. A nonce below
the chain has been used up, so its transaction cannot be included. -/
structure Fresh (s : State) (v : ℤ) : Prop where
  unused : v ∉ s.inFlight
  current : s.onChainNonce ≤ v
  nonneg : 0 ≤ v

/-- The next `n` calls of `next` hand out fresh nonces. A missing key says nothing: the next call of
`next` will run `sync`, which is a step of its own. -/
def FreshFor : ℕ → State → Prop
  | 0, _ => True
  | n + 1, s => ∀ s' v, next s = some (s', v) → Fresh s v ∧ FreshFor n s'

/-- Calls of `next` hand out fresh nonces from here on. -/
def KeepsFresh (s : State) : Prop := ∀ n, FreshFor n s

/-- The mirror is above the chain and above everything in flight. -/
def Above (s : State) : Prop :=
  ∀ m, s.nonce = some m → s.onChainNonce ≤ m ∧ ∀ w ∈ s.inFlight, w < m

theorem next_eq_some {s s' : State} {v : ℤ} : next s = some (s', v) ↔
    s.nonce = some v ∧
      s' = { s with nonce := some (v + 1), inFlight := v :: s.inFlight } := by
  unfold next
  constructor
  · intro h
    obtain ⟨m, hm, heq⟩ := Option.map_eq_some_iff.mp h
    cases heq
    exact ⟨hm, rfl⟩
  · rintro ⟨hv, rfl⟩
    rw [hv]
    rfl

theorem Above.next {s s' : State} {v : ℤ} (h : Above s) (hnext : next s = some (s', v)) :
    Fresh s v ∧ Above s' := by
  obtain ⟨hv, rfl⟩ := next_eq_some.mp hnext
  -- the mirror itself is handed out, and everything is below its successor
  obtain ⟨hchain, hflight⟩ := h v hv
  refine ⟨⟨fun hmem => lt_irrefl v (hflight v hmem), hchain, by omega⟩, ?_⟩
  intro m hm
  obtain rfl : v + 1 = m := Option.some.inj hm
  refine ⟨by dsimp only; omega, fun w hw => ?_⟩
  rcases List.mem_cons.mp hw with rfl | hw
  · exact Int.lt_succ w
  · exact (hflight w hw).trans (Int.lt_succ v)

/-- A nonce in flight at or above the mirror is handed out again when the mirror reaches it. -/
theorem not_freshFor {s : State} {m w : ℤ} (hm : s.nonce = some m) (hw : w ∈ s.inFlight) (k : ℕ)
    (hk : w = m + k) : ¬ FreshFor (k + 1) s := by
  -- each call brings the mirror one nearer to `w`
  induction k generalizing s m with
  | zero =>
    intro h
    obtain ⟨hfresh, -⟩ := h _ m (next_eq_some.mpr ⟨hm, rfl⟩)
    obtain rfl : w = m := by simpa using hk
    exact hfresh.unused hw
  | succ k ih =>
    intro h
    obtain ⟨-, hrest⟩ := h _ m (next_eq_some.mpr ⟨hm, rfl⟩)
    refine ih (m := m + 1) rfl (List.mem_cons_of_mem m hw) ?_ hrest
    rw [hk]
    push_cast
    ring

/-- **When calls of `next` go well.** To be above everything is enough, as each call raises the
mirror by one and hands out the value before; and it is needed, as the mirror would otherwise run
into a nonce in flight. -/
theorem keepsFresh_iff {s : State} : KeepsFresh s ↔ Above s := by
  constructor
  · intro h m hm
    obtain ⟨hfresh, -⟩ := h 1 _ m (next_eq_some.mpr ⟨hm, rfl⟩)
    refine ⟨hfresh.current, fun w hw => ?_⟩
    -- a nonce in flight at a distance is reached after as many calls
    by_contra hlt
    exact not_freshFor hm hw (w - m).toNat (by omega) (h _)
  · intro h n
    induction n generalizing s with
    | zero => trivial
    | succ n ih =>
      intro s' v hnext
      obtain ⟨hfresh, habove⟩ := h.next hnext
      exact ⟨hfresh, ih habove⟩

/-! ### Careful steps -/

/-- The mirror is overwritten only when everything in flight is below the chain, and decremented
only when it is there, above the chain, and above everything else in flight by more than one. Both
conditions look at the state before the step only. -/
def Careful (s : State) : Op → Prop
  | .sync => ∀ w ∈ s.inFlight, w < s.onChainNonce
  | .fail nonce =>
    ∃ m ∈ s.nonce, s.onChainNonce < m ∧ ∀ w ∈ s.inFlight.erase nonce, w < m - 1
  | .nextFallback => False
  | _ => True

theorem sync_above {s : State} : Above (sync s) ↔ Careful s .sync := by
  constructor
  · intro h
    exact (h s.onChainNonce rfl).2
  · rintro h m hm
    obtain rfl : (s.onChainNonce : ℤ) = m := Option.some.inj hm
    exact ⟨le_rfl, h⟩

/-- A missing key is decremented to -1, which is below every chain. -/
theorem rollback_above {s : State} {nonce : ℤ} :
    Above (rollback { s with inFlight := s.inFlight.erase nonce }) ↔ Careful s (.fail nonce) := by
  constructor
  · intro h
    -- what is in flight without the one that failed must be below the decremented mirror
    obtain ⟨hchain, hflight⟩ := h _ rfl
    dsimp only [rollback] at hchain hflight
    cases hnonce : s.nonce with
    | none =>
      rw [hnonce, Option.getD_none] at hchain
      omega
    | some m =>
      rw [hnonce, Option.getD_some] at hchain hflight
      exact ⟨m, hnonce, by omega, hflight⟩
  · rintro ⟨m, hm, hchain, hflight⟩ m' hm'
    have hnonce : s.nonce = some m := hm
    dsimp only [rollback] at hm'
    rw [hnonce] at hm'
    obtain rfl : m - 1 = m' := Option.some.inj hm'
    exact ⟨by dsimp only [rollback]; omega, hflight⟩

/-- **One step** from a state in which the mirror is above everything: what it hands out is fresh
and the mirror stays above everything if and only if the step is careful. -/
theorem step_iff {s s' : State} {op : Op} {r : Option ℤ} (h : Above s)
    (hstep : step s op = some (s', r)) :
    (∀ v, r = some v → Fresh s v) ∧ Above s' ↔ Careful s op := by
  -- most steps hand out nothing
  have hnothing : ∀ v, (none : Option ℤ) = some v → Fresh s v := by
    intro v hv
    cases hv
  cases op with
  | next =>
    obtain ⟨⟨s₁, v⟩, hnext, heq⟩ := Option.map_eq_some_iff.mp hstep
    cases heq
    obtain ⟨hfresh, habove⟩ := h.next hnext
    refine iff_of_true ⟨?_, habove⟩ trivial
    intro w hw
    cases hw
    exact hfresh
  | nextFallback =>
    cases hstep
    -- the nonce handed out is left in the mirror
    refine iff_of_false ?_ id
    rintro ⟨-, habove⟩
    exact lt_irrefl _ ((habove s.onChainNonce rfl).2 _ List.mem_cons_self)
  | sync =>
    cases hstep
    rw [← sync_above]
    exact and_iff_right hnothing
  | confirm nonce =>
    simp only [step] at hstep
    split at hstep
    · next hincluded =>
      cases hstep
      -- the chain moves by one, and the confirmed nonce was below the mirror
      refine iff_of_true ⟨hnothing, fun m hm => ?_⟩ trivial
      obtain ⟨-, hflight⟩ := h m hm
      have hlt := hflight nonce hincluded.1
      rw [hincluded.2] at hlt
      exact ⟨by push_cast; omega, fun w hw => hflight w (List.mem_of_mem_erase hw)⟩
    · cases hstep
  | fail nonce =>
    simp only [step] at hstep
    split at hstep
    · cases hstep
      rw [← rollback_above]
      exact and_iff_right hnothing
    · cases hstep
  | expire =>
    cases hstep
    -- an absent key is above everything, as there is nothing to hand out
    refine iff_of_true ⟨hnothing, fun m hm => ?_⟩ trivial
    cases hm

/-! ### Runs -/

theorem Init.above {s : State} (h : Init s) : Above s := by
  -- where nothing is in flight the mirror only has to be at the chain
  intro m hm
  refine ⟨(h.nonce m hm).ge, fun w hw => ?_⟩
  rw [h.idle] at hw
  cases hw

/-- A run of careful steps keeps the mirror above everything. -/
theorem above_of_run {h : List (Call State Op (Option ℤ))} {s : State}
    (hrun : Run machine Init h s) (hcareful : ∀ c ∈ h, Careful c.pre c.op) : Above s := by
  refine hrun.guarded (G := Careful) (P := Above) (fun _ => Init.above) ?_ hcareful
  intro t s op r s' hs hop hexec
  exact ((step_iff hs (orTrap_eq_ok.mp hexec)).mpr hop).2

/-- **No nonce in flight is handed out again, in a run of careful steps.** Every nonce such a run
hands out is neither in flight, nor below the chain, nor negative. And the condition on a step
cannot be weakened: after such a run, a step hands out a fresh nonce, if any, and lets all later
calls of `next` do so, if and only if it is careful. -/
theorem fresh_iff_careful {h : List (Call State Op (Option ℤ))} {s : State}
    (hrun : Run machine Init h s) (hcareful : ∀ c ∈ h, Careful c.pre c.op) :
    (∀ c ∈ h, ∀ v, c.ret = some v → Fresh c.pre v) ∧
      ∀ op s' r, step s op = some (s', r) →
        ((∀ v, r = some v → Fresh s v) ∧ KeepsFresh s' ↔ Careful s op) := by
  constructor
  · intro c hc
    -- the state before the call is that of a run of careful steps
    obtain ⟨h₁, h₂, rfl⟩ := List.append_of_mem hc
    obtain ⟨hpast, -, hexec⟩ := hrun.past
    have habove := above_of_run hpast fun d hd =>
      hcareful d (List.mem_append_right h₁ (List.mem_cons_of_mem c hd))
    exact ((step_iff habove (orTrap_eq_ok.mp hexec)).mpr (hcareful c hc)).1
  · intro op s' r hstep
    -- what holds of one step from such a state is the second half
    rw [keepsFresh_iff]
    exact step_iff (above_of_run hrun hcareful) hstep

/-- Two nonces in flight; the newer one fails and is handed out again. -/
theorem fresh_iff_careful_retry : ∃ (h : List (Call State Op (Option ℤ))) (s : State),
    Run machine Init h s ∧ (h.map fun c => c.ret) = [some 1, none, some 1, some 0] ∧
      ∀ c ∈ h, ∀ v, c.ret = some v → Fresh c.pre v := by
  have hinit : Init ⟨some 0, 0, []⟩ := ⟨rfl, by rintro m ⟨⟩; rfl⟩
  have hplay : (machine.play [] ⟨some 0, 0, []⟩
      [(0, .next), (0, .next), (0, .fail 1), (0, .next)]).map
      (fun x => (x.1.map fun c => (c.pre, c.op, c.ret))) =
      some [(⟨some 1, 0, [0]⟩, .next, some 1), (⟨some 2, 0, [1, 0]⟩, .fail 1, none),
        (⟨some 1, 0, [0]⟩, .next, some 1), (⟨some 0, 0, []⟩, .next, some 0)] := by
    decide
  obtain ⟨h, s, hrun, hview⟩ := Run.of_play hinit hplay
  have hcareful : ∀ c ∈ h, Careful c.pre c.op := by
    intro c hc
    have hmem := List.mem_map_of_mem (f := fun c => (c.pre, c.op, c.ret)) hc
    rw [hview] at hmem
    simp only [List.mem_cons, Prod.mk.injEq, List.not_mem_nil, or_false] at hmem
    obtain ⟨hpre, hop, -⟩ | ⟨hpre, hop, -⟩ | ⟨hpre, hop, -⟩ | ⟨hpre, hop, -⟩ := hmem
    · rw [hop]; trivial
    · rw [hpre, hop]
      exact ⟨2, rfl, by decide, by decide⟩
    · rw [hop]; trivial
    · rw [hop]; trivial
  refine ⟨h, s, hrun, ?_, (fresh_iff_careful hrun hcareful).1⟩
  have hrets := congrArg (List.map fun x : State × Op × Option ℤ => x.2.2) hview
  rw [List.map_map] at hrets
  exact hrets

/-- The cron job runs while a nonce is in flight, and that nonce is handed out again. The chain has
not seen it yet, and `sync` writes into the mirror what the chain says. -/
theorem handed_out_in_flight : ¬ ∀ (h : List (Call State Op (Option ℤ))) (s : State),
    Run machine Init h s → ∀ c ∈ h, ∀ v, c.ret = some v → Fresh c.pre v := by
  intro hclaim
  have hinit : Init ⟨some 0, 0, []⟩ := ⟨rfl, by rintro m ⟨⟩; rfl⟩
  have hplay : (machine.play [] ⟨some 0, 0, []⟩ [(0, .next), (0, .sync), (0, .next)]).map
      (fun x => (x.1.head?.map fun c => (c.pre, c.ret))) =
      some (some (⟨some 0, 0, [0]⟩, some 0)) := by
    decide
  obtain ⟨h, s, hrun, hview⟩ := Run.of_play hinit hplay
  obtain ⟨c, hhead, hc⟩ := Option.map_eq_some_iff.mp hview
  obtain ⟨hpre, hret⟩ := Prod.mk.inj hc
  have hfresh := hclaim h s hrun c (List.mem_of_mem_head? hhead) 0 hret
  rw [hpre] at hfresh
  exact hfresh.unused List.mem_cons_self

end Mirror
end NonceService
end NbsBond
