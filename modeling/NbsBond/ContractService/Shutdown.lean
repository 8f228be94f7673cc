import NbsBond.ContractService.Lifecycle
import NbsBond.Framework.Drain

/-!
# Shutting the service down

`onModuleDestroy` sets a flag and then waits for the set of promises it finds. A request that comes
after the flag is refused (`refused_of_run`), and a promise is in the set exactly while its
confirmation is polled (`Tracked`). So the service is an instance of `Drain`, a door with a book
(`step_view`): what is booked when the door is shut is waited for (`shutdown_waits`).

An invocation passes the flag when it begins, and is booked when its transaction has been sent.
Between the two it is neither refused nor waited for, and `shutdown_waits_gap` has a run in which
such a transaction is sent after the shutdown has returned.
-/

namespace NbsBond
namespace ContractService
namespace Lifecycle

open Soroban Drain

/-- An invocation is let in when it has passed the flag, and booked while its confirmation is
polled. Between the two there is no account of it: it waits for the network, and the service knows
nothing of it. -/
def Stage.phase : Stage → Phase
  | .getAccount _ | .simulateTransaction _ | .prepareTransaction _ | .sendTransaction _ => .admitted
  | .setTimeout _ _ | .getTransaction _ | .rollback _ _ => .booked
  | .settled _ => .ended

/-- Where the `i`-th invocation stands. -/
def World.phase (w : World) (i : ℕ) : Phase :=
  (w.invocations[i]?.map fun inv => inv.stage.phase).getD .unknown

/-- The service as a door with a book. The promises in flight are the book, and each call of
`onModuleDestroy` is a closer of its own. -/
def view (w : World) : State ℕ where
  shut := w.shuttingDown = true
  phase := w.phase
  closers := w.destroys.map fun destroy => closer destroy.waitsFor destroy.returned

theorem phase_booked {stage : Stage} : stage.phase = .booked ↔ stage.isPolling = true := by
  cases stage <;> simp [Stage.phase, Stage.isPolling]

theorem phase_ended {stage : Stage} : stage.phase = .ended ↔ stage.isSettled = true := by
  cases stage <;> simp [Stage.phase, Stage.isSettled]

section Steps

variable {txConfirmTimeoutMs now : ℕ} {w w' : World} {shut : Prop}

theorem loop_phase (poll : Poll) : (poll.loop txConfirmTimeoutMs now).phase = .booked := by
  unfold Poll.loop
  split <;> rfl

/-- **What a reply does to an invocation.** It can only be let in before the flag, and only a
submission books it. -/
theorem resume_next {inv : Invocation} {r : Reply} {stage : Stage}
    (h : inv.resume txConfirmTimeoutMs now r = some stage) :
    Next shut inv.stage.phase stage.phase := by
  obtain ⟨q, old⟩ := inv
  cases r with
  | done =>
    cases old with
    | getAccount publicKey =>
      cases h
      exact .stay _
    | simulateTransaction tx =>
      cases h
      exact .stay _
    | prepareTransaction tx =>
      -- a preparation ends here: it is never sent, so never tracked
      cases q with
      | prepareTransaction =>
        cases h
        exact .leave _
      | sendTransaction | submitSignedTransaction =>
        cases h
        exact .stay _
    | rollback poll error =>
      cases h
      -- the poll says at once whether it waits again or gives up
      exact .leave _
    | sendTransaction | setTimeout | getTransaction | settled => cases h
  | throws e =>
    cases old with
    | getAccount | simulateTransaction | prepareTransaction | sendTransaction | rollback =>
      cases h
      exact .leave _
    -- a failed read of the status is not the end, the loop asks again
    | getTransaction poll =>
      cases h
      rw [loop_phase]
      exact .stay _
    | setTimeout | settled => cases h
  | simulationError description =>
    cases old with
    | simulateTransaction tx =>
      cases h
      exact .leave _
    | _ => cases h
  | sendError =>
    cases old with
    | sendTransaction tx =>
      cases h
      exact .leave _
    | _ => cases h
  | sent hash =>
    -- this is where the promise is added to the set
    cases old with
    | sendTransaction tx =>
      cases h
      rw [loop_phase]
      exact .book
    | _ => cases h
  | timeout =>
    cases old with
    | setTimeout poll wake =>
      obtain ⟨-, heq⟩ := Option.ite_none_right_eq_some.mp h
      cases heq
      exact .stay _
    | _ => cases h
  | status s =>
    cases old with
    | getTransaction poll =>
      -- only a success settles; a failure rolls the nonce back first
      cases s with
      | success =>
        cases h
        exact .leave _
      | failed =>
        cases h
        exact .stay _
      | notFound =>
        cases h
        rw [loop_phase]
        exact .stay _
    | _ => cases h

theorem start_refused (q : Request) : ∃ e, q.start true = .settled (.error e) := by
  cases q with
  | prepareTransaction => exact ⟨_, rfl⟩
  | sendTransaction contractAddress method sourceSecretKey =>
    cases sourceSecretKey with
    | none => exact ⟨_, rfl⟩
    | some key => exact ⟨_, rfl⟩
  | submitSignedTransaction => exact ⟨_, rfl⟩

/-- A request is let in only before the flag is set, and is not polled yet. -/
theorem start_phase (q : Request) (shuttingDown : Bool) :
    (q.start shuttingDown).phase = .ended ∨
      (shuttingDown ≠ true ∧ (q.start shuttingDown).phase = .admitted) := by
  cases shuttingDown with
  | true =>
    obtain ⟨e, he⟩ := start_refused q
    rw [he]
    exact .inl rfl
  | false =>
    -- the key is read before the network is asked
    have hload : ∀ (q : Request) key,
        (q.load key).phase = .ended ∨ (false ≠ true ∧ (q.load key).phase = .admitted) := by
      intro q key
      cases key with
      | ok publicKey => exact .inr ⟨Bool.false_ne_true, rfl⟩
      | error e => exact .inl rfl
    cases q with
    | prepareTransaction => exact hload _ _
    | sendTransaction contractAddress method sourceSecretKey =>
      cases sourceSecretKey with
      | none => exact .inl rfl
      | some key => exact hload _ _
    | submitSignedTransaction signedXdr contractAddress method expectedSourceAddress =>
      simp only [Request.start, Bool.false_eq_true, if_false]
      -- what is signed elsewhere is decoded first, and may be refused for that
      split
      · exact .inr ⟨Bool.false_ne_true, rfl⟩
      · exact .inl rfl

/-! ### The service as a door -/

theorem phase_start (w : World) (q : Request) (i : ℕ) : (w.start q).phase i =
    if i = w.invocations.length then (q.start w.shuttingDown).phase else w.phase i := by
  unfold World.phase World.start
  dsimp only
  rcases lt_trichotomy i w.invocations.length with hlt | rfl | hgt
  · rw [List.getElem?_append_left hlt, if_neg hlt.ne]
  · rw [List.getElem?_concat_length, if_pos rfl]
    rfl
  · rw [List.getElem?_eq_none (by simpa using hgt), List.getElem?_eq_none hgt.le, if_neg hgt.ne']

theorem phase_of_getElem? {i : ℕ} {inv : Invocation} (hi : w.invocations[i]? = some inv) :
    w.phase i = inv.stage.phase := by
  rw [World.phase, hi]
  rfl

theorem getElem?_start {q : Request} {i : ℕ} {inv : Invocation}
    (h : (w.start q).invocations[i]? = some inv) :
    w.invocations[i]? = some inv ∨ inv = ⟨q, q.start w.shuttingDown⟩ := by
  unfold World.start at h
  dsimp only at h
  rcases lt_or_ge i w.invocations.length with hlt | hge
  · rw [List.getElem?_append_left hlt] at h
    exact .inl h
  · rw [List.getElem?_append_right hge, List.getElem?_singleton] at h
    split at h
    · exact .inr (Option.some.inj h).symm
    · cases h

theorem resume_settled {inv : Invocation} {r : Reply} {x : Except HttpError Answer}
    (h : inv.stage = .settled x) : inv.resume txConfirmTimeoutMs now r = none := by
  obtain ⟨q, stage⟩ := inv
  cases h
  cases r <;> rfl

/-- A reply concerns one invocation. -/
theorem resume_eq_some {i : ℕ} {r : Reply} (h : w.resume txConfirmTimeoutMs now i r = some w') :
    ∃ inv stage, w.invocations[i]? = some inv ∧ inv.resume txConfirmTimeoutMs now r = some stage ∧
      w' = { w with
        invocations := w.invocations.set i { inv with stage }
        inFlightTransactions := World.track w.inFlightTransactions i stage } ∧
      -- a reply moves one invocation, and the others keep their phase
      ∀ j, w'.phase j = if j = i then stage.phase else w.phase j := by
  simp only [World.resume, Option.bind_eq_bind, Option.bind_eq_some_iff] at h
  obtain ⟨inv, hi, stage, hstage, h⟩ := h
  cases h
  refine ⟨inv, stage, hi, hstage, rfl, fun j => ?_⟩
  unfold World.phase
  dsimp only
  by_cases hji : j = i
  · subst hji
    rw [List.getElem?_set_self (List.getElem?_eq_some_iff.mp hi).1, if_pos rfl]
    rfl
  · rw [List.getElem?_set_ne (Ne.symm hji), if_neg hji]

/-- The promises that are tracked are those of the confirmations that are pending. -/
def Tracked (w : World) : Prop := ∀ i, i ∈ w.inFlightTransactions ↔ w.phase i = .booked

theorem Tracked.init : Tracked {} := by
  intro i
  simp [World.phase]

theorem Tracked.step {op : Op} (hw : Tracked w)
    (h : Lifecycle.step txConfirmTimeoutMs now w op = some w') : Tracked w' := by
  cases op with
  | request q =>
    cases h
    intro i
    rw [phase_start]
    split
    · next hi =>
      -- a request that has just begun is not polled, and its number is new
      have hnot : w.phase i ≠ .booked := by
        rw [World.phase, hi, List.getElem?_eq_none le_rfl]
        exact nofun
      have hstart : (q.start w.shuttingDown).phase ≠ .booked := by
        rcases start_phase q w.shuttingDown with hended | ⟨-, hadmitted⟩
        · rw [hended]
          exact nofun
        · rw [hadmitted]
          exact nofun
      exact (hw i).trans (iff_of_false hnot hstart)
    · exact hw i
  | reply i r =>
    obtain ⟨inv, stage, -, -, rfl, hphase⟩ := resume_eq_some h
    intro j
    rw [hphase j]
    -- the promise is added or taken away by the stage alone
    dsimp only [World.track]
    by_cases hji : j = i
    · subst hji
      rw [if_pos rfl, phase_booked]
      split
      · next hpolling => exact iff_of_true (Finset.mem_insert_self _ _) hpolling
      · next hpolling => exact iff_of_false (Finset.notMem_erase _ _) hpolling
    · rw [if_neg hji, ← hw j]
      split
      · exact Finset.mem_insert.trans (or_iff_right hji)
      · exact Finset.mem_erase.trans (and_iff_right hji)
  | onModuleDestroy =>
    cases h
    exact hw
  | destroyed j =>
    simp only [Lifecycle.step, World.destroyed, Option.bind_eq_bind, Option.bind_eq_some_iff] at h
    obtain ⟨destroy, -, h⟩ := h
    obtain ⟨-, heq⟩ := Option.ite_none_right_eq_some.mp h
    cases heq
    exact hw

/-- `onModuleDestroy` shuts the door and notes what is booked. -/
theorem closes_view (hw : Tracked w) : Closes (view w) (view w.onModuleDestroy) := by
  unfold view
  rw [World.onModuleDestroy, List.map_append]
  -- closing reads the book, and the book is exact
  exact closes_of_booked rfl hw

/-- **The service is a door with a book**: each of its steps is one of closing, coming back, or work
that passes the door only while it is open. -/
theorem step_view {op : Op} (hw : Tracked w)
    (h : Lifecycle.step txConfirmTimeoutMs now w op = some w') :
    Drain.Step (view w) (view w') := by
  cases op with
  | request q =>
    cases h
    refine .work rfl rfl fun i => ?_
    change Next _ (w.phase i) ((w.start q).phase i)
    rw [phase_start]
    split
    -- the number of a request is new, so it was unknown before
    · next hi =>
      have hnew : w.phase i = .unknown := by
        rw [World.phase, hi, List.getElem?_eq_none le_rfl]
        rfl
      rw [hnew]
      rcases start_phase q w.shuttingDown with hended | ⟨hopen, hadmitted⟩
      · rw [hended]
        exact .leave _
      · rw [hadmitted]
        exact .accept hopen
    · exact .stay _
  | reply i r =>
    obtain ⟨inv, stage, hi, hstage, rfl, hphase⟩ := resume_eq_some h
    refine .work rfl rfl fun j => ?_
    change Next _ (w.phase j) (World.phase _ j)
    rw [hphase j]
    split
    · next hji =>
      rw [hji, phase_of_getElem? hi]
      exact resume_next hstage
    · exact .stay _
  | onModuleDestroy =>
    cases h
    exact .close (closes_view hw)
  | destroyed j =>
    simp only [Lifecycle.step, World.destroyed, Option.bind_eq_bind, Option.bind_eq_some_iff] at h
    obtain ⟨destroy, hj, h⟩ := h
    obtain ⟨hsettled, heq⟩ := Option.ite_none_right_eq_some.mp h
    cases heq
    have hbook : (view w).closers[j]? = some (closer destroy.waitsFor destroy.returned) := by
      -- a call returns when the promises of its own snapshot have settled
      rw [view, List.getElem?_map, hj]
      rfl
    unfold view
    rw [List.map_set]
    refine step_of_ended hbook fun i hi => ?_
    obtain ⟨inv, hinv, hstage⟩ := (Option.any_eq_true _ _).mp (hsettled i hi)
    exact (phase_of_getElem? hinv).trans (phase_ended.mpr hstage)

end Steps

/-! ### Every run -/

section Runs

variable {txConfirmTimeoutMs : ℕ} {h h₁ h₂ : List (Call World Op Unit)} {c : Call World Op Unit}
  {w : World}

theorem step_of_exec {now : ℕ} {w w' : World} {op : Op} {r : Unit}
    (h : (machine txConfirmTimeoutMs).exec now w op = .ok (w', r)) :
    Lifecycle.step txConfirmTimeoutMs now w op = some w' := by
  obtain ⟨w₁, hstep, heq⟩ := Option.map_eq_some_iff.mp (orTrap_eq_ok.mp h)
  cases heq
  exact hstep

/-- The state after `onModuleDestroy` was called. -/
theorem post_of_destroy (hrun : Run (machine txConfirmTimeoutMs) Init (h₂ ++ c :: h₁) w)
    (hc : c.op = .onModuleDestroy) : c.post = c.pre.onModuleDestroy := by
  have hstep := step_of_exec hrun.past.2.2
  rw [hc] at hstep
  exact (Option.some.inj hstep).symm

theorem tracked_of_run (hrun : Run (machine txConfirmTimeoutMs) Init h w) : Tracked w := by
  refine hrun.invariant ?_ ?_
  · rintro w rfl
    exact .init
  · intro now w op r w' hw hexec
    exact hw.step (step_of_exec hexec)

theorem view_of_run (h : List (Call World Op Unit)) (c : Call World Op Unit) (w : World)
    (hrun : Run (machine txConfirmTimeoutMs) Init (c :: h) w) :
    Drain.Step (view c.pre) (view w) := by
  cases hrun with
  | call hpast _ hexec => exact step_view (tracked_of_run hpast) (step_of_exec hexec)

/-- Behind the flag every request is refused. Those let in earlier keep going, and may still be
sent. -/
theorem refused_of_run (hrun : Run (machine txConfirmTimeoutMs) Init (h₂ ++ c :: h₁) w)
    (hc : c.op = .onModuleDestroy) : w.shuttingDown = true ∧
      ∀ i inv, c.pre.invocations.length ≤ i → w.invocations[i]? = some inv →
        ∃ e, inv.stage = .settled (.error e) := by
  refine hrun.since (G := fun _ _ => True) (P := fun w => w.shuttingDown = true ∧
    ∀ i inv, c.pre.invocations.length ≤ i → w.invocations[i]? = some inv →
      ∃ e, inv.stage = .settled (.error e)) ?_ ?_ fun _ _ => trivial
  · intro w hpast
    rw [← hpast.post_eq, post_of_destroy hrun hc]
    refine ⟨rfl, fun i inv hi hinv => ?_⟩
    rw [World.onModuleDestroy, List.getElem?_eq_none hi] at hinv
    cases hinv
  · intro h d w hpast ⟨hshut, hrefused⟩ _
    cases hpast with
    | @call _ w' now op r _ hpast' _ hexec =>
      have hstep := step_of_exec hexec
      dsimp only at hshut hrefused
      -- what was refused stays so, and what is new is refused by the flag
      cases op with
      | request q =>
        cases hstep
        refine ⟨hshut, fun i inv hi hinv => ?_⟩
        rcases getElem?_start hinv with hold | rfl
        · exact hrefused i inv hi hold
        · rw [hshut]
          exact start_refused q
      | reply i r =>
        obtain ⟨inv, stage, hinv, hstage, rfl, -⟩ := resume_eq_some hstep
        refine ⟨hshut, fun j inv' hj hinv' => ?_⟩
        dsimp only at hinv'
        rw [List.getElem?_set] at hinv'
        split at hinv'
        · next hij =>
          -- what has settled gets no reply
          subst hij
          obtain ⟨e, he⟩ := hrefused i inv hj hinv
          rw [resume_settled he] at hstage
          cases hstage
        · exact hrefused j inv' hj hinv'
      | onModuleDestroy =>
        cases hstep
        exact ⟨rfl, hrefused⟩
      | destroyed j =>
        simp only [Lifecycle.step, World.destroyed, Option.bind_eq_bind,
          Option.bind_eq_some_iff] at hstep
        obtain ⟨destroy, -, hstep⟩ := hstep
        obtain ⟨-, heq⟩ := Option.ite_none_right_eq_some.mp hstep
        cases heq
        exact ⟨hshut, hrefused⟩

/-- **A shutdown waits for every transaction that is tracked, and lets none in.** From
`onModuleDestroy` on every new request is refused. When it returns, every confirmation that was
pending has settled. What is still under way had passed the flag and had not been tracked when
`onModuleDestroy` was called: an invocation that is still being prepared is neither refused nor
waited for. -/
theorem shutdown_waits (hrun : Run (machine txConfirmTimeoutMs) Init (h₂ ++ c :: h₁) w)
    (hc : c.op = .onModuleDestroy) :
    (∀ i inv, c.pre.invocations.length ≤ i → w.invocations[i]? = some inv →
      ∃ e, inv.stage = .settled (.error e)) ∧
    (∀ i, i ∈ w.inFlightTransactions ↔ w.phase i = .booked) ∧
    ∀ destroy, w.destroys[c.pre.destroys.length]? = some destroy → destroy.returned = true →
      (∀ i ∈ c.pre.inFlightTransactions, w.phase i = .ended) ∧
      ∀ i, (w.phase i).Live → c.pre.phase i = .admitted := by
  refine ⟨(refused_of_run hrun hc).2, tracked_of_run hrun, fun destroy hdestroy hreturned => ?_⟩
  -- the book at the call is the set of promises, so the closer waits for all of them
  have hclose : Closes (view c.pre) (view c.post) := by
    rw [post_of_destroy hrun hc]
    exact closes_view (tracked_of_run hrun.past.1)
  have hcloser : (view w).closers[(view c.pre).closers.length]? =
      some (closer destroy.waitsFor destroy.returned) := by
    rw [view, view, List.length_map, List.getElem?_map, hdestroy]
    rfl
  -- what lives on was let in before, and if it had been booked it would have ended
  refine ⟨fun i hi => ?_, fun i hi =>
    hclose.admitted_of_live hrun view_of_run hcloser hreturned hi⟩
  obtain ⟨-, -, closer, hcloser', -, hended⟩ := hclose.since hrun view_of_run
  rw [hcloser] at hcloser'
  cases hcloser'
  exact hended hreturned i ((tracked_of_run hrun.past.1 i).mp hi)

end Runs

/-- One transaction is waited for; another one is sent after the shutdown has returned. -/
theorem shutdown_waits_gap : ∃ (h₁ h₂ : List (Call World Op Unit)) (c : Call World Op Unit)
    (w : World), Run (machine 30000) Init (h₂ ++ c :: h₁) w ∧ c.op = .onModuleDestroy ∧
      c.pre.inFlightTransactions = {1} ∧ w.phase 1 = .ended ∧ (w.phase 0).Live ∧
      c.pre.phase 0 = .admitted := by
  let q : String → Request := fun key => .sendTransaction "CBOND" "transfer" (some (.ok key))
  have hinit : Init {} := rfl
  obtain ⟨h₂, c, h₁, w, hrun, hview⟩ := Run.of_play_split (machine 30000)
    [(0, .request (q "GA")), (0, .request (q "GB")), (1, .reply 1 .done), (1, .reply 1 .done),
      (1, .reply 1 .done), (1, .reply 1 (.sent "t1")), (2, .onModuleDestroy),
      (1001, .reply 1 .timeout), (1001, .reply 1 (.status .success)), (1001, .destroyed 0),
      (1002, .reply 0 .done), (1002, .reply 0 .done), (1002, .reply 0 .done),
      (1003, .reply 0 (.sent "t0"))] 7
    (fun _ c _ w => (match c.op with | .onModuleDestroy => true | _ => false) &&
      decide (c.pre.inFlightTransactions = {1} ∧ (w.phase 0).Live ∧ c.pre.destroys.length = 0 ∧
        w.destroys = [⟨{1}, true⟩])) hinit (by decide)
  rw [Bool.and_eq_true, decide_eq_true_eq] at hview
  obtain ⟨hop, hflight, hlive, hfirst, hdestroys⟩ := hview
  have hc : c.op = .onModuleDestroy := by
    cases hdestroy : c.op with
    | onModuleDestroy => rfl
    | request | reply | destroyed =>
      rw [hdestroy] at hop
      cases hop
  obtain ⟨hsettled, hgap⟩ := (shutdown_waits hrun hc).2.2 ⟨{1}, true⟩
    (by rw [hdestroys, hfirst]; rfl) rfl
  exact ⟨h₁, h₂, c, w, hrun, hc, hflight, hsettled 1 (by rw [hflight]; decide), hlive,
    hgap 0 hlive⟩

end Lifecycle
end ContractService
end NbsBond
