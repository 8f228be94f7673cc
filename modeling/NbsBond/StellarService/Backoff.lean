import NbsBond.StellarService.Reconnect

/-!
# How long a lost stream waits

An error of a stream sets a timer whose delay doubles with each error since the last message, from
one second up to half a minute (`reconnect_delay`). The errors and messages are counted for each
call of `streamPayments` alone (`errorsInARow`), so that a new stream starts from one second again.
-/

namespace NbsBond
namespace StellarService

open Soroban World

/-- The stream state that a connection was opened for. -/
def streamOf (w : World) (c : ℕ) : Option ℕ := (w.connections c).map Connection.state

/-- The errors of a stream since its newest message. -/
def errorsInARow (i : ℕ) : List (Call World Op Unit) → ℕ
  | [] => 0
  | c :: h =>
    match c.op with
    | .onmessage connection =>
      if streamOf c.pre connection = some i then 0 else errorsInARow i h
    | .onerror connection =>
      if streamOf c.pre connection = some i then errorsInARow i h + 1 else errorsInARow i h
    | .streamPayments _ _ | .closePaymentStream | .timeout _ => errorsInARow i h

/-- The delay after that many errors. -/
def delayAfter (errors : ℕ) : ℕ := min (initialBackoffMs * 2 ^ errors) maxBackoffMs

theorem delayAfter_succ (n : ℕ) : delayAfter (n + 1) = min (delayAfter n * 2) maxBackoffMs := by
  unfold delayAfter
  rw [pow_succ, ← mul_assoc]
  generalize initialBackoffMs * 2 ^ n = x
  omega

/-! ### The backoff of each stream state -/

namespace World

def backoff (w : World) (i : ℕ) : Option ℕ := (w.states i).map StreamState.backoffMs

end World

section Backoff

variable {w w' : World} {i : ℕ} {state : StreamState}

theorem backoff_setState (w : World) (i : ℕ) (state : StreamState) :
    (w.setState i state).backoff = Function.update w.backoff i (some state.backoffMs) := by
  funext j
  simp only [World.backoff, setState, Function.update_apply]
  split <;> rfl

/-- An assignment that leaves the backoff. -/
theorem backoff_update (state' : StreamState) (hstate : w.states i = some state)
    (hstates : w'.states = Function.update w.states i (some state'))
    (hbackoff : state'.backoffMs = state.backoffMs) : w'.backoff = w.backoff := by
  funext j
  unfold World.backoff
  rw [hstates, Function.update_apply]
  split
  · next hji => rw [hji, hstate, Option.map_some, Option.map_some, hbackoff]
  · rfl

theorem backoff_closePaymentStream (hw : Linked w) : w.closePaymentStream.backoff = w.backoff := by
  unfold World.closePaymentStream
  split
  · rfl
  · next i hcurrent =>
    obtain ⟨state, hstate⟩ := hw.current i hcurrent
    simp only [hstate]
    refine backoff_update { state with reconnectTimer := none, closeFn := none } hstate ?_ rfl
    have hself : ((w.clearTimeout state.reconnectTimer).setState i
        { state with reconnectTimer := none }).states i =
          some { state with reconnectTimer := none } := Function.update_self _ _ _
    rw [(closeCurrentStream_states hself).1, setState, (clearTimeout_states _ _).1,
      Function.update_idem]

theorem backoff_streamPayments (hw : Linked w) (publicKey : String) (cursor : Option String) :
    ∃ i, w.states i = none ∧ (w.streamPayments publicKey cursor).backoff =
      Function.update w.backoff i (some initialBackoffMs) := by
  have hclosed := (hw.closePaymentStream).1
  refine ⟨w.closePaymentStream.next, ?_, ?_⟩
  · have hfresh := hclosed.states_fresh _ le_rfl
    have hsame := congrFun (backoff_closePaymentStream hw) w.closePaymentStream.next
    rw [World.backoff, hfresh, Option.map_none, World.backoff, eq_comm,
      Option.map_eq_none_iff] at hsame
    exact hsame
  · rw [← backoff_closePaymentStream hw]
    funext j
    simp only [World.streamPayments, World.openPaymentStream, setState, World.backoff,
      Function.update_idem, Function.update_apply]
    split <;> rfl

theorem backoff_onerror (hstate : w.states i = some state) :
    (w.onerror i state).backoff =
      Function.update w.backoff i (some (min (state.backoffMs * 2) maxBackoffMs)) := by
  funext j
  simp only [World.onerror, World.scheduleReconnect, setState, World.backoff,
    (clearTimeout_states _ _).1, (closeCurrentStream_states hstate).1, Function.update_idem,
    Function.update_apply]
  split <;> rfl

theorem backoff_reconnect {t : ℕ} (hstate : w.states i = some state) :
    (w.reconnect t i state).backoff = w.backoff := by
  unfold World.reconnect
  dsimp only
  split
  · refine backoff_update { state with reconnectTimer := none, closeFn := some w.next } hstate ?_
      rfl
    simp only [World.openPaymentStream, setState, Function.update_idem]
  · exact backoff_update { state with reconnectTimer := none } hstate rfl rfl

end Backoff

/-! ### Runs -/

variable {h earlier later : List (Call World Op Unit)} {w : World}

/-- **The backoff of a stream counts its errors in a row.** A stream that is not yet has none. A
message in between sets it back. -/
theorem backoff_of_run (hrun : Run machine Init h w) (i : ℕ) :
    (w.backoff i = none ∧ errorsInARow i h = 0) ∨
      w.backoff i = some (delayAfter (errorsInARow i h)) := by
  refine hrun.induction (P := fun h w => (w.backoff i = none ∧ errorsInARow i h = 0) ∨
    w.backoff i = some (delayAfter (errorsInARow i h))) ?_ fun h w t op r w' hrun _ hexec ih => ?_
  · rintro w rfl
    exact .inl ⟨rfl, rfl⟩
  · have hw := good_of_run hrun
    obtain ⟨w'', hstep, heq⟩ := Option.map_eq_some_iff.mp (orTrap_eq_ok.mp hexec)
    cases heq
    cases op with
    | streamPayments publicKey cursor =>
      cases hstep
      obtain ⟨j, hj, hbackoff⟩ := backoff_streamPayments hw.toLinked publicKey cursor
      rw [errorsInARow, hbackoff, Function.update_apply]
      split
      · next hij =>
        rcases ih with ⟨-, hzero⟩ | hsome
        · exact .inr (by rw [hzero]; rfl)
        · rw [hij, World.backoff, hj] at hsome
          cases hsome
      · exact ih
    | closePaymentStream =>
      cases hstep
      rw [errorsInARow, backoff_closePaymentStream hw.toLinked]
      exact ih
    | onmessage c =>
      obtain ⟨k, hk, hstep⟩ := Option.bind_eq_some_iff.mp hstep
      obtain ⟨state, hstate, hstep⟩ := Option.bind_eq_some_iff.mp hstep
      cases hstep
      have hstream : streamOf w c = some k.state := by rw [streamOf, hk]; rfl
      simp only [errorsInARow, hstream, Option.some.injEq]
      rw [World.onmessage, backoff_setState, Function.update_apply]
      by_cases hki : k.state = i
      · rw [if_pos hki, if_pos hki.symm]
        exact .inr rfl
      · rw [if_neg hki, if_neg (Ne.symm hki)]
        exact ih
    | onerror c =>
      obtain ⟨k, hk, hstep⟩ := Option.bind_eq_some_iff.mp hstep
      obtain ⟨state, hstate, hstep⟩ := Option.bind_eq_some_iff.mp hstep
      cases hstep
      have hstream : streamOf w c = some k.state := by rw [streamOf, hk]; rfl
      simp only [errorsInARow, hstream, Option.some.injEq]
      rw [backoff_onerror hstate, Function.update_apply]
      by_cases hki : k.state = i
      · rw [if_pos hki, if_pos hki.symm, delayAfter_succ]
        -- the stream exists, so its backoff is that of its errors so far
        rw [World.backoff, ← hki, hstate] at ih
        rcases ih with ⟨hnone, -⟩ | hsome
        · cases hnone
        · rw [← hki, ← Option.some.inj hsome]
          exact .inr rfl
      · rw [if_neg hki, if_neg (Ne.symm hki)]
        exact ih
    | timeout t =>
      obtain ⟨τ, -, hstep⟩ := Option.bind_eq_some_iff.mp hstep
      obtain ⟨state, hstate, hstep⟩ := Option.bind_eq_some_iff.mp hstep
      cases hstep
      rw [errorsInARow, backoff_reconnect hstate]
      exact ih

/-- **An error of a stream sets one timer for it**, with the delay of the errors before it. What was
pending for the stream is replaced. -/
theorem reconnect_delay {c : Call World Op Unit} {connection : ℕ}
    (hrun : Run machine Init (later ++ c :: earlier) w) (hop : c.op = .onerror connection) :
    ∃ i, streamOf c.pre connection = some i ∧
      ∃ t, c.post.timers t =
          some ⟨i, min (initialBackoffMs * 2 ^ errorsInARow i earlier) maxBackoffMs⟩ ∧
        ∀ t' τ, c.post.timers t' = some τ → τ.state = i → t' = t := by
  obtain ⟨hpast, -, hexec⟩ := hrun.past
  have hlinked := (good_of_run hpast).toLinked
  obtain ⟨w', hstep, heq⟩ := Option.map_eq_some_iff.mp (orTrap_eq_ok.mp hexec)
  have hpost : w' = c.post := congrArg Prod.fst heq
  have hafter := (good_of_run hpast).step hstep
  rw [hop] at hstep
  obtain ⟨k, hk, hstep⟩ := Option.bind_eq_some_iff.mp hstep
  obtain ⟨state, hstate, hstep⟩ := Option.bind_eq_some_iff.mp hstep
  have hw' : c.pre.onerror k.state state = c.post := (Option.some.inj hstep).trans hpost
  have hbackoff : state.backoffMs = delayAfter (errorsInARow k.state earlier) := by
    have hrow := backoff_of_run hpast k.state
    rw [World.backoff, hstate] at hrow
    rcases hrow with ⟨hnone, -⟩ | hsome
    · cases hnone
    · exact Option.some.inj hsome
  rw [hpost] at hafter
  set t := ((c.pre.closeCurrentStream k.state state).clearTimeout state.reconnectTimer).next with ht
  have htimer : c.post.timers t = some ⟨k.state, state.backoffMs⟩ := by
    rw [← hw']
    exact Function.update_self _ _ _
  rw [hbackoff] at htimer
  refine ⟨k.state, by rw [streamOf, hk]; rfl, t, htimer, fun t' τ hτ hi => ?_⟩
  -- both timers are that of the stream state
  obtain ⟨s, hs, hst⟩ := hafter.timer _ _ htimer
  obtain ⟨s', hs', hst'⟩ := hafter.timer _ _ hτ
  rw [hi] at hs'
  obtain rfl : s = s' := Option.some.inj (hs.symm.trans hs')
  exact Option.some.inj (hst'.symm.trans hst)

/-- The second error of a stream, after it reconnected. -/
theorem reconnect_delay_again : ∃ later c earlier w,
    Run machine Init (later ++ c :: earlier) w ∧ c.op = .onerror 3 ∧ errorsInARow 0 earlier = 1 ∧
      ∃ i, streamOf c.pre 3 = some i ∧
        ∃ t, c.post.timers t =
            some ⟨i, min (initialBackoffMs * 2 ^ errorsInARow i earlier) maxBackoffMs⟩ ∧
          ∀ t' τ, c.post.timers t' = some τ → τ.state = i → t' = t := by
  have hinit : Init {} := rfl
  obtain ⟨later, c, earlier, w, hrun, hview⟩ := Run.of_play_split machine
    [(0, .streamPayments "GABC" none), (1, .onerror 1), (2, .timeout 2), (3, .onerror 3)] 0
    (fun _ c earlier _ => decide (c.op = .onerror 3 ∧ errorsInARow 0 earlier = 1)) hinit (by decide)
  obtain ⟨hop, hrow⟩ := of_decide_eq_true hview
  exact ⟨later, c, earlier, w, hrun, hop, hrow, reconnect_delay hrun hop⟩

end StellarService
end NbsBond
