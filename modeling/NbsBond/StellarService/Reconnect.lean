import NbsBond.StellarService.Payments

/-!
# One connection at a time

Closing, clearing and setting a timer each keep the links between stream states, connections and
timers (`Linked`), whichever stream state they are done to; only what opens a connection needs a
stream state that is current and has none. That is what `steady` adds: the current stream state has
a connection or a timer and not both, so that a timer that goes off finds no connection.

The account and the cursor of a stream state do not change, and so the stream state of the service
says what the newest call from outside asked for (`served_of_run`).
-/

namespace NbsBond
namespace StellarService

open Soroban World

/-- Stream states, connections and timers point to each other, and only the stream state of the
service has a connection that is open. The three `_fresh` fields say that an identifier is never
given out twice; the others are the links themselves, in both directions. Connections that are
closed stay linked to their stream state, since their late events still name it. -/
structure Linked (w : World) : Prop where
  states_fresh : ∀ n, w.next ≤ n → w.states n = none
  connections_fresh : ∀ n, w.next ≤ n → w.connections n = none
  timers_fresh : ∀ n, w.next ≤ n → w.timers n = none
  current : ∀ i, w.streamState = some i → ∃ state, w.states i = some state
  connection : ∀ c k, w.connections c = some k → ∃ state, w.states k.state = some state ∧
    k.publicKey = state.publicKey ∧ k.cursor = cursorOf state ∧
      (k.isOpen = true → state.closeFn = some c)
  closeFn : ∀ i state c, w.states i = some state → state.closeFn = some c →
    w.streamState = some i ∧ ∃ k, w.connections c = some k ∧ k.state = i ∧ k.isOpen = true
  timer : ∀ t τ, w.timers t = some τ →
    ∃ state, w.states τ.state = some state ∧ state.reconnectTimer = some t
  reconnectTimer : ∀ i state t, w.states i = some state → state.reconnectTimer = some t →
    ∃ τ, w.timers t = some τ ∧ τ.state = i

section Linked

variable {w : World} {i : ℕ} {state : StreamState}

theorem Linked.states_lt (hw : Linked w) {n : ℕ} {s : StreamState} (hs : w.states n = some s) :
    n < w.next := by
  by_contra hle
  rw [hw.states_fresh n (not_lt.mp hle)] at hs
  cases hs

theorem Linked.connections_lt (hw : Linked w) {n : ℕ} {k : Connection}
    (hk : w.connections n = some k) : n < w.next := by
  by_contra hle
  rw [hw.connections_fresh n (not_lt.mp hle)] at hk
  cases hk

theorem Linked.timers_lt (hw : Linked w) {n : ℕ} {τ : Timer} (hτ : w.timers n = some τ) :
    n < w.next := by
  by_contra hle
  rw [hw.timers_fresh n (not_lt.mp hle)] at hτ
  cases hτ

/-- A new connection, for the current stream state when it has none. The caller has cleared the
timer or there was none, but this does not matter here: the timer's link is left as it is. -/
theorem Linked.openPaymentStream (hw : Linked w) (hcurrent : w.streamState = some i)
    (hstate : w.states i = some state) (hclosed : state.closeFn = none) :
    Linked (w.openPaymentStream i state) := by
  -- each link is about the stream state `i`, whose fields the call writes, or about another one
  have hi := hw.states_lt hstate
  constructor
  all_goals simp only [World.openPaymentStream, World.setState, Function.update_apply]
  case states_fresh =>
    intro n hn
    rw [if_neg (by omega), hw.states_fresh n (by omega)]
  case connections_fresh =>
    intro n hn
    rw [if_neg (by omega), hw.connections_fresh n (by omega)]
  case timers_fresh => exact fun n hn => hw.timers_fresh n (by omega)
  case current =>
    intro j hj
    split
    · exact ⟨_, rfl⟩
    · exact hw.current j hj
  case connection =>
    intro c k hk
    split at hk
    -- the new connection
    · next hc =>
      cases hk
      exact ⟨_, if_pos rfl, rfl, rfl, fun _ => by rw [hc]⟩
    · obtain ⟨s, hs, hkey, hcursor, hopen⟩ := hw.connection c k hk
      by_cases hki : k.state = i
      -- an older connection of `i` is closed, since `i` had none that is open
      · rw [hki, hstate] at hs
        cases hs
        refine ⟨_, if_pos hki, hkey, hcursor, fun hk => ?_⟩
        rw [hclosed] at hopen
        cases hopen hk
      · exact ⟨s, by rw [if_neg hki]; exact hs, hkey, hcursor, hopen⟩
  case closeFn =>
    intro j s c hs hc
    split at hs
    -- the stream state that has got the connection
    · next hji =>
      cases hs
      cases hc
      exact ⟨hji ▸ hcurrent, _, if_pos rfl, hji.symm, rfl⟩
    · obtain ⟨hj, k, hk, hkj⟩ := hw.closeFn j s c hs hc
      -- its connection is older than the new one
      exact ⟨hj, k, by rw [if_neg (hw.connections_lt hk).ne]; exact hk, hkj⟩
  case timer =>
    intro t τ hτ
    obtain ⟨s, hs, ht⟩ := hw.timer t τ hτ
    split
    · next hτi =>
      rw [hτi, hstate] at hs
      cases hs
      exact ⟨_, rfl, ht⟩
    · exact ⟨s, hs, ht⟩
  case reconnectTimer =>
    intro j s t hs ht
    split at hs
    · next hji =>
      cases hs
      exact hji ▸ hw.reconnectTimer i state t hstate ht
    · exact hw.reconnectTimer j s t hs ht

theorem Linked.closeCurrentStream (hw : Linked w) (hstate : w.states i = some state) :
    Linked (w.closeCurrentStream i state) := by
  unfold World.closeCurrentStream
  split
  · next c hclose =>
    -- what is closed is the connection of the current stream state
    obtain ⟨hcurrent, k, hk, hki, hopen⟩ := hw.closeFn i state c hstate hclose
    constructor
    all_goals simp only [World.closeConnection, World.setState, Function.update_apply, hk,
      Option.map_some]
    case states_fresh =>
      intro n hn
      have hi := hw.states_lt hstate
      rw [if_neg (by omega), hw.states_fresh n hn]
    case connections_fresh =>
      intro n hn
      have hc := hw.connections_lt hk
      rw [if_neg (by omega), hw.connections_fresh n hn]
    case timers_fresh => exact hw.timers_fresh
    case current =>
      intro j hj
      split
      · exact ⟨_, rfl⟩
      · exact hw.current j hj
    case connection =>
      intro c' k' hk'
      split at hk'
      -- the connection that is closed keeps its account and cursor
      · cases hk'
        obtain ⟨s, hs, hkey, hcursor, -⟩ := hw.connection c k hk
        rw [hki, hstate] at hs
        cases hs
        exact ⟨_, if_pos hki, hkey, hcursor, fun h => by cases h⟩
      · next hcc =>
        obtain ⟨s, hs, hkey, hcursor, hopen'⟩ := hw.connection c' k' hk'
        by_cases hki' : k'.state = i
        · rw [hki', hstate] at hs
          cases hs
          -- the connection of `i` that is open is `c`
          refine ⟨_, if_pos hki', hkey, hcursor, fun h => absurd ?_ hcc⟩
          exact Option.some.inj ((hopen' h).symm.trans hclose)
        · exact ⟨s, by rw [if_neg hki']; exact hs, hkey, hcursor, hopen'⟩
    case closeFn =>
      intro j s c' hs hc'
      split at hs
      · cases hs
        cases hc'
      -- only the current stream state had a connection
      · next hji =>
        have hj := (hw.closeFn j s c' hs hc').1
        exact absurd (Option.some.inj (hj.symm.trans hcurrent)) hji
    case timer =>
      intro t τ hτ
      obtain ⟨s, hs, ht⟩ := hw.timer t τ hτ
      split
      · next hτi =>
        rw [hτi, hstate] at hs
        cases hs
        exact ⟨_, rfl, ht⟩
      · exact ⟨s, hs, ht⟩
    case reconnectTimer =>
      intro j s t hs ht
      split at hs
      · next hji =>
        cases hs
        exact hji ▸ hw.reconnectTimer i state t hstate ht
      · exact hw.reconnectTimer j s t hs ht
  -- nothing is open
  · exact hw

/-- The timer of a stream state is cleared, or it has gone off. Afterwards the stream state has
none. A timer that has gone off is cleared as well, which does nothing. -/
theorem Linked.clearTimeout (hw : Linked w) (hstate : w.states i = some state) :
    Linked ((w.clearTimeout state.reconnectTimer).setState i
      { state with reconnectTimer := none }) := by
  have hi := hw.states_lt hstate
  have htimers : ∀ t, (w.clearTimeout state.reconnectTimer).timers t =
      if state.reconnectTimer = some t then none else w.timers t := by
    intro t
    unfold World.clearTimeout
    split
    · next t' ht' => simp only [ht', Function.update_apply, Option.some.injEq, eq_comm]
    · next hnone => simp only [hnone, reduceCtorEq, if_false]
  -- clearing a timer touches the timers only
  have hrest : ∀ timer, (w.clearTimeout timer).streamState = w.streamState ∧
      (w.clearTimeout timer).states = w.states ∧
      (w.clearTimeout timer).connections = w.connections ∧
      (w.clearTimeout timer).next = w.next := by
    intro timer
    cases timer <;> exact ⟨rfl, rfl, rfl, rfl⟩
  obtain ⟨hcurrent, hstates, hconnections, hnext⟩ := hrest state.reconnectTimer
  constructor
  all_goals simp only [World.setState, Function.update_apply, htimers, hcurrent, hstates,
    hconnections, hnext]
  case states_fresh =>
    intro n hn
    rw [if_neg (by omega), hw.states_fresh n hn]
  case connections_fresh => exact hw.connections_fresh
  case timers_fresh =>
    intro n hn
    rw [hw.timers_fresh n hn, ite_self]
  case current =>
    intro j hj
    split
    · exact ⟨_, rfl⟩
    · exact hw.current j hj
  case connection =>
    intro c k hk
    obtain ⟨s, hs, hkey, hcursor, hopen⟩ := hw.connection c k hk
    split
    · next hki =>
      rw [hki, hstate] at hs
      cases hs
      exact ⟨_, rfl, hkey, hcursor, hopen⟩
    · exact ⟨s, hs, hkey, hcursor, hopen⟩
  case closeFn =>
    intro j s c hs hc
    split at hs
    · next hji =>
      cases hs
      exact hji ▸ hw.closeFn i state c hstate hc
    · exact hw.closeFn j s c hs hc
  case timer =>
    intro t τ hτ
    split at hτ
    · cases hτ
    · next ht =>
      obtain ⟨s, hs, hst⟩ := hw.timer t τ hτ
      split
      · next hτi =>
        rw [hτi, hstate] at hs
        cases hs
        -- the timer of `i` is the one that was cleared
        exact absurd hst ht
      · exact ⟨s, hs, hst⟩
  case reconnectTimer =>
    intro j s t hs ht
    split at hs
    · cases hs
      cases ht
    · next hji =>
      obtain ⟨τ, hτ, hτj⟩ := hw.reconnectTimer j s t hs ht
      split
      · next hit =>
        -- a timer belongs to one stream state
        obtain ⟨τ', hτ', hτi⟩ := hw.reconnectTimer i state t hstate hit
        rw [hτ] at hτ'
        cases hτ'
        exact absurd (hτj.symm.trans hτi) hji
      · exact ⟨τ, hτ, hτj⟩

/-- A timer starts for a stream state that has none. The delay is the current back-off; the next one
is whatever the caller says. -/
theorem Linked.setTimeout (hw : Linked w) (hstate : w.states i = some state)
    (hnone : state.reconnectTimer = none) (delayMs backoffMs : ℕ) :
    Linked { w.setState i
        { state with reconnectTimer := some w.next, backoffMs := backoffMs } with
      timers := Function.update w.timers w.next (some ⟨i, delayMs⟩), next := w.next + 1 } := by
  have hi := hw.states_lt hstate
  constructor
  all_goals simp only [World.setState, Function.update_apply]
  case states_fresh =>
    intro n hn
    rw [if_neg (by omega), hw.states_fresh n (by omega)]
  case connections_fresh => exact fun n hn => hw.connections_fresh n (by omega)
  case timers_fresh =>
    intro n hn
    rw [if_neg (by omega), hw.timers_fresh n (by omega)]
  case current =>
    intro j hj
    split
    · exact ⟨_, rfl⟩
    · exact hw.current j hj
  case connection =>
    intro c k hk
    obtain ⟨s, hs, hkey, hcursor, hopen⟩ := hw.connection c k hk
    split
    · next hki =>
      rw [hki, hstate] at hs
      cases hs
      exact ⟨_, rfl, hkey, hcursor, hopen⟩
    · exact ⟨s, hs, hkey, hcursor, hopen⟩
  case closeFn =>
    intro j s c hs hc
    split at hs
    · next hji =>
      cases hs
      exact hji ▸ hw.closeFn i state c hstate hc
    · exact hw.closeFn j s c hs hc
  case timer =>
    intro t τ hτ
    split at hτ
    -- the new timer belongs to `i`
    · next ht =>
      cases hτ
      exact ⟨_, if_pos rfl, by rw [ht]⟩
    · obtain ⟨s, hs, hst⟩ := hw.timer t τ hτ
      -- and no older one does
      by_cases hτi : τ.state = i
      · rw [hτi, hstate] at hs
        cases hs
        rw [hnone] at hst
        cases hst
      · exact ⟨s, by rw [if_neg hτi]; exact hs, hst⟩
  case reconnectTimer =>
    intro j s t hs ht
    split at hs
    · next hji =>
      cases hs
      cases ht
      exact ⟨_, if_pos rfl, hji.symm⟩
    · obtain ⟨τ, hτ, hτj⟩ := hw.reconnectTimer j s t hs ht
      exact ⟨τ, by rw [if_neg (hw.timers_lt hτ).ne]; exact hτ, hτj⟩

/-- Rescheduling is clearing and setting; the source writes the stream state once, in between. -/
theorem scheduleReconnect_eq (w : World) (i : ℕ) (state : StreamState) :
    w.scheduleReconnect i state =
      let w₁ := (w.clearTimeout state.reconnectTimer).setState i
        { state with reconnectTimer := none }
      { w₁.setState i { state with
          reconnectTimer := some w₁.next
          backoffMs := min (state.backoffMs * 2) maxBackoffMs } with
        timers := Function.update w₁.timers w₁.next (some ⟨i, state.backoffMs⟩)
        next := w₁.next + 1 } := by
  simp only [scheduleReconnect, setState, Function.update_idem]

theorem Linked.scheduleReconnect (hw : Linked w) (hstate : w.states i = some state) :
    Linked (w.scheduleReconnect i state) := by
  rw [scheduleReconnect_eq]
  exact (hw.clearTimeout hstate).setTimeout (Function.update_self _ _ _) rfl _ _

theorem clearTimeout_states (w : World) (timer : Option ℕ) :
    (w.clearTimeout timer).states = w.states ∧
      (w.clearTimeout timer).streamState = w.streamState := by
  cases timer <;> exact ⟨rfl, rfl⟩

theorem closeCurrentStream_states (hstate : w.states i = some state) :
    (w.closeCurrentStream i state).states =
      Function.update w.states i (some { state with closeFn := none }) ∧
    (w.closeCurrentStream i state).streamState = w.streamState := by
  unfold World.closeCurrentStream
  split
  · exact ⟨rfl, rfl⟩
  · next hnone =>
    refine ⟨?_, rfl⟩
    have hsame : { state with closeFn := none } = state := by rw [← hnone]
    rw [hsame, ← hstate, Function.update_eq_self]

/-- After the current stream is closed no stream state has a connection. Not only the current one:
the others had none before. -/
theorem Linked.closeFn_eq_none (hw : Linked w) (hcurrent : w.streamState = some i)
    (hstate : w.states i = some state) {j : ℕ} {s : StreamState}
    (hs : (w.closeCurrentStream i state).states j = some s) : s.closeFn = none := by
  -- another one cannot have an open connection, as it is not current
  have hother : ∀ {j s}, j ≠ i → w.states j = some s → s.closeFn = none := by
    intro j s hji hs
    by_contra hopen
    obtain ⟨c, hc⟩ := Option.ne_none_iff_exists'.mp hopen
    exact hji (Option.some.inj ((hw.closeFn j s c hs hc).1.symm.trans hcurrent))
  rw [(closeCurrentStream_states hstate).1, Function.update_apply] at hs
  split at hs
  · cases hs
    rfl
  · next hji => exact hother hji hs

theorem Linked.closePaymentStream (hw : Linked w) :
    Linked w.closePaymentStream ∧ w.closePaymentStream.streamState = none := by
  unfold World.closePaymentStream
  split
  · next hnone => exact ⟨hw, hnone⟩
  · next i hcurrent =>
    obtain ⟨state, hstate⟩ := hw.current i hcurrent
    simp only [hstate]
    refine ⟨?_, trivial⟩
    have hcleared := hw.clearTimeout hstate
    have hself : ((w.clearTimeout state.reconnectTimer).setState i
        { state with reconnectTimer := none }).states i =
          some { state with reconnectTimer := none } := Function.update_self _ _ _
    have hstill : ((w.clearTimeout state.reconnectTimer).setState i
        { state with reconnectTimer := none }).streamState = some i := by
      cases state.reconnectTimer <;> exact hcurrent
    have hclosed := hcleared.closeCurrentStream hself
    exact { hclosed with
      current := fun j hj => by cases hj
      closeFn := fun j s c hs hc => by
        rw [hcleared.closeFn_eq_none hstill hself hs] at hc
        cases hc }

/-- A new stream state becomes the current one. -/
theorem Linked.allocate (state : StreamState) (hw : Linked w) (hidle : w.streamState = none)
    (hclosed : state.closeFn = none) (hnone : state.reconnectTimer = none) :
    Linked { w.setState w.next state with streamState := some w.next, next := w.next + 1 } := by
  constructor
  all_goals simp only [World.setState, Function.update_apply]
  case states_fresh =>
    intro n hn
    rw [if_neg (by omega), hw.states_fresh n (by omega)]
  case connections_fresh => exact fun n hn => hw.connections_fresh n (by omega)
  case timers_fresh => exact fun n hn => hw.timers_fresh n (by omega)
  case current =>
    rintro j ⟨⟩
    exact ⟨state, if_pos rfl⟩
  case connection =>
    intro c k hk
    obtain ⟨s, hs, hrest⟩ := hw.connection c k hk
    exact ⟨s, by rw [if_neg (hw.states_lt hs).ne]; exact hs, hrest⟩
  case closeFn =>
    intro j s c hs hc
    split at hs
    · cases hs
      rw [hclosed] at hc
      cases hc
    · obtain ⟨hj, -⟩ := hw.closeFn j s c hs hc
      rw [hidle] at hj
      cases hj
  case timer =>
    intro t τ hτ
    obtain ⟨s, hs, ht⟩ := hw.timer t τ hτ
    exact ⟨s, by rw [if_neg (hw.states_lt hs).ne]; exact hs, ht⟩
  case reconnectTimer =>
    intro j s t hs ht
    split at hs
    · cases hs
      rw [hnone] at ht
      cases ht
    · exact hw.reconnectTimer j s t hs ht

/-- A stream state's backoff is set. -/
theorem Linked.onmessage (hw : Linked w) (hstate : w.states i = some state) :
    Linked (w.onmessage i state) := by
  have hi := hw.states_lt hstate
  constructor
  all_goals simp only [World.onmessage, World.setState, Function.update_apply]
  case states_fresh =>
    intro n hn
    rw [if_neg (by omega), hw.states_fresh n hn]
  case connections_fresh => exact hw.connections_fresh
  case timers_fresh => exact hw.timers_fresh
  case current =>
    intro j hj
    split
    · exact ⟨_, rfl⟩
    · exact hw.current j hj
  case connection =>
    intro c k hk
    obtain ⟨s, hs, hkey, hcursor, hopen⟩ := hw.connection c k hk
    split
    · next hki =>
      rw [hki, hstate] at hs
      cases hs
      exact ⟨_, rfl, hkey, hcursor, hopen⟩
    · exact ⟨s, hs, hkey, hcursor, hopen⟩
  case closeFn =>
    intro j s c hs hc
    split at hs
    · next hji =>
      cases hs
      exact hji ▸ hw.closeFn i state c hstate hc
    · exact hw.closeFn j s c hs hc
  case timer =>
    intro t τ hτ
    obtain ⟨s, hs, ht⟩ := hw.timer t τ hτ
    split
    · next hτi =>
      rw [hτi, hstate] at hs
      cases hs
      exact ⟨_, rfl, ht⟩
    · exact ⟨s, hs, ht⟩
  case reconnectTimer =>
    intro j s t hs ht
    split at hs
    · next hji =>
      cases hs
      exact hji ▸ hw.reconnectTimer i state t hstate ht
    · exact hw.reconnectTimer j s t hs ht

end Linked

/-! ### Every step -/

/-- The current stream is connected or about to reconnect, and not both. A stream that is neither
would be lost for good, and one that is both would end up with two connections. -/
structure Good (w : World) : Prop extends Linked w where
  steady : ∀ i state, w.streamState = some i → w.states i = some state →
    (state.closeFn = none ↔ state.reconnectTimer ≠ none)

section Good

variable {w w' : World} {i : ℕ} {state : StreamState}

theorem Good.streamPayments (hw : Good w) (publicKey : String) (cursor : Option String) :
    Good (w.streamPayments publicKey cursor) := by
  -- the old stream is closed first, so that the new one finds no connection
  obtain ⟨hclosed, hidle⟩ := hw.toLinked.closePaymentStream
  have hnew := hclosed.allocate ⟨publicKey, cursor, none, none, initialBackoffMs⟩ hidle rfl rfl
  refine ⟨hnew.openPaymentStream rfl (Function.update_self _ _ _) rfl, fun j s hj hs => ?_⟩
  cases hj
  simp only [World.streamPayments, World.openPaymentStream, setState, Function.update_self] at hs
  cases hs
  simp

theorem Good.onmessage (hw : Good w) (hstate : w.states i = some state) :
    Good (w.onmessage i state) := by
  refine ⟨hw.toLinked.onmessage hstate, fun j s hj hs => ?_⟩
  simp only [World.onmessage, setState, Function.update_apply] at hs
  split at hs
  · next hji =>
    cases hs
    exact hw.steady i state (hji ▸ hj) hstate
  · exact hw.steady j s hj hs

theorem Good.onerror (hw : Good w) (hstate : w.states i = some state) :
    Good (w.onerror i state) := by
  -- an error closes the connection, and the timer takes its place
  obtain ⟨hstates, hcurrent⟩ := closeCurrentStream_states hstate
  have hself : (w.closeCurrentStream i state).states i = some { state with closeFn := none } := by
    rw [hstates, Function.update_self]
  refine ⟨(hw.toLinked.closeCurrentStream hstate).scheduleReconnect hself, fun j s hj hs => ?_⟩
  simp only [World.onerror, World.scheduleReconnect, setState, (clearTimeout_states _ _).1, hstates,
    Function.update_idem, Function.update_apply] at hs
  simp only [World.onerror, World.scheduleReconnect, setState, (clearTimeout_states _ _).2,
    hcurrent] at hj
  split at hs
  · cases hs
    simp
  · exact hw.steady j s hj hs

theorem Good.reconnect (hw : Good w) {t : ℕ} {τ : Timer} (hτ : w.timers t = some τ)
    (hstate : w.states τ.state = some state) : Good (w.reconnect t τ.state state) := by
  obtain ⟨s, hs, ht⟩ := hw.timer t τ hτ
  rw [hstate] at hs
  -- the timer is that of its stream state
  cases hs
  have hcleared := hw.toLinked.clearTimeout hstate
  rw [ht] at hcleared
  unfold World.reconnect
  dsimp only
  split
  · next hcurrent =>
    -- a current stream state with a timer has no connection
    have hclosed : state.closeFn = none := (hw.steady _ _ hcurrent hstate).mpr (by simp [ht])
    refine ⟨hcleared.openPaymentStream hcurrent (Function.update_self _ _ _) hclosed,
      fun j s hj hs => ?_⟩
    cases hj.symm.trans hcurrent
    simp only [World.openPaymentStream, setState, Function.update_self] at hs
    cases hs
    simp
  -- the stream state has been replaced, and only the timer is cleared
  · next hother =>
    refine ⟨hcleared, fun j s hj hs => ?_⟩
    simp only [setState, Function.update_apply] at hs
    split at hs
    · next hji => exact absurd (hji ▸ hj) hother
    · exact hw.steady j s hj hs

/-- **A step keeps the invariant.** One case for each call from outside and for each event. -/
theorem Good.step (hw : Good w) {op : Op} (h : step w op = some w') : Good w' := by
  cases op with
  | streamPayments publicKey cursor =>
    cases h
    exact hw.streamPayments publicKey cursor
  | closePaymentStream =>
    cases h
    obtain ⟨hclosed, hidle⟩ := hw.toLinked.closePaymentStream
    refine ⟨hclosed, fun i state hi => ?_⟩
    rw [hidle] at hi
    cases hi
  | onmessage c =>
    -- an event of a connection that is unknown is no step
    obtain ⟨k, -, h⟩ := Option.bind_eq_some_iff.mp h
    obtain ⟨state, hstate, h⟩ := Option.bind_eq_some_iff.mp h
    cases h
    exact hw.onmessage hstate
  | onerror c =>
    obtain ⟨k, -, h⟩ := Option.bind_eq_some_iff.mp h
    obtain ⟨state, hstate, h⟩ := Option.bind_eq_some_iff.mp h
    cases h
    exact hw.onerror hstate
  | timeout t =>
    obtain ⟨τ, hτ, h⟩ := Option.bind_eq_some_iff.mp h
    obtain ⟨state, hstate, h⟩ := Option.bind_eq_some_iff.mp h
    cases h
    exact hw.reconnect hτ hstate

end Good

theorem good_of_run {h : List (Call World Op Unit)} {w : World} (hrun : Run machine Init h w) :
    Good w := by
  refine hrun.invariant (P := Good) ?_ fun t w op r w' hw hexec => ?_
  · rintro w rfl
    have hempty : Linked ({} : World) :=
      ⟨fun _ _ => rfl, fun _ _ => rfl, fun _ _ => rfl, nofun, nofun, nofun, nofun, nofun⟩
    exact ⟨hempty, nofun⟩
  · obtain ⟨w'', hstep, heq⟩ := Option.map_eq_some_iff.mp (orTrap_eq_ok.mp hexec)
    cases heq
    exact hw.step hstep

/-! ### What the service is asked for -/

/-- What the newest call from outside asks for. Events and timers ask for nothing; they may come
long after the stream they belong to was replaced. -/
def wanted : List (Call World Op Unit) → Option (String × Option String)
  | [] => none
  | c :: h =>
    match c.op with
    | .streamPayments publicKey cursor => some (publicKey, cursor)
    | .closePaymentStream => none
    | .onmessage _ | .onerror _ | .timeout _ => wanted h

namespace World

/-- What the service's stream state says. It is read off the stream state that the service holds,
whatever connections there are. -/
def served (w : World) : Option (String × Option String) :=
  (w.streamState.bind w.states).map fun state => (state.publicKey, state.cursor)

/-- A connection that is open. -/
def IsOpen (w : World) (c : ℕ) : Prop := ∃ k, w.connections c = some k ∧ k.isOpen = true

/-- A timer of the service's stream state. -/
def IsDue (w : World) (t : ℕ) : Prop :=
  ∃ τ, w.timers t = some τ ∧ w.streamState = some τ.state

end World

section Served

variable {h : List (Call World Op Unit)} {w w' : World} {i : ℕ} {state : StreamState}

/-- What is served does not depend on the other fields of the stream states. It depends on the
account and the cursor alone, and no handler writes these. -/
theorem served_eq (state' : StreamState) (hstate : w.states i = some state)
    (hkey : state'.publicKey = state.publicKey) (hcursor : state'.cursor = state.cursor)
    (hcurrent : w'.streamState = w.streamState)
    (hstates : w'.states = Function.update w.states i (some state')) : w'.served = w.served := by
  unfold World.served
  rw [hcurrent]
  cases hsome : w.streamState with
  | none => rfl
  | some j =>
    rw [Option.bind_some, Option.bind_some, hstates, Function.update_apply]
    split
    · next hji =>
      rw [hji, hstate, Option.map_some, Option.map_some, hkey, hcursor]
    · rfl

theorem served_onerror (hstate : w.states i = some state) :
    (w.onerror i state).served = w.served := by
  obtain ⟨hstates, hcurrent⟩ := closeCurrentStream_states hstate
  let w₁ := (w.closeCurrentStream i state).clearTimeout state.reconnectTimer
  -- an error writes the connection, the timer and the back-off
  refine served_eq { state with
      closeFn := none
      reconnectTimer := some w₁.next
      backoffMs := min (state.backoffMs * 2) maxBackoffMs } hstate rfl rfl ?_ ?_
  · exact ((clearTimeout_states _ _).2).trans hcurrent
  · simp only [World.onerror, World.scheduleReconnect, setState, (clearTimeout_states _ _).1,
      hstates, Function.update_idem]
    rfl

theorem served_reconnect {t : ℕ} (hstate : w.states i = some state) :
    (w.reconnect t i state).served = w.served := by
  unfold World.reconnect
  dsimp only
  split
  -- a reconnection writes the connection and the timer
  · refine served_eq { state with reconnectTimer := none, closeFn := some w.next } hstate
      rfl rfl rfl ?_
    simp only [World.openPaymentStream, setState, Function.update_idem]
  · exact served_eq { state with reconnectTimer := none } hstate rfl rfl rfl rfl

theorem served_of_run (hrun : Run machine Init h w) : w.served = wanted h := by
  -- along the run, with the invariant at hand for the states before each call
  refine hrun.induction (P := fun h w => w.served = wanted h) ?_
    fun h w t op r w' hrun _ hexec ih => ?_
  · rintro w rfl
    rfl
  · have hgood := good_of_run hrun
    obtain ⟨w'', hstep, heq⟩ := Option.map_eq_some_iff.mp (orTrap_eq_ok.mp hexec)
    cases heq
    cases op with
    | streamPayments publicKey cursor =>
      cases hstep
      simp [World.served, World.streamPayments, World.openPaymentStream, setState, wanted]
    | closePaymentStream =>
      cases hstep
      rw [World.served, (hgood.toLinked.closePaymentStream).2]
      rfl
    | onmessage c =>
      obtain ⟨k, -, hstep⟩ := Option.bind_eq_some_iff.mp hstep
      obtain ⟨state, hstate, hstep⟩ := Option.bind_eq_some_iff.mp hstep
      cases hstep
      have hsame : (w.onmessage k.state state).served = w.served :=
        served_eq { state with backoffMs := initialBackoffMs } hstate rfl rfl rfl rfl
      exact hsame.trans ih
    | onerror c =>
      obtain ⟨k, -, hstep⟩ := Option.bind_eq_some_iff.mp hstep
      obtain ⟨state, hstate, hstep⟩ := Option.bind_eq_some_iff.mp hstep
      cases hstep
      exact (served_onerror hstate).trans ih
    | timeout c =>
      obtain ⟨τ, -, hstep⟩ := Option.bind_eq_some_iff.mp hstep
      obtain ⟨state, hstate, hstep⟩ := Option.bind_eq_some_iff.mp hstep
      cases hstep
      exact (served_reconnect hstate).trans ih

/-- The connection that is open is that of the service's stream state. It is unique therefore. -/
theorem Good.isOpen_iff (hw : Good w) {c : ℕ} : w.IsOpen c ↔
    ∃ i state, w.streamState = some i ∧ w.states i = some state ∧ state.closeFn = some c := by
  constructor
  · rintro ⟨k, hk, hopen⟩
    obtain ⟨state, hstate, -, -, hclose⟩ := hw.connection c k hk
    exact ⟨k.state, state, (hw.closeFn _ _ _ hstate (hclose hopen)).1, hstate, hclose hopen⟩
  · rintro ⟨i, state, -, hstate, hclose⟩
    obtain ⟨-, k, hk, -, hopen⟩ := hw.closeFn i state c hstate hclose
    exact ⟨k, hk, hopen⟩

theorem Good.isDue_iff (hw : Good w) {t : ℕ} : w.IsDue t ↔
    ∃ i state, w.streamState = some i ∧ w.states i = some state ∧
      state.reconnectTimer = some t := by
  constructor
  · rintro ⟨τ, hτ, hcurrent⟩
    obtain ⟨state, hstate, ht⟩ := hw.timer t τ hτ
    exact ⟨τ.state, state, hcurrent, hstate, ht⟩
  · rintro ⟨i, state, hcurrent, hstate, ht⟩
    obtain ⟨τ, hτ, rfl⟩ := hw.reconnectTimer i state t hstate ht
    exact ⟨τ, hτ, hcurrent⟩

theorem Good.isPaymentStreamActive_iff (hw : Good w) :
    w.isPaymentStreamActive = true ↔ ∃ c, w.IsOpen c := by
  simp only [hw.isOpen_iff, World.isPaymentStreamActive, Option.any_eq_true,
    Option.bind_eq_some_iff, Option.isSome_iff_exists]
  constructor
  · rintro ⟨state, ⟨i, hcurrent, hstate⟩, c, hclose⟩
    exact ⟨c, i, state, hcurrent, hstate, hclose⟩
  · rintro ⟨c, i, state, hcurrent, hstate, hclose⟩
    exact ⟨state, ⟨i, hcurrent, hstate⟩, c, hclose⟩

/-- A due timer opens a connection. -/
theorem Good.timeout (hw : Good w) {t : ℕ} (ht : w.IsDue t) :
    ∃ w', StellarService.step w (.timeout t) = some w' ∧ w'.isPaymentStreamActive = true := by
  obtain ⟨τ, hτ, hcurrent⟩ := ht
  obtain ⟨state, hstate, -⟩ := hw.timer t τ hτ
  refine ⟨w.reconnect t τ.state state, ?_, ?_⟩
  · simp [StellarService.step, hτ, hstate]
  · simp [World.reconnect, hcurrent, World.openPaymentStream, setState,
      World.isPaymentStreamActive]

/-- **The connections follow the calls.** Whatever the order of calls, events and timers, there is
at most one open connection, for the account and the cursor of the newest call if that was
`streamPayments`, and none if it closed the stream. A stream that is not closed is either connected
or about to reconnect, and a timer that is due then connects it. An event of a stream that was
replaced reaches its own stream state, which is not current, and so it neither opens nor closes
anything of the new stream. -/
theorem connections_follow_calls (hrun : Run machine Init h w) :
    (∀ c c', w.IsOpen c → w.IsOpen c' → c = c') ∧
    (w.isPaymentStreamActive = true ↔ ∃ c, w.IsOpen c) ∧
    (∀ c k, w.connections c = some k → k.isOpen = true → ∃ cursor,
      wanted h = some (k.publicKey, cursor) ∧ k.cursor = cursor.filter fun s => s ≠ "") ∧
    (wanted h ≠ none → Xor (∃ c, w.IsOpen c) (∃ t, w.IsDue t)) ∧
    (∀ t, w.IsDue t → ∃ w', step w (.timeout t) = some w' ∧ w'.isPaymentStreamActive = true) := by
  have hw := good_of_run hrun
  have hserved := served_of_run hrun
  refine ⟨?_, hw.isPaymentStreamActive_iff, ?_, ?_, fun t => hw.timeout⟩
  -- both are the connection of the current stream state
  · intro c c' hc hc'
    obtain ⟨i, state, hi, hstate, hclose⟩ := hw.isOpen_iff.mp hc
    obtain ⟨i', state', hi', hstate', hclose'⟩ := hw.isOpen_iff.mp hc'
    rw [hi] at hi'
    cases hi'
    rw [hstate] at hstate'
    cases hstate'
    exact Option.some.inj (hclose.symm.trans hclose')
  -- what is open was opened for the stream state, and that is what was asked for
  · intro c k hk hopen
    obtain ⟨state, hstate, hkey, hcursor, hclose⟩ := hw.connection c k hk
    have hcurrent := (hw.closeFn _ _ _ hstate (hclose hopen)).1
    rw [World.served, hcurrent, Option.bind_some, hstate] at hserved
    exact ⟨state.cursor, by rw [← hserved, hkey]; rfl, hcursor⟩
  · intro hwanted
    rw [← hserved] at hwanted
    obtain ⟨x, hx⟩ := Option.ne_none_iff_exists'.mp hwanted
    obtain ⟨state, hbind, -⟩ := Option.map_eq_some_iff.mp hx
    obtain ⟨i, hi, hstate⟩ := Option.bind_eq_some_iff.mp hbind
    have hsteady := hw.steady i state hi hstate
    have hopen : (∃ c, w.IsOpen c) ↔ state.closeFn ≠ none := by
      simp only [hw.isOpen_iff, hi, hstate, Option.some.injEq, exists_and_left, exists_eq_left',
        Option.ne_none_iff_exists']
    have hdue : (∃ t, w.IsDue t) ↔ state.reconnectTimer ≠ none := by
      simp only [hw.isDue_iff, hi, hstate, Option.some.injEq, exists_and_left, exists_eq_left',
        Option.ne_none_iff_exists']
    -- exactly one of the two, by `steady`
    rw [xor_def, hopen, hdue]
    tauto

end Served

/-- A stream that was lost and reconnected. -/
theorem connections_follow_calls_reconnected : ∃ (h : List (Call World Op Unit)) (w : World),
    Run machine Init h w ∧
      h.map Call.op = [.timeout 2, .onerror 1, .streamPayments "GABC" none] ∧
      (∀ c c', w.IsOpen c → w.IsOpen c' → c = c') ∧
      Xor (∃ c, w.IsOpen c) (∃ t, w.IsDue t) := by
  have hinit : Init {} := rfl
  have hplay : (machine.play [] {}
      [(0, .streamPayments "GABC" none), (1, .onerror 1), (2, .timeout 2)]).map
      (fun x => (x.1.map Call.op, wanted x.1)) =
      some ([.timeout 2, .onerror 1, .streamPayments "GABC" none], some ("GABC", none)) := by
    decide
  obtain ⟨h, w, hrun, hview⟩ := Run.of_play hinit hplay
  obtain ⟨hops, hwanted⟩ := Prod.mk.inj hview
  have hfollow := connections_follow_calls hrun
  exact ⟨h, w, hrun, hops, hfollow.1, hfollow.2.2.2.1 (by rw [hwanted]; simp)⟩

end StellarService
end NbsBond
