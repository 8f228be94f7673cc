import NbsBond.Framework.Run

/-!
# The payment stream

`streamPayments` of `api/src/stellar/stellar.service.ts`, with the connections to Horizon and the
timers that it makes. JavaScript's objects are told apart by number, and each closure by the object
it was made for. A step is a call from outside, an event of a connection, or a timer that goes off.

A connection may report an event at any time after it was opened, also when it has been closed: what
is said here does not depend on how soon Horizon's client falls silent. The handlers run only after
`builder.stream` has returned: a client that called `onerror` from inside that call would find
`closeFn` still unset.
-/

namespace NbsBond
namespace StellarService

open Soroban

structure StreamState where
  publicKey : String
  cursor : Option String
  /-- The connection that it closes. -/
  closeFn : Option ℕ
  reconnectTimer : Option ℕ
  backoffMs : ℕ
  deriving DecidableEq, Repr

/-- What `builder.stream` made for a stream state. The stream state is fixed in the closures of the
connection, whatever the service points to later. -/
structure Connection where
  state : ℕ
  publicKey : String
  cursor : Option String
  isOpen : Bool
  deriving DecidableEq, Repr

/-- A pending `setTimeout` of `scheduleReconnect`. When it goes off the timer is gone. Closing the
stream clears it, unless it has gone off before. -/
structure Timer where
  state : ℕ
  delayMs : ℕ
  deriving DecidableEq, Repr

/-- The service's `streamState`, and all objects by their number. `next` is the number of the next
object, of whatever kind, so that no number is used twice. -/
structure World where
  streamState : Option ℕ := none
  states : ℕ → Option StreamState := fun _ => none
  connections : ℕ → Option Connection := fun _ => none
  timers : ℕ → Option Timer := fun _ => none
  next : ℕ := 0

def initialBackoffMs : ℕ := 1000

def maxBackoffMs : ℕ := 30000

namespace World

/-- Assign to a stream state. The objects are shared: a closure sees what was assigned last. -/
def setState (w : World) (i : ℕ) (state : StreamState) : World :=
  { w with states := Function.update w.states i (some state) }

/-- The query of a connection: an empty cursor is none. -/
def cursorOf (state : StreamState) : Option String := state.cursor.filter fun cursor => cursor ≠ ""

/-- `openPaymentStream`. The function that closes the connection is kept in the stream state, in
place of an older one. -/
def openPaymentStream (w : World) (i : ℕ) (state : StreamState) : World :=
  let connection : Connection := ⟨i, state.publicKey, cursorOf state, true⟩
  { w.setState i { state with closeFn := some w.next } with
    connections := Function.update w.connections w.next (some connection)
    next := w.next + 1 }

/-- Close a connection. -/
def closeConnection (w : World) (c : ℕ) : World :=
  let closed := (w.connections c).map fun connection => { connection with isOpen := false }
  { w with connections := Function.update w.connections c closed }

/-- `closeCurrentStream`. A stream state without a connection is left as it is. -/
def closeCurrentStream (w : World) (i : ℕ) (state : StreamState) : World :=
  match state.closeFn with
  | some c => (w.closeConnection c).setState i { state with closeFn := none }
  | none => w

/-- `clearTimeout`, if there is a timer. -/
def clearTimeout (w : World) (timer : Option ℕ) : World :=
  match timer with
  | some t => { w with timers := Function.update w.timers t none }
  | none => w

/-- `scheduleReconnect`. The timer runs for the delay there was, and the next one will be twice as
long. -/
def scheduleReconnect (w : World) (i : ℕ) (state : StreamState) : World :=
  -- At most one timer of a stream state is pending.
  let w := w.clearTimeout state.reconnectTimer
  let state' :=
    { state with
      reconnectTimer := some w.next
      backoffMs := min (state.backoffMs * 2) maxBackoffMs }
  { w.setState i state' with
    timers := Function.update w.timers w.next (some ⟨i, state.backoffMs⟩)
    next := w.next + 1 }

/-- `closePaymentStream`. The stream state stays where closures point to it, but it is not the
service's any more. -/
def closePaymentStream (w : World) : World :=
  match w.streamState with
  | none => w
  | some i =>
    match w.states i with
    | none => w
    | some state =>
      let w := w.clearTimeout state.reconnectTimer
      let state := { state with reconnectTimer := none }
      { (w.setState i state).closeCurrentStream i state with streamState := none }

/-- `streamPayments`. A call replaces the stream there was, and starts with the shortest delay. -/
def streamPayments (w : World) (publicKey : String) (cursor : Option String) : World :=
  let w := w.closePaymentStream
  let state : StreamState := ⟨publicKey, cursor, none, none, initialBackoffMs⟩
  let w' : World := { w.setState w.next state with streamState := some w.next, next := w.next + 1 }
  w'.openPaymentStream w.next state

/-- `isPaymentStreamActive`. Between an error and the reconnection the stream is not active. -/
def isPaymentStreamActive (w : World) : Bool :=
  (w.streamState.bind w.states).any fun state => state.closeFn.isSome

/-- The `onmessage` of a connection, for the state it was opened for. A message says that the
connection works: the delay is short again. -/
def onmessage (w : World) (i : ℕ) (state : StreamState) : World :=
  w.setState i { state with backoffMs := initialBackoffMs }

/-- The `onerror` of a connection. The connection is closed first; it is the only one of its stream
state. -/
def onerror (w : World) (i : ℕ) (state : StreamState) : World :=
  (w.closeCurrentStream i state).scheduleReconnect i { state with closeFn := none }

/-- What the timer `t` does when it goes off. A stream that was closed in the meantime does not
reconnect. -/
def reconnect (w : World) (t i : ℕ) (state : StreamState) : World :=
  let w : World := { w with timers := Function.update w.timers t none }
  let state := { state with reconnectTimer := none }
  let w := w.setState i state
  -- The state is compared by identity, as the object it is.
  if w.streamState = some i then w.openPaymentStream i state else w

end World

/-- One step. -/
inductive Op where
  | streamPayments (publicKey : String) (cursor : Option String)
  /-- A function that `streamPayments` returned, or `onModuleDestroy`. -/
  | closePaymentStream
  | onmessage (connection : ℕ)
  | onerror (connection : ℕ)
  | timeout (timer : ℕ)
  deriving DecidableEq, Repr

/-- The effect of a step; `none` if there is no such connection or timer. An event of a connection
finds its stream state by the closure, not by the service. -/
def step (w : World) : Op → Option World
  | .streamPayments publicKey cursor => some (w.streamPayments publicKey cursor)
  | .closePaymentStream => some w.closePaymentStream
  | .onmessage c => do
    let connection ← w.connections c
    let state ← w.states connection.state
    return w.onmessage connection.state state
  | .onerror c => do
    let connection ← w.connections c
    let state ← w.states connection.state
    return w.onerror connection.state state
  | .timeout t => do
    let timer ← w.timers t
    let state ← w.states timer.state
    return w.reconnect t timer.state state

/-- Calls, events and timers, in any order. -/
def machine : Machine World Op Unit Unit :=
  ⟨fun _ w op => orTrap ((step w op).map fun w' => (w', ()))⟩

/-- A new service. -/
def Init (w : World) : Prop := w = {}

end StellarService
end NbsBond
