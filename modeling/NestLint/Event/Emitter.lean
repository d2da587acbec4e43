import NestLint.Dict

/-!
# Events and their listeners

A listener hears an event every time, or only the next time. A listener that hears only once is gone
before it is called, so that the same handler may subscribe again while it is called. Who hears an
event is settled when it is emitted.

The emitter is `EventEmitter` with `on`, `once`, `remove`, `clear` and `emit`.

* `Emitter.serve`: the listeners one after the other, up to the first that fails;
* `Emitter.emit`: handlers that have nothing to do with the emitter;
* `Emitter.cascade`: handlers that emit events themselves.
-/

namespace NestLint

/-- A subscription. Two subscriptions for one time each are two listeners, even of the same
handler. -/
inductive Listener (α : Type) where
  | always (handler : α)
  | once (number : Nat) (handler : α)
  deriving DecidableEq, Repr

/-- The handler of a listener. -/
def Listener.handler {α : Type} : Listener α → α
  | .always handler | .once _ handler => handler

/-- Who listens to which event: events of type `ε` and handlers of type `α`. -/
structure Emitter (ε α : Type) where
  listeners : Table ε (List (Listener α)) := []
  /-- How many subscriptions for one time there have been. -/
  issued : Nat := 0
  deriving Repr

/-- What becomes of calling handlers: which were called, in order, and whether the last one
failed. -/
structure Calls (α : Type) where
  called : List α := []
  failed : Bool := false
  deriving Repr

namespace Emitter

variable {ε α : Type}

/-- Nobody listens any more. -/
def clear (m : Emitter ε α) : Emitter ε α := { m with listeners := [] }

/-- The known events with the number of their listeners. -/
def census (m : Emitter ε α) : List (ε × Nat) := m.listeners.map fun entry => (entry.1, entry.2.length)

variable [DecidableEq ε]

/-- Who listens to an event. -/
def listening (m : Emitter ε α) (event : ε) : List (Listener α) := Dict.getD m.listeners event []

/-- The emitter with the listeners of an event changed. The event is known from then on. -/
def change (m : Emitter ε α) (event : ε) (f : List (Listener α) → List (Listener α)) : Emitter ε α :=
  { m with listeners := Dict.insert m.listeners event (f (m.listening event)) }

theorem listening_change (m : Emitter ε α) (event other : ε) (f : List (Listener α) → List (Listener α)) :
    (m.change event f).listening other = if event = other then f (m.listening event) else m.listening other := by
  simp only [listening, change, Dict.getD, Dict.get?_insert]
  split <;> rfl

theorem listening_clear (m : Emitter ε α) (event : ε) : m.clear.listening event = [] := rfl

variable [DecidableEq α]

/-- One listener more, unless it listens already. -/
def withListener (l : Listener α) (listeners : List (Listener α)) : List (Listener α) :=
  if l ∈ listeners then listeners else listeners ++ [l]

/-- A handler listens to an event. -/
def on (m : Emitter ε α) (event : ε) (handler : α) : Emitter ε α := m.change event (withListener (.always handler))

/-- A handler listens to an event until it has heard it once. -/
def once (m : Emitter ε α) (event : ε) (handler : α) : Emitter ε α :=
  { m.change event (withListener (.once m.issued handler)) with issued := m.issued + 1 }

/-- A handler that listens to an event every time does so no more. -/
def remove (m : Emitter ε α) (event : ε) (handler : α) : Emitter ε α :=
  m.change event fun listeners => listeners.filter (· ≠ .always handler)

/-- A listener is about to be called: if it hears only once, it is gone. -/
def release (m : Emitter ε α) (event : ε) : Listener α → Emitter ε α
  | .always _ => m
  | .once number handler => m.change event fun listeners => listeners.filter (· ≠ .once number handler)

/-- Call listeners of an event one after the other, up to the first that fails. -/
def serve (call : Emitter ε α → α → Emitter ε α × Calls α) (event : ε) :
    List (Listener α) → Emitter ε α → Emitter ε α × Calls α
  | [], m => (m, {})
  | l :: rest, m =>
    let (m, first) := call (m.release event l) l.handler
    if first.failed then (m, first)
    else
      let (m, more) := serve call event rest m
      (m, { more with called := first.called ++ more.called })

/-- Emit an event to whoever listens at this moment. An event that is emitted is known from then
on. -/
def emitWith (call : Emitter ε α → α → Emitter ε α × Calls α) (m : Emitter ε α) (event : ε) :
    Emitter ε α × Calls α :=
  serve call event (m.listening event) (m.change event id)

/-- Emit an event. Some handlers fail. -/
def emit (fails : α → Bool) (m : Emitter ε α) (event : ε) : Emitter ε α × Calls α :=
  emitWith (fun m handler => (m, ⟨[handler], fails handler⟩)) m event

/-- Several events one after the other. -/
def emitEach (emit : Emitter ε α → ε → Emitter ε α × Calls α) :
    List ε → Emitter ε α → Emitter ε α × Calls α
  | [], m => (m, {})
  | event :: rest, m =>
    let (m, first) := emit m event
    let (m, more) := emitEach emit rest m
    (m, { more with called := first.called ++ more.called })

/-- Emit an event to handlers that emit events when they are called, nested at most `depth` deep. -/
def cascade (reaction : α → List ε) : Nat → Emitter ε α → ε → Emitter ε α × Calls α
  | 0, m, event => emitWith (fun m handler => (m, ⟨[handler], false⟩)) m event
  | depth + 1, m, event =>
    emitWith (fun m handler =>
      let (m, calls) := emitEach (cascade reaction depth) (reaction handler) m
      (m, { calls with called := handler :: calls.called })) m event

theorem mem_listening_on (m : Emitter ε α) (event : ε) (handler : α) :
    Listener.always handler ∈ (m.on event handler).listening event := by
  rw [on, listening_change, if_pos rfl, withListener]
  split
  · assumption
  · simp

theorem not_mem_listening_remove (m : Emitter ε α) (event : ε) (handler : α) :
    Listener.always handler ∉ (m.remove event handler).listening event := by
  rw [remove, listening_change, if_pos rfl]
  simp

end Emitter

end NestLint
