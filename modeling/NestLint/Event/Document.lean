import NestLint.Event.Emitter
import NestLint.Json.Misfit

/-!
# Events in documents

A document tells step by step who listens to which event, and what is emitted. Events and handlers
are labels, and labels that are the same number are one event or one handler. A handler that is
called is noted with the arguments of the event. It fails if it says so with the start of its name,
or if it has no name to say so.

* `Audience.perform`: one step;
* `Audience.census?`: the known events in order, if they have an order.
-/

namespace NestLint

/-- An emitter, with all handlers that were ever named. -/
structure Audience where
  emitter : Emitter Label Label := {}
  handlers : List Label := []

/-- What keeps a step from being performed. -/
inductive EmitFault where
  | misfit (fault : Misfit)
  /-- A handler failed. -/
  | failed (handler : String)
  deriving DecidableEq, Repr, Inhabited

namespace Audience

/-- The event in a step: one that is known, or a new one. -/
def eventIn (a : Audience) (step : Json) : Fitting Label := do
  return (← (← step.need "event").needLabel).among (Dict.keys a.emitter.listeners)

/-- A step about an event and a handler. -/
def subscribe (a : Audience) (step : Json) (change : Emitter Label Label → Label → Label → Emitter Label Label) :
    Audience × Fitting Unit :=
  match (do return (← step.need "event", ← (← step.need "handler").needLabel) : Fitting (Json × Label)) with
  | .error misfit => (a, .error misfit)
  | .ok (_, handler) =>
    let handler := handler.among a.handlers
    let a := { a with handlers := if a.handlers.contains handler then a.handlers else a.handlers ++ [handler] }
    match a.eventIn step with
    | .error misfit => (a, .error misfit)
    | .ok event => ({ a with emitter := change a.emitter event handler }, .ok ())

/-- Names that an argument of an event cannot have. -/
def takenNames : List String := ["self", "event"]

/-- The arguments of an event: those without names and those with names. -/
def argumentsIn (step : Json) : Fitting (List Json × Dict Json) := do
  let plain ← step.partsAt "args"
  let named ← Misfit.wrongKind.orElse ((step.get? "kwargs").getD (.object [])).members?
  if named.any fun entry => takenNames.contains entry.1 then throw .wrongKind
  return (plain, named)

/-- Whether a handler fails when it is called. -/
def fails : Label → Bool
  | .text name => "raise".isPrefixOf name
  | _ => true

/-- Emit an event: which handlers were called with what, and what became of it. -/
def emit (a : Audience) (step : Json) : Audience × List Json × Except EmitFault Unit :=
  match (do return (← a.eventIn step, ← argumentsIn step) : Fitting (Label × List Json × Dict Json)) with
  | .error misfit => (a, [], .error (.misfit misfit))
  | .ok (event, plain, named) =>
    let (emitter, calls) := a.emitter.emit fails event
    let called := calls.called.map fun handler => Json.list [handler.document, .list plain, .object named]
    let result := match calls.failed, calls.called.getLast? with
      | true, some (.text name) => .error (.failed name)
      | true, _ => .error (.misfit .lacking)
      | false, _ => .ok ()
    ({ a with emitter }, called, result)

/-- Perform a step: which handlers were called with what, and what became of it. -/
def perform (a : Audience) (step : Json) : Audience × List Json × Except EmitFault Json :=
  let about (change : Emitter Label Label → Label → Label → Emitter Label Label) (answer : Json) :
      Audience × List Json × Except EmitFault Json :=
    let (a, result) := a.subscribe step change
    (a, [], (result.map fun () => answer).mapError .misfit)
  match step.textAt "do" with
  | "on" | "decorate" => about Emitter.on (.bool true)
  | "once" => about Emitter.once .null
  | "remove" => about Emitter.remove .null
  | "clear" => ({ a with emitter := a.emitter.clear }, [], .ok .null)
  | _ =>
    let (a, called, result) := a.emit step
    (a, called, result.map fun () => .null)

/-- The known events in order, each with the number of its listeners. -/
def census? (a : Audience) : Option (List Json) :=
  (Label.sorted? (Dict.keys a.emitter.listeners)).map fun events =>
    events.map fun event => .list [event.document, .int (a.emitter.listening event).length]

end Audience

end NestLint
