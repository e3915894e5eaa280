import Deeds.Engine.Invocation
import Deeds.Engine.Hours

/-!
# Steps of the engine

* `Engine.stop` : ends a live deed; a pending invocation learns of it through its token;
* `Engine.step` : what each input does.
-/

namespace Deeds.Engine

/-- Stops a live deed. A tracked one is dropped at once. The token of a pending one is fired, which
ends the question that it waits for. -/
def stop (e : Engine) (id : DeedId) : Run :=
  match e.pending? id with
  | some i => (e, [.fire i.token, .acknowledge id (.ok ())])
  | none => match e.tracker.find? id with
    | some d => Run.andThen (e.cancelTracked d .stopped) fun e => (e, [.acknowledge id (.ok ())])
    | none => (e, [.acknowledge id (.error (.unknownInstance id))])

/-- Takes what came back. -/
def take (e : Engine) : Finding → Run
  | .resolved id actor => e.resolved id actor
  | .verified id outcome => e.verified id outcome
  | .reverified id outcome => e.reverified id outcome

/-- Takes an input. -/
def step (rates : CharacterId → Option Binary32) (e : Engine) : Input → Run
  | .invoke call name target token => e.invoke call name target token
  | .stop id => e.stop id
  | .finding finding => e.take finding
  | .tick hour => e.tick rates hour
  | .clockClosed => e.unsubscribe

end Deeds.Engine
