import Deeds.Binary32.Decimal
import Deeds.Identity
import Deeds.Severity

/-!
# Failures

* `InvocationError` : why an invocation did not start a deed; none of them leaves anything behind;
* `TrackingError` : why a deed can no longer progress;
* `EngineError` : why a request to the engine failed.
-/

namespace Deeds

/-- Why an invocation did not start a deed. -/
inductive InvocationError where
  | unknownAction (action : String)
  /-- No actor was chosen. -/
  | resolutionCancelled (action : String)
  /-- The actor is at another deed. -/
  | actorBusy (actor : CharacterId) (current : DeedId)
  | conditionsNotMet (action : String)
  | verificationTimedOut (action : String)
  /-- Cancelled while its conditions were checked. -/
  | stopped (action : String)
  | engineStopped
  deriving DecidableEq, Repr

namespace InvocationError

/-- The message of an error. -/
def message : InvocationError → String
  | .unknownAction action => s!"unknown action `{action}`"
  | .resolutionCancelled action => s!"actor resolution for `{action}` was cancelled"
  | .actorBusy actor current => s!"{actor} is already performing {current}"
  | .conditionsNotMet action => s!"conditions for `{action}` are not met"
  | .verificationTimedOut action => s!"verification for `{action}` timed out"
  | .stopped action => s!"`{action}` was stopped before it started"
  | .engineStopped => "action engine is not running"

/-- The code of an error. -/
def code : InvocationError → String
  | .unknownAction _ => "INVOCATION_UNKNOWN_ACTION"
  | .resolutionCancelled _ => "INVOCATION_RESOLUTION_CANCELLED"
  | .actorBusy .. => "INVOCATION_ACTOR_BUSY"
  | .conditionsNotMet _ => "INVOCATION_CONDITIONS_NOT_MET"
  | .verificationTimedOut _ => "INVOCATION_VERIFICATION_TIMED_OUT"
  | .stopped _ => "INVOCATION_STOPPED"
  | .engineStopped => "INVOCATION_ENGINE_STOPPED"

/-- The severity of an error. -/
def severity : InvocationError → Severity
  | .unknownAction _ => .validation
  | .engineStopped => .fatal
  | _ => .recoverable

end InvocationError

instance : Diagnostic InvocationError where
  message := InvocationError.message
  code := InvocationError.code
  severity := InvocationError.severity

/-- Why a deed can no longer progress. -/
inductive TrackingError where
  | missingActor (deed : DeedId)
  /-- The actor has no progression rate. -/
  | missingRate (actor : CharacterId)
  /-- The actor's rate is infinite or not a number. -/
  | invalidRate (actor : CharacterId) (rate : Binary32)
  deriving DecidableEq

namespace TrackingError

/-- The message of an error. -/
def message : TrackingError → String
  | .missingActor deed => s!"{deed} has no actor"
  | .missingRate actor => s!"{actor} has no progression rate attribute"
  | .invalidRate actor rate => s!"{actor} has a non-finite progression rate ({rate.toText})"

/-- The code of an error. -/
def code : TrackingError → String
  | .missingActor _ => "TRACKING_MISSING_ACTOR"
  | .missingRate _ => "TRACKING_MISSING_ATTRIBUTE"
  | .invalidRate .. => "TRACKING_INVALID_ATTRIBUTE"

end TrackingError

instance : Diagnostic TrackingError where
  message := TrackingError.message
  code := TrackingError.code
  severity _ := .internal

/-- What an engine works with. -/
inductive Collaborator where
  | catalog
  | timeSource
  | resources
  | actors
  deriving DecidableEq, Repr

/-- Why a request to the engine failed. -/
inductive EngineError where
  | commandChannelClosed
  | replyChannelClosed
  | workerJoin
  | missing (collaborator : Collaborator)
  | unknownInstance (deed : DeedId)
  deriving DecidableEq, Repr

namespace EngineError

/-- The message of an error. -/
def message : EngineError → String
  | .commandChannelClosed => "engine worker command channel closed"
  | .replyChannelClosed => "engine worker reply channel closed"
  | .workerJoin => "engine worker join failed"
  | .missing .catalog => "runtime requires an action catalog before building"
  | .missing .timeSource => "runtime requires a time source before building"
  | .missing .resources => "runtime requires a resource store before building"
  | .missing .actors => "runtime requires an actor directory before building"
  | .unknownInstance deed => s!"no live action instance {deed}"

/-- The code of an error. -/
def code : EngineError → String
  | .commandChannelClosed => "RUNTIME_COMMAND_CHANNEL_CLOSED"
  | .replyChannelClosed => "RUNTIME_REPLY_CHANNEL_CLOSED"
  | .workerJoin => "RUNTIME_WORKER_JOIN"
  | .missing .catalog => "RUNTIME_MISSING_CATALOG"
  | .missing .timeSource => "RUNTIME_MISSING_TIME_SOURCE"
  | .missing .resources => "RUNTIME_MISSING_RESOURCES"
  | .missing .actors => "RUNTIME_MISSING_ACTORS"
  | .unknownInstance _ => "RUNTIME_UNKNOWN_INSTANCE"

/-- The severity of an error. -/
def severity : EngineError → Severity
  | .missing _ => .validation
  | .unknownInstance _ => .validation
  | _ => .fatal

end EngineError

instance : Diagnostic EngineError where
  message := EngineError.message
  code := EngineError.code
  severity := EngineError.severity

/-- The collaborators that an engine needs, in the order in which they are asked for. -/
def Collaborator.required : List Collaborator := [.catalog, .timeSource, .resources, .actors]

/-- An engine can be built of these collaborators, or the first one that is missing. -/
def EngineError.checkCollaborators (present : List Collaborator) : Except EngineError Unit :=
  match Collaborator.required.find? fun c => !present.contains c with
  | some c => .error (.missing c)
  | none => .ok ()

end Deeds
