import Deeds.Binary32.Arithmetic
import Deeds.Line.Read
import Deeds.LoadError

/-!
# Templates

A template is a checked definition: its lines are read, its tags agree and select an execution mode,
and a tracked action has a positive indicator.

* `Template.ofDefinition` : the template of a definition, or everything that is wrong with it.
-/

namespace Deeds

/-- An action that can be invoked. -/
structure Template where
  name : String
  description : String
  duration : UInt32
  targetNumber : UInt32
  progressIndicator : Binary32
  fixedProgression : Binary32
  tags : TagSet
  mode : ExecutionMode
  conditions : List Condition
  effects : List Effect
  costs : List Effect
  mode_eq : tags.executionMode = some mode
  deriving DecidableEq

namespace Template

/-- Who acts. -/
def actorMode (t : Template) : ActorMode := t.tags.actorMode

/-- The action is against the law. -/
def isIllegal (t : Template) : Bool := t.tags.isIllegal

/-- The same in every part, numbers compared as values. A template with not-a-number in it is the
same as none. -/
def agrees (s t : Template) : Bool :=
  s.progressIndicator.eq t.progressIndicator && s.fixedProgression.eq t.fixedProgression
    && s.name = t.name && s.description = t.description && s.duration = t.duration
    && s.targetNumber = t.targetNumber && s.tags = t.tags && s.mode = t.mode
    && s.conditions = t.conditions && s.effects = t.effects && s.costs = t.costs

/-! ## Reading the lines of a definition -/

/-- The values of the lines that can be read, and a fault for each of the others; the first line has
the given index. -/
def readLines {α : Type} (field : Definition.Field) (read : String → Except Line.LineError α)
    (index : Nat) : List String → List Fault × List α
  | [] => ([], [])
  | line :: rest =>
    let (faults, values) := readLines field read (index + 1) rest
    match read line with
    | .ok value => (faults, value :: values)
    | .error cause => (.malformed field index line cause :: faults, values)

/-- Adds the tags of the lines to a set, and reports each line that is malformed or names a tag
which conflicts with the tags before it. -/
def readTags (tags : TagSet) (index : Nat) : List String → List Fault × TagSet
  | [] => ([], tags)
  | line :: rest =>
    match Line.readTag line with
    | .error cause =>
      let (faults, all) := readTags tags (index + 1) rest
      (.malformed .types index line cause :: faults, all)
    | .ok tag => match tags.push tag with
      | .error cause =>
        let (faults, all) := readTags tags (index + 1) rest
        (.incompatible cause :: faults, all)
      | .ok (more, _) => readTags more (index + 1) rest

/-- What is wrong with the way a definition runs. -/
def modeFaults (indicator : Binary32) : Option ExecutionMode → List Fault
  | none => [.undefinedMode]
  | some mode =>
    if mode.isTracked && !Binary32.lt .zero indicator then [.invalidProgression mode indicator]
    else []

/-- The gain of every hour: as written, or the indicator spread over the duration. -/
def gain (d : Definition) : Binary32 :=
  d.fixedProgression.getD
    (if d.duration = 0 then .zero
      else Binary32.div d.progressIndicator (.ofNat d.duration.toNat))

/-- The template of a definition, or all its faults: those of the name, of the lines in their order,
and of the execution mode. -/
def ofDefinition (d : Definition) : Except (List LoadError) Template :=
  let name := Text.trim d.name
  let (tagFaults, tags) := readTags .empty 0 d.types
  let (conditionFaults, conditions) := readLines .conditions Line.readCondition 0 d.conditions
  let (effectFaults, effects) := readLines .effects Line.readEffect 0 d.effects
  let (costFaults, costs) := readLines .costs Line.readEffect 0 d.costs
  let faults := (if name.isEmpty then [.emptyName] else []) ++ tagFaults ++ conditionFaults
    ++ effectFaults ++ costFaults ++ modeFaults d.progressIndicator tags.executionMode
  let errors := faults.map (LoadError.mk name)
  match h : tags.executionMode with
  | none => .error errors
  | some mode =>
    if errors.isEmpty then
      .ok {
        name, tags, mode, conditions, effects, costs
        description := d.description
        duration := d.duration
        targetNumber := d.targetNumber
        progressIndicator := d.progressIndicator
        fixedProgression := gain d
        mode_eq := h }
    else .error errors

end Template

end Deeds
