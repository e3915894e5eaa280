import Deeds.Definition
import Deeds.Ron.Value

/-!
# Files of actions

A file holds a record with the field `actions`, a list of definitions. A definition is a record; all
its fields but the name may be left out, and fields that mean nothing are passed over.

* `ActionFile.read` : the definitions of a file, not yet checked.
-/

namespace Deeds

open Ron (Value Extension)

namespace ActionFile

/-- The value of a field: `some none` when it is left out, `none` when it is given twice. -/
def unique? (fields : List (String × Value)) (key : String) : Option (Option Value) :=
  match fields.filter (·.1 == key) with
  | [] => some none
  | [(_, v)] => some (some v)
  | _ => none

/-- The value of a field, or a default when it is left out. -/
def fieldOr {α : Type} (fields : List (String × Value)) (key : String) (default : α)
    (decode : Value → Option α) : Option α :=
  match unique? fields key with
  | none => none
  | some none => some default
  | some (some v) => decode v

/-- The value of a field that must be there. -/
def required {α : Type} (fields : List (String × Value)) (key : String)
    (decode : Value → Option α) : Option α :=
  (unique? fields key).join.bind decode

/-- A text. -/
def text? : Value → Option String
  | .text s => some s
  | _ => none

/-- A list of texts. -/
def lines? : Value → Option (List String)
  | .list vs => vs.mapM text?
  | _ => none

/-- A number below `2 ^ 32`. -/
def natural32? : Value → Option UInt32
  | .number written => Ron.natural32? written
  | _ => none

/-- A binary number. -/
def binary32? : Value → Option Binary32
  | .number written => Ron.binary32? written
  | .word name => Ron.binary32? name
  | _ => none

/-- A binary number or nothing. -/
def optional32? (extensions : List Extension) : Value → Option (Option Binary32)
  | .word "None" => some none
  | .present v => (binary32? v).map some
  | v => if extensions.contains .implicitSome then (binary32? v).map some else none

/-- The fields of a record, if it has the given name or may go without one. -/
def fields? (extensions : List Extension) (name : String) :
    Value → Option (List (String × Value))
  | .record none fields => if extensions.contains .explicitStructNames then none else some fields
  | .record (some n) fields => if n = name then some fields else none
  | _ => none

/-- A definition. -/
def definition? (extensions : List Extension) (v : Value) : Option Definition := do
  let fields ← fields? extensions "ActionDefinition" v
  let name ← required fields "name" text?
  let description ← fieldOr fields "description" "" text?
  let duration ← fieldOr fields "duration" 0 natural32?
  let targetNumber ← fieldOr fields "target_number" 1 natural32?
  let progressIndicator ← fieldOr fields "progress_indicator" .zero binary32?
  let fixedProgression ← fieldOr fields "fixed_progression" none (optional32? extensions)
  let types ← fieldOr fields "types" [] lines?
  let conditions ← fieldOr fields "conditions" [] lines?
  let effects ← fieldOr fields "effects" [] lines?
  let costs ← fieldOr fields "costs" [] lines?
  some {
    name, description, duration, targetNumber, progressIndicator, fixedProgression
    types, conditions, effects, costs }

/-- The definitions of a document. -/
def ofDocument (d : Ron.Document) : Option (List Definition) := do
  let fields ← fields? d.extensions "ActionFile" d.value
  required fields "actions" fun
    | .list vs => vs.mapM (definition? d.extensions)
    | _ => none

/-- The definitions that a text holds. -/
def read (text : String) : Option (List Definition) := (Ron.Document.read text).bind ofDocument

end ActionFile

end Deeds
