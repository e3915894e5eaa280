import Deeds.Ron.Number

/-!
# Values of the object notation

* `Value` : lists, tuples, records, mappings, optional values, and atoms;
* `value` : reads a value from tokens; it may be nested only so deep;
* `Document.read` : a document, that is attributes and one value.

Items are separated by commas, and a comma may follow the last one.
-/

namespace Deeds.Ron

/-- What a document says. -/
inductive Value where
  /-- A name alone, such as `None`, `true` or `inf`. -/
  | word (name : String)
  | number (written : String)
  | text (content : String)
  | literal
  /-- `Some` with a value. -/
  | present (value : Value)
  | list (items : List Value)
  | tuple (name : Option String) (items : List Value)
  | record (name : Option String) (fields : List (String × Value))
  | mapping (entries : List (Value × Value))
  deriving Inhabited

/-- Reads something from the front of a list of tokens. -/
abbrev Reader (α : Type) := List Token → Option (α × List Token)

/-- Reads items up to a closing mark, which is read too; at most the given number of tokens. -/
def sepBy {α : Type} (close : Mark) (item : Reader α) : Nat → Reader (List α)
  | 0, _ => none
  | _, [] => none
  | n + 1, t :: ts =>
    if t = .mark close then some ([], ts)
    else match item (t :: ts) with
      | some (a, .mark .comma :: rest) =>
        (sepBy close item n rest).map fun (as, rest) => (a :: as, rest)
      | some (a, t :: rest) => if t = .mark close then some ([a], rest) else none
      | _ => none

/-- Reads items up to a closing mark. -/
def items {α : Type} (close : Mark) (item : Reader α) : Reader (List α) :=
  fun ts => sepBy close item ts.length ts

/-- Reads a field of a record. -/
def field (item : Reader Value) : Reader (String × Value)
  | .word key :: .mark .colon :: ts => (item ts).map fun (v, rest) => ((key, v), rest)
  | _ => none

/-- Reads an entry of a mapping. -/
def entry (item : Reader Value) : Reader (Value × Value) := fun ts =>
  match item ts with
  | some (key, .mark .colon :: rest) => (item rest).map fun (v, rest) => ((key, v), rest)
  | _ => none

/-- Reads what stands in parentheses, of which the first is already read: a record if it begins with
a field, a tuple otherwise. -/
def group (name : Option String) (item : Reader Value) : Reader Value
  | .word key :: .mark .colon :: ts =>
    (items .closeParen (field item) (.word key :: .mark .colon :: ts)).map fun (fields, rest) =>
      (.record name fields, rest)
  | ts => (items .closeParen item ts).map fun (values, rest) => (.tuple name values, rest)

/-- Names that are values of their own and never followed by parentheses. -/
def isReserved (name : String) : Bool := name != "Some" && valueNames.contains name

/-- Reads the value of `Some`, of which the name is already read. Where that is allowed the value
may stand without parentheses. -/
def some? (implicitSome : Bool) (inner : Reader Value) : Reader Value
  | .mark .openParen :: ts => match inner ts with
    | some (v, .mark .closeParen :: rest) => some (.present v, rest)
    | some (v, .mark .comma :: .mark .closeParen :: rest) => some (.present v, rest)
    | _ => none
  | ts => if implicitSome then (inner ts).map fun (v, rest) => (.present v, rest) else none

/-- Reads a value that has no parts. -/
def atom : Reader Value
  | .word name :: ts => if name = "Some" then none else some (.word name, ts)
  | .number written :: ts => if isNumber written then some (.number written, ts) else none
  | .text content :: ts => some (.text content, ts)
  | .literal :: ts => some (.literal, ts)
  | _ => none

/-- Reads a value whose parts are read by `item`, and the value of `Some` by `inner`. -/
def compound (implicitSome : Bool) (item inner : Reader Value) : Reader Value
  | .word "Some" :: ts => some? implicitSome inner ts
  | .word name :: .mark .openParen :: ts =>
    if isReserved name then some (.word name, .mark .openParen :: ts) else group (some name) item ts
  | .mark .openParen :: ts => group none item ts
  | .mark .openBracket :: ts =>
    (items .closeBracket item ts).map fun (values, rest) => (.list values, rest)
  | .mark .openBrace :: ts =>
    (items .closeBrace (entry item) ts).map fun (entries, rest) => (.mapping entries, rest)
  | ts => atom ts

theorem compound_name {implicitSome : Bool} {item inner : Reader Value} {name : String}
    {ts : List Token} (hname : name ≠ "Some") :
    compound implicitSome item inner (.word name :: .mark .openParen :: ts) =
      if isReserved name then some (.word name, .mark .openParen :: ts)
      else group (some name) item ts := by
  rw [compound]
  rintro ⟨⟩
  exact hname rfl

/-- Reads a value. A value in brackets uses up one level of nesting, and each of its parts another.
-/
def value (implicitSome : Bool) : Nat → Reader Value
  | 0 => atom
  | 1 => compound implicitSome (fun _ => none) (value implicitSome 0)
  | n + 2 => compound implicitSome (value implicitSome n) (value implicitSome (n + 1))

/-! ## Documents -/

/-- What an attribute allows or demands. -/
inductive Extension where
  | unwrapNewtypes
  /-- `Some` may be left out. -/
  | implicitSome
  | unwrapVariantNewtypes
  /-- Records must be named. -/
  | explicitStructNames
  deriving DecidableEq, Repr

/-- The extension of a name. -/
def Extension.ofName? : String → Option Extension
  | "unwrap_newtypes" => some .unwrapNewtypes
  | "implicit_some" => some .implicitSome
  | "unwrap_variant_newtypes" => some .unwrapVariantNewtypes
  | "explicit_struct_names" => some .explicitStructNames
  | _ => none

/-- Reads the name of an extension. -/
def extension : Reader Extension
  | .word name :: ts => (Extension.ofName? name).map fun e => (e, ts)
  | _ => none

/-- Reads an attribute, if one stands in front. -/
def attribute? : List Token → Option (Option (List Extension × List Token))
  | .mark .hash :: ts => match ts with
    | .mark .bang :: .mark .openBracket :: .word "enable" :: .mark .openParen :: ts =>
      match items .closeParen extension ts with
      | some (e :: es, .mark .closeBracket :: rest) => some (some (e :: es, rest))
      | _ => none
    | _ => none
  | _ => some none

/-- Reads at most the given number of attributes. -/
def attributes : Nat → Reader (List Extension)
  | 0, ts => some ([], ts)
  | n + 1, ts => match attribute? ts with
    | none => none
    | some none => some ([], ts)
    | some (some (es, rest)) => (attributes n rest).map fun (more, rest) => (es ++ more, rest)

/-- A value, and the extensions under which it was written. -/
structure Document where
  extensions : List Extension
  value : Value

/-- How deep values may be nested. -/
def nestingLimit : Nat := 128

/-- Reads a document: attributes, one value, and nothing after it. -/
def Document.read (text : String) : Option Document := do
  let ts ← tokenize text
  let (extensions, ts) ← attributes ts.length ts
  match Ron.value (extensions.contains .implicitSome) nestingLimit ts with
  | some (v, []) => some ⟨extensions, v⟩
  | _ => none

end Deeds.Ron
