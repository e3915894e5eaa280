import Deeds.Toml.Value

/-!
# Configuration documents

A document is a sequence of lines: keys with values, and headings, under which the keys that follow
belong.

* `Entries.open`, `Entries.openElement` : a heading;
* `read` : the keys of a document.
-/

namespace Deeds.Toml

namespace Entries

/-- Changes the table that a heading is under: `f` gets its keys and the last part of the heading.
The tables before it come about if they are not there. -/
def under (f : String → Entries → Option Entries) : List String → Entries → Option Entries
  | [], _ => none
  | [k], es => f k es
  | k :: ks, es => match es.get? k with
    | none => (under f ks []).map fun sub => es.put k (.table .implied sub)
    | some (.table form sub) => (under f ks sub).map fun sub => es.put k (.table form sub)
    | some (.tables sub) => (under f ks sub).map fun sub => es.put k (.tables sub)
    | some (.value _) => none

/-- A heading of a table, which must be new or have come about by headings alone. -/
def openTable (path : List String) (es : Entries) : Option Entries :=
  under (fun k es => match es.get? k with
    | none => some (es.put k (.table .headed []))
    | some (.table .implied sub) => some (es.put k (.table .headed sub))
    | some _ => none) path es

/-- A heading of a further table of a list. -/
def openElement (path : List String) (es : Entries) : Option Entries :=
  under (fun k es => match es.get? k with
    | none => some (es.put k (.tables []))
    | some (.tables _) => some (es.put k (.tables []))
    | some _ => none) path es

/-- Gives a key below a heading a value. -/
def defineUnder (heading : List String) (k : List String) (v : Value) (es : Entries) :
    Option Entries :=
  if heading.isEmpty then es.define v k
  else under (fun last es => match es.get? last with
    | some (.table form sub) => (define v k sub).map fun sub => es.put last (.table form sub)
    | some (.tables sub) => (define v k sub).map fun sub => es.put last (.tables sub)
    | _ => none) heading es

end Entries

/-- What follows the end of a line: blanks and a comment may stand before it. -/
def endOfLine (cs : List Char) : Option (List Char) :=
  let rest := cs.dropWhile isBlank
  let rest := match rest with
    | '#' :: comment => comment.dropWhile isTextChar
    | rest => rest
  match rest with
  | [] => some []
  | '\n' :: rest => some rest
  | '\r' :: '\n' :: rest => some rest
  | _ => none

/-- The part of a document that is read: all keys, and the heading that the next keys belong to. -/
structure Progress where
  entries : Entries
  heading : List String

/-- Reads a heading or a key with its value. -/
def expression (p : Progress) (cs : List Char) :
    Option (Progress × List Char) :=
  match cs with
  | '[' :: '[' :: rest => do
    let (path, rest) ← key (rest.length + 1) rest
    let rest ← expect? ']' rest
    let rest ← expect? ']' rest
    let entries ← p.entries.openElement path
    some (⟨entries, path⟩, rest)
  | '[' :: rest => do
    let (path, rest) ← key (rest.length + 1) rest
    let rest ← expect? ']' rest
    let entries ← p.entries.openTable path
    some (⟨entries, path⟩, rest)
  | cs => do
    let ((k, v), rest) ← keyValue (value nestingLimit) cs
    let entries ← p.entries.defineUnder p.heading k v
    some ({ p with entries }, rest)

/-- Reads at most the given number of headings and keys. -/
def expressions : Nat → Progress → List Char → Option Progress
  | 0, _, _ => none
  | n + 1, p, cs => match skipLines false cs with
    | none => none
    | some [] => some p
    | some (c :: rest) => do
      let (p, rest) ← expression p (c :: rest)
      let rest ← endOfLine rest
      expressions n p rest

/-- The keys of a document. A mark of the byte order may stand in front. -/
def read (text : String) : Option Entries :=
  let cs := match text.toList with
    | '\ufeff' :: cs => cs
    | cs => cs
  (expressions (cs.length + 1) ⟨[], []⟩ cs).map Progress.entries

end Deeds.Toml
