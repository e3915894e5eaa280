import Deeds.Text.Bytes

/-!
# Folders and files

* `FileName` : a name in a folder, which is any bytes;
* `FileName.extension?` : the part of a name after its last point;
* `Item` : a file with its bytes, or a folder with named items;
* `Item.find` : the item at a path, or why there is none;
* `Item.readText` : the text of a file.
-/

namespace Deeds

/-- A name in a folder. It need not be a text. -/
structure FileName where
  bytes : List UInt8
  deriving DecidableEq

namespace FileName

/-- The name that a text writes. -/
def ofText (s : String) : FileName := ⟨Text.bytesOf s⟩

/-- The name as messages show it. -/
def text (n : FileName) : String := String.ofList (Text.shown n.bytes)

/-- The byte before an extension. -/
def point : UInt8 := 46

/-- The part of a name after its last point. A point in front begins no extension. -/
def extension? (n : FileName) : Option (List UInt8) :=
  let reversed := n.bytes.reverse
  match reversed.dropWhile (· != point) with
  | _ :: _ :: _ => some (reversed.takeWhile (· != point)).reverse
  | _ => none

end FileName

/-- Something that has a name in a folder. -/
inductive Item where
  | file (bytes : ByteArray)
  | folder (items : List (FileName × Item))
  deriving Inhabited

/-- Why an item cannot be read. -/
inductive ReadFault where
  | notFound
  | isFolder
  | notFolder
  /-- The bytes are no text. -/
  | notText
  deriving DecidableEq, Repr

/-- A fault in words, with its number where it has one. -/
def ReadFault.message : ReadFault → String
  | .notFound => "No such file or directory (os error 2)"
  | .isFolder => "Is a directory (os error 21)"
  | .notFolder => "Not a directory (os error 20)"
  | .notText => "stream did not contain valid UTF-8"

namespace Item

/-- An empty folder. -/
def empty : Item := .folder []

/-- The items of a folder. -/
def items? : Item → Option (List (FileName × Item))
  | .folder items => some items
  | .file _ => none

/-- Is a folder. -/
def isFolder (i : Item) : Bool := i.items?.isSome

/-- The item at a path below some folders, of which the innermost is the first. An empty step and a
single point stay, two points go up; only a folder has steps. -/
def findBelow (above : List Item) : Item → List String → Except ReadFault Item
  | i, [] => .ok i
  | .file _, _ :: _ => .error .notFolder
  | .folder items, step :: rest =>
    if step = "" || step = "." then findBelow above (.folder items) rest
    else if step = ".." then match above with
      | [] => findBelow [] (.folder items) rest
      | parent :: above => findBelow above parent rest
    else match items.lookup (.ofText step) with
      | none => .error .notFound
      | some i => findBelow (.folder items :: above) i rest

/-- The item at a path. -/
def find (i : Item) (path : List String) : Except ReadFault Item := findBelow [] i path

/-- Puts a file at a path; the folders before it come about if they are not there. -/
def put (bytes : ByteArray) : List String → Item → Item
  | [], _ => .file bytes
  | step :: rest, i =>
    let items := i.items?.getD []
    let name := FileName.ofText step
    .folder ((name, put bytes rest ((items.lookup name).getD empty))
      :: items.filter (·.1 != name))

/-- The bytes of a file. -/
def readBytes : Item → Except ReadFault ByteArray
  | .folder _ => .error .isFolder
  | .file bytes => .ok bytes

/-- The text of a file. -/
def readText (i : Item) : Except ReadFault String := do
  match String.fromUTF8? (← i.readBytes) with
  | some text => .ok text
  | none => .error .notText

end Item

end Deeds
