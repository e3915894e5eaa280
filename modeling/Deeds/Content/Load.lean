import Deeds.Catalog
import Deeds.Content.ActionFile
import Deeds.Content.EngineConfig
import Deeds.Content.Folder

/-!
# Loading content

* `Content.loadFile` : the definitions of a file;
* `Content.loadFolder` : those of all action files of a folder, in the order of their names, or the
  error of the first one that fails;
* `Content.loadCatalog` : the catalog of a file or a folder;
* `Content.loadConfig` : the configuration of an engine.
-/

namespace Deeds

/-- Why content cannot be loaded. Places are named as they were given. -/
inductive ContentError where
  | unreadableFile (place : String) (fault : ReadFault)
  | unreadableFolder (place : String) (fault : ReadFault)
  | malformedActions (place : String)
  | malformedConfig
  | invalid (errors : LoadErrors)
  deriving DecidableEq

/-- The message of an error. -/
def ContentError.message : ContentError → String
  | .unreadableFile place fault => s!"Failed to read file {place}: {fault.message}"
  | .unreadableFolder place fault => s!"Failed to read directory {place}: {fault.message}"
  | .malformedActions place => s!"Failed to load actions from {place}: Failed to parse action RON"
  | .malformedConfig => "Failed to parse config TOML"
  | .invalid errors => errors.message

/-- A place in a folder: what is there, and how it is called. -/
structure Place where
  item : Except ReadFault Item
  name : String

namespace Place

/-- A path below a folder, called by the path. -/
def below (root : Item) (path : String) : Place where
  item :=
    if path = "" || path.startsWith "/" then .error .notFound else root.find (path.splitOn "/")
  name := path

/-- The folder itself, or a path below it, called by the folder's name and the path. -/
def inside (root : Item) (rootName path : String) : Place :=
  if path = "" then ⟨.ok root, rootName⟩
  else ⟨root.find (path.splitOn "/"), rootName ++ "/" ++ path⟩

/-- An item in the folder at a place. -/
def child (p : Place) (name : FileName) (item : Item) : Place :=
  ⟨.ok item, if p.name.endsWith "/" then p.name ++ name.text else p.name ++ "/" ++ name.text⟩

/-- There is a folder at the place. -/
def isFolder (p : Place) : Bool := p.item.toOption.any Item.isFolder

/-- The text of the file at a place. -/
def readText (p : Place) : Except ContentError String :=
  match p.item.bind Item.readText with
  | .ok text => .ok text
  | .error fault => .error (.unreadableFile p.name fault)

/-- What the folder at a place holds, in any order. -/
def list (p : Place) : Except ContentError (List (FileName × Item)) :=
  match p.item with
  | .error fault => .error (.unreadableFolder p.name fault)
  | .ok item => match item.items? with
    | some items => .ok items
    | none => .error (.unreadableFolder p.name .notFolder)

end Place

namespace Content

/-- The extension of action files. -/
def actionExtension : List UInt8 := Text.bytesOf "ron"

/-- The definitions of the file at a place. -/
def loadFile (p : Place) : Except ContentError (List Definition) := do
  match ActionFile.read (← p.readText) with
  | some definitions => .ok definitions
  | none => .error (.malformedActions p.name)

/-- The action files of a listing, in the order of the bytes of their names. -/
def actionFiles (listing : List (FileName × Item)) : List (FileName × Item) :=
  (listing.filter fun (name, _) => name.extension? = some actionExtension).mergeSort
    fun a b => decide (a.1.bytes ≤ b.1.bytes)

/-- The definitions of some files, one file after the other. -/
def loadAll : List Place → Except ContentError (List Definition)
  | [] => .ok []
  | p :: rest => do
    let definitions ← loadFile p
    let more ← loadAll rest
    .ok (definitions ++ more)

/-- The definitions of a listing of the folder at a place. -/
def loadListing (p : Place) (listing : List (FileName × Item)) :
    Except ContentError (List Definition) :=
  loadAll ((actionFiles listing).map fun (name, item) => p.child name item)

/-- The definitions of all action files in the folder at a place. -/
def loadFolder (p : Place) : Except ContentError (List Definition) := do
  loadListing p (← p.list)

/-- The definitions of a file or a folder. -/
def loadPlace (p : Place) : Except ContentError (List Definition) :=
  if p.isFolder then loadFolder p else loadFile p

/-- The catalog of some definitions. -/
def catalogOf (definitions : List Definition) : Except ContentError Catalog :=
  match Catalog.load definitions with
  | .ok c => .ok c
  | .error errors => .error (.invalid errors)

/-- The catalog of a file or a folder. -/
def loadCatalog (p : Place) : Except ContentError Catalog := do catalogOf (← loadPlace p)

/-- The configuration in the file at a place. -/
def loadConfig (p : Place) : Except ContentError EngineConfig := do
  match EngineConfig.read (← p.readText) with
  | some config => .ok config
  | none => .error .malformedConfig

end Content

end Deeds
