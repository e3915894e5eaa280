/-!
# Identities and targets

Characters, places and live deeds are known by number; a target is a character or a place with the
one property that conditions ask for, its type name.
-/

namespace Deeds

/-- A character: an actor or a target. -/
structure CharacterId where
  val : Nat
  deriving DecidableEq, Repr, Inhabited

/-- A place. -/
structure LocationId where
  val : Nat
  deriving DecidableEq, Repr, Inhabited

/-- A live deed. Numbers are given in order and never reused. -/
structure DeedId where
  val : Nat
  deriving DecidableEq, Repr, Inhabited

/-- An hour of the game. -/
structure Hour where
  val : Nat
  deriving DecidableEq, Repr, Inhabited

/-- The number after this one. -/
def DeedId.next (id : DeedId) : DeedId := ⟨id.val + 1⟩

/-- The hour after this one. -/
def Hour.next (h : Hour) : Hour := ⟨h.val + 1⟩

instance : ToString CharacterId := ⟨fun id => s!"character#{id.val}"⟩
instance : ToString LocationId := ⟨fun id => s!"location#{id.val}"⟩
instance : ToString DeedId := ⟨fun id => s!"action#{id.val}"⟩
instance : ToString Hour := ⟨fun h => s!"hour {h.val}"⟩

/-- Whom or what a deed is aimed at. -/
inductive TargetRef where
  | location (id : LocationId)
  | character (id : CharacterId)
  deriving DecidableEq, Repr, Inhabited

instance : ToString TargetRef where
  toString
    | .location id => toString id
    | .character id => toString id

/-- A target with its type name, such as `Tavern`. -/
structure Target where
  reference : TargetRef
  typeName : String
  deriving DecidableEq, Repr, Inhabited

namespace Target

/-- A place of a type. -/
def location (id : LocationId) (typeName : String) : Target := ⟨.location id, typeName⟩

/-- A character of a type. -/
def character (id : CharacterId) (typeName : String) : Target := ⟨.character id, typeName⟩

end Target

end Deeds
