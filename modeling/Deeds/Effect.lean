import Deeds.Condition

/-!
# Effects

An effect raises or lowers a resource, or a stat of the actor; a change of a stat may depend on a
roll. Amounts carry no sign, the direction does.
-/

namespace Deeds

/-- A property of a character that effects change. -/
inductive Stat where
  | charisma
  | intelligence
  | strength
  | stealth
  | loyalty
  | ambition
  deriving DecidableEq, Repr

namespace Stat

/-- All stats. -/
def all : List Stat := [.charisma, .intelligence, .strength, .stealth, .loyalty, .ambition]

/-- The name of a stat. -/
def name : Stat → String
  | .charisma => "charisma"
  | .intelligence => "intelligence"
  | .strength => "strength"
  | .stealth => "stealth"
  | .loyalty => "loyalty"
  | .ambition => "ambition"

/-- The stat of a name, whatever its case. -/
def ofName? (s : String) : Option Stat := all.find? fun t => Text.sameName s t.name

end Stat

/-- Which way an effect goes. -/
inductive Direction where
  | up
  | down
  deriving DecidableEq, Repr

/-- What kind of change an effect is. -/
inductive EffectKind where
  | resource (direction : Direction) (resource : Resource)
  | stat (direction : Direction) (byChance : Bool)
  deriving DecidableEq, Repr

namespace EffectKind

/-- All kinds. -/
def all : List EffectKind :=
  [.resource .up .influence, .resource .down .influence, .resource .up .money,
    .resource .down .money, .stat .up false, .stat .down false, .stat .up true, .stat .down true]

/-- The name of a kind. -/
def name : EffectKind → String
  | .resource .up .influence => "AddInfluence"
  | .resource .down .influence => "RemoveInfluence"
  | .resource .up .money => "AddMoney"
  | .resource .down .money => "RemoveMoney"
  | .stat .up false => "IncreaseCharacterStat"
  | .stat .down false => "DecreaseCharacterStat"
  | .stat .up true => "ChanceToIncreaseCharacterStat"
  | .stat .down true => "ChanceToDecreaseCharacterStat"

/-- The kind of a name, whatever its case. -/
def ofName? (s : String) : Option EffectKind := all.find? fun k => Text.sameName s k.name

end EffectKind

/-- One change that a deed makes. A chance is a whole percentage. -/
inductive Effect where
  | resource (direction : Direction) (resource : Resource) (amount : Int64)
  | stat (direction : Direction) (stat : Stat) (amount : Int32) (chance : Option Nat)
  deriving DecidableEq, Repr

/-- A signed change of a stat, that may depend on a roll. -/
structure StatChange where
  stat : Stat
  delta : Int32
  chance : Option Nat
  deriving DecidableEq, Repr

/-- A roll below the chance lets the change through; without a chance every roll does. -/
def StatChange.passes (c : StatChange) (roll : Nat) : Bool := c.chance.all (roll < ·)

namespace Effect

/-- The kind of an effect. -/
def kind : Effect → EffectKind
  | .resource d r _ => .resource d r
  | .stat d _ _ chance => .stat d chance.isSome

/-- The signed change of a resource, of an effect on one. -/
def resourceDelta : Effect → Option (Resource × Int64)
  | .resource .up r amount => some (r, amount)
  | .resource .down r amount => some (r, -amount)
  | .stat .. => none

/-- The signed change of a stat, of an effect on one. -/
def statChange : Effect → Option StatChange
  | .stat .up s amount chance => some ⟨s, amount, chance⟩
  | .stat .down s amount chance => some ⟨s, -amount, chance⟩
  | .resource .. => none

end Effect

end Deeds
