import Deeds.Binary32.Basic
import Deeds.Definition

/-!
# Actions that are always there

* `Builtin.personal` : what the player's character can do;
* `Builtin.organization` : what members of the organization can be sent to do.
-/

namespace Deeds.Builtin

/-- Actions of the player's character. -/
def personal : List Definition := [
  { name := "Bribe"
    description := "Grease a palm to buy a favour."
    types := ["Immediate", "Personal"]
    conditions := ["PlayerHasMoneyValue >= 50"]
    effects := ["RemoveMoney 50", "AddInfluence 5"] },
  { name := "Study"
    description := "Spend a few evenings in the archives."
    duration := 4
    progressIndicator := .ofNat 10
    fixedProgression := some (.ofNat 3)
    types := ["Indicator", "Personal"]
    conditions := ["TargetLocationType = Library"]
    effects := ["IncreaseCharacterStat intelligence 1"] },
  { name := "Carouse"
    description := "Buy rounds and listen for rumours."
    duration := 2
    progressIndicator := .ofNat 6
    types := ["Indicator", "Personal"]
    conditions := ["TargetLocationType = Tavern", "PlayerHasMoneyValue >= 20"]
    effects := [
      "AddInfluence 2",
      "ChanceToIncreaseCharacterStat charisma 1 50",
      "ChanceToDecreaseCharacterStat strength 1 25"]
    costs := ["RemoveMoney 20"] }]

/-- Actions of members of the organization. -/
def organization : List Definition := [
  { name := "Collect Dues"
    description := "Have a member collect protection money each day."
    duration := 1
    progressIndicator := .ofNat 5
    fixedProgression := some (.ofNat 5)
    types := ["Repeatable", "Organization"]
    conditions := ["PlayerHasInfluenceValue >= 10"]
    effects := ["AddMoney 15"]
    costs := ["RemoveInfluence 1"] },
  { name := "Smuggle"
    description := "Move contraband through the docks."
    duration := 6
    progressIndicator := .ofNat 12
    types := ["Indicator", "Organization", "Illegal"]
    conditions := ["TargetLocationType = Docks", "PlayerHasMoneyValue >= 100"]
    effects := ["AddMoney 300", "ChanceToDecreaseCharacterStat loyalty 2 30"]
    costs := ["RemoveMoney 100"] },
  { name := "Recruit"
    description := "Win over a new sympathiser."
    types := ["Immediate", "Organization"]
    conditions := ["PlayerHasInfluenceValue >= 25"]
    effects := ["RemoveInfluence 25", "IncreaseCharacterStat loyalty 1"] }]

/-- All actions that are always there. -/
def definitions : List Definition := personal ++ organization

end Deeds.Builtin
