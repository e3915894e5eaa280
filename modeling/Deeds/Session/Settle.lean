import Deeds.Session.State

/-!
# The order of a session

In each round the engine takes all commands, then all hours, then all findings in the order in which
they came; after that every question that can go on does so. Rounds follow each other until nothing
can move.

* `Session.round`, `Session.settle`.
-/

namespace Deeds.Session

/-- The engine takes the commands. -/
def takeCommands (s : Session) : Session :=
  s.commands.foldl deliver { s with commands := [] }

/-- The engine takes hours while there are any, at most the given number of readings. -/
def takeTicks (s : Session) : Nat → Session
  | 0 => s
  | n + 1 => if s.system.hasTick then (s.deliver? s.system.readClock).takeTicks n else s

/-- The engine takes at most the given number of findings, the earliest first. -/
def takeFindings (s : Session) : Nat → Session
  | 0 => s
  | n + 1 => (s.deliver? (s.system.nextFinding 0)).takeFindings n

/-- Looks at every question that can go on. -/
def lookAll (s : Session) : Session :=
  s.ready.foldl (fun s (deed, granted) => s.look deed granted) { s with ready := [] }

/-- A round. A reader of the clock meets at most one notice of missed hours, the hours kept, and the
end. -/
def round (s : Session) : Session :=
  let s := s.takeCommands
  let s := s.takeTicks (s.system.clock.ticks.kept.length + 2)
  let s := s.takeFindings s.system.finished.length
  s.lookAll

/-- Nothing can move. -/
def isQuiet (s : Session) : Bool :=
  s.commands.isEmpty && s.ready.isEmpty && s.system.finished.isEmpty && !s.system.hasTick

/-- At most so many rounds follow each other: a command, the actor, the check, and the end of a
closed clock. -/
def maxRounds : Nat := 8

/-- Makes rounds until nothing can move. -/
def settleWithin (s : Session) : Nat → Session
  | 0 => s
  | n + 1 => if s.isQuiet then s else s.round.settleWithin n

/-- Lets everything happen that can. -/
def settle (s : Session) : Session := s.settleWithin maxRounds

end Deeds.Session
