import Deeds.Proofs.System.Sound

/-!
# What a move hands to the engine

Of a move the engine sees nothing but the input that it gets, if it gets one.

* `System.input?` : the input of a move;
* `System.step_of_input`, `System.engine_of_input`, `System.world_of_input` : what a move with an
  input does;
* `System.transition_of_finding` : a finding that is handed over makes a transition;
* `System.unheard_of_none` : what a move without an input leaves alone;
* `System.clockIsOpen_step` : hours can come until the clock is closed.
-/

namespace Deeds

open Engine (Transition)

namespace System

variable {s : System} {m : Move} {input : Input} {f : Finding}

/-- The input that a move hands to the engine. -/
def input? (s : System) : Move → Option Input
  | .invoke call name target token => some (.invoke call name target token)
  | .stop deed => some (.stop deed)
  | .take index => s.finished[index]?.map .finding
  | .takeTick => s.readClock.2
  | _ => none

/-! ## The clock's reader -/

theorem isSome_ticks_readClock (s : System) : s.readClock.1.ticks.isSome = s.ticks.isSome := by
  unfold readClock
  cases h : s.ticks with
  | none => rw [h]
  | some position => rfl

/-! ## Moves with an input -/

/-- A move with an input gives it to the engine; nothing changes before but the reader's place and
the findings that are left. -/
theorem step_of_input (h : s.input? m = some input) :
    ∃ ticks finished, ticks.isSome = s.ticks.isSome ∧
      s.step m = ({ s with ticks, finished } : System).deliver input := by
  cases m with
  | invoke =>
    cases h
    exact ⟨s.ticks, s.finished, rfl, rfl⟩
  | stop =>
    cases h
    exact ⟨s.ticks, s.finished, rfl, rfl⟩
  | take index =>
    obtain ⟨f, hf, rfl⟩ := Option.map_eq_some_iff.1 h
    exact ⟨s.ticks, s.finished.eraseIdx index, rfl, take_of_some hf⟩
  | takeTick =>
    obtain ⟨ticks, hfst⟩ := readClock_fst (s := s)
    refine ⟨ticks, s.finished, ?_, ?_⟩
    · have hticks := isSome_ticks_readClock s
      rwa [hfst] at hticks
    · show s.takeTick = _
      unfold takeTick
      dsimp only
      rw [hfst, show s.readClock.2 = some input from h]
      rfl
  | _ => cases h

/-- What the engine makes of the input of a move. -/
theorem engine_of_input (h : s.input? m = some input) :
    (s.step m).1.engine = (s.engine.step s.world.cast.rate input).1 ∧
      (s.step m).2 = (s.engine.step s.world.cast.rate input).2 := by
  obtain ⟨ticks, finished, -, hstep⟩ := step_of_input h
  rw [hstep]
  exact ⟨engine_deliver, rfl⟩

/-- The input of a move changes the world by applications only. -/
theorem world_of_input (h : s.input? m = some input) :
    (s.step m).1.world = applied s.world ((s.step m).2.filterMap Output.application?) := by
  obtain ⟨ticks, finished, -, hstep⟩ := step_of_input h
  rw [hstep]
  exact world_deliver input

theorem input?_eq_finding_iff : s.input? m = some (.finding f) ↔ s.taken? m = some f := by
  cases m with
  | take index => simp [input?, taken?]
  | takeTick =>
    refine ⟨fun h => ?_, fun h => nomatch h⟩
    rcases readClock_cases h with ⟨hour, hinput⟩ | hinput <;> cases hinput
  | _ => exact ⟨fun h => (nomatch h), fun h => nomatch h⟩

/-- The engine hears of the end of all hours only when they have ended. -/
theorem clockIsOpen_of_input (h : s.input? m = some .clockClosed) : s.clockIsOpen = false := by
  cases m with
  | invoke => cases h
  | stop => cases h
  | take index =>
    obtain ⟨f, -, hf⟩ := Option.map_eq_some_iff.1 h
    cases hf
  | takeTick =>
    rw [input?, readClock] at h
    split at h
    · cases h
    · dsimp only at h
      split at h
      · cases h
      · cases h
      · split at h
        · cases h
        · exact Bool.eq_false_iff.2 ‹_›
  | _ => cases h

/-- A finding that is handed to the engine makes a transition of its deed. -/
theorem transition_of_finding (hs : s.Sound) (h : s.taken? m = some f) :
    Transition s.engine (some f) f.deed (s.step m).2 (s.step m).1.engine := by
  cases m with
  | take index =>
    rw [show s.step (.take index) = (s.without index).deliver (.finding f) from take_of_some h]
    exact take_transition hs h
  | _ => cases h

/-! ## Moves without an input -/

/-- What a move that hands nothing to the engine leaves alone. -/
structure Unheard (s : System) (m : Move) : Prop where
  engine : (s.step m).1.engine = s.engine
  outputs : (s.step m).2 = []
  ticks : (s.step m).1.ticks.isSome = s.ticks.isSome
  clockIsOpen : m ≠ .closeClock → (s.step m).1.clockIsOpen = s.clockIsOpen

theorem unheard_takeTick (h : s.readClock.2 = none) : s.Unheard .takeTick := by
  have htake : s.step .takeTick = (s.readClock.1, []) := by
    show s.takeTick = _
    unfold takeTick
    dsimp only
    rw [h]
    rfl
  obtain ⟨ticks, hfst⟩ := readClock_fst (s := s)
  refine ⟨?_, ?_, ?_, fun _ => ?_⟩
  · rw [htake, hfst]
  · rw [htake]
  · rw [htake]
    exact isSome_ticks_readClock s
  · rw [htake, hfst]

theorem unheard_of_none (h : s.input? m = none) : s.Unheard m := by
  cases m with
  | invoke => cases h
  | stop => cases h
  | poll deed =>
    have heq : s.step (.poll deed) = (s.poll deed, []) := rfl
    rw [poll_eq] at heq
    exact ⟨by rw [heq], rfl, by rw [heq], fun _ => by rw [heq]⟩
  | answer deed =>
    have heq : s.step (.answer deed) = (s.answer deed, []) := rfl
    rw [answer_eq] at heq
    exact ⟨by rw [heq], rfl, by rw [heq], fun _ => by rw [heq]⟩
  | expire deed =>
    have heq : s.step (.expire deed) = (s.expire deed, []) := rfl
    rw [expire_eq] at heq
    exact ⟨by rw [heq], rfl, by rw [heq], fun _ => by rw [heq]⟩
  | take index =>
    have heq : s.step (.take index) = (s, []) := take_of_none (Option.map_eq_none_iff.1 h)
    exact ⟨by rw [heq], by rw [heq], by rw [heq], fun _ => by rw [heq]⟩
  | takeTick => exact unheard_takeTick h
  | advanceClock =>
    have heq : s.step .advanceClock = (s.advanceClock, []) := rfl
    unfold advanceClock at heq
    split at heq <;> exact ⟨by rw [heq], rfl, by rw [heq], fun _ => by rw [heq]⟩
  | closeClock => exact ⟨rfl, rfl, rfl, fun h => absurd rfl h⟩
  | fire => exact ⟨rfl, rfl, rfl, fun _ => rfl⟩
  | lose => exact ⟨rfl, rfl, rfl, fun _ => rfl⟩
  | outside => exact ⟨rfl, rfl, rfl, fun _ => rfl⟩

/-! ## The clock -/

theorem clockIsOpen_performAll {outputs : List Output} :
    (s.performAll outputs).clockIsOpen = s.clockIsOpen := by
  induction outputs generalizing s with
  | nil => rfl
  | cons o outputs ih =>
    rw [performAll_cons, ih]
    cases o <;> rfl

/-- Only a move of its own closes the clock. -/
theorem clockIsOpen_step (hm : m ≠ .closeClock) : (s.step m).1.clockIsOpen = s.clockIsOpen := by
  cases hinput : s.input? m with
  | none => exact (unheard_of_none hinput).clockIsOpen hm
  | some input =>
    obtain ⟨ticks, finished, -, hstep⟩ := step_of_input hinput
    rw [hstep]
    exact clockIsOpen_performAll

end System

end Deeds
