import Deeds.Proofs.Engine.Hours
import Deeds.Proofs.System.History
import Deeds.Proofs.System.Inputs
import Deeds.Session.Request

/-!
# What is tracked, and when hours are taken

Each tracked deed is in the list of its mode and nowhere else, and while the clock runs the engine
takes hours if and only if a deed is tracked.

* `Alternates` : news that come in turn; `hourNews` are all news on hours in some outputs;
* `Tracker.Filed` : each tracked deed is in the list of its mode;
* `Transition.filed`, `Transition.turns` : so it stays, and hours begin and end in turn;
* `System.listening_step` : while the clock runs, a move keeps the hours in step with the tracker;
* `System.tracker_in_order` : the tracker and its hours after any moves.
-/

namespace Deeds

open Engine (Taking Transition)

/-! ## News in turn -/

/-- The news go to and fro, from one state to another. -/
def Alternates (b : Bool) : List Bool → Bool → Prop
  | [], b' => b' = b
  | x :: news, b' => x = !b ∧ Alternates x news b'

section Alternates

variable {a b c x : Bool} {xs ys : List Bool} {k : Nat}

theorem Alternates.append (h₁ : Alternates a xs b) (h₂ : Alternates b ys c) :
    Alternates a (xs ++ ys) c := by
  induction xs generalizing a with
  | nil =>
    cases h₁
    exact h₂
  | cons x xs ih => exact ⟨h₁.1, ih h₁.2⟩

theorem Alternates.last (h : Alternates a xs b) : b = (a ^^ decide (xs.length % 2 = 1)) := by
  induction xs generalizing a with
  | nil =>
    cases h
    simp
  | cons y xs ih =>
    obtain ⟨rfl, h⟩ := h
    rw [ih h, List.length_cons]
    rcases Nat.mod_two_eq_zero_or_one xs.length with hk | hk <;> cases a <;> simp [hk, Nat.add_mod]

end Alternates

/-! ## What outputs say on hours -/

/-- The output takes hours from now on, or takes no more. -/
def Output.turn? : Output → Option Bool
  | .subscribe => some true
  | .unsubscribe => some false
  | _ => none

/-- The news of an output that hours are taken from now on, or no more. -/
def Output.hourNews? : Output → Option TrackerEvent
  | .publish (.tracker .subscribed) => some .subscribed
  | .publish (.tracker .unsubscribed) => some .unsubscribed
  | _ => none

/-- How often some outputs begin and end the hours, in order. -/
def turns (outputs : List Output) : List Bool := outputs.filterMap Output.turn?

/-- All news in some outputs that hours are taken or are no more, in order. -/
def hourNews (outputs : List Output) : List TrackerEvent := outputs.filterMap Output.hourNews?

/-- The news of a turn. -/
def TrackerEvent.ofTurn (b : Bool) : TrackerEvent := if b then .subscribed else .unsubscribed

theorem turns_append (xs ys : List Output) : turns (xs ++ ys) = turns xs ++ turns ys :=
  List.filterMap_append

theorem hourNews_append (xs ys : List Output) : hourNews (xs ++ ys) = hourNews xs ++ hourNews ys :=
  List.filterMap_append

/-! ## The lists of the tracker -/

namespace Tracker

variable {t : Tracker} {d : Deed} {id : DeedId}

/-- Each deed is in the list of its mode. -/
structure Filed (t : Tracker) : Prop where
  indicator : ∀ d ∈ t.indicator, d.mode = .indicator
  repeatable : ∀ d ∈ t.repeatable, d.mode = .repeatable

theorem Filed.register (h : t.Filed) (d : Deed) : (t.register d).Filed := by
  unfold Tracker.register
  split
  · exact h
  · rename_i hm
    refine ⟨fun x hx => ?_, h.repeatable⟩
    rcases List.mem_append.1 hx with hx | hx
    · exact h.indicator x hx
    · rw [List.mem_singleton.1 hx, hm]
  · rename_i hm
    refine ⟨h.indicator, fun x hx => ?_⟩
    rcases List.mem_append.1 hx with hx | hx
    · exact h.repeatable x hx
    · rw [List.mem_singleton.1 hx, hm]

theorem Filed.remove (h : t.Filed) (id : DeedId) : (t.remove id).Filed where
  indicator d hd := h.indicator d (List.mem_filter.1 hd).1
  repeatable d hd := h.repeatable d (List.mem_filter.1 hd).1

/-- A deed takes the place of one of the same mode. -/
theorem Filed.update (h : t.Filed) (hm : ∀ x ∈ t.deeds, x.id = d.id → x.mode = d.mode) :
    (t.update d).Filed := by
  refine ⟨fun x hx => ?_, fun x hx => ?_⟩
  · obtain ⟨old, hold, rfl⟩ := List.mem_map.1 hx
    split
    · rw [← hm old (List.mem_append_left _ hold) ‹_›]
      exact h.indicator old hold
    · exact h.indicator old hold
  · obtain ⟨old, hold, rfl⟩ := List.mem_map.1 hx
    split
    · rw [← hm old (List.mem_append_right _ hold) ‹_›]
      exact h.repeatable old hold
    · exact h.repeatable old hold

theorem isEmpty_iff_order : t.isEmpty ↔ t.order = [] := by
  rw [isEmpty_iff, order, List.map_eq_nil_iff]

end Tracker

namespace Engine

variable {e e' : Engine} {f : Option Finding} {g : Finding} {id : DeedId} {outputs : List Output}
  {d d' : Deed} {P : Finding → Prop}

theorem SameDeeds.filed (h : SameDeeds e e') (hfiled : e.tracker.Filed) : e'.tracker.Filed :=
  ⟨h.indicator ▸ hfiled.indicator, h.repeatable ▸ hfiled.repeatable⟩

/-- A tracked deed makes progress where it is. -/
theorem filed_updateTracked (hs : e.Sound) (h : e.tracker.Filed) (hd : d ∈ e.tracker.deeds)
    (hid : d'.id = d.id) (hm : d'.mode = d.mode) : (e.updateTracked d').tracker.Filed := by
  refine h.update fun x hx hxid => ?_
  rw [deed_unique hs.nodup (Sound.tracked_mem hx) (Sound.tracked_mem hd) (hxid.trans hid), hm]

theorem filed_dropTracked (h : e.tracker.Filed) (d : Deed) :
    (e.dropTracked d).unsubscribeIfIdle.1.tracker.Filed := by
  refine sameDeeds_unsubscribeIfIdle.filed ?_
  rw [dropTracked, release_tracker]
  exact h.remove d.id

/-- Every transition keeps each tracked deed in the list of its mode. -/
theorem Transition.filed (hs : e.Sound) (h : Transition e f id outputs e')
    (hfiled : e.tracker.Filed) : e'.tracker.Filed := by
  cases h with
  | refuse => exact hfiled
  | enter => exact hfiled
  | fire => exact hfiled
  | acknowledge => exact hfiled
  | close => exact hfiled
  | unsubscribe => exact sameDeeds_unsubscribe.filed hfiled
  | ignore => exact hfiled
  | reject =>
    rw [Engine.reject, release_tracker]
    exact hfiled
  | bind => exact hfiled
  | finish =>
    rw [release_tracker]
    exact hfiled
  | track => exact sameDeeds_enrol.filed (hfiled.register _)
  | progress hour hd ha =>
    obtain ⟨-, rfl⟩ := Deed.advance_eq_progressed ha
    exact filed_updateTracked hs hfiled hd rfl rfl
  | complete => exact filed_dropTracked hfiled _
  | completeCycle hour hd ha =>
    obtain ⟨-, rfl⟩ := Deed.advance_eq_completed ha
    exact filed_updateTracked hs hfiled hd rfl rfl
  | restart hd => exact filed_updateTracked hs hfiled hd rfl rfl
  | cancel => exact filed_dropTracked hfiled _

/-! ## Hours -/

/-- Hours begin and end in turn, each time with the news of it. -/
structure Turns (e : Engine) (outputs : List Output) (e' : Engine) : Prop where
  alternates : Alternates e.tracker.subscribed (turns outputs) e'.tracker.subscribed
  news : hourNews outputs = (turns outputs).map .ofTurn

theorem Turns.none (hturns : turns outputs = []) (hnews : hourNews outputs = [])
    (h : e'.tracker.subscribed = e.tracker.subscribed) : Turns e outputs e' where
  alternates := by
    rw [hturns]
    exact h
  news := by
    rw [hturns, hnews]
    rfl

theorem Turns.append {e'' : Engine} {more : List Output} (h₁ : Turns e outputs e')
    (h₂ : Turns e' more e'') : Turns e (outputs ++ more) e'' where
  alternates := by
    rw [turns_append]
    exact h₁.alternates.append h₂.alternates
  news := by rw [turns_append, hourNews_append, h₁.news, h₂.news, List.map_append]

theorem subscribe_turns : Turns e e.subscribe.2 e.subscribe.1 := by
  unfold subscribe
  split
  · exact .none rfl rfl rfl
  · rename_i h
    exact ⟨⟨by simp [h], rfl⟩, rfl⟩

theorem unsubscribe_turns : Turns e e.unsubscribe.2 e.unsubscribe.1 := by
  unfold unsubscribe
  split
  · rename_i h
    exact ⟨⟨by simp [h], rfl⟩, rfl⟩
  · exact .none rfl rfl rfl

theorem unsubscribeIfIdle_turns : Turns e e.unsubscribeIfIdle.2 e.unsubscribeIfIdle.1 := by
  unfold unsubscribeIfIdle
  split
  · exact unsubscribe_turns
  · exact .none rfl rfl rfl

theorem enrol_turns : Turns e (e.enrol d).2 (e.enrol d).1 := by
  have hregister : Turns e [] { e with tracker := e.tracker.register d } :=
    .none rfl rfl Tracker.subscribed_register
  unfold enrol
  dsimp only
  split
  · exact hregister.append subscribe_turns
  · exact hregister

/-- In every transition hours begin and end in turn. -/
theorem Transition.turns (h : Transition e f id outputs e') : Turns e outputs e' := by
  cases h with
  | refuse => exact .none rfl rfl rfl
  | enter => exact .none rfl rfl rfl
  | fire => exact .none rfl rfl rfl
  | acknowledge => exact .none rfl rfl rfl
  | close => exact .none rfl rfl rfl
  | unsubscribe => exact unsubscribe_turns
  | ignore => exact .none rfl rfl rfl
  | reject => exact .none rfl rfl (by rw [Engine.reject, release_tracker]; rfl)
  | bind => exact .none rfl rfl rfl
  | finish => exact .none rfl rfl (by rw [release_tracker]; rfl)
  | @track i v d actor hi =>
    have hpaid : Turns e [.apply d.id actor .costs d.template.costs,
        .publish (.action (.started d.id d.name actor d.target d.mode))] (e.dropPending d.id) :=
      .none rfl rfl rfl
    exact hpaid.append (enrol_turns.append (.none rfl rfl rfl))
  | progress => exact .none rfl rfl rfl
  | @complete d d' rate current actor hour hd =>
    have hdrop : Turns e
        [.publish (.action (.progressed d.id hour current d.template.progressIndicator)),
          .apply d.id actor .effects d.template.effects,
          .publish (.action (.completed d.id d.name d.target (some hour)))] (e.dropTracked d) :=
      .none rfl rfl subscribed_dropTracked
    exact hdrop.append unsubscribeIfIdle_turns
  | completeCycle => exact .none rfl rfl rfl
  | restart => exact .none rfl rfl rfl
  | @cancel f d reason hd =>
    have hdrop : Turns e [.publish (.action (.cancelled d.id d.name d.target reason))]
        (e.dropTracked d) := .none rfl rfl subscribed_dropTracked
    exact hdrop.append unsubscribeIfIdle_turns

theorem turns_of_chain (hs : e.Sound) (h : Chain (Taking P) e outputs e') : Turns e outputs e' :=
  history_of_chain (Q := fun said x => Turns e said x)
    (fun _ hsaid _ ht => hsaid.append ht.turns) hs (.none rfl rfl rfl) h

/-- A finding keeps the hours in step with the tracked deeds. -/
theorem Transition.listening (h : Transition e (some g) id outputs e')
    (hl : e.tracker.IsListening) : e'.tracker.IsListening := by
  cases h with
  | ignore => exact hl
  | reject =>
    rw [Engine.reject, release_tracker]
    exact hl
  | bind => exact hl
  | finish =>
    rw [release_tracker]
    exact hl
  | track hi hmet hd ha hm => exact isListening_enrol hl hm
  | restart => exact hl.trans (congrArg not Tracker.isEmpty_update.symm)
  | cancel => exact isListening_dropTracked hl _

/-- So does every other input, but for the end of all hours. -/
theorem listening_step {rates : CharacterId → Option Binary32} {input : Input}
    (hl : e.tracker.IsListening) (hf : ∀ f, input ≠ .finding f) (hclosed : input ≠ .clockClosed) :
    (e.step rates input).1.tracker.IsListening := by
  cases input with
  | invoke call name target token =>
    rw [step, invoke]
    cases e.catalog.instantiate e.nextId name target <;> exact hl
  | stop id => exact (stop_aside id).listening hl
  | finding f => exact absurd rfl (hf f)
  | tick hour => exact (tick_aside rates hour).listening hl
  | clockClosed => exact absurd rfl hclosed

end Engine

namespace System

variable {s : System} {m : Move} {outputs : List Output} {b b' : Bool}

/-- The engine has a place in the clock's channel if and only if it takes hours. -/
theorem ticks_of_alternates (h : Alternates b (turns outputs) b') (hb : s.ticks.isSome = b) :
    (s.performAll outputs).ticks.isSome = b' := by
  induction outputs generalizing s b with
  | nil =>
    cases h
    exact hb
  | cons o outputs ih =>
    rw [performAll_cons]
    cases o with
    | subscribe => exact ih h.2 rfl
    | unsubscribe => exact ih h.2 rfl
    | _ => exact ih h hb

theorem isSome_ticks_step (hs : s.Sound) (h : s.ticks.isSome = s.engine.tracker.subscribed)
    (m : Move) : (s.step m).1.ticks.isSome = (s.step m).1.engine.tracker.subscribed := by
  cases hinput : s.input? m with
  | none =>
    have hunheard := unheard_of_none hinput
    rw [hunheard.ticks, hunheard.engine, h]
  | some input =>
    have hturns := Engine.turns_of_chain hs.sound ((makes_step hs m).chain hs)
    obtain ⟨ticks, finished, hticks, hstep⟩ := step_of_input hinput
    rw [hstep] at hturns ⊢
    exact ticks_of_alternates hturns.alternates (hticks.trans h)

/-- While the clock runs, every move keeps the hours in step with the tracked deeds. -/
theorem isListening_step (hs : s.Sound) (h : s.clockIsOpen → s.engine.tracker.IsListening)
    (m : Move) (hopen : (s.step m).1.clockIsOpen) : (s.step m).1.engine.tracker.IsListening := by
  have hm : m ≠ .closeClock := by
    rintro rfl
    cases hopen
  rw [clockIsOpen_step hm] at hopen
  have hl := h hopen
  cases hinput : s.input? m with
  | none =>
    rw [(unheard_of_none hinput).engine]
    exact hl
  | some input =>
    by_cases hf : ∃ f, input = .finding f
    · obtain ⟨f, rfl⟩ := hf
      exact (transition_of_finding hs (input?_eq_finding_iff.1 hinput)).listening hl
    · rw [(engine_of_input hinput).1]
      refine Engine.listening_step hl (fun f heq => hf ⟨f, heq⟩) ?_
      rintro rfl
      rw [clockIsOpen_of_input hinput] at hopen
      cases hopen

/-- What holds of the hours after any moves. -/
structure InStep (s : System) : Prop where
  ticks : s.ticks.isSome = s.engine.tracker.subscribed
  listening : s.clockIsOpen → s.engine.tracker.IsListening

/-- While the clock runs, it has a receiver just when a deed is tracked. -/
theorem InStep.subscribers {x : Session} (h : x.system.InStep) (hopen : x.system.clockIsOpen) :
    x.subscribers? = some (if x.system.engine.tracker.order = [] then 0 else 1) := by
  have hlistening : x.system.engine.tracker.subscribed = !x.system.engine.tracker.isEmpty :=
    h.listening hopen
  rw [Session.subscribers?, if_pos hopen, h.ticks, hlistening]
  by_cases hnone : x.system.engine.tracker.order = []
  · rw [if_pos hnone, Tracker.isEmpty_iff_order.2 hnone]
    rfl
  · rw [if_neg hnone, Bool.eq_false_iff.2 (mt Tracker.isEmpty_iff_order.1 hnone)]
    rfl

theorem inStep_run (hs : s.Sound) (h : s.InStep) (moves : List Move) : (s.run moves).1.InStep := by
  induction moves generalizing s with
  | nil => exact h
  | cons m rest ih =>
    exact ih ((makes_step hs m).sound hs)
      ⟨isSome_ticks_step hs h.ticks m, isListening_step hs h.listening m⟩

end System

end Deeds
