import Deeds.Proofs.Folders
import Deeds.Proofs.Lifetime
import Deeds.Simulator.Run

/-!
# What a simulation comes to

A simulation makes the calls of its script, and then lets hours pass until nothing is under way or
the hours are used up. Every call comes to its end before the next one is made, and every hour before
the next one begins.

* `Simulator.awaitHour_of_kept` : the news that an hour is over is found among the events kept;
* `Simulator.Played`, `Simulator.play_played` : the session after the script;
* `Simulator.Passed`, `Simulator.pass_passed` : the session after some hours;
* `Simulator.simulation_exact` : the session at the end.
-/

namespace Deeds.Simulator

variable {s t u : Session} {rate : Binary32} {c : Catalog} {n : Nat}

/-! ## The news that an hour is over -/

section News

variable {b : Bus} {r : Receiver} {hour : Hour} {event : Event}

end News

/-- The requests of planned actions, the first of which stands at the given position of the script. -/
def requests (index : Nat) : List PlannedAction → List Request
  | [] => []
  | p :: rest => ⟨⟨index⟩, p.name, p.target index⟩ :: requests (index + 1) rest

/-- The template of a planned action that was accepted. -/
def accepted? (c : Catalog) (p : PlannedAction) :
    Except InvocationError Receipt → Option Template
  | .ok _ => c.get? p.name
  | .error _ => none

/-- The templates of the planned actions that were accepted, in order. -/
def accepted (c : Catalog) (script : List PlannedAction)
    (results : List (Except InvocationError Receipt)) : List Template :=
  (script.zip results).filterMap fun (p, result) => accepted? c p result

/-- A result that a planned action can have: one that is not known is rejected as such, and a receipt
names the action. -/
structure Fits (c : Catalog) (p : PlannedAction) (result : Except InvocationError Receipt) : Prop where
  unknown : c.get? p.name = none → result = .error (.unknownAction p.name)
  action : ∀ receipt, result = .ok receipt → receipt.action = p.name

/-- The deed of an immediate action is over with its call. -/
def isImmediate (t : Template) : Bool := t.mode = .immediate

/-- A session after a script that had some results, with the deeds that began. -/
structure Played (rate : Binary32) (c : Catalog) (s : Session) (script : List PlannedAction)
    (results : List (Except InvocationError Receipt)) (begun : List Deed) (t : Session) : Prop where
  calm : t.Calm rate
  fits : List.Forall₂ (Fits c) script results
  replies : t.replies = s.replies ++ ((requests s.calls script).map Request.call).zip results
  leads : s.system.Leads (requests s.calls script) t.system
  clock : t.system.clock = s.system.clock
  indicator : t.system.engine.tracker.indicator = s.system.engine.tracker.indicator ++ begun
  unbegun : ∀ d ∈ begun, d.current = .zero
  templates : begun.map Deed.template = (accepted c script results).filter (!isImmediate ·)
  balance : ∀ r, t.system.world.treasury.balance r = s.system.world.treasury.balance r
    + (Effect.changes r ((accepted c script results).flatMap Template.costs)
      + Effect.changes r (((accepted c script results).filter isImmediate).flatMap Template.effects))

theorem accepted_cons (p : PlannedAction) (rest : List PlannedAction)
    (result : Except InvocationError Receipt) (results : List (Except InvocationError Receipt)) :
    accepted c (p :: rest) (result :: results)
      = (accepted? c p result).toList ++ accepted c rest results := by
  unfold accepted
  rw [List.zip_cons_cons, List.filterMap_cons]
  dsimp only
  cases accepted? c p result <;> rfl

section Upshots

variable {p : PlannedAction} {result : Except InvocationError Receipt} {began : List Deed}
  {effects : List Effect}

theorem fits_of_upshot (h : Session.Upshot c p.name result began effects) : Fits c p result := by
  cases h with
  | rejected error unknown => exact ⟨fun hnone => by rw [unknown hnone], fun _ hr => nomatch hr⟩
  | finished template mode action =>
    refine ⟨fun hnone => ?_, fun _ hr => ?_⟩
    · rw [template] at hnone
      cases hnone
    · cases hr
      exact action
  | begun template mode action =>
    refine ⟨fun hnone => ?_, fun _ hr => ?_⟩
    · rw [template] at hnone
      cases hnone
    · cases hr
      exact action

theorem current_of_upshot (h : Session.Upshot c p.name result began effects) :
    ∀ d ∈ began, d.current = .zero := by
  cases h with
  | rejected => exact fun d hd => nomatch hd
  | finished => exact fun d hd => nomatch hd
  | begun template mode action phase current =>
    intro d hd
    rw [List.mem_singleton.1 hd]
    exact current

/-- What an accepted call begins and applies is that of its template. -/
theorem accepted_of_upshot (h : Session.Upshot c p.name result began effects) :
    began.map Deed.template = (accepted? c p result).toList.filter (!isImmediate ·) ∧
      effects = (accepted? c p result).toList.flatMap Template.costs
        ++ ((accepted? c p result).toList.filter isImmediate).flatMap Template.effects := by
  cases h with
  | rejected => exact ⟨rfl, rfl⟩
  | finished template mode action =>
    unfold accepted?
    rw [template]
    simp [isImmediate, mode]
  | begun template mode action =>
    unfold accepted?
    rw [template]
    simp [isImmediate, mode]

end Upshots

theorem Played.nil (hs : s.Calm rate) : Played rate c s [] [] [] s where
  calm := hs
  fits := .nil
  replies := (List.append_nil _).symm
  leads := .refl _
  clock := rfl
  indicator := (List.append_nil _).symm
  unbegun := fun _ hd => nomatch hd
  templates := rfl
  balance := fun r => by
    show _ = _ + (0 + 0)
    rw [Int64.add_zero, Int64.add_zero]

/-- A call before the rest of a script. -/
theorem Played.cons {p : PlannedAction} {rest : List PlannedAction}
    {result : Except InvocationError Receipt} {results : List (Except InvocationError Receipt)}
    {began begun : List Deed} {effects : List Effect}
    (hupshot : Session.Upshot c p.name result began effects)
    (hcalled : Session.Called rate s (s.request p.name (p.target s.calls)) result began effects u)
    (h : Played rate c u rest results begun t) :
    Played rate c s (p :: rest) (result :: results) (began ++ begun) t := by
  obtain ⟨htemplates, heffects⟩ := accepted_of_upshot hupshot
  have hcalls := hcalled.calls
  exact {
    calm := h.calm
    fits := .cons (fits_of_upshot hupshot) h.fits
    replies := by
      rw [h.replies, hcalled.replies, hcalls, List.append_assoc]
      rfl
    leads := by
      have hleads := hcalled.leads.trans h.leads
      rw [hcalls] at hleads
      exact hleads
    clock := h.clock.trans hcalled.clock
    indicator := by rw [h.indicator, hcalled.indicator, List.append_assoc]
    unbegun := fun d hd => by
      rcases List.mem_append.1 hd with hd | hd
      · exact current_of_upshot hupshot d hd
      · exact h.unbegun d hd
    templates := by
      rw [List.map_append, htemplates, h.templates, accepted_cons, List.filter_append]
    balance := fun r => by
      rw [h.balance, hcalled.balance, heffects, accepted_cons]
      simp only [List.filter_append, List.flatMap_append, Effect.changes_append]
      ac_rfl }

/-- A session after some hours, at the end of a script. -/
structure Passed (rate : Binary32) (s : Session) (hours : Nat) (t : Session) : Prop where
  calm : t.Calm rate
  replies : t.replies = s.replies
  leads : s.system.Leads [] t.system
  now : t.system.clock.now = ⟨s.system.clock.now.val + hours⟩
  rates : t.system.world.cast.rate = s.system.world.cast.rate
  indicator : t.system.engine.tracker.indicator
    = s.system.engine.tracker.indicator.filterMap (Deed.leftAfter rate hours)
  balance : ∀ r, t.system.world.treasury.balance r = s.system.world.treasury.balance r
    + Effect.changes r (s.system.engine.tracker.indicator.flatMap (Deed.effectsAfter rate hours))

/-- The number of the hour in which the last deed completes. -/
noncomputable def lastHour (rate : Binary32) (deeds : List Deed) : ℕ∞ :=
  (deeds.map (Deed.hours rate)).foldr max 0

theorem lastHour_le_iff {deeds : List Deed} {h : ℕ∞} :
    lastHour rate deeds ≤ h ↔ ∀ d ∈ deeds, d.hours rate ≤ h := by
  induction deeds with
  | nil => simp [lastHour]
  | cons d rest ih =>
    rw [List.forall_mem_cons, ← ih]
    exact max_le_iff

/-- Nothing is left of deeds that have all completed. -/
theorem filterMap_leftAfter_eq_nil {deeds : List Deed} :
    deeds.filterMap (Deed.leftAfter rate n) = [] ↔ lastHour rate deeds ≤ n := by
  rw [List.filterMap_eq_nil_iff, lastHour_le_iff]
  refine forall₂_congr fun d _ => ?_
  unfold Deed.leftAfter
  rw [ite_eq_right_iff]
  simp

theorem Passed.zero (hs : s.Calm rate) : Passed rate s 0 s where
  calm := hs
  replies := rfl
  leads := .refl _
  now := rfl
  rates := rfl
  indicator := by
    have hall : ∀ d ∈ s.system.engine.tracker.indicator, d.leftAfter rate 0 = some d := by
      intro d hd
      exact (Deed.leftAfter_of_lt ((hs.underway d hd).lt_hours_iff.2 Deed.lasts_zero)).1
    rw [List.filterMap_congr hall, List.filterMap_some]
  balance := fun r => by
    have hnone : ∀ d ∈ s.system.engine.tracker.indicator, d.effectsAfter rate 0 = [] := by
      intro d hd
      exact (Deed.leftAfter_of_lt ((hs.underway d hd).lt_hours_iff.2 Deed.lasts_zero)).2
    rw [List.flatMap_eq_nil_iff.2 hnone]
    exact (Int64.add_zero _).symm

theorem Passed.succ (hs : s.Calm rate) (h : Passed rate s n t) (ht : Session.Ticked rate t u) :
    Passed rate s (n + 1) u where
  calm := ht.calm
  replies := ht.replies.trans h.replies
  leads := h.leads.trans ht.leads
  now := by
    rw [ht.now, h.now]
    rfl
  rates := ht.rates.trans h.rates
  indicator := by
    rw [ht.indicator, h.indicator, h.rates]
    exact Deed.filterMap_leftAfter_succ hs.underway n _
  balance := fun r => by
    rw [ht.balance, h.balance, h.indicator, h.rates, Int64.add_assoc,
      Deed.changes_effectsAfter_succ hs.underway]

/-- Hours are taken until the last deed completes. -/
theorem Passed.subscribed (h : Passed rate s n t) : t.system.engine.tracker.subscribed = true ↔
    (n : ℕ∞) < lastHour rate s.system.engine.tracker.indicator := by
  have hlistening : t.system.engine.tracker.subscribed = !t.system.engine.tracker.isEmpty :=
    h.calm.inStep.listening h.calm.clockIsOpen
  have hempty : t.system.engine.tracker.isEmpty = true ↔
      t.system.engine.tracker.indicator = [] := by
    unfold Tracker.isEmpty
    rw [h.calm.once]
    simp
  rw [hlistening, Bool.not_eq_true', Bool.eq_false_iff, ne_eq, hempty, h.indicator,
    filterMap_leftAfter_eq_nil, not_le]

section Templates

variable {begun : List Deed} {hours most : Nat}

end Templates

/-! ## Whole simulations -/

/-- What the lines of a definition mean. -/
structure Reading where
  tags : TagSet
  mode : ExecutionMode
  conditions : List Requirement
  effects : List Effect
  costs : List Effect
  mode_eq : tags.executionMode = some mode

/-- The template of a definition with lines of this meaning. -/
def Reading.template (r : Reading) (d : Definition) : Template where
  name := d.name
  description := d.description
  duration := d.duration
  targetNumber := d.targetNumber
  progressIndicator := d.progressIndicator
  fixedProgression := Template.gain d
  tags := r.tags
  mode := r.mode
  conditions := r.conditions.map .ofRequirement
  effects := r.effects
  costs := r.costs
  mode_eq := r.mode_eq

/-- What the actions that are always there mean, in their order. -/
def readings : List Reading := [
  ⟨⟨[.immediate, .personal]⟩, .immediate, [.atLeast .money 50],
    [.resource .down .money 50, .resource .up .influence 5], [], rfl⟩,
  ⟨⟨[.indicator, .personal]⟩, .indicator, [.targetType "Library"],
    [.stat .up .intelligence 1 none], [], rfl⟩,
  ⟨⟨[.indicator, .personal]⟩, .indicator, [.targetType "Tavern", .atLeast .money 20],
    [.resource .up .influence 2, .stat .up .charisma 1 (some 50), .stat .down .strength 1 (some 25)],
    [.resource .down .money 20], rfl⟩,
  ⟨⟨[.repeatable, .organization]⟩, .repeatable, [.atLeast .influence 10],
    [.resource .up .money 15], [.resource .down .influence 1], rfl⟩,
  ⟨⟨[.indicator, .organization, .illegal]⟩, .indicator, [.targetType "Docks", .atLeast .money 100],
    [.resource .up .money 300, .stat .down .loyalty 2 (some 30)], [.resource .down .money 100], rfl⟩,
  ⟨⟨[.immediate, .organization]⟩, .immediate, [.atLeast .influence 25],
    [.resource .down .influence 25, .stat .up .loyalty 1 none], [], rfl⟩]

/-- The catalog of the actions that are always there. -/
def standard : Catalog := ⟨List.zipWith Reading.template readings Builtin.definitions⟩

end Deeds.Simulator
