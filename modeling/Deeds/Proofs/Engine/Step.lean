import Deeds.Proofs.Chain
import Deeds.Proofs.Engine.Frame

/-!
# Inputs as chains of transitions

What each input does to an engine is a chain of transitions. Only a finding that a deed waits for
makes one that needs it; everything else the engine does of its own accord.

* `Engine.Own`, `Engine.Taking` : transitions without a finding, and those with certain findings;
* `take_transition` : a finding makes a single transition;
* `step_chain` : every other input makes a chain of own transitions;
* `tick_outputs` : what an hour says;
* `history_of_chain`, `invariant_of_chain` : what every transition keeps, a chain keeps.
-/

namespace Deeds.Engine

/-- A transition that takes no finding. -/
def Own (e : Engine) (outputs : List Output) (e' : Engine) : Prop :=
  ∃ id, Transition e none id outputs e'

/-- A transition that takes no findings but those with a property. -/
def Taking (P : Finding → Prop) (e : Engine) (outputs : List Output) (e' : Engine) : Prop :=
  ∃ f id, (∀ g, f = some g → P g) ∧ Transition e f id outputs e'

variable {e e' : Engine} {d d' : Deed} {outputs : List Output} {P Q : Finding → Prop}

theorem Own.taking (h : Own e outputs e') : Taking P e outputs e' := by
  obtain ⟨id, h⟩ := h
  exact ⟨none, id, fun _ hg => (nomatch hg), h⟩

theorem Taking.mono (hPQ : ∀ g, P g → Q g) (h : Taking P e outputs e') : Taking Q e outputs e' := by
  obtain ⟨f, id, hP, h⟩ := h
  exact ⟨f, id, fun g hg => hPQ g (hP g hg), h⟩

/-- What every transition of a sound engine keeps between the engine and all that it said so far, a
chain keeps. -/
theorem history_of_chain {Q : List Output → Engine → Prop}
    (hstep : ∀ {said e f id outputs e'}, e.Sound → Q said e → (∀ g, f = some g → P g) →
      Transition e f id outputs e' → Q (said ++ outputs) e')
    (hs : e.Sound) (hq : Q [] e) (h : Chain (Taking P) e outputs e') : Q outputs e' := by
  have hboth : ∀ said e outputs e', (e.Sound ∧ Q said e) → Taking P e outputs e' →
      e'.Sound ∧ Q (said ++ outputs) e' := by
    rintro said e outputs e' ⟨hs, hq⟩ ⟨f, id, hf, h⟩
    exact ⟨h.sound hs, hstep hs hq hf h⟩
  exact (h.history hboth ⟨hs, hq⟩).2

/-- What every transition of a sound engine keeps, a chain keeps. -/
theorem invariant_of_chain {Q : Engine → Prop}
    (hstep : ∀ {e f id outputs e'}, e.Sound → Q e → (∀ g, f = some g → P g) →
      Transition e f id outputs e' → Q e')
    (hs : e.Sound) (hq : Q e) (h : Chain (Taking P) e outputs e') : Q e' :=
  history_of_chain (Q := fun _ e => Q e) hstep hs hq h

theorem Gone.chain {id : DeedId} (hs : e.Sound) (hg : e.Gone id)
    (h : Chain (Taking P) e outputs e') : e'.Gone id :=
  invariant_of_chain (Q := fun e => e.Gone id) (fun hs hg _ h => hg.transition hs h) hs hg h

/-- The catalog never changes. -/
theorem catalog_of_chain (hs : e.Sound) (h : Chain (Taking P) e outputs e') :
    e'.catalog = e.catalog := by
  refine invariant_of_chain (Q := fun x => x.catalog = e.catalog) ?_ hs rfl h
  intro x f j outputs y hs hx _ ht
  exact (ht.sameOthers hs).catalog.trans hx

/-! ## Invocations -/

theorem invoke_own (call : CallId) (name : String) (target : Target) (token : Token) :
    Own e (e.invoke call name target token).2 (e.invoke call name target token).1 := by
  unfold invoke
  cases h : e.catalog.instantiate e.nextId name target with
  | none => exact ⟨e.nextId, .refuse e.nextId call h⟩
  | some d => exact ⟨d.id, .enter call token h⟩

theorem resolved_transition (hs : e.Sound) {id : DeedId} {actor : Option CharacterId}
    (hw : e.Awaits id .resolution) :
    Transition e (some (.resolved id actor)) id (e.resolved id actor).2
      (e.resolved id actor).1 := by
  obtain ⟨i, hi, rfl, hphase⟩ := hw
  unfold resolved
  rw [(pending?_eq_some_iff hs.nodup).2 ⟨hi, rfl⟩]
  cases actor with
  | none => exact .reject _ hi rfl (by simp [Finding.stage]) fun _ h => (nomatch h)
  | some actor =>
    dsimp only
    cases hc : e.current? actor with
    | some current => exact .reject _ hi rfl (by simp [Finding.stage]) fun _ h => (nomatch h)
    | none =>
      have hd : i.deed.assign? actor
          = some { i.deed with actor := some actor, phase := .verifying } := by
        rw [Deed.assign?, hs.actor_of_resolving hi hphase]
        rfl
      dsimp only
      rw [hd, Option.getD_some]
      exact .bind hi hc hd

theorem begin_transition (hs : e.Sound) {i : Invocation} {v : Verdict} (hi : i ∈ e.pending)
    (hphase : i.deed.phase = .verifying) (hmet : v.isMet) :
    Transition e (some (.verified i.deed.id (.checked v))) i.deed.id
      (e.begin i (i.deed.recordVerification v.conditions true)).2
      (e.begin i (i.deed.recordVerification v.conditions true)).1 := by
  obtain ⟨actor, ha⟩ := hs.actor_of_verifying hi hphase
  have ha' : (i.deed.recordVerification v.conditions true).actor = some actor := ha
  unfold begin
  rw [ha']
  dsimp only [Run.andThen]
  cases hm : (i.deed.recordVerification v.conditions true).mode with
  | immediate =>
    have := Transition.finish hi hmet rfl ha' hm
    rw [hm] at this
    exact this
  | indicator =>
    have := Transition.track hi hmet rfl ha' (by rw [hm]; decide)
    rw [hm] at this
    exact this
  | repeatable =>
    have := Transition.track hi hmet rfl ha' (by rw [hm]; decide)
    rw [hm] at this
    exact this

theorem verified_transition (hs : e.Sound) {id : DeedId} {outcome : Outcome}
    (hw : e.Awaits id .verification) :
    Transition e (some (.verified id outcome)) id (e.verified id outcome).2
      (e.verified id outcome).1 := by
  obtain ⟨i, hi, rfl, hphase⟩ := hw
  unfold verified
  rw [(pending?_eq_some_iff hs.nodup).2 ⟨hi, rfl⟩]
  cases outcome with
  | cancelled => exact .reject _ hi rfl (by simp [Finding.stage]) fun _ h => (nomatch h)
  | timedOut => exact .reject _ hi rfl (by simp [Finding.stage]) fun _ h => (nomatch h)
  | checked v =>
    dsimp only
    split
    · exact begin_transition hs hi hphase ‹_›
    · refine .reject _ hi rfl (by simp [Finding.stage]) fun w hw => ?_
      cases hw
      simpa using ‹¬ v.isMet›

/-! ## Checks between two cycles -/

theorem reverified_transition (hs : e.Sound) (id : DeedId) (outcome : Outcome) :
    Transition e (some (.reverified id outcome)) id (e.reverified id outcome).2
      (e.reverified id outcome).1 := by
  unfold reverified
  cases hfind : (e.tracker.find? id).filter (·.phase = .reverifying) with
  | none =>
    refine .ignore (f := .reverified id outcome) ?_
    rintro ⟨d, hd, hid, hphase⟩
    have hsome : e.tracker.find? id = some d := (tracked_eq_some_iff hs.nodup).2 ⟨hd, hid⟩
    simp [hsome, Option.filter, hphase] at hfind
  | some d =>
    rw [Option.filter_eq_some_iff] at hfind
    obtain ⟨hd, rfl⟩ := Tracker.mem_of_find? hfind.1
    have hphase : d.phase = .reverifying := by simpa using hfind.2
    have cancelled : ∀ reason, Transition e (some (.reverified d.id outcome)) d.id
        (e.cancelTracked d reason).2 (e.cancelTracked d reason).1 := fun reason =>
      .cancel hd (fun g hg => by cases hg; exact ⟨rfl, rfl, hphase⟩) (fun h => nomatch h)
    cases outcome with
    | timedOut => exact cancelled _
    | cancelled => exact cancelled _
    | checked v =>
      dsimp only
      split
      · obtain ⟨actor, ha⟩ := Option.isSome_iff_exists.1 (hs.running d hd).2
        have ha' : (d.recordVerification v.conditions true).actor = some actor := ha
        unfold repeatCycle
        rw [ha']
        exact .restart hd hphase ‹_› ha
      · exact cancelled _

/-- A finding makes a single transition. -/
theorem take_transition (hs : e.Sound) (f : Finding)
    (hw : f.stage ≠ .reverification → e.Awaits f.deed f.stage) :
    Transition e (some f) f.deed (e.take f).2 (e.take f).1 := by
  cases f with
  | resolved id actor => exact resolved_transition hs (hw (by simp [Finding.stage]))
  | verified id outcome => exact verified_transition hs (hw (by simp [Finding.stage]))
  | reverified id outcome => exact reverified_transition hs id outcome

/-! ## Stops and hours -/

theorem andThen_chain {r : Run} {g : Engine → Run} (h₁ : Chain Own e r.2 r.1)
    (h₂ : Chain Own r.1 (g r.1).2 (g r.1).1) :
    Chain Own e (r.andThen g).2 (r.andThen g).1 := h₁.trans h₂

theorem cancelTracked_own (hd : d ∈ e.tracker.deeds) {reason : CancelReason}
    (hr : reason = .stopped ∨ ∃ error, reason = .trackingFailed error) :
    Own e (e.cancelTracked d reason).2 (e.cancelTracked d reason).1 :=
  ⟨d.id, .cancel hd (fun _ h => nomatch h) fun _ => hr⟩

theorem stop_chain (id : DeedId) : Chain Own e (e.stop id).2 (e.stop id).1 := by
  unfold stop
  cases hp : e.pending? id with
  | some i =>
    obtain ⟨hi, rfl⟩ := mem_of_pending? hp
    exact .single ⟨i.deed.id, .fire hi⟩
  | none =>
    dsimp only
    cases hfind : e.tracker.find? id with
    | some d =>
      obtain ⟨hd, rfl⟩ := Tracker.mem_of_find? hfind
      exact andThen_chain (.single (cancelTracked_own hd (.inl rfl)))
        (.single ⟨d.id, .acknowledge d.id (.ok ())⟩)
    | none => exact .single ⟨id, .acknowledge id _⟩

theorem updateTracked_updateTracked (hid : d.id = d'.id) :
    (e.updateTracked d).updateTracked d' = e.updateTracked d' := by
  have replace : ∀ l : List Deed,
      (l.map fun old => if old.id = d.id then d else old).map
        (fun old => if old.id = d'.id then d' else old)
        = l.map fun old => if old.id = d'.id then d' else old := by
    intro l
    rw [List.map_map]
    apply List.map_congr_left
    intro old _
    simp only [Function.comp_apply]
    split <;> simp_all
  simp only [updateTracked, Tracker.update, replace]

theorem dropTracked_updateTracked (hid : d'.id = d.id) (ha : d'.actor = d.actor) :
    (e.updateTracked d').dropTracked d' = e.dropTracked d := by
  have replace : ∀ l : List Deed,
      (l.map fun old => if old.id = d.id then d' else old).filter (·.id != d.id)
        = l.filter (·.id != d.id) := by
    intro l
    induction l with
    | nil => rfl
    | cons x l ih =>
      rw [List.map_cons, List.filter_cons, List.filter_cons, ih]
      by_cases hx : x.id = d.id <;> simp [hx, hid]
  simp only [dropTracked, updateTracked, Tracker.remove, Tracker.update, hid, replace, release, ha]

/-- An hour completes a deed. -/
theorem complete_own {rate current : Binary32} {actor : CharacterId} (hour : Hour)
    (hd : d ∈ e.tracker.deeds) (ha : d.advance rate = (d', .completed current))
    (hactor : d.actor = some actor) :
    Own e
      (.publish (.action (.progressed d.id hour current d.template.progressIndicator))
        :: ((e.updateTracked d').complete d' actor hour).2)
      ((e.updateTracked d').complete d' actor hour).1 := by
  have hmode : d'.mode = d.mode := by rw [(Deed.advance_eq_completed ha).2]; rfl
  have hid : d'.id = d.id := by rw [(Deed.advance_eq_completed ha).2]
  have heffects : d'.template.effects = d.template.effects := by
    rw [(Deed.advance_eq_completed ha).2]
  have hname : d'.name = d.name := by rw [(Deed.advance_eq_completed ha).2]; rfl
  have htarget : d'.target = d.target := by rw [(Deed.advance_eq_completed ha).2]
  have hactor' : d'.actor = d.actor := by rw [(Deed.advance_eq_completed ha).2]
  refine ⟨d.id, ?_⟩
  unfold complete
  dsimp only
  rw [hmode, hid, heffects, hname, htarget]
  split
  · have h := Transition.completeCycle hour hd ha hactor ‹_›
    rw [updateTracked_updateTracked (by rfl)]
    simpa [Deed.beginReverification, Deed.freshConditions, hid, htarget] using h
  · have h := Transition.complete hour hd ha hactor ‹_›
    rw [dropTracked_updateTracked hid hactor']
    exact h

theorem advance_chain {rate : Binary32} (hour : Hour) (hd : d ∈ e.tracker.deeds)
    (hactor : d.actor.isSome) :
    Chain Own e (e.advance d rate hour).2 (e.advance d rate hour).1 := by
  obtain ⟨actor, hactor⟩ := Option.isSome_iff_exists.1 hactor
  unfold advance
  cases h : d.advance rate with
  | mk d' step =>
    cases step with
    | skipped => exact .nil e
    | progressed current =>
      have hd' := (Deed.advance_eq_progressed h).2
      have := Transition.progress hour hd h
      refine .single ⟨d.id, ?_⟩
      subst hd'
      exact this
    | completed current =>
      have hown := complete_own hour hd h hactor
      have hd' := (Deed.advance_eq_completed h).2
      have hactor' : d'.actor = some actor := by rw [hd']; exact hactor
      have hid : d'.id = d.id := by rw [hd']
      have htemplate : d'.template = d.template := by rw [hd']
      dsimp only [Run.andThen]
      rw [hactor', hid, htemplate]
      exact .single hown

theorem visit_chain (rates : CharacterId → Option Binary32) (hour : Hour) (id : DeedId) :
    Chain Own e (e.visit rates hour id).2 (e.visit rates hour id).1 := by
  unfold visit
  cases hfind : e.tracker.find? id with
  | none => exact .nil e
  | some d =>
    obtain ⟨hd, -⟩ := Tracker.mem_of_find? hfind
    dsimp only
    cases hrate : progressionRate rates d with
    | error error => exact .single (cancelTracked_own hd (.inr ⟨_, rfl⟩))
    | ok rate =>
      refine advance_chain hour hd ?_
      unfold progressionRate at hrate
      cases ha : d.actor with
      | none =>
        rw [ha] at hrate
        cases hrate
      | some actor => rfl

theorem visitAll_chain (rates : CharacterId → Option Binary32) (hour : Hour) (ids : List DeedId) :
    Chain Own e (e.visitAll rates hour ids).2 (e.visitAll rates hour ids).1 := by
  induction ids generalizing e with
  | nil => exact .nil e
  | cons id rest ih => exact andThen_chain (visit_chain rates hour id) ih

theorem tick_chain (rates : CharacterId → Option Binary32) (hour : Hour) :
    Chain Own e (e.tick rates hour).2 (e.tick rates hour).1 :=
  andThen_chain (visitAll_chain rates hour _) (.single ⟨e.nextId, .close _ hour _ _⟩)

/-- All that an hour says at a deed is about a deed or about hours. -/
theorem visit_outputs (rates : CharacterId → Option Binary32) (hour : Hour) (id : DeedId) :
    ∀ o ∈ (e.visit rates hour id).2, o.isHourly ∨ o.deed?.isSome := by
  have hourly : ∀ x : Engine, ∀ o ∈ x.unsubscribeIfIdle.2, o.isHourly ∨ o.deed?.isSome :=
    fun x o ho => .inl (isHourly_of_mem_unsubscribeIfIdle ho)
  unfold visit
  cases e.tracker.find? id with
  | none => simp
  | some d =>
    dsimp only
    cases progressionRate rates d with
    | error error =>
      simp only [cancelTracked, Run.andThen, List.forall_mem_append]
      exact ⟨by simp [Output.deed?, ActionEvent.deed?], hourly _⟩
    | ok rate =>
      dsimp only
      unfold advance
      cases d.advance rate with
      | mk d' step =>
        cases step with
        | skipped => simp
        | progressed current => simp [Output.deed?, ActionEvent.deed?]
        | completed current =>
          simp only [Run.andThen, List.forall_mem_append]
          refine ⟨by simp [Output.deed?, ActionEvent.deed?], ?_⟩
          cases d'.actor with
          | none => simp
          | some actor =>
            dsimp only
            unfold complete
            dsimp only
            split
            · simp [Output.deed?, ActionEvent.deed?]
            · simp only [Run.andThen, List.forall_mem_append]
              exact ⟨by simp [Output.deed?, ActionEvent.deed?], hourly _⟩

/-- All that an hour says is about a deed or about hours. -/
theorem tick_outputs (rates : CharacterId → Option Binary32) (hour : Hour) :
    ∀ o ∈ (e.tick rates hour).2, o.isHourly ∨ o.deed?.isSome := by
  have hall : ∀ (ids : List DeedId) (e : Engine),
      ∀ o ∈ (e.visitAll rates hour ids).2, o.isHourly ∨ o.deed?.isSome := by
    intro ids
    induction ids with
    | nil => simp [visitAll]
    | cons id rest ih =>
      intro e
      simp only [visitAll, Run.andThen, List.forall_mem_append]
      exact ⟨visit_outputs rates hour id, ih _⟩
  simp only [tick, Run.andThen, List.forall_mem_append]
  exact ⟨hall _ e, by simp [Output.isHourly]⟩

/-- Every input but a finding makes a chain of own transitions. -/
theorem step_chain (rates : CharacterId → Option Binary32) (input : Input)
    (hf : ∀ f, input ≠ .finding f) :
    Chain Own e (e.step rates input).2 (e.step rates input).1 := by
  cases input with
  | invoke call name target token => exact .single (invoke_own call name target token)
  | stop id => exact stop_chain id
  | finding f => exact absurd rfl (hf f)
  | tick hour => exact tick_chain rates hour
  | clockClosed => exact .single ⟨e.nextId, .unsubscribe _⟩

end Deeds.Engine
