import Deeds.Proofs.Session.Calm

/-!
# A call to its end

A call made in a calm session is answered before the session is calm again. Its actor is found in the
first round, its conditions are checked in the second, and its deed begins in the third.

* `Session.Calm.called`, `Session.Busy.resolved`, `Session.Busy.verified` : the three rounds;
* `Session.Calm.invoke` : a whole call.
-/

namespace Deeds.Session

variable {s t : Session} {f : Finding} {i : Invocation} {rate : Binary32} {name : String}
  {input : Input}

/-! ## Questions -/

/-- An input on which the engine asks one question. -/
theorem Open.deliver_question {x : System} {o : Output} {w : Suspension} (h : s.Open)
    (hr : s.ready = []) (hd : s.system.deliver input = (x, [o])) (ho : o.suspension? = some w)
    (hf : x.fired = []) :
    s.deliver input = { s with system := x, ready := [(w.deed, false)] } := by
  rw [h.deliver (congrArg Prod.fst hd) hf, hd]
  show Session.note { s with system := x } o = _
  cases o with
  | resolve | verify | reverify =>
    cases ho
    unfold Session.note
    dsimp only
    rw [hr]
    rfl
  | _ => cases ho

/-! ## The actor of a call -/

theorem Calm.enqueue (h : s.Calm rate) (name : String) (target : Target) :
    s.enqueue (.ofName name target) = { s with
      calls := s.calls + 1
      unanswered := [⟨s.calls⟩]
      commands := [.invoke ⟨s.calls⟩ name target ⟨s.calls⟩] } := by
  unfold Session.enqueue
  dsimp only [Call.ofName]
  rw [if_pos h.alive, h.unanswered, h.commands]
  rfl

/-- A call of a known name asks for an actor. -/
theorem Calm.deliver_invoke {t : Template} (h : s.Calm rate)
    (ht : s.system.engine.catalog.get? name = some t) (call : CallId) (target : Target)
    (token : Token) : s.system.deliver (.invoke call name target token) =
      ({ s.system.withCall ⟨.ofTemplate s.system.engine.nextId t target, token, call⟩
            s.system.engine.slots with
          waiting := [⟨s.system.engine.nextId, .actor t.actorMode name target token false⟩] },
        [.resolve s.system.engine.nextId t.actorMode name target token]) := by
  unfold System.deliver Engine.step
  dsimp only
  rw [Engine.invoke_known h.pending ht]
  show (System.suspend _ _ _, _) = _
  unfold System.suspend
  dsimp only
  rw [h.waiting]
  rfl

/-- The question for the actor of a call is answered within the round. -/
theorem Calm.called {t : Template} (h : s.Calm rate)
    (ht : s.system.engine.catalog.get? name = some t) (target : Target) :
    ∃ actor, (∀ a, actor = some a → s.system.world.cast.rate a = some rate) ∧
      Busy s (.resolved s.system.engine.nextId actor)
        ⟨.ofTemplate s.system.engine.nextId t target, ⟨s.calls⟩, ⟨s.calls⟩⟩
        (s.enqueue (.ofName name target)).round := by
  have hdeliver := h.deliver_invoke ht ⟨s.calls⟩ target ⟨s.calls⟩
  obtain ⟨x, hx⟩ : ∃ x : System, x = { s.system.withCall
      ⟨.ofTemplate s.system.engine.nextId t target, ⟨s.calls⟩, ⟨s.calls⟩⟩ s.system.engine.slots with
    waiting := [⟨s.system.engine.nextId, .actor t.actorMode name target ⟨s.calls⟩ false⟩] } := ⟨_, rfl⟩
  rw [← hx] at hdeliver
  have hwaiting : x.waiting
      = [⟨s.system.engine.nextId, .actor t.actorMode name target ⟨s.calls⟩ false⟩] := by
    rw [hx]
  have hfired : x.fired = [] := by
    rw [hx]
    exact h.fired
  have hcast : x.world.cast = s.system.world.cast := by
    rw [hx]
    rfl
  obtain ⟨actor, hactor, hanswer⟩ := System.answer_actor hwaiting hfired (hcast ▸ h.cast)
  have hopen : ({ s with
      calls := s.calls + 1
      unanswered := [⟨s.calls⟩]
      commands := [] } : Session).Open :=
    ⟨h.alive, h.reads, h.actors, h.deadlines, h.failures, h.fired⟩
  have hput := hopen.deliver_question h.ready hdeliver rfl hfired
  have htick : x.hasTick = false := by
    rw [hx]
    exact h.hasTick
  have hnothing : x.finished = [] := by
    rw [hx]
    exact h.finished
  have hround : (s.enqueue (.ofName name target)).round = lookAll { s with
      calls := s.calls + 1
      unanswered := [⟨s.calls⟩]
      commands := []
      system := x
      ready := [(s.system.engine.nextId, false)] } := by
    rw [h.enqueue]
    exact round_command rfl hput htick hnothing
  have hasked : ({ s with
      calls := s.calls + 1
      unanswered := [⟨s.calls⟩]
      commands := []
      system := x
      ready := [] } : Session).Open :=
    ⟨h.alive, h.reads, h.actors, h.deadlines, h.failures, hfired⟩
  obtain ⟨requests, hlook⟩ := hasked.look_actor (System.question?_alone hwaiting)
  have hleads : s.system.Leads [s.request name target]
      ((x.poll s.system.engine.nextId).answer s.system.engine.nextId) := by
    refine ⟨[.invoke ⟨s.calls⟩ name target ⟨s.calls⟩, .poll s.system.engine.nextId,
      .answer s.system.engine.nextId], ?_, rfl⟩
    simp only [System.run, System.step]
    rw [hdeliver]
  have hfound : (x.poll s.system.engine.nextId).answer s.system.engine.nextId
      = { s.system.withCall ⟨.ofTemplate s.system.engine.nextId t target, ⟨s.calls⟩, ⟨s.calls⟩⟩
          s.system.engine.slots with
        finished := [.resolved s.system.engine.nextId actor] } := by
    rw [hanswer, hx]
    exact System.withCall_finished h.waiting h.finished _ _ _ _
  have hunfired : ((x.poll s.system.engine.nextId).answer s.system.engine.nextId).fired = [] := by
    rw [hfound]
    exact h.fired
  obtain rfl : t.name = name := by simpa using List.find?_some ht
  refine ⟨actor, fun a ha => hcast ▸ hactor a ha, ?_⟩
  rw [hround, lookAll_one rfl, hlook]
  exact {
    toOpen := ⟨h.alive, h.reads, h.actors, h.deadlines, h.failures, hunfired⟩
    commands := rfl
    ready := rfl
    unanswered := rfl
    replies := rfl
    calls := rfl
    request := rfl
    leads := hleads
    system := ⟨_, hfound⟩ }

/-! ## The check of a call -/

/-- Once an actor is bound to a busy call, its conditions are asked for. -/
theorem Busy.deliver_resolved {a : CharacterId} {d : Deed} {slots : List (CharacterId × DeedId)}
    (h : s.Calm rate)
    (hb : Busy s (.resolved i.deed.id (some a)) i t)
    (hbind : t.system.engine.resolved i.deed.id (some a)
      = ({ t.system.engine with
            pending := [{ i with deed := d }]
            slots := slots },
          [.verify i.deed.id d.freshConditions d.target i.token])) :
    System.deliver { t.system with finished := [] } (.finding (.resolved i.deed.id (some a)))
      = ({ s.system.withCall { i with deed := d } slots with
            waiting := [⟨i.deed.id, .start (.begin d.target d.freshConditions) d.target i.token⟩] },
          [.verify i.deed.id d.freshConditions d.target i.token]) := by
  obtain ⟨_, hsystem⟩ := hb.system
  have hstep : t.system.engine.step t.system.world.cast.rate
    (.finding (.resolved i.deed.id (some a))) = _ := hbind
  have hwaiting := h.waiting
  have hfinished := h.finished
  unfold System.deliver
  dsimp only
  rw [hstep, hsystem]
  simp [System.perform, System.suspend, System.withCall, hwaiting, hfinished]

/-- Who was chosen for a busy call is bound to it and checked within the round, or the call is
rejected. -/
theorem Busy.resolved {actor : Option CharacterId} (h : s.Calm rate)
    (hb : Busy s (.resolved i.deed.id actor) i t) (hnone : i.deed.actor = none) :
    (∃ error, Called rate s i.request (.error error) [] [] t.round) ∨
    ∃ a v j, actor = some a ∧
      j = { i with deed := { i.deed with actor := some a, phase := .verifying } } ∧
      Busy s (.verified j.deed.id (.checked v)) j t.round := by
  rcases Engine.resolved_alone hb.pending hnone actor with ⟨error, hreject⟩ | ⟨a, d, rfl, hd, hbind⟩
  · exact .inl ⟨error, hb.rejected h hreject rfl rfl rfl⟩
  suffices hbusy : ∃ v, Busy s (.verified i.deed.id (.checked v)) { i with deed := d } t.round by
    obtain ⟨v, hbusy⟩ := hbusy
    rw [hd] at hbusy
    exact .inr ⟨a, v, _, rfl, rfl, hbusy⟩
  have hdeliver := hb.deliver_resolved h hbind
  obtain ⟨x, hx⟩ : ∃ x : System, x = { s.system.withCall { i with deed := d }
        (t.system.engine.slots ++ [(a, i.deed.id)]) with
      waiting := [⟨i.deed.id, .start (.begin d.target d.freshConditions) d.target i.token⟩] } :=
    ⟨_, rfl⟩
  rw [← hx] at hdeliver
  have hwaiting : x.waiting
      = [⟨i.deed.id, .start (.begin d.target d.freshConditions) d.target i.token⟩] := by
    rw [hx]
  have hfired : x.fired = [] := by
    rw [hx]
    exact h.fired
  have hopen : ({ t with system := { t.system with finished := [] } } : Session).Open :=
    hb.toOpen.withSystem hb.fired
  have hput := hopen.deliver_question hb.ready hdeliver rfl hfired
  have hround : t.round = lookAll { t with system := x, ready := [(i.deed.id, false)] } := by
    rw [round_finding hb.commands (hb.hasTick h) hb.finding, hput]
  have hready : ({ t with system := x, ready := [] } : Session).Open :=
    ⟨hb.alive, hb.reads, hb.actors, hb.deadlines, hb.failures, hfired⟩
  obtain ⟨v, y, hy, hleads, hlook⟩ := hready.look_start hwaiting
  have hfound : y = { s.system.withCall { i with deed := d }
        (t.system.engine.slots ++ [(a, i.deed.id)]) with
      finished := [.verified i.deed.id (.checked v)] } := by
    rw [hy, hx]
    exact System.withCall_finished h.waiting h.finished _ _ _ _
  have hunfired : y.fired = [] := by
    rw [hfound]
    exact h.fired
  have htake : (t.system.step (.take 0)).1 = x := by
    show (t.system.take 0).1 = _
    unfold System.take System.nextFinding
    rw [hb.finding]
    exact congrArg Prod.fst hdeliver
  have hrequest : ({ i with deed := d } : Invocation).request = i.request := by
    rw [hd]
    rfl
  refine ⟨v, ?_⟩
  rw [hround, lookAll_one rfl, hlook]
  exact {
    toOpen := ⟨hb.alive, hb.reads, hb.actors, hb.deadlines, hb.failures, hunfired⟩
    commands := hb.commands
    ready := rfl
    unanswered := hb.unanswered
    replies := hb.replies
    calls := hb.calls
    request := by
      rw [hd]
      exact hb.request
    leads := by
      rw [hrequest]
      exact (hb.leads.trans (.single (m := .take 0) rfl htake)).trans hleads
    system := ⟨_, hfound⟩ }

/-! ## The beginning of a deed -/

section

variable {v : Verdict} {a : CharacterId} {d : Deed}

/-- An immediate deed is over with its call. -/
theorem Busy.finished (h : s.Calm rate) (hb : Busy s f i t)
    (hstep : t.system.engine.step t.system.world.cast.rate (.finding f)
      = t.system.engine.begin i d)
    (hid : d.id = i.deed.id) (ha : d.actor = some a) (hm : d.template.mode = .immediate) :
    Called rate s i.request (.ok (.ofDeed d.completeAtOnce.clear a)) []
      (d.template.costs ++ d.template.effects) t.round := by
  obtain ⟨freed, hbegin⟩ := Engine.begin_immediate hb.pending hid ha hm
  obtain ⟨outputs, houtputs⟩ : ∃ outputs : List Output, outputs =
      [.apply d.id a .costs d.template.costs,
        .publish (.action (.started d.id d.name a d.target d.mode)),
        .apply d.id a .effects d.template.effects,
        .publish (.action (.completed d.id d.name d.target none))] := ⟨_, rfl⟩
  have hplain : ∀ o ∈ outputs, o.isPlain := by
    rw [houtputs]
    simp [Output.isPlain]
  have hanswered : Answered s i.request (.ok (.ofDeed d.completeAtOnce.clear a))
      { t.system.engine with pending := [], slots := freed } outputs t.round := by
    apply hb.answered h _ hplain
    rw [houtputs]
    exact hstep.trans hbegin
  have heffects : effectsOf outputs = d.template.costs ++ d.template.effects := by
    rw [houtputs]
    show d.template.costs ++ (d.template.effects ++ []) = _
    rw [List.append_nil]
  rw [← heffects]
  apply hanswered.called h hplain rfl hb.catalog
  · rw [hb.tracker, List.append_nil]
  · rw [hb.tracker]
  · intro d hd
    cases hd

/-- A deed that completes once is tracked from its call on. -/
theorem Busy.begun (h : s.Calm rate) (hb : Busy s f i t)
    (hstep : t.system.engine.step t.system.world.cast.rate (.finding f)
      = t.system.engine.begin i d)
    (hid : d.id = i.deed.id) (ha : d.actor = some a) (hm : d.template.mode = .indicator)
    (hrate : s.system.world.cast.rate a = some rate) :
    Called rate s i.request (.ok (.ofDeed d.start a)) [d.start] d.template.costs t.round := by
  have hlistening : t.system.engine.tracker.IsListening := by
    rw [hb.tracker]
    exact h.inStep.listening h.clockIsOpen
  have hbegin := Engine.begin_indicator hb.pending hid ha hm hlistening
  obtain ⟨hours, hhours⟩ : ∃ hours : List Output, hours = if t.system.engine.tracker.isEmpty then
      [.subscribe, .publish (.tracker .subscribed)] else [] := ⟨_, rfl⟩
  rw [← hhours, ← List.append_assoc] at hbegin
  obtain ⟨outputs, houtputs⟩ : ∃ outputs : List Output, outputs =
      [Output.apply d.id a .costs d.template.costs,
        .publish (.action (.started d.id d.name a d.target d.mode))] ++ hours := ⟨_, rfl⟩
  rw [← houtputs] at hbegin
  have hplain : ∀ o ∈ outputs, o.isPlain := by
    rw [houtputs, hhours]
    split <;> simp [Output.isPlain]
  have heffects : effectsOf outputs = d.template.costs := by
    rw [houtputs, hhours]
    split <;> simp [effectsOf, Output.application?]
  have hanswered := hb.answered h (hstep.trans hbegin) hplain
  rw [← heffects]
  apply hanswered.called h hplain rfl hb.catalog
  · rw [hb.tracker]
  · rw [hb.tracker]
  · intro started hd
    rw [List.mem_singleton.1 hd]
    exact ⟨rfl, hm, Engine.progressionRate_eq ha hrate h.cast.finite⟩

/-- A call that was checked is rejected, or its deed begins. -/
theorem Busy.verified (h : s.Calm rate) (hb : Busy s (.verified i.deed.id (.checked v)) i t)
    (ht : s.system.engine.catalog.get? i.deed.name = some i.deed.template)
    (hm : i.deed.template.mode ≠ .repeatable) (ha : i.deed.actor = some a)
    (hrate : s.system.world.cast.rate a = some rate) (hc : i.deed.current = .zero) :
    ∃ result begun effects, Upshot s.system.engine.catalog i.deed.name result begun effects ∧
      Called rate s i.request result begun effects t.round := by
  rcases Engine.verified_alone (v := v) hb.pending ha with ⟨error, slots, hreject⟩ | hbegin
  · refine ⟨.error error, [], [], .rejected error fun hnone => ?_,
      hb.rejected h hreject rfl rfl rfl⟩
    rw [hnone] at ht
    cases ht
  obtain ⟨d, hd⟩ : ∃ d, d = i.deed.recordVerification v.conditions true := ⟨_, rfl⟩
  rw [← hd] at hbegin
  have hid : d.id = i.deed.id := by
    rw [hd]
    rfl
  have hactor : d.actor = some a := by
    rw [hd]
    exact ha
  have htemplate : d.template = i.deed.template := by
    rw [hd]
    rfl
  have hname : d.name = i.deed.name := congrArg Template.name htemplate
  have hcurrent : d.current = .zero := by
    rw [hd]
    exact hc
  rw [← htemplate] at ht hm
  cases hmode : d.template.mode with
  | repeatable => exact absurd hmode hm
  | immediate => exact ⟨_, _, _, .finished ht hmode hname, hb.finished h hbegin hid hactor hmode⟩
  | indicator =>
    exact ⟨_, _, _, .begun (d := d.start) ht hmode hname rfl hcurrent,
      hb.begun h hbegin hid hactor hmode hrate⟩

end

/-! ## A whole call -/

/-- A call of an unknown name is rejected in its first round. -/
theorem Calm.unknown (h : s.Calm rate) (hname : s.system.engine.catalog.get? name = none)
    (target : Target) :
    Called rate s (s.request name target) (.error (.unknownAction name)) [] []
      (s.enqueue (.ofName name target)).round := by
  obtain ⟨news, hnews⟩ : ∃ news : Event, news = .action (.invocationFailed name target
      (InvocationError.unknownAction name).message) := ⟨_, rfl⟩
  have hstep : s.system.engine.step s.system.world.cast.rate
      (.invoke ⟨s.calls⟩ name target ⟨s.calls⟩) = (s.system.engine,
        [Output.publish news] ++ [Output.answer ⟨s.calls⟩ (.error (.unknownAction name))]) := by
    rw [hnews]
    exact Engine.invoke_unknown hname ..
  have hplain : ∀ o ∈ [Output.publish news], o.isPlain := by
    simp [Output.isPlain]
  have hopen : ({ s with
      calls := s.calls + 1
      unanswered := [⟨s.calls⟩]
      commands := [] } : Session).Open :=
    ⟨h.alive, h.reads, h.actors, h.deadlines, h.failures, h.fired⟩
  have hput := hopen.deliver_answer rfl hstep hplain
  have hmove := System.deliver_answer hstep
  have hspoken := System.spoken_performAll s.system hplain
  have hround : (s.enqueue (.ofName name target)).round = { s with
      calls := s.calls + 1
      system := s.system.performAll [.publish news]
      unanswered := []
      commands := []
      replies := s.replies ++ [(⟨s.calls⟩, .error (.unknownAction name))] } := by
    rw [h.enqueue]
    refine (round_command rfl hput ?_ ?_).trans (lookAll_none h.ready)
    · exact (hspoken.upToDate h.upToDate).hasTick (hspoken.clockIsOpen.trans h.clockIsOpen)
    · exact hspoken.finished.trans h.finished
  have hanswered : Answered s (s.request name target) (.error (.unknownAction name))
      s.system.engine [.publish news] (s.enqueue (.ofName name target)).round := by
    rw [hround]
    exact {
      toOpen := ⟨h.alive, h.reads, h.actors, h.deadlines, h.failures, hspoken.fired.trans h.fired⟩
      commands := rfl
      ready := h.ready
      unanswered := rfl
      replies := rfl
      calls := rfl
      leads := by
        refine ⟨[.invoke ⟨s.calls⟩ name target ⟨s.calls⟩], ?_, rfl⟩
        rw [System.run_single]
        exact congrArg Prod.fst hmove
      system := rfl }
  exact hanswered.rejected h h.pending rfl rfl

theorem Busy.isQuiet (hb : Busy s f i t) : t.isQuiet = false := by
  obtain ⟨slots, hsystem⟩ := hb.system
  unfold Session.isQuiet
  rw [hsystem, hb.commands, hb.ready]
  rfl

/-- A call of a known name comes to its end within two further rounds. -/
theorem Calm.known {t : Template} (h : s.Calm rate)
    (ht : s.system.engine.catalog.get? name = some t) (hm : t.mode ≠ .repeatable) (target : Target)
    (n : Nat) :
    ∃ result begun effects, Upshot s.system.engine.catalog name result begun effects ∧
      Called rate s (s.request name target) result begun effects
        ((s.enqueue (.ofName name target)).round.settleWithin (n + 2)) := by
  obtain ⟨actor, hrates, hbusy⟩ := h.called ht target
  obtain rfl : t.name = name := by simpa using List.find?_some ht
  obtain ⟨i, hi⟩ : ∃ i : Invocation,
      i = ⟨.ofTemplate s.system.engine.nextId t target, ⟨s.calls⟩, ⟨s.calls⟩⟩ := ⟨_, rfl⟩
  rw [settleWithin_busy hbusy.isQuiet]
  have hid : s.system.engine.nextId = i.deed.id := by
    rw [hi]
    rfl
  have hnone : i.deed.actor = none := by
    rw [hi]
    rfl
  have hrequest : i.request = s.request t.name target := by
    rw [hi]
    rfl
  rw [← hi, hid] at hbusy
  rw [← hrequest]
  rcases hbusy.resolved h hnone with
    ⟨error, hcalled⟩ | ⟨a, v, j, rfl, hj, hchecked⟩
  · refine ⟨.error error, [], [], .rejected error fun hunknown => ?_, ?_⟩
    · rw [hunknown] at ht
      cases ht
    · rw [settleWithin_quiet hcalled.calm.isQuiet]
      exact hcalled
  · rw [settleWithin_busy hchecked.isQuiet]
    have htemplate : s.system.engine.catalog.get? j.deed.name = some j.deed.template := by
      rw [hj, hi]
      exact ht
    have hmode : j.deed.template.mode ≠ .repeatable := by
      rw [hj, hi]
      exact hm
    have hactor : j.deed.actor = some a := by
      rw [hj]
    have hcurrent : j.deed.current = .zero := by
      rw [hj, hi]
      rfl
    have hsame : j.request = i.request ∧ j.deed.name = t.name := by
      rw [hj, hi]
      exact ⟨rfl, rfl⟩
    obtain ⟨result, begun, effects, hupshot, hcalled⟩ :=
      hchecked.verified h htemplate hmode hactor (hrates a rfl) hcurrent
    rw [hsame.2] at hupshot
    rw [hsame.1] at hcalled
    rw [settleWithin_quiet hcalled.calm.isQuiet]
    exact ⟨result, begun, effects, hupshot, hcalled⟩

/-- A call from a calm session comes to its end, and leaves the session calm. -/
theorem Calm.invoke (h : s.Calm rate)
    (hm : ∀ t, s.system.engine.catalog.get? name = some t → t.mode ≠ .repeatable)
    (target : Target) :
    ∃ result begun effects, Upshot s.system.engine.catalog name result begun effects ∧
      Called rate s (s.request name target) result begun effects (s.invoke (.ofName name target)) := by
  have hbusy : (s.enqueue (.ofName name target)).isQuiet = false := by
    rw [h.enqueue]
    rfl
  show ∃ result begun effects, _ ∧
    Called rate s _ result begun effects ((s.enqueue (.ofName name target)).settleWithin (7 + 1))
  rw [settleWithin_busy hbusy]
  cases ht : s.system.engine.catalog.get? name with
  | none =>
    have hcalled := h.unknown ht target
    refine ⟨_, _, _, .rejected (.unknownAction name) fun _ => rfl, ?_⟩
    rw [settleWithin_quiet hcalled.calm.isQuiet]
    exact hcalled
  | some t => exact h.known ht (hm t ht) target 5

end Deeds.Session
