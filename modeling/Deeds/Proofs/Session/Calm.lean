import Deeds.Proofs.Session.Open

/-!
# Calm sessions

A session is calm when nothing is under way but deeds that complete once. A call made then is the only
one that the engine has to deal with.

* `Engine.resolved_alone`, `Engine.verified_alone` : what becomes of the only pending invocation;
* `Session.Calm` : nothing is under way;
* `Session.Busy` : a call on its way, with the finding that the engine takes next;
* `Session.Upshot`, `Session.Called` : what a call comes to.
-/

namespace Deeds

/-! ## Engines with one pending invocation -/

namespace Engine

variable {e : Engine} {i : Invocation} {name : String} {t : Template} {a : CharacterId}

theorem invoke_unknown (h : e.catalog.get? name = none) (call : CallId) (target : Target)
    (token : Token) : e.invoke call name target token =
      (e, [.publish (.action (.invocationFailed name target
          (InvocationError.unknownAction name).message)),
        .answer call (.error (.unknownAction name))]) := by
  unfold invoke Catalog.instantiate
  rw [h]
  rfl

theorem invoke_known (hp : e.pending = []) (h : e.catalog.get? name = some t) (call : CallId)
    (target : Target) (token : Token) : e.invoke call name target token =
      ({ e with
          nextId := e.nextId.next
          pending := [⟨.ofTemplate e.nextId t target, token, call⟩] },
        [.resolve e.nextId t.actorMode name target token]) := by
  unfold invoke Catalog.instantiate
  rw [h, hp]
  rfl

theorem pending?_alone (hp : e.pending = [i]) : e.pending? i.deed.id = some i := by
  unfold pending?
  rw [hp]
  simp

theorem dropPending_alone (hp : e.pending = [i]) :
    e.dropPending i.deed.id = { e with pending := [] } := by
  unfold dropPending
  rw [hp]
  simp

theorem updatePending_alone {d : Deed} (hp : e.pending = [i]) (hd : d.id = i.deed.id) :
    e.updatePending d = { e with pending := [{ i with deed := d }] } := by
  unfold updatePending
  rw [hp]
  simp [hd]

/-- An actor is bound to the only invocation, or that is rejected. -/
theorem resolved_alone (hp : e.pending = [i]) (hnone : i.deed.actor = none)
    (actor : Option CharacterId) :
    (∃ error, e.resolved i.deed.id actor = ({ e with pending := [] },
      [.publish (.action (.invocationFailed i.deed.name i.deed.target
          (InvocationError.message error))),
        .answer i.call (.error error)])) ∨
    ∃ a d, actor = some a ∧ d = { i.deed with actor := some a, phase := .verifying } ∧
      e.resolved i.deed.id actor =
        ({ e with
            pending := [{ i with deed := d }]
            slots := e.slots ++ [(a, i.deed.id)] },
          [.verify i.deed.id d.freshConditions d.target i.token]) := by
  have hreject (error : InvocationError) : e.reject i error = ({ e with pending := [] },
      [.publish (.action (.invocationFailed i.deed.name i.deed.target
          (InvocationError.message error))),
        .answer i.call (.error error)]) := by
    unfold reject release
    rw [dropPending_alone hp, hnone]
  unfold resolved
  rw [pending?_alone hp]
  cases actor with
  | none => exact .inl ⟨_, hreject _⟩
  | some a =>
    dsimp only
    cases hbusy : e.current? a with
    | some current => exact .inl ⟨_, hreject _⟩
    | none =>
      obtain ⟨d, hd⟩ : ∃ d : Deed, d = { i.deed with actor := some a, phase := .verifying } :=
        ⟨_, rfl⟩
      have hassign : (i.deed.assign? a).getD i.deed = d := by
        unfold Deed.assign?
        rw [hnone, hd]
        rfl
      refine .inr ⟨a, d, rfl, hd, ?_⟩
      dsimp only
      rw [hassign, updatePending_alone hp (by rw [hd])]

theorem begin_immediate {d : Deed} (hp : e.pending = [i]) (hid : d.id = i.deed.id)
    (ha : d.actor = some a) (hm : d.mode = .immediate) : ∃ slots,
    e.begin i d = ({ e with pending := [], slots },
      [.apply d.id a .costs d.template.costs,
        .publish (.action (.started d.id d.name a d.target d.mode)),
        .apply d.id a .effects d.template.effects,
        .publish (.action (.completed d.id d.name d.target none)),
        .answer i.call (.ok (.ofDeed d.completeAtOnce.clear a))]) := by
  refine ⟨e.slots.filter (· != (a, d.id)), ?_⟩
  unfold begin
  rw [hid, dropPending_alone hp, ha]
  dsimp only
  rw [hm]
  unfold finishAtOnce release
  rw [ha]
  simp [Run.andThen, hid]

theorem begin_indicator {d : Deed} (hp : e.pending = [i]) (hid : d.id = i.deed.id)
    (ha : d.actor = some a) (hm : d.mode = .indicator) (hl : e.tracker.IsListening) :
    e.begin i d = ({ e with
        pending := []
        tracker := { e.tracker with
          indicator := e.tracker.indicator ++ [d.start]
          subscribed := true } },
      [.apply d.id a .costs d.template.costs,
        .publish (.action (.started d.id d.name a d.target d.mode))]
      ++ ((if e.tracker.isEmpty then [.subscribe, .publish (.tracker .subscribed)] else [])
      ++ [.answer i.call (.ok (.ofDeed d.start a))])) := by
  unfold begin
  rw [hid, dropPending_alone hp, ha]
  dsimp only
  rw [hm]
  have hstart : d.start.mode = .indicator := hm
  unfold track Tracker.register
  dsimp only
  rw [hstart]
  unfold Tracker.IsListening at hl
  cases hempty : e.tracker.isEmpty with
  | true =>
    rw [hempty] at hl
    simp [Run.andThen, subscribe, hl, hempty]
  | false =>
    rw [hempty] at hl
    simp [Run.andThen, hl, hempty]

/-- The only invocation is rejected, or goes on as its mode says. -/
theorem verified_alone {v : Verdict} (hp : e.pending = [i]) (ha : i.deed.actor = some a) :
    (∃ error slots, e.verified i.deed.id (.checked v) = ({ e with pending := [], slots },
      [.publish (.action (.invocationFailed i.deed.name i.deed.target
          (InvocationError.message error))),
        .answer i.call (.error error)])) ∨
    e.verified i.deed.id (.checked v)
      = e.begin i (i.deed.recordVerification v.conditions true) := by
  unfold verified
  rw [pending?_alone hp]
  dsimp only
  split
  · exact .inr rfl
  · refine .inl ⟨.conditionsNotMet i.deed.name, e.slots.filter (· != (a, i.deed.id)), ?_⟩
    unfold reject release
    rw [dropPending_alone hp, ha]

/-- The rate of an actor that has a finite one. -/
theorem progressionRate_eq {rates : CharacterId → Option Binary32} {rate : Binary32} {d : Deed}
    (ha : d.actor = some a) (hrate : rates a = some rate) (hfinite : rate.isFinite = true) :
    progressionRate rates d = .ok rate := by
  unfold progressionRate
  rw [ha]
  dsimp only
  rw [hrate]
  exact if_pos hfinite

end Engine

/-! ## Balances -/

/-- All effects that some outputs apply, in order. -/
def effectsOf (outputs : List Output) : List Effect :=
  (outputs.filterMap Output.application?).flatMap Prod.snd

theorem effectsOf_append (xs ys : List Output) :
    effectsOf (xs ++ ys) = effectsOf xs ++ effectsOf ys := by
  unfold effectsOf
  rw [List.filterMap_append, List.flatMap_append]

/-- Outputs change a balance by the effects that they apply. -/
theorem System.balance_performAll (s : System) (outputs : List Output) (r : Resource) :
    (s.performAll outputs).world.treasury.balance r
      = s.world.treasury.balance r + Effect.changes r (effectsOf outputs) := by
  rw [world_performAll, effectsOf]
  generalize outputs.filterMap Output.application? = applications
  generalize s.world = w
  induction applications generalizing w with
  | nil => exact (Int64.add_zero _).symm
  | cons p rest ih =>
    rw [List.flatMap_cons, Effect.changes_append, ← Int64.add_assoc, ← World.balance_applyAll w p.1]
    exact ih _

/-! ## Calm sessions -/

/-- All characters that can be asked to act have the same rate, and none is asked for beforehand. -/
structure Cast.Paced (rate : Binary32) (c : Cast) : Prop where
  rates : ∀ a, c.protagonist = some a ∨ a ∈ c.members → c.rate a = some rate
  selections : c.selections = []
  finite : rate.isFinite = true

/-- Whoever is chosen has a rate. -/
theorem Cast.Paced.chooseActor {rate : Binary32} {x : System} (h : x.world.cast.Paced rate)
    (mode : ActorMode) : ∃ actor, (∀ a, actor = some a → x.world.cast.rate a = some rate) ∧
      x.chooseActor mode = (actor, x) := by
  unfold System.chooseActor
  cases mode with
  | personal => exact ⟨_, fun a ha => h.rates a (.inl ha), rfl⟩
  | organization =>
    unfold Cast.select
    rw [h.selections]
    cases hmembers : x.world.cast.members with
    | nil => exact ⟨none, fun a ha => (nomatch ha), rfl⟩
    | cons member rest =>
      refine ⟨some member, fun a ha => ?_, rfl⟩
      cases ha
      apply h.rates
      right
      rw [hmembers]
      exact List.mem_cons_self

/-- The only question, for an actor, is put and answered. -/
theorem System.answer_actor {rate : Binary32} {x : System} {id : DeedId} {mode : ActorMode}
    {action : String} {target : Target} {token : Token}
    (hw : x.waiting = [⟨id, .actor mode action target token false⟩]) (hf : x.fired = [])
    (hc : x.world.cast.Paced rate) :
    ∃ actor, (∀ a, actor = some a → x.world.cast.rate a = some rate) ∧
      (x.poll id).answer id =
        { x with waiting := [], finished := x.finished ++ [.resolved id actor] } := by
  have hnot (q : Question) : x.isCancelled q = false := by
    unfold System.isCancelled
    rw [hf]
    cases q.token? <;> rfl
  have hpoll : x.poll id
      = { x with waiting := [⟨id, .actor mode action target token true⟩] } := by
    unfold System.poll
    rw [System.question?_alone hw]
    dsimp only
    rw [hnot]
    show x.goOn id (.actor mode action target token true) = _
    exact System.goOn_unfinished hw rfl
  obtain ⟨actor, hactor, hchoose⟩ := Cast.Paced.chooseActor
    (x := { x with waiting := [⟨id, .actor mode action target token true⟩] }) hc mode
  refine ⟨actor, hactor, ?_⟩
  rw [hpoll]
  unfold System.answer
  rw [System.question?_alone rfl]
  dsimp only
  rw [show System.isCancelled { x with waiting := [⟨id, .actor mode action target token true⟩] }
    (.actor mode action target token true) = false from hnot _, hchoose]
  exact System.finish_alone (f := .resolved id actor) rfl

theorem System.deliver_answer {x : System} {e : Engine} {outputs : List Output} {input : Input}
    {call : CallId} {result : Except InvocationError Receipt}
    (hstep : x.engine.step x.world.cast.rate input = (e, outputs ++ [.answer call result])) :
    x.deliver input
      = ({ x with engine := e }.performAll outputs, outputs ++ [.answer call result]) := by
  unfold System.deliver System.performAll
  rw [hstep]
  dsimp only
  rw [List.foldl_append]
  rfl

/-- A deed that completes once progresses at a rate. -/
structure Deed.Underway (rates : CharacterId → Option Binary32) (rate : Binary32) (d : Deed) :
    Prop where
  phase : d.phase = .pending
  mode : d.template.mode = .indicator
  rate : Engine.progressionRate rates d = .ok rate

namespace Session

/-- Nothing is under way but deeds that complete once, and all actors have the same rate. -/
structure Calm (rate : Binary32) (s : Session) : Prop extends s.Open where
  commands : s.commands = []
  ready : s.ready = []
  unanswered : s.unanswered = []
  sound : s.system.Sound
  inStep : s.system.InStep
  upToDate : s.system.UpToDate
  clockIsOpen : s.system.clockIsOpen = true
  waiting : s.system.waiting = []
  finished : s.system.finished = []
  pending : s.system.engine.pending = []
  once : s.system.engine.tracker.repeatable = []
  hours : 0 < s.system.clock.ticks.capacity
  news : 0 < s.system.bus.tracker.capacity
  cast : s.system.world.cast.Paced rate
  underway : ∀ d ∈ s.system.engine.tracker.indicator, d.Underway s.system.world.cast.rate rate

end Session

/-- A system with one invocation on its way. -/
def System.withCall (s : System) (i : Invocation) (slots : List (CharacterId × DeedId)) : System :=
  { s with
    engine := { s.engine with
      nextId := s.engine.nextId.next
      pending := [i]
      slots } }

/-- The only question is answered with a finding. -/
theorem System.withCall_finished {s : System} (hw : s.waiting = []) (hf : s.finished = [])
    (i : Invocation) (slots : List (CharacterId × DeedId)) (waiting : List Suspension)
    (f : Finding) : { { s.withCall i slots with waiting } with
        waiting := []
        finished := { s.withCall i slots with waiting }.finished ++ [f] }
      = { s.withCall i slots with finished := [f] } := by
  unfold withCall
  dsimp only
  rw [hf, ← hw]
  rfl

namespace Session

/-- The request that the next call makes. -/
def request (s : Session) (name : String) (target : Target) : Request := ⟨⟨s.calls⟩, name, target⟩

/-- A call on its way from a calm session: the engine takes a finding next on the only pending
invocation. -/
structure Busy (s : Session) (f : Finding) (i : Invocation) (t : Session) : Prop extends t.Open where
  commands : t.commands = []
  ready : t.ready = []
  unanswered : t.unanswered = [i.call]
  replies : t.replies = s.replies
  calls : t.calls = s.calls + 1
  request : i.request = s.request i.deed.name i.deed.target
  leads : s.system.Leads [i.request] t.system
  system : ∃ slots, t.system = { s.system.withCall i slots with finished := [f] }

/-- A session after the answer to a request: the engine is in some state, and some outputs were put
out. -/
structure Answered (s : Session) (q : Request) (result : Except InvocationError Receipt) (e : Engine)
    (outputs : List Output) (t : Session) : Prop extends t.Open where
  commands : t.commands = []
  ready : t.ready = []
  unanswered : t.unanswered = []
  replies : t.replies = s.replies ++ [(q.call, result)]
  calls : t.calls = s.calls + 1
  leads : s.system.Leads [q] t.system
  system : t.system = { s.system with engine := e }.performAll outputs

variable {s t : Session} {f : Finding} {i : Invocation} {rate : Binary32} {e : Engine}
  {outputs : List Output} {result : Except InvocationError Receipt} {name : String} {target : Target}
  {q : Request} {call : CallId} {input : Input}

theorem Calm.hasTick (h : s.Calm rate) : s.system.hasTick = false :=
  h.upToDate.hasTick h.clockIsOpen

theorem Calm.isQuiet (h : s.Calm rate) : s.isQuiet = true := by
  unfold Session.isQuiet
  rw [h.commands, h.ready, h.finished, h.hasTick]
  rfl

theorem Busy.pending (hb : Busy s f i t) : t.system.engine.pending = [i] := by
  obtain ⟨slots, hsystem⟩ := hb.system
  rw [hsystem]
  rfl

theorem Busy.finding (hb : Busy s f i t) : t.system.finished = [f] := by
  obtain ⟨slots, hsystem⟩ := hb.system
  rw [hsystem]

theorem Busy.hasTick (h : s.Calm rate) (hb : Busy s f i t) : t.system.hasTick = false := by
  obtain ⟨slots, hsystem⟩ := hb.system
  rw [hsystem]
  exact h.hasTick

theorem Busy.tracker (hb : Busy s f i t) :
    t.system.engine.tracker = s.system.engine.tracker := by
  obtain ⟨slots, hsystem⟩ := hb.system
  rw [hsystem]
  rfl

theorem Busy.catalog (hb : Busy s f i t) :
    t.system.engine.catalog = s.system.engine.catalog := by
  obtain ⟨slots, hsystem⟩ := hb.system
  rw [hsystem]
  rfl

/-- What is said after a call leaves the session calm. -/
theorem Answered.calm (h : s.Calm rate) (ha : Answered s q result e outputs t)
    (hplain : ∀ o ∈ outputs, o.isPlain) (hpending : e.pending = [])
    (honce : e.tracker.repeatable = [])
    (hunderway : ∀ d ∈ e.tracker.indicator, d.Underway s.system.world.cast.rate rate) :
    t.Calm rate := by
  have hspoken := System.spoken_performAll { s.system with engine := e } hplain
  rw [← ha.system] at hspoken
  obtain ⟨stats, hcast⟩ := hspoken.cast
  have hengine : t.system.engine = e := hspoken.engine
  exact {
    toOpen := ha.toOpen
    commands := ha.commands
    ready := ha.ready
    unanswered := ha.unanswered
    sound := ha.leads.sound h.sound
    inStep := ha.leads.inStep h.sound h.inStep
    upToDate := hspoken.upToDate h.upToDate
    clockIsOpen := hspoken.clockIsOpen.trans h.clockIsOpen
    waiting := hspoken.waiting.trans h.waiting
    finished := hspoken.finished.trans h.finished
    pending := by rw [hengine, hpending]
    once := by rw [hengine, honce]
    hours := by rw [hspoken.clock]; exact h.hours
    news := by rw [hspoken.capacity]; exact h.news
    cast := by
      rw [hcast]
      exact ⟨h.cast.rates, h.cast.selections, h.cast.finite⟩
    underway := by
      rw [hengine, hcast]
      exact hunderway }

/-! ## Answers -/

/-- An input that answers the only call that waits. -/
theorem Open.deliver_answer (h : s.Open) (hun : s.unanswered = [call])
    (hstep : s.system.engine.step s.system.world.cast.rate input
      = (e, outputs ++ [.answer call result])) (hplain : ∀ o ∈ outputs, o.isPlain) :
    s.deliver input = { s with
      system := { s.system with engine := e }.performAll outputs
      unanswered := []
      replies := s.replies ++ [(call, result)] } := by
  have hdeliver := System.deliver_answer hstep
  have hfired : ({ s.system with engine := e }.performAll outputs).fired = [] := by
    rw [(System.spoken_performAll _ hplain).fired]
    exact h.fired
  rw [h.deliver (congrArg Prod.fst hdeliver) hfired, hdeliver, List.foldl_append,
    noteAll_plain _ hplain]
  show Session.reply _ call result = _
  unfold Session.reply
  dsimp only
  rw [hun]
  simp

/-- The finding on a busy call answers it. -/
theorem Busy.answered (h : s.Calm rate) (hb : Busy s f i t)
    (hstep : t.system.engine.step t.system.world.cast.rate (.finding f)
      = (e, outputs ++ [.answer i.call result])) (hplain : ∀ o ∈ outputs, o.isPlain) :
    Answered s i.request result e outputs t.round := by
  obtain ⟨slots, hsystem⟩ := hb.system
  have hopen : ({ t with system := { t.system with finished := [] } } : Session).Open :=
    hb.toOpen.withSystem hb.fired
  have hrest : { t.system with engine := e, finished := [] }
      = { s.system with engine := e } := by
    have hnone := h.finished
    rw [hsystem, ← hnone]
    rfl
  have hround : t.round = { t with
      system := { s.system with engine := e }.performAll outputs
      unanswered := []
      replies := t.replies ++ [(i.call, result)] } := by
    rw [round_finding hb.commands (hb.hasTick h) hb.finding,
      hopen.deliver_answer hb.unanswered hstep hplain]
    refine (lookAll_none ?_).trans ?_
    · exact hb.ready
    exact congrArg (fun x : System => { t with
      system := x.performAll outputs
      unanswered := []
      replies := t.replies ++ [(i.call, result)] }) hrest
  have htake : (t.system.step (.take 0)).1 = { s.system with engine := e }.performAll outputs := by
    have hdeliver := System.deliver_answer (x := { t.system with finished := [] }) hstep
    show (t.system.take 0).1 = _
    unfold System.take System.nextFinding
    rw [hb.finding]
    show (System.deliver { t.system with finished := [] } (.finding f)).1 = _
    rw [hdeliver]
    exact congrArg (·.performAll outputs) hrest
  have hfired : ({ s.system with engine := e }.performAll outputs).fired = [] := by
    rw [(System.spoken_performAll _ hplain).fired]
    exact h.fired
  rw [hround]
  exact {
    toOpen := ⟨hb.alive, hb.reads, hb.actors, hb.deadlines, hb.failures, hfired⟩
    commands := hb.commands
    ready := hb.ready
    unanswered := rfl
    replies := by
      rw [hb.replies]
      rfl
    calls := hb.calls
    leads := hb.leads.trans (.single (m := .take 0) rfl htake)
    system := rfl }

/-! ## What a call comes to -/

/-- What a call of a name comes to, with the deeds that are tracked from then on and the effects that
are applied: it is rejected, or a deed is over at once, or a deed begins. -/
inductive Upshot (c : Catalog) (name : String) :
    Except InvocationError Receipt → List Deed → List Effect → Prop
  | rejected (error : InvocationError) (unknown : c.get? name = none → error = .unknownAction name) :
    Upshot c name (.error error) [] []
  | finished {t : Template} {r : Receipt} (template : c.get? name = some t)
    (mode : t.mode = .immediate) (action : r.action = name) :
    Upshot c name (.ok r) [] (t.costs ++ t.effects)
  | begun {d : Deed} {r : Receipt} (template : c.get? name = some d.template)
    (mode : d.template.mode = .indicator) (action : r.action = name) (phase : d.phase = .pending)
    (current : d.current = .zero) : Upshot c name (.ok r) [d] d.template.costs

/-- A calm session after a call, with the deeds that it began and the effects that it applied. -/
structure Called (rate : Binary32) (s : Session) (q : Request)
    (result : Except InvocationError Receipt) (begun : List Deed) (effects : List Effect)
    (t : Session) : Prop where
  calm : t.Calm rate
  replies : t.replies = s.replies ++ [(q.call, result)]
  calls : t.calls = s.calls + 1
  leads : s.system.Leads [q] t.system
  clock : t.system.clock = s.system.clock
  catalog : t.system.engine.catalog = s.system.engine.catalog
  indicator : t.system.engine.tracker.indicator = s.system.engine.tracker.indicator ++ begun
  balance : ∀ r, t.system.world.treasury.balance r
    = s.system.world.treasury.balance r + Effect.changes r effects

theorem Answered.called {begun : List Deed} (h : s.Calm rate) (ha : Answered s q result e outputs t)
    (hplain : ∀ o ∈ outputs, o.isPlain) (hpending : e.pending = [])
    (hcatalog : e.catalog = s.system.engine.catalog)
    (hindicator : e.tracker.indicator = s.system.engine.tracker.indicator ++ begun)
    (honce : e.tracker.repeatable = s.system.engine.tracker.repeatable)
    (hunderway : ∀ d ∈ begun, d.Underway s.system.world.cast.rate rate) :
    Called rate s q result begun (effectsOf outputs) t := by
  have hspoken := System.spoken_performAll { s.system with engine := e } hplain
  rw [← ha.system] at hspoken
  have hengine : t.system.engine = e := hspoken.engine
  exact {
    calm := ha.calm h hplain hpending (honce.trans h.once) fun d hd => by
      rw [hindicator, List.mem_append] at hd
      rcases hd with hd | hd
      · exact h.underway d hd
      · exact hunderway d hd
    replies := ha.replies
    calls := ha.calls
    leads := ha.leads
    clock := hspoken.clock
    catalog := by rw [hengine, hcatalog]
    indicator := by rw [hengine, hindicator]
    balance := fun r => by
      rw [ha.system]
      exact System.balance_performAll _ outputs r }

/-- A request that is rejected changes nothing. -/
theorem Answered.rejected {error : InvocationError} {event : Event} (h : s.Calm rate)
    (ha : Answered s q (.error error) e [.publish event] t) (hpending : e.pending = [])
    (hcatalog : e.catalog = s.system.engine.catalog)
    (htracker : e.tracker = s.system.engine.tracker) : Called rate s q (.error error) [] [] t := by
  refine ha.called h ?_ hpending hcatalog ?_ ?_ fun d hd => nomatch hd
  · intro o ho
    rw [List.mem_singleton.1 ho]
    rfl
  · rw [htracker, List.append_nil]
  · rw [htracker]

/-- A busy call that is rejected. -/
theorem Busy.rejected {error : InvocationError} {event : Event} (h : s.Calm rate)
    (hb : Busy s f i t) (hstep : t.system.engine.step t.system.world.cast.rate (.finding f)
      = (e, [.publish event, .answer i.call (.error error)]))
    (hpending : e.pending = []) (hcatalog : e.catalog = t.system.engine.catalog)
    (htracker : e.tracker = t.system.engine.tracker) :
    Called rate s i.request (.error error) [] [] t.round := by
  have hanswered : Answered s i.request (.error error) e [.publish event] t.round := by
    apply hb.answered h hstep
    intro o ho
    rw [List.mem_singleton.1 ho]
    rfl
  exact hanswered.rejected h hpending (hcatalog.trans hb.catalog) (htracker.trans hb.tracker)

end Session

end Deeds
