import Deeds.Proofs.Answers
import Deeds.Proofs.Payments
import Deeds.Proofs.Tracking
import Deeds.Proofs.Verification

/-!
# Sessions that nothing holds up

The engine of an open session runs, its gates are open, no collaborator is about to fail, and no token
was fired. Then each question is answered as soon as it is looked at, and a round brings everything
to its end that was ready when it began.

* `System.Spoken` : what outputs that ask for nothing leave as it is;
* `Session.Open` : nothing holds the session up;
* `Session.Open.look_actor`, `Session.Open.goOn_start` : questions are answered at once;
* `Session.round_command`, `Session.round_finding` : rounds with one thing to do.
-/

namespace Deeds

/-! ## Outputs that ask for nothing -/

/-- An output that puts no question, answers nobody, and fires no token. -/
def Output.isPlain : Output → Bool
  | .apply .. => true
  | .publish _ => true
  | .subscribe => true
  | .unsubscribe => true
  | _ => false

namespace World

/-- Effects change nothing about the cast but its stats. -/
theorem cast_applyOne (w : World) (actor : CharacterId) (e : Effect) :
    ∃ stats, (w.applyOne actor e).1.cast = { w.cast with stats } := by
  unfold applyOne applyStat
  split
  · exact ⟨_, rfl⟩
  · split
    · split
      · exact ⟨_, rfl⟩
      · dsimp only
        split
        · exact ⟨_, rfl⟩
        · exact ⟨_, rfl⟩
    · exact ⟨_, rfl⟩

theorem cast_applyAll (w : World) (actor : CharacterId) (effects : List Effect) :
    ∃ stats, (w.applyAll actor effects).1.cast = { w.cast with stats } := by
  induction effects generalizing w with
  | nil => exact ⟨_, rfl⟩
  | cons e rest ih =>
    obtain ⟨stats, hone⟩ := w.cast_applyOne actor e
    obtain ⟨later, hrest⟩ := ih (w.applyOne actor e).1
    exact ⟨later, hrest.trans (by rw [hone])⟩

end World

namespace System

variable {s t u : System} {o : Output} {outputs : List Output}

/-- The engine has read all hours that the clock has sent. -/
def UpToDate (s : System) : Prop := ∀ place, s.ticks = some place → place = s.clock.ticks.sent

/-- A system that differs from another by plain outputs only. -/
structure Spoken (s t : System) : Prop where
  engine : t.engine = s.engine
  waiting : t.waiting = s.waiting
  finished : t.finished = s.finished
  fired : t.fired = s.fired
  clock : t.clock = s.clock
  clockIsOpen : t.clockIsOpen = s.clockIsOpen
  upToDate : s.UpToDate → t.UpToDate
  sent : s.bus.tracker.sent ≤ t.bus.tracker.sent
  capacity : t.bus.tracker.capacity = s.bus.tracker.capacity
  cast : ∃ stats, t.world.cast = { s.world.cast with stats }

theorem Spoken.refl (s : System) : Spoken s s where
  engine := rfl
  waiting := rfl
  finished := rfl
  fired := rfl
  clock := rfl
  clockIsOpen := rfl
  upToDate h := h
  sent := Nat.le_refl _
  capacity := rfl
  cast := ⟨_, rfl⟩

theorem Spoken.trans (h : Spoken s t) (h' : Spoken t u) : Spoken s u where
  engine := h'.engine.trans h.engine
  waiting := h'.waiting.trans h.waiting
  finished := h'.finished.trans h.finished
  fired := h'.fired.trans h.fired
  clock := h'.clock.trans h.clock
  clockIsOpen := h'.clockIsOpen.trans h.clockIsOpen
  upToDate hs := h'.upToDate (h.upToDate hs)
  sent := Nat.le_trans h.sent h'.sent
  capacity := h'.capacity.trans h.capacity
  cast := by
    obtain ⟨stats, hcast⟩ := h.cast
    obtain ⟨later, hcast'⟩ := h'.cast
    exact ⟨later, by rw [hcast', hcast]⟩

theorem sent_publish (b : Bus) (event : Event) :
    b.tracker.sent ≤ (b.publish event).tracker.sent ∧
      (b.publish event).tracker.capacity = b.tracker.capacity := by
  unfold Bus.publish
  split
  · exact ⟨Nat.le_refl _, rfl⟩
  · exact ⟨Nat.le_succ _, rfl⟩

theorem spoken_perform (s : System) (h : o.isPlain) : Spoken s (s.perform o) := by
  cases o with
  | publish event =>
    obtain ⟨hsent, hcapacity⟩ := sent_publish s.bus event
    exact { Spoken.refl s with sent := hsent, capacity := hcapacity }
  | apply deed actor what effects =>
    exact { Spoken.refl s with cast := s.world.cast_applyAll actor effects }
  | subscribe =>
    refine { Spoken.refl s with upToDate := fun _ place hplace => ?_ }
    cases hplace
    rfl
  | unsubscribe =>
    refine { Spoken.refl s with upToDate := fun _ place hplace => ?_ }
    cases hplace
  | _ => cases h

theorem spoken_performAll (s : System) (h : ∀ o ∈ outputs, o.isPlain) :
    Spoken s (s.performAll outputs) := by
  induction outputs generalizing s with
  | nil => exact .refl s
  | cons o rest ih =>
    rw [List.forall_mem_cons] at h
    exact (spoken_perform s h.1).trans (ih _ h.2)

end System

/-! ## Moves that lead from one system to another -/

namespace System

variable {s t u : System}

/-- Moves that make some requests lead from one system to another. -/
def Leads (s : System) (requests : List Request) (t : System) : Prop :=
  ∃ moves, (s.run moves).1 = t ∧ moves.filterMap Move.request? = requests

theorem Leads.refl (s : System) : s.Leads [] s := ⟨[], rfl, rfl⟩

theorem Leads.trans {xs ys : List Request} (h : s.Leads xs t) (h' : t.Leads ys u) :
    s.Leads (xs ++ ys) u := by
  obtain ⟨before, rfl, rfl⟩ := h
  obtain ⟨after, rfl, rfl⟩ := h'
  refine ⟨before ++ after, ?_, List.filterMap_append⟩
  rw [run_append]

/-- A move that makes no request. -/
theorem Leads.single {m : Move} (hm : m.request? = none) (h : (s.step m).1 = t) : s.Leads [] t := by
  refine ⟨[m], ?_, ?_⟩
  · rw [run_single, h]
  · rw [List.filterMap_cons_none hm]
    rfl

theorem Leads.sound {requests : List Request} (h : s.Leads requests t) (hs : s.Sound) : t.Sound := by
  obtain ⟨moves, rfl, -⟩ := h
  exact run_sound hs moves

theorem Leads.inStep {requests : List Request} (h : s.Leads requests t) (hs : s.Sound)
    (hin : s.InStep) : t.InStep := by
  obtain ⟨moves, rfl, -⟩ := h
  exact inStep_run hs hin moves

theorem UpToDate.hasTick (h : s.UpToDate) (hopen : s.clockIsOpen = true) : s.hasTick = false := by
  unfold System.hasTick
  cases hticks : s.ticks with
  | none => rfl
  | some place =>
    rw [h place hticks, hopen]
    simp

end System

/-! ## A question by itself -/

namespace System

variable {s : System} {id : DeedId} {q q' : Question} {f : Finding}

theorem question?_alone (h : s.waiting = [⟨id, q⟩]) : s.question? id = some q := by
  unfold question?
  rw [h]
  simp

theorem question?_nobody (h : s.waiting = []) : s.question? id = none := by
  unfold question?
  rw [h]
  rfl

theorem finish_alone (h : s.waiting = [⟨f.deed, q⟩]) :
    s.finish f = { s with waiting := [], finished := s.finished ++ [f] } := by
  unfold finish lose
  rw [h]
  simp

theorem goOn_unfinished (h : s.waiting = [⟨id, q⟩]) (hf : q'.finding? id = none) :
    s.goOn id q' = { s with waiting := [⟨id, q'⟩] } := by
  unfold goOn
  rw [hf, h]
  simp

theorem goOn_finished (h : s.waiting = [⟨id, q⟩]) (hf : q'.finding? id = some f) :
    s.goOn id q' = { s with waiting := [], finished := s.finished ++ [f] } := by
  obtain ⟨rfl, -⟩ := Question.of_finding? hf
  unfold goOn
  rw [hf]
  exact finish_alone h

end System

/-! ## What holds nothing up -/

namespace Session

/-- Nothing holds the session up. -/
structure Open (s : Session) : Prop where
  alive : s.isAlive = true
  reads : s.readGate = .ofPermits none
  actors : s.actorGate = .ofPermits none
  deadlines : s.deadlines = []
  failures : s.failures = {}
  fired : s.system.fired = []

variable {s u : Session} {t : System} {id : DeedId} {outputs : List Output} {o : Output} {f : Finding}
  {input : Input}

theorem Open.withSystem (h : s.Open) (ht : t.fired = []) : { s with system := t }.Open where
  alive := h.alive
  reads := h.reads
  actors := h.actors
  deadlines := h.deadlines
  failures := h.failures
  fired := ht

theorem Open.isCancelled (h : s.Open) (q : Question) : s.system.isCancelled q = false := by
  unfold System.isCancelled
  rw [h.fired]
  cases q.token? <;> rfl

theorem Open.endCancelled (h : s.Open) : s.endCancelled = s := by
  unfold Session.endCancelled
  have hnone : (s.system.waiting.filter fun w =>
      s.system.isCancelled w.question && !s.ready.any (·.1 = w.deed)) = [] := by
    apply List.filter_eq_nil_iff.2
    intro w _
    rw [h.isCancelled]
    simp
  rw [hnone]
  rfl

/-- Nothing waits for anything, so nothing has to be forgotten. -/
theorem Open.depart (h : s.Open) (deed : DeedId) : s.depart deed = s := by
  have hreads : s.readGate.leave deed = s.readGate := by
    rw [h.reads]
    rfl
  have hactors : s.actorGate.leave deed = s.actorGate := by
    rw [h.actors]
    rfl
  have hdeadlines : s.deadlines.filter (·.1 != deed) = s.deadlines := by
    rw [h.deadlines]
    rfl
  unfold Session.depart
  rw [hreads, hactors, hdeadlines]

/-! ## Inputs -/

theorem Open.note (h : s.Open) (o : Output) : (s.note o).Open := by
  have hreply (call : CallId) (result : Except InvocationError Receipt) :
      (s.reply call result).Open := by
    unfold Session.reply
    split
    · exact ⟨h.alive, h.reads, h.actors, h.deadlines, h.failures, h.fired⟩
    · exact h
  cases o with
  | answer call result => exact hreply call result
  | _ => exact ⟨h.alive, h.reads, h.actors, h.deadlines, h.failures, h.fired⟩

theorem Open.noteAll (h : s.Open) (outputs : List Output) : (outputs.foldl Session.note s).Open := by
  induction outputs generalizing s with
  | nil => exact h
  | cons o rest ih => exact ih (h.note o)

theorem note_plain (s : Session) (h : o.isPlain) : s.note o = s := by
  cases o with
  | publish => rfl
  | apply => rfl
  | subscribe => rfl
  | unsubscribe => rfl
  | _ => cases h

theorem noteAll_plain (s : Session) (h : ∀ o ∈ outputs, o.isPlain) :
    outputs.foldl note s = s := by
  induction outputs generalizing s with
  | nil => rfl
  | cons o rest ih =>
    rw [List.forall_mem_cons] at h
    rw [List.foldl_cons, note_plain s h.1, ih s h.2]

/-- An input is taken, and what the engine puts out is noted. -/
theorem Open.deliver (h : s.Open) (ht : (s.system.deliver input).1 = t)
    (hfired : t.fired = []) :
    s.deliver input = (s.system.deliver input).2.foldl Session.note { s with system := t } := by
  have hopen := (h.withSystem hfired).noteAll (s.system.deliver input).2
  have hsure : s.failures.adjustments = false := by
    rw [h.failures]
  subst ht
  unfold Session.deliver
  rw [if_pos h.alive]
  dsimp only
  rw [hsure]
  exact hopen.endCancelled

/-! ## Questions -/

/-- A question for an actor is put, and answered at once. -/
theorem Open.look_actor {mode : ActorMode} {action : String} {target : Target} {token : Token}
    {asked : Bool} (h : s.Open)
    (hq : s.system.question? id = some (.actor mode action target token asked)) :
    ∃ requests, s.look id false =
      { s with asked := requests, system := (s.system.poll id).answer id } := by
  have hasked : ∃ requests, s.noteAsked id (.actor mode action target token asked)
      = { s with asked := requests } := by
    unfold noteAsked
    split
    · exact ⟨_, rfl⟩
    · exact ⟨_, rfl⟩
  obtain ⟨requests, hrequests⟩ := hasked
  refine ⟨requests, ?_⟩
  unfold look
  rw [hq]
  dsimp only
  rw [h.isCancelled, hrequests]
  unfold askActor
  dsimp only
  rw [h.actors, h.failures]
  rfl

/-- What waits for no balance is looked at once more. -/
theorem goOn_idle {granted : Bool} (hq : (s.system.question? id).bind Question.awaits = none)
    (n : Nat) : s.goOn id granted (n + 1) = { s with system := s.system.poll id }.depart id := by
  rw [goOn, hq]

theorem Open.goOn_nobody (h : s.Open) (hw : s.system.waiting = []) (n : Nat) :
    s.goOn id false n = s := by
  cases n with
  | zero => rfl
  | succ n =>
    have hq : s.system.question? id = none := System.question?_nobody hw
    have hpoll : s.system.poll id = s.system := by
      unfold System.poll
      rw [hq]
    rw [goOn_idle (by rw [hq]; rfl), hpoll]
    exact h.depart id

/-- A check that waits for a balance is supplied with it, and goes on. -/
theorem Open.goOn_awaiting {q : Question} {r : Resource} (h : s.Open)
    (hq : s.system.question? id = some q) (hr : q.awaits = some r) (n : Nat) :
    s.goOn id false (n + 1) = { s with system := s.system.answer id }.goOn id false n := by
  have hreads : s.readGate.enter id = (s.readGate, true) := by
    rw [h.reads]
    rfl
  have hsure : s.failures.reads = false := by
    rw [h.failures]
  rw [goOn, hq, Option.bind_some, hr]
  simp only [hreads, hsure, Bool.not_true, Bool.false_eq_true, if_false]

/-- A check reads what it needs, and is finished. -/
theorem Open.goOn_start {check : Check} {target : Target} {token : Token} {n : Nat} (h : s.Open)
    (hw : s.system.waiting = [⟨id, .start check target token⟩]) (hn : check.remaining < n) :
    ∃ verdict t, t = { s.system with
        waiting := []
        finished := s.system.finished ++ [.verified id (.checked verdict)] } ∧
      s.system.Leads [] t ∧ s.goOn id false n = { s with system := t } := by
  induction n generalizing s check with
  | zero => omega
  | succ n ih =>
    have hq := System.question?_alone hw
    cases hr : check.awaits with
    | none =>
      obtain ⟨verdict, rfl⟩ : ∃ verdict, check = .finished verdict := by
        cases check with
        | awaiting => cases hr
        | finished verdict => exact ⟨verdict, rfl⟩
      have hpoll : s.system.poll id = { s.system with
          waiting := []
          finished := s.system.finished ++ [.verified id (.checked verdict)] } := by
        unfold System.poll
        rw [hq]
        dsimp only
        rw [h.isCancelled]
        show s.system.goOn id (.start (.finished verdict) target token) = _
        exact System.goOn_finished hw rfl
      refine ⟨verdict, s.system.poll id, hpoll, .single (m := .poll id) rfl rfl, ?_⟩
      rw [goOn_idle (by rw [hq]; rfl)]
      exact (h.withSystem (t := s.system.poll id) (by rw [hpoll]; exact h.fired)).depart id
    | some r =>
      have hsupplied : s.system.answer id = s.system.goOn id
          (.start (check.supply target (s.system.world.treasury.balance r)) target token) := by
        unfold System.answer
        rw [hq]
        dsimp only
        rw [h.isCancelled, hr]
        rfl
      have hless : (check.supply target (s.system.world.treasury.balance r)).remaining
          < check.remaining := Check.remaining_supply_lt hr _
      have hleads : s.system.Leads [] (s.system.answer id) := .single (m := .answer id) rfl rfl
      rw [h.goOn_awaiting hq hr]
      generalize check.supply target (s.system.world.treasury.balance r) = next at *
      cases hv : next.verdict? with
      | some verdict =>
        have hfinished : (Question.start next target token).finding? id
            = some (.verified id (.checked verdict)) := by
          simp [Question.finding?, hv]
        have hanswer := hsupplied.trans (System.goOn_finished hw hfinished)
        refine ⟨verdict, s.system.answer id, hanswer, hleads, ?_⟩
        exact (h.withSystem (by rw [hanswer]; exact h.fired)).goOn_nobody (by rw [hanswer]) n
      | none =>
        have hunfinished : (Question.start next target token).finding? id = none := by
          simp [Question.finding?, hv]
        have hanswer := hsupplied.trans (System.goOn_unfinished hw hunfinished)
        have hopen : { s with system := s.system.answer id }.Open :=
          h.withSystem (by rw [hanswer]; exact h.fired)
        obtain ⟨verdict, t, ht, hrest, hgoOn⟩ := ih hopen (by rw [hanswer]) (by omega)
        refine ⟨verdict, t, ?_, hleads.trans hrest, hgoOn⟩
        rw [ht, hanswer]

/-- A question for a check is answered as soon as it is looked at. -/
theorem Open.look_start {check : Check} {target : Target} {token : Token} (h : s.Open)
    (hw : s.system.waiting = [⟨id, .start check target token⟩]) :
    ∃ verdict t, t = { s.system with
        waiting := []
        finished := s.system.finished ++ [.verified id (.checked verdict)] } ∧
      s.system.Leads [] t ∧ s.look id false = { s with system := t } := by
  obtain ⟨verdict, t, ht, hleads, hgoOn⟩ := h.goOn_start hw (Nat.lt_succ_self _)
  refine ⟨verdict, t, ht, hleads, Eq.trans ?_ hgoOn⟩
  unfold look
  rw [System.question?_alone hw]
  dsimp only
  rw [h.isCancelled]
  rfl

/-! ## Rounds -/

theorem takeCommands_none (h : s.commands = []) : s.takeCommands = s := by
  unfold takeCommands
  rw [h]
  cases s
  cases h
  rfl

theorem takeTicks_none (h : s.system.hasTick = false) (n : Nat) : s.takeTicks n = s := by
  cases n with
  | zero => rfl
  | succ n =>
    unfold takeTicks
    rw [h]
    rfl

theorem lookAll_none (h : s.ready = []) : s.lookAll = s := by
  unfold lookAll
  rw [h]
  cases s
  cases h
  rfl

theorem lookAll_one (h : s.ready = [(id, false)]) :
    s.lookAll = { s with ready := [] }.look id false := by
  unfold lookAll
  rw [h]
  rfl

/-- A round with a command and nothing else. -/
theorem round_command (hc : s.commands = [input]) (hd : { s with commands := [] }.deliver input = u)
    (ht : u.system.hasTick = false) (hf : u.system.finished = []) : s.round = u.lookAll := by
  have htake : s.takeCommands = u := by
    unfold takeCommands
    rw [hc]
    exact hd
  unfold round
  dsimp only
  rw [htake, takeTicks_none ht, hf]
  rfl

/-- A round with an hour and nothing else. -/
theorem round_tick (hc : s.commands = []) (ht : s.system.hasTick = true)
    (hread : s.system.readClock = (t, some input)) (hd : { s with system := t }.deliver input = u)
    (hu : u.system.hasTick = false) (hf : u.system.finished = []) : s.round = u.lookAll := by
  have htake (n : Nat) : s.takeTicks (n + 1) = u := by
    rw [takeTicks, if_pos ht, hread]
    show ({ s with system := t }.deliver input).takeTicks n = u
    rw [hd, takeTicks_none hu]
  unfold round
  dsimp only
  rw [takeCommands_none hc, htake, hf]
  rfl

/-- A round with a finding and nothing else. -/
theorem round_finding (hc : s.commands = []) (ht : s.system.hasTick = false)
    (hf : s.system.finished = [f]) :
    s.round = ({ s with system := { s.system with finished := [] } }.deliver (.finding f)).lookAll := by
  unfold round
  dsimp only
  rw [takeCommands_none hc, takeTicks_none ht, hf]
  show (s.deliver? (s.system.nextFinding 0)).lookAll = _
  unfold System.nextFinding
  rw [hf]
  rfl

theorem settleWithin_busy (h : s.isQuiet = false) (n : Nat) :
    s.settleWithin (n + 1) = s.round.settleWithin n := if_neg (Bool.eq_false_iff.1 h)

theorem settleWithin_quiet (h : s.isQuiet = true) (n : Nat) : s.settleWithin n = s := by
  cases n with
  | zero => rfl
  | succ n => exact if_pos h

end Session

end Deeds
