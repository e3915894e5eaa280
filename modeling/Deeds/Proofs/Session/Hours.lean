import Deeds.Proofs.Pass
import Deeds.Proofs.Progression
import Deeds.Proofs.Session.Calls
import Deeds.Proofs.System.Reader

/-!
# An hour of a calm session

While deeds are under way each hour is read as soon as the clock sends it, and the session is calm
again afterwards.

* `Deed.Underway.atHour` : an hour completes a deed, or the deed goes on;
* `Session.Ticked`, `Session.Calm.tick` : a calm session after an hour, and its news.
-/

namespace Deeds

/-! ## Deeds -/

namespace Deed

variable {d : Deed} {rates : CharacterId → Option Binary32} {rate : Binary32}

/-- An hour completes a deed that is under way, or the deed goes on. -/
theorem Underway.atHour (h : d.Underway rates rate) (hour : Hour) :
    (∃ current actor, (d.advance rate).2 = .completed current ∧
      d.atHour rates hour = (none,
        [.publish (.action (.progressed d.id hour current d.template.progressIndicator)),
          .apply d.id actor .effects d.template.effects,
          .publish (.action (.completed d.id d.name d.target (some hour)))])) ∨
    ∃ current, (d.advance rate).2 = .progressed current ∧
      (d.advance rate).1.Underway rates rate ∧
      d.atHour rates hour = (some (d.advance rate).1,
        [.publish (.action (.progressed d.id hour current d.template.progressIndicator))]) := by
  obtain ⟨actor, hactor⟩ := actor_of_rate h.rate
  cases hadvance : d.advance rate with
  | mk d' step => cases step with
    | skipped => exact absurd (congrArg Prod.snd hadvance) (advance_ne_skipped h.phase)
    | completed current =>
      have hmode : d.mode ≠ .repeatable := by
        show d.template.mode ≠ .repeatable
        rw [h.mode]
        decide
      exact .inl ⟨current, actor, rfl, atHour_of_completed h.rate hactor hadvance hmode⟩
    | progressed current =>
      refine .inr ⟨current, rfl, ?_, atHour_of_progressed h.rate hadvance⟩
      obtain ⟨-, rfl⟩ := advance_eq_progressed hadvance
      exact ⟨h.phase, h.mode, h.rate⟩

/-- Nothing that is said of it asks for anything. -/
theorem Underway.plain (h : d.Underway rates rate) (hour : Hour) :
    ∀ o ∈ (d.atHour rates hour).2, o.isPlain := by
  rcases h.atHour hour with ⟨current, actor, -, heq⟩ | ⟨current, -, -, heq⟩
  · rw [heq]
    simp [Output.isPlain]
  · rw [heq]
    simp [Output.isPlain]

theorem Underway.of_atHour {d' : Deed} {hour : Hour} (h : d.Underway rates rate)
    (hd : (d.atHour rates hour).1 = some d') : d'.Underway rates rate := by
  rcases h.atHour hour with ⟨current, actor, -, heq⟩ | ⟨current, -, hnext, heq⟩
  · rw [heq] at hd
    cases hd
  · rw [heq] at hd
    cases hd
    exact hnext

end Deed

/-! ## Systems -/

/-- A channel with room keeps the value that was sent last. -/
theorem Channel.kept_last {α : Type} {c : Channel α} (h : 0 < c.capacity) (a : α) :
    (c.send a).oldest ≤ c.sent ∧ (c.send a).kept[c.sent - (c.send a).oldest]? = some a := by
  have hold : (c.send a).oldest ≤ c.sent := by
    have hlength := (c.send a).length_kept
    unfold oldest
    simp only [send] at hlength ⊢
    omega
  obtain ⟨-, hkept⟩ := kept_send hold (Nat.lt_succ_self _)
  rw [if_pos rfl] at hkept
  exact ⟨hold, hkept⟩

namespace System

variable {s : System}

/-- The clock has sent an hour, and the engine has read it. -/
def hourRead (s : System) : System :=
  { s with
    clock := s.clock.advance
    ticks := some (s.clock.ticks.sent + 1) }

/-- The system after the next hour, which is read as soon as the clock sends it. -/
def afterHour (s : System) : System :=
  let (e, outputs) := s.engine.tick s.world.cast.rate s.clock.now.next
  { s.hourRead with engine := e }.performAll outputs

/-- A reader that has read all hours reads the next one as soon as the clock sends it. -/
theorem readClock_advance (hopen : s.clockIsOpen = true)
    (hticks : s.ticks = some s.clock.ticks.sent) (hcapacity : 0 < s.clock.ticks.capacity) :
    s.advanceClock.hasTick = true ∧
      s.advanceClock.readClock = (s.hourRead, some (.tick s.clock.now.next)) := by
  obtain ⟨hold, hkept⟩ := Channel.kept_last hcapacity s.clock.now.next
  have hadvance : s.advanceClock = { s with clock := s.clock.advance } := if_pos hopen
  rw [hadvance]
  constructor
  · unfold hasTick
    dsimp only
    rw [hticks]
    simp [Clock.advance, Channel.send]
  · unfold readClock hourRead
    dsimp only
    rw [hticks]
    dsimp only [Clock.advance]
    rw [Channel.receive_of_kept hold hkept]

theorem deliver_tick (s : System) : s.hourRead.deliver (.tick s.clock.now.next)
    = (s.afterHour, (s.engine.tick s.world.cast.rate s.clock.now.next).2) := rfl

theorem leads_afterHour (hread : s.advanceClock.readClock
    = (s.hourRead, some (.tick s.clock.now.next))) : s.Leads [] s.afterHour := by
  have hfirst : s.Leads [] s.advanceClock := .single (m := .advanceClock) rfl rfl
  refine hfirst.trans (.single (m := .takeTick) rfl ?_)
  show s.advanceClock.takeTick.1 = s.afterHour
  unfold takeTick
  rw [hread]
  rfl

end System

namespace Session

variable {s t : Session} {rate : Binary32}

/-! ## Calm sessions -/

/-- What an hour says: what is said of the deeds, and at last that the hour is over. -/
theorem Calm.said_tick (h : s.Calm rate) (hour : Hour) :
    ∃ (said : List Output) (indicator repeatable : Nat),
      (s.system.engine.tick s.system.world.cast.rate hour).2
        = said ++ [.publish (.tracker (.tickProcessed hour indicator repeatable))] ∧
      (∀ o ∈ said, o.isPlain) ∧
      effectsOf said = effectsOf (s.system.engine.tracker.indicator.flatMap
        fun d => (d.atHour s.system.world.cast.rate hour).2) := by
  have honce : s.system.engine.tracker.deeds = s.system.engine.tracker.indicator := by
    unfold Tracker.deeds
    rw [h.once, List.append_nil]
  refine ⟨_, _, _, Engine.tick_said (Engine.nodup_order h.sound.sound.nodup), ?_, ?_⟩
  · rw [honce]
    intro o ho
    rw [List.mem_append, List.mem_flatMap] at ho
    rcases ho with ⟨d, hd, ho⟩ | ho
    · exact (h.underway d hd).plain hour o ho
    · split at ho
      · rw [List.mem_pair] at ho
        rcases ho with rfl | rfl <;> rfl
      · cases ho
  · have hhours (p : Prop) [Decidable p] :
        effectsOf (if p then [.unsubscribe, .publish (.tracker .unsubscribed)] else []) = [] := by
      split <;> rfl
    rw [effectsOf_append, hhours, List.append_nil, honce]

theorem Calm.plain_tick (h : s.Calm rate) (hour : Hour) :
    ∀ o ∈ (s.system.engine.tick s.system.world.cast.rate hour).2, o.isPlain := by
  obtain ⟨said, indicator, repeatable, houtputs, hsaid, -⟩ := h.said_tick hour
  intro o ho
  rw [houtputs, List.mem_append, List.mem_singleton] at ho
  rcases ho with ho | rfl
  · exact hsaid o ho
  · rfl

theorem Calm.spoken_afterHour (h : s.Calm rate) :
    System.Spoken { s.system.hourRead with
      engine := (s.system.engine.tick s.system.world.cast.rate s.system.clock.now.next).1 }
      s.system.afterHour :=
  System.spoken_performAll _ (h.plain_tick _)

/-- While hours are taken, the clock's next hour is read. -/
theorem Calm.readClock (h : s.Calm rate) (hsub : s.system.engine.tracker.subscribed = true) :
    s.system.advanceClock.hasTick = true ∧ s.system.advanceClock.readClock
      = (s.system.hourRead, some (.tick s.system.clock.now.next)) := by
  have hticks : s.system.ticks = some s.system.clock.ticks.sent := by
    have hsome := h.inStep.ticks
    rw [hsub, Option.isSome_iff_exists] at hsome
    obtain ⟨place, hplace⟩ := hsome
    rw [hplace, h.upToDate place hplace]
  exact System.readClock_advance h.clockIsOpen hticks h.hours

theorem Calm.lists_afterHour (h : s.Calm rate) :
    s.system.afterHour.engine.tracker.indicator = s.system.engine.tracker.indicator.filterMap
        (fun d => (d.atHour s.system.world.cast.rate s.system.clock.now.next).1) ∧
      s.system.afterHour.engine.tracker.repeatable = [] := by
  rw [h.spoken_afterHour.engine]
  obtain ⟨hindicator, hrepeatable⟩ := Engine.tick_lists (Engine.nodup_order h.sound.sound.nodup)
  refine ⟨hindicator, hrepeatable.trans ?_⟩
  rw [h.once]
  rfl

theorem Calm.afterHour (h : s.Calm rate) (hsub : s.system.engine.tracker.subscribed = true) :
    ({ s with system := s.system.afterHour } : Session).Calm rate := by
  have hspoken := h.spoken_afterHour
  have hleads := System.leads_afterHour (h.readClock hsub).2
  have hrates : s.system.afterHour.world.cast.rate = s.system.world.cast.rate :=
    System.rate_performAll _ _
  obtain ⟨hindicator, hrepeatable⟩ := h.lists_afterHour
  exact {
    toOpen := h.toOpen.withSystem (hspoken.fired.trans h.fired)
    commands := h.commands
    ready := h.ready
    unanswered := h.unanswered
    sound := hleads.sound h.sound
    inStep := hleads.inStep h.sound h.inStep
    upToDate := by
      apply hspoken.upToDate
      rintro place ⟨⟩
      rfl
    clockIsOpen := hspoken.clockIsOpen.trans h.clockIsOpen
    waiting := hspoken.waiting.trans h.waiting
    finished := hspoken.finished.trans h.finished
    pending := by
      show s.system.afterHour.engine.pending = []
      rw [hspoken.engine, (Engine.tick_aside _ _).pending, h.pending]
    once := hrepeatable
    hours := by
      show 0 < s.system.afterHour.clock.ticks.capacity
      rw [hspoken.clock]
      exact h.hours
    news := by
      show 0 < s.system.afterHour.bus.tracker.capacity
      rw [hspoken.capacity]
      exact h.news
    cast := by
      obtain ⟨stats, hstats⟩ := hspoken.cast
      show s.system.afterHour.world.cast.Paced rate
      rw [hstats]
      exact ⟨h.cast.rates, h.cast.selections, h.cast.finite⟩
    underway := by
      show ∀ d ∈ s.system.afterHour.engine.tracker.indicator,
        d.Underway s.system.afterHour.world.cast.rate rate
      rw [hindicator, hrates]
      intro d hd
      obtain ⟨before, hbefore, hleft⟩ := List.mem_filterMap.1 hd
      exact (h.underway before hbefore).of_atHour hleft }

/-- An hour is over when the session has settled. -/
theorem Calm.tick_eq (h : s.Calm rate) (hsub : s.system.engine.tracker.subscribed = true) :
    (s.tick 1).1 = { s with system := s.system.afterHour } := by
  obtain ⟨htick, hread⟩ := h.readClock hsub
  have hcalm := h.afterHour hsub
  have hbegin : ({ s with system := s.system.hourRead } : Session).Open :=
    h.toOpen.withSystem h.fired
  have hput : ({ s with system := s.system.hourRead } : Session).deliver
      (.tick s.system.clock.now.next) = { s with system := s.system.afterHour } := by
    rw [hbegin.deliver (congrArg Prod.fst s.system.deliver_tick) hcalm.fired]
    exact noteAll_plain _ (h.plain_tick _)
  have hround : ({ s with system := s.system.advanceClock } : Session).round
      = { s with system := s.system.afterHour } :=
    (round_tick (s := { s with system := s.system.advanceClock }) h.commands htick hread hput
      hcalm.hasTick hcalm.finished).trans (lookAll_none h.ready)
  have hquiet : ({ s with system := s.system.advanceClock } : Session).isQuiet = false := by
    unfold Session.isQuiet
    rw [htick]
    simp
  show ({ s with system := s.system.advanceClock } : Session).settleWithin (7 + 1) = _
  rw [settleWithin_busy hquiet, hround, settleWithin_quiet hcalm.isQuiet]

/-- A calm session after an hour. -/
structure Ticked (rate : Binary32) (s t : Session) : Prop where
  calm : t.Calm rate
  replies : t.replies = s.replies
  leads : s.system.Leads [] t.system
  now : t.system.clock.now = s.system.clock.now.next
  rates : t.system.world.cast.rate = s.system.world.cast.rate
  indicator : t.system.engine.tracker.indicator = s.system.engine.tracker.indicator.filterMap
    fun d => (d.atHour s.system.world.cast.rate s.system.clock.now.next).1
  balance : ∀ r, t.system.world.treasury.balance r = s.system.world.treasury.balance r
    + Effect.changes r (effectsOf (s.system.engine.tracker.indicator.flatMap
        fun d => (d.atHour s.system.world.cast.rate s.system.clock.now.next).2))
  news : ∃ (b : Bus) (indicator repeatable : Nat),
    s.system.bus.tracker.sent ≤ b.tracker.sent ∧
    b.tracker.capacity = s.system.bus.tracker.capacity ∧
    t.system.bus = b.publish (.tracker
      (.tickProcessed t.system.clock.now indicator repeatable))

/-- While deeds are under way, an hour leaves the session calm. -/
theorem Calm.tick (h : s.Calm rate) (hsub : s.system.engine.tracker.subscribed = true) :
    Ticked rate s (s.tick 1).1 := by
  have hnow : s.system.afterHour.clock.now = s.system.clock.now.next := by
    rw [h.spoken_afterHour.clock]
    rfl
  obtain ⟨said, indicator, repeatable, houtputs, hsaid, heffects⟩ :=
    h.said_tick s.system.clock.now.next
  have hafter : s.system.afterHour = System.performAll { s.system.hourRead with
      engine := (s.system.engine.tick s.system.world.cast.rate s.system.clock.now.next).1 }
      (said ++ [.publish (.tracker
        (.tickProcessed s.system.clock.now.next indicator repeatable))]) := by
    rw [← houtputs]
    rfl
  rw [h.tick_eq hsub]
  exact {
    calm := h.afterHour hsub
    replies := rfl
    leads := System.leads_afterHour (h.readClock hsub).2
    now := hnow
    rates := System.rate_performAll _ _
    indicator := h.lists_afterHour.1
    balance := fun r => by
      show s.system.afterHour.world.treasury.balance r = _
      rw [hafter, System.balance_performAll, effectsOf_append, ← heffects]
      exact congrArg (fun effects => _ + Effect.changes r effects) (List.append_nil _)
    news := by
      have hbefore := System.spoken_performAll { s.system.hourRead with
        engine := (s.system.engine.tick s.system.world.cast.rate s.system.clock.now.next).1 } hsaid
      refine ⟨_, indicator, repeatable, hbefore.sent, hbefore.capacity, ?_⟩
      show s.system.afterHour.bus = Bus.publish _ (.tracker
        (.tickProcessed s.system.afterHour.clock.now indicator repeatable))
      rw [hnow, hafter]
      unfold System.performAll
      rw [List.foldl_append]
      rfl }

end Session

end Deeds
