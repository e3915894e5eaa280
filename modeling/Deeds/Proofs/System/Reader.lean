import Deeds.Proofs.Tracking

/-!
# The reader of the clock

While the engine takes hours it has a place in the clock's channel. It reads the hours from there in
their order; those that were overwritten meanwhile it skips.

* `Clock.hourAt`, `Clock.Continues` : the hours that a clock sends from now on, each at its place;
* `Clock.Continues.receive` : what is read at a place;
* `processedHours`, `progressHours` : the hours that some outputs report;
* `Engine.step_tick`, `Engine.step_timeless` : an hour reports itself, and nothing else reports one;
* `System.OnTime` : the place of the reader is one of the clock; `System.onTime_step` : so it stays;
* `System.readOn_cases` : how a move reads on.
-/

namespace Deeds

open Engine (Transition)

/-! ## Channels -/

namespace Channel

variable {α : Type} {c : Channel α} {p : Nat} {a : α}

theorem oldest_le_sent : c.oldest ≤ c.sent := Nat.sub_le ..

theorem length_kept_eq : c.kept.length = c.sent - c.oldest := by
  have := c.length_kept
  unfold oldest
  omega

/-- A place is left behind only by more values than the channel keeps. -/
theorem capacity_lt (h : p < c.oldest) : c.capacity < c.sent - p := by
  have := c.length_kept
  unfold oldest at h
  omega

theorem receive_of_lt (h : p < c.oldest) : c.receive p = (.lagged (c.oldest - p), c.oldest) :=
  if_pos h

theorem receive_of_kept (hle : c.oldest ≤ p) (ha : c.kept[p - c.oldest]? = some a) :
    c.receive p = (.value a, p + 1) := by
  rw [receive, if_neg (Nat.not_lt.2 hle), ha]

theorem receive_sent : c.receive c.sent = (.empty, c.sent) := by
  have hnone : c.kept[c.sent - c.oldest]? = none :=
    List.getElem?_eq_none_iff.2 (Nat.le_of_eq length_kept_eq)
  rw [receive, if_neg (Nat.not_lt.2 oldest_le_sent), hnone]

/-- What is kept at a place after one more value was sent. -/
theorem kept_send (hle : (c.send a).oldest ≤ p) (hlt : p < c.sent + 1) :
    c.oldest ≤ p ∧ (c.send a).kept[p - (c.send a).oldest]? =
      if p = c.sent then some a else c.kept[p - c.oldest]? := by
  have hlength := c.length_kept
  have holdest : (c.send a).oldest = c.oldest + (c.kept.length + 1 - c.capacity) := by
    simp only [oldest, send, List.length_drop, List.length_append, List.length_singleton]
    omega
  have hkept : (c.send a).kept = (c.kept ++ [a]).drop (c.kept.length + 1 - c.capacity) := rfl
  have hsent : c.sent = c.oldest + c.kept.length := by
    unfold oldest
    omega
  rw [holdest] at hle ⊢
  refine ⟨by omega, ?_⟩
  have hindex : c.kept.length + 1 - c.capacity
      + (p - (c.oldest + (c.kept.length + 1 - c.capacity))) = p - c.oldest := by omega
  rw [hkept, List.getElem?_drop, hindex]
  split
  next heq => rw [heq, hsent, Nat.add_sub_cancel_left, List.getElem?_concat_length]
  next hne => rw [List.getElem?_append_left (by omega)]

end Channel

/-! ## Clocks -/

namespace Clock

variable {c₀ c : Clock} {p q : Nat}

/-- The hour that a clock which goes on sends at a place. -/
def hourAt (c : Clock) (place : Nat) : Hour := ⟨c.now.val + (place - c.ticks.sent) + 1⟩

theorem hourAt_lt (hp : c.ticks.sent ≤ p) (h : p < q) : (c.hourAt p).val < (c.hourAt q).val := by
  simp only [hourAt]
  omega

/-- A clock has gone on from another one: since then it sent every hour at its place. -/
structure Continues (c₀ c : Clock) : Prop where
  sent_le : c₀.ticks.sent ≤ c.ticks.sent
  now : c.now.val = c₀.now.val + (c.ticks.sent - c₀.ticks.sent)
  kept : ∀ p, c₀.ticks.sent ≤ p → c.ticks.oldest ≤ p → p < c.ticks.sent →
    c.ticks.kept[p - c.ticks.oldest]? = some (c₀.hourAt p)

theorem Continues.refl (c : Clock) : Continues c c where
  sent_le := Nat.le_refl _
  now := by omega
  kept p hp _ hlt := by omega

/-- The next hour is the one at the next place. -/
theorem Continues.next_eq (h : Continues c₀ c) : c.now.next = c₀.hourAt c.ticks.sent := by
  have := h.now
  simp only [Hour.next, hourAt, this]

theorem Continues.advance (h : Continues c₀ c) : Continues c₀ c.advance where
  sent_le := Nat.le_succ_of_le h.sent_le
  now := by
    have hle := h.sent_le
    have hnow := h.now
    simp only [Clock.advance, Channel.send, Hour.next]
    omega
  kept p hp hold hlt := by
    obtain ⟨hle, hkept⟩ := Channel.kept_send hold hlt
    refine hkept.trans ?_
    split
    next heq => rw [h.next_eq, heq]
    next hne => exact h.kept p hp hle (Nat.lt_of_le_of_ne (Nat.lt_succ_iff.1 hlt) hne)

/-- At a place of its own a reader skips what it missed, reads the hour of the place, or finds
nothing yet. -/
theorem Continues.receive (h : Continues c₀ c) (hq : c₀.ticks.sent ≤ q) (hle : q ≤ c.ticks.sent) :
    (q < c.ticks.oldest ∧
      c.ticks.receive q = (.lagged (c.ticks.oldest - q), c.ticks.oldest)) ∨
    (q < c.ticks.sent ∧ c.ticks.receive q = (.value (c₀.hourAt q), q + 1)) ∨
    (q = c.ticks.sent ∧ c.ticks.receive q = (.empty, q)) := by
  rcases Nat.lt_or_ge q c.ticks.oldest with hlt | hge
  · exact .inl ⟨hlt, Channel.receive_of_lt hlt⟩
  · rcases Nat.lt_or_eq_of_le hle with hlt | rfl
    · exact .inr (.inl ⟨hlt, Channel.receive_of_kept hge (h.kept q hq hge hlt)⟩)
    · exact .inr (.inr ⟨rfl, Channel.receive_sent⟩)

end Clock

/-! ## Hours that outputs report -/

/-- The hour that an output says is over. -/
def Output.processed? : Output → Option Hour
  | .publish (.tracker (.tickProcessed hour _ _)) => some hour
  | _ => none

/-- The hour in which an output says that a deed made progress. -/
def Output.progress? (id : DeedId) : Output → Option Hour
  | .publish (.action (.progressed deed hour _ _)) => if deed = id then some hour else none
  | _ => none

/-- All hours that some outputs say are over, in order. -/
def processedHours (outputs : List Output) : List Hour := outputs.filterMap Output.processed?

/-- All hours in which some outputs say that a deed made progress, in order. -/
def progressHours (id : DeedId) (outputs : List Output) : List Hour :=
  outputs.filterMap (Output.progress? id)

theorem processedHours_append (xs ys : List Output) :
    processedHours (xs ++ ys) = processedHours xs ++ processedHours ys := List.filterMap_append

theorem progressHours_append (id : DeedId) (xs ys : List Output) :
    progressHours id (xs ++ ys) = progressHours id xs ++ progressHours id ys :=
  List.filterMap_append

/-- Outputs that report no hour. -/
structure Timeless (outputs : List Output) : Prop where
  processed : processedHours outputs = []
  progress : ∀ id, progressHours id outputs = []

theorem Timeless.append {xs ys : List Output} (hx : Timeless xs) (hy : Timeless ys) :
    Timeless (xs ++ ys) where
  processed := by rw [processedHours_append, hx.processed, hy.processed]; rfl
  progress id := by rw [progressHours_append, hx.progress, hy.progress]; rfl

theorem Timeless.cons {o : Output} {ys : List Output} (ho : Timeless [o]) (hy : Timeless ys) :
    Timeless (o :: ys) := ho.append hy

theorem timeless_nil : Timeless [] := ⟨rfl, fun _ => rfl⟩

namespace Engine

variable {e e' : Engine} {f : Finding} {id j : DeedId} {outputs : List Output} {d : Deed}

theorem timeless_subscribe : Timeless e.subscribe.2 := by
  unfold subscribe
  split
  · exact timeless_nil
  · exact ⟨rfl, fun _ => rfl⟩

theorem timeless_unsubscribe : Timeless e.unsubscribe.2 := by
  unfold unsubscribe
  split
  · exact ⟨rfl, fun _ => rfl⟩
  · exact timeless_nil

theorem timeless_unsubscribeIfIdle : Timeless e.unsubscribeIfIdle.2 := by
  unfold unsubscribeIfIdle
  split
  · exact timeless_unsubscribe
  · exact timeless_nil

theorem timeless_enrol : Timeless (e.enrol d).2 := by
  unfold enrol
  dsimp only
  split
  · exact timeless_subscribe
  · exact timeless_nil

theorem timeless_cancelTracked (reason : CancelReason) :
    Timeless (e.cancelTracked d reason).2 :=
  .cons ⟨rfl, fun _ => rfl⟩ timeless_unsubscribeIfIdle

/-- A finding reports no hour. -/
theorem Transition.timeless (h : Transition e (some f) j outputs e') : Timeless outputs := by
  cases h with
  | ignore => exact timeless_nil
  | reject => exact ⟨rfl, fun _ => rfl⟩
  | bind => exact ⟨rfl, fun _ => rfl⟩
  | finish => exact ⟨rfl, fun _ => rfl⟩
  | track =>
    exact .append ⟨rfl, fun _ => rfl⟩ (timeless_enrol.append ⟨rfl, fun _ => rfl⟩)
  | restart => exact ⟨rfl, fun _ => rfl⟩
  | cancel => exact timeless_cancelTracked _

/-- Nor does a request to stop. -/
theorem timeless_stop (id : DeedId) : Timeless (e.stop id).2 := by
  unfold stop
  split
  · exact ⟨rfl, fun _ => rfl⟩
  · split
    · exact (timeless_cancelTracked _).append ⟨rfl, fun _ => rfl⟩
    · exact ⟨rfl, fun _ => rfl⟩

theorem timeless_invoke (call : CallId) (name : String) (target : Target) (token : Token) :
    Timeless (e.invoke call name target token).2 := by
  unfold invoke
  split <;> exact ⟨rfl, fun _ => rfl⟩

/-- No input but an hour reports one. -/
theorem step_timeless {rates : CharacterId → Option Binary32} {input : Input}
    (hf : ∀ f, input ≠ .finding f) (ht : ∀ hour, input ≠ .tick hour) :
    Timeless (e.step rates input).2 := by
  cases input with
  | invoke call name target token => exact timeless_invoke call name target token
  | stop id => exact timeless_stop id
  | finding f => exact absurd rfl (hf f)
  | tick hour => exact absurd rfl (ht hour)
  | clockClosed => exact timeless_unsubscribe

/-! ### An hour -/

section Hour

variable (rates : CharacterId → Option Binary32) (hour : Hour)

/-- What some outputs say of an hour, while it visits some deeds: none of them is through with it,
and each makes progress once at most. -/
structure Visits (hour : Hour) (ids : List DeedId) (outputs : List Output) : Prop where
  processed : processedHours outputs = []
  progress : ∀ id, (progressHours id outputs).Sublist (if id ∈ ids then [hour] else [])

theorem visits_of_timeless {ids : List DeedId} (h : Timeless outputs) : Visits hour ids outputs :=
  ⟨h.processed, fun id => by rw [h.progress id]; exact List.nil_sublist _⟩

/-- Progress is made first, and what follows reports no hour. -/
theorem visits_progressed {current indicator : Binary32} {rest : List Output}
    (h : Timeless rest) :
    Visits hour [id] (.publish (.action (.progressed id hour current indicator)) :: rest) where
  processed := h.processed
  progress j := by
    rw [← List.singleton_append, progressHours_append, h.progress, List.append_nil]
    by_cases hj : j = id
    · subst hj
      simp [progressHours, Output.progress?]
    · simp [progressHours, Output.progress?, hj, Ne.symm hj]

theorem timeless_complete (actor : CharacterId) : Timeless (e.complete d actor hour).2 := by
  unfold complete
  dsimp only
  split
  · exact ⟨rfl, fun _ => rfl⟩
  · exact .append ⟨rfl, fun _ => rfl⟩ timeless_unsubscribeIfIdle

theorem visit_visits (id : DeedId) : Visits hour [id] (e.visit rates hour id).2 := by
  unfold visit
  cases hfind : e.tracker.find? id with
  | none => exact visits_of_timeless hour timeless_nil
  | some d =>
    obtain ⟨-, rfl⟩ := Tracker.mem_of_find? hfind
    dsimp only
    cases progressionRate rates d with
    | error error => exact visits_of_timeless hour (timeless_cancelTracked _)
    | ok rate =>
      dsimp only
      unfold advance
      cases h : d.advance rate with
      | mk d' step =>
        cases step with
        | skipped => exact visits_of_timeless hour timeless_nil
        | progressed current =>
          obtain ⟨-, rfl⟩ := Deed.advance_eq_progressed h
          exact visits_progressed hour timeless_nil
        | completed current =>
          obtain ⟨-, rfl⟩ := Deed.advance_eq_completed h
          refine visits_progressed hour ?_
          dsimp only
          split
          · exact timeless_complete hour _
          · exact timeless_nil

theorem visitAll_visits {ids : List DeedId} (hnodup : ids.Nodup) :
    Visits hour ids (e.visitAll rates hour ids).2 := by
  -- each number is visited once, so a deed makes progress in its own visit or in none
  induction ids generalizing e with
  | nil => exact visits_of_timeless hour timeless_nil
  | cons id rest ih =>
    obtain ⟨hid, hrest⟩ := List.nodup_cons.1 hnodup
    have hfirst := visit_visits (e := e) rates hour id
    have hlater := ih (e := (e.visit rates hour id).1) hrest
    have hall : (e.visitAll rates hour (id :: rest)).2 = (e.visit rates hour id).2
        ++ ((e.visit rates hour id).1.visitAll rates hour rest).2 := rfl
    refine ⟨?_, fun j => ?_⟩
    · rw [hall, processedHours_append, hfirst.processed, hlater.processed]
      rfl
    · have hj := (hfirst.progress j).append (hlater.progress j)
      rw [← progressHours_append, ← hall] at hj
      by_cases heq : j = id
      · subst heq
        simpa [hid] using hj
      · simpa [heq] using hj

/-- An hour reports that it is over, and progress of each deed in this hour only, once at most. -/
theorem step_tick (hs : e.Sound) : processedHours (e.step rates (.tick hour)).2 = [hour] ∧
    ∀ id, (progressHours id (e.step rates (.tick hour)).2).Sublist [hour] := by
  have hall := visitAll_visits (e := e) rates hour (nodup_order hs.nodup)
  obtain ⟨indicator, repeatable, heq⟩ : ∃ indicator repeatable, (e.step rates (.tick hour)).2 =
      (e.visitAll rates hour e.tracker.order).2 ++
        [.publish (.tracker (.tickProcessed hour indicator repeatable))] := ⟨_, _, rfl⟩
  rw [heq, processedHours_append, hall.processed]
  refine ⟨rfl, fun id => ?_⟩
  have hlast : progressHours id
      [.publish (.tracker (.tickProcessed hour indicator repeatable))] = [] := rfl
  rw [progressHours_append, hlast, List.append_nil]
  refine (hall.progress id).trans ?_
  split
  · exact List.Sublist.refl _
  · exact List.nil_sublist _

end Hour

end Engine

/-! ## The reader of a system -/

namespace System

variable {s : System} {c₀ : Clock} {m : Move} {outputs : List Output} {hour : Hour}

theorem clock_performAll : (s.performAll outputs).clock = s.clock := by
  induction outputs generalizing s with
  | nil => rfl
  | cons o outputs ih =>
    rw [performAll_cons, ih]
    cases o <;> rfl

/-- After some outputs the reader is where it was, or nowhere, or behind all hours sent so far. -/
theorem ticks_performAll_cases : (s.performAll outputs).ticks = s.ticks ∨
    (s.performAll outputs).ticks = none ∨
      (s.performAll outputs).ticks = some s.clock.ticks.sent := by
  induction outputs generalizing s with
  | nil => exact .inl rfl
  | cons o outputs ih =>
    rw [performAll_cons]
    have hclock : (s.performAll [o]).clock = s.clock := clock_performAll
    rw [performAll_cons, performAll_nil] at hclock
    have hnow := ih (s := s.perform o)
    rw [hclock] at hnow
    cases o with
    | subscribe => exact hnow.elim (fun h => .inr (.inr h)) .inr
    | unsubscribe => exact hnow.elim (fun h => .inr (.inl h)) .inr
    | _ => exact hnow

/-- The place of the reader once a move has read, before the engine does anything about it. -/
def readOn (s : System) : Move → Option Nat
  | .takeTick => s.readClock.1.ticks
  | _ => s.ticks

/-- The hour that a move reads. -/
def hour? (s : System) (m : Move) : Option Hour :=
  match s.input? m with
  | some (.tick hour) => some hour
  | _ => none

theorem hour?_eq_some_iff : s.hour? m = some hour ↔ s.input? m = some (.tick hour) := by
  unfold hour?
  split <;> simp_all

/-- What is given to the engine is followed by what it puts out. -/
theorem deliver?_eq_performAll (s : System) (input : Option Input) : ∃ t : System,
    (s.deliver? input).1 = t.performAll (s.deliver? input).2 ∧ t.ticks = s.ticks ∧
      t.clock = s.clock := by
  cases input with
  | none => exact ⟨s, rfl, rfl, rfl⟩
  | some input => exact ⟨{ s with engine := _ }, rfl, rfl, rfl⟩

/-- A move reads, and then does what the engine puts out. -/
theorem step_eq_performAll (s : System) (m : Move) : ∃ t : System,
    (s.step m).1 = t.performAll (s.step m).2 ∧ t.ticks = s.readOn m ∧
      (m ≠ .advanceClock → t.clock = s.clock) := by
  cases m with
  | invoke call name target token =>
    obtain ⟨t, ht, hticks, hclock⟩ :=
      s.deliver?_eq_performAll (some (.invoke call name target token))
    exact ⟨t, ht, hticks, fun _ => hclock⟩
  | stop id =>
    obtain ⟨t, ht, hticks, hclock⟩ := s.deliver?_eq_performAll (some (.stop id))
    exact ⟨t, ht, hticks, fun _ => hclock⟩
  | take index =>
    obtain ⟨t, ht, hticks, hclock⟩ :=
      (s.nextFinding index).1.deliver?_eq_performAll (s.nextFinding index).2
    exact ⟨t, ht, hticks, fun _ => hclock⟩
  | takeTick =>
    obtain ⟨t, ht, hticks, hclock⟩ := s.readClock.1.deliver?_eq_performAll s.readClock.2
    obtain ⟨place, hplace⟩ := readClock_fst (s := s)
    exact ⟨t, ht, hticks, fun _ => by rw [hclock, hplace]⟩
  | poll id => exact ⟨s.poll id, rfl, by rw [poll_eq]; rfl, fun _ => by rw [poll_eq]⟩
  | answer id => exact ⟨s.answer id, rfl, by rw [answer_eq]; rfl, fun _ => by rw [answer_eq]⟩
  | expire id => exact ⟨s.expire id, rfl, by rw [expire_eq]; rfl, fun _ => by rw [expire_eq]⟩
  | fire token => exact ⟨_, rfl, rfl, fun _ => rfl⟩
  | lose id => exact ⟨_, rfl, rfl, fun _ => rfl⟩
  | advanceClock =>
    refine ⟨_, rfl, ?_, fun h => absurd rfl h⟩
    show s.advanceClock.ticks = s.ticks
    unfold advanceClock
    split <;> rfl
  | closeClock => exact ⟨_, rfl, rfl, fun _ => rfl⟩
  | outside world => exact ⟨_, rfl, rfl, fun _ => rfl⟩

/-- Where the reader is after a move: where it has read to, or nowhere, or behind all hours sent so
far. -/
theorem ticks_step_cases (s : System) (m : Move) : (s.step m).1.ticks = s.readOn m ∨
    (s.step m).1.ticks = none ∨ (s.step m).1.ticks = some (s.step m).1.clock.ticks.sent := by
  obtain ⟨t, ht, hticks, -⟩ := s.step_eq_performAll m
  have hcases : (t.performAll (s.step m).2).ticks = t.ticks ∨ _ := ticks_performAll_cases
  have hclock : (s.step m).1.clock = t.clock := by rw [ht, clock_performAll]
  rwa [← ht, hticks, ← hclock] at hcases

theorem clock_step (hm : m ≠ .advanceClock) : (s.step m).1.clock = s.clock := by
  obtain ⟨t, ht, -, hclock⟩ := s.step_eq_performAll m
  rw [ht, clock_performAll, hclock hm]

/-- What a move that reads an hour reports, and what the others do. -/
theorem step_hours (hs : s.Sound) (m : Move) :
    processedHours (s.step m).2 = (s.hour? m).toList ∧
      ∀ id, (progressHours id (s.step m).2).Sublist (s.hour? m).toList := by
  have of_timeless (htimeless : Timeless (s.step m).2) (hnone : s.hour? m = none) :
      processedHours (s.step m).2 = (s.hour? m).toList ∧
        ∀ id, (progressHours id (s.step m).2).Sublist (s.hour? m).toList := by
    rw [hnone, htimeless.processed]
    exact ⟨rfl, fun id => by rw [htimeless.progress id]; exact List.nil_sublist _⟩
  cases hinput : s.input? m with
  | none =>
    refine of_timeless ?_ (by rw [hour?, hinput])
    rw [(unheard_of_none hinput).outputs]
    exact timeless_nil
  | some input =>
    obtain ⟨-, houtputs⟩ := engine_of_input hinput
    cases input with
    | tick hour =>
      rw [houtputs, hour?_eq_some_iff.2 hinput]
      exact Engine.step_tick _ hour hs.sound
    | finding f =>
      refine of_timeless ?_ (by rw [hour?, hinput])
      exact (transition_of_finding hs (input?_eq_finding_iff.1 hinput)).timeless
    | _ =>
      refine of_timeless ?_ (by rw [hour?, hinput])
      rw [houtputs]
      exact Engine.step_timeless (fun _ h => nomatch h) fun _ h => nomatch h

/-- The reader is at a place of the clock, which has gone on since the start. -/
structure OnTime (c₀ : Clock) (s : System) : Prop where
  clock : c₀.Continues s.clock
  place : ∀ q, s.ticks = some q → c₀.ticks.sent ≤ q ∧ q ≤ s.clock.ticks.sent

/-- How a move reads on: not at all, past hours that it missed, or past the hour at the place. -/
theorem readOn_cases (h : s.OnTime c₀) (m : Move) :
    (s.hour? m = none ∧ s.readOn m = s.ticks) ∨
    (∃ q, m = .takeTick ∧ s.ticks = some q ∧ s.hour? m = none ∧ q < s.clock.ticks.oldest ∧
      s.clock.ticks.receive q = (.lagged (s.clock.ticks.oldest - q), s.clock.ticks.oldest) ∧
      s.readOn m = some s.clock.ticks.oldest) ∨
    (∃ q, m = .takeTick ∧ s.ticks = some q ∧ s.hour? m = some (c₀.hourAt q) ∧
      q < s.clock.ticks.sent ∧ s.readOn m = some (q + 1)) := by
  cases m with
  | takeTick =>
    have hread : s.readOn .takeTick = s.readClock.1.ticks := rfl
    have hhour : s.hour? .takeTick = match s.readClock.2 with
      | some (.tick hour) => some hour
      | _ => none := rfl
    rw [hread, hhour]
    unfold readClock
    cases hticks : s.ticks with
    | none => exact .inl ⟨rfl, hticks⟩
    | some q =>
      obtain ⟨hq, hle⟩ := h.place q hticks
      dsimp only
      rcases h.clock.receive hq hle with ⟨hlt, hreceive⟩ | ⟨hlt, hreceive⟩ | ⟨-, hreceive⟩
      · rw [hreceive]
        exact .inr (.inl ⟨q, rfl, rfl, rfl, hlt, hreceive, rfl⟩)
      · rw [hreceive]
        exact .inr (.inr ⟨q, rfl, rfl, rfl, hlt, rfl⟩)
      · rw [hreceive]
        cases s.clockIsOpen <;> exact .inl ⟨rfl, rfl⟩
  | take index =>
    refine .inl ⟨?_, rfl⟩
    rw [hour?, input?]
    cases s.finished[index]? <;> rfl
  | _ => exact .inl ⟨rfl, rfl⟩

theorem onTime_refl (catalog : Catalog) (world : World) (clock : Clock) (bus : Bus) :
    (ofParts catalog world clock bus).OnTime clock :=
  ⟨.refl clock, fun _ h => nomatch h⟩

/-- An hour that is read is the one at the place of the reader. -/
theorem OnTime.hour_eq (h : s.OnTime c₀) (hhour : s.hour? m = some hour) :
    ∃ p, s.ticks = some p ∧ p < s.clock.ticks.sent ∧ hour = c₀.hourAt p := by
  rcases readOn_cases h m with ⟨hnone, -⟩ | ⟨p, -, -, hnone, -⟩ | ⟨p, -, hp, hsome, hlt, -⟩
  · rw [hnone] at hhour
    cases hhour
  · rw [hnone] at hhour
    cases hhour
  · exact ⟨p, hp, hlt, Option.some.inj (hhour.symm.trans hsome)⟩

/-- Reading on, the reader stays among the hours that were sent; it leaves behind what it reads. -/
theorem OnTime.readOn (h : s.OnTime c₀) {q : Nat} (hq : s.readOn m = some q) :
    ∃ p, s.ticks = some p ∧ c₀.ticks.sent ≤ p ∧ p ≤ q ∧ q ≤ s.clock.ticks.sent ∧
      ∀ hour, s.hour? m = some hour → hour = c₀.hourAt p ∧ p < q := by
  rcases readOn_cases h m with ⟨hnone, heq⟩ | ⟨p, -, hp, hnone, hlt, -, heq⟩ |
    ⟨p, -, hp, hsome, hlt, heq⟩
  · have hticks := heq.symm.trans hq
    obtain ⟨hle, hsent⟩ := h.place q hticks
    exact ⟨q, hticks, hle, Nat.le_refl q, hsent, fun hour hhour => nomatch hnone.symm.trans hhour⟩
  · obtain rfl := Option.some.inj (heq.symm.trans hq)
    exact ⟨p, hp, (h.place p hp).1, Nat.le_of_lt hlt, Channel.oldest_le_sent,
      fun hour hhour => nomatch hnone.symm.trans hhour⟩
  · obtain rfl := Option.some.inj (heq.symm.trans hq)
    exact ⟨p, hp, (h.place p hp).1, Nat.le_succ p, hlt,
      fun hour hhour => ⟨Option.some.inj (hhour.symm.trans hsome), Nat.lt_succ_self p⟩⟩

theorem sent_le_step (s : System) (m : Move) :
    s.clock.ticks.sent ≤ (s.step m).1.clock.ticks.sent := by
  by_cases hm : m = .advanceClock
  · subst hm
    show _ ≤ s.advanceClock.clock.ticks.sent
    unfold advanceClock
    split
    · exact Nat.le_succ _
    · exact Nat.le_refl _
  · exact Nat.le_of_eq (by rw [clock_step hm])

theorem onTime_advanceClock (h : s.OnTime c₀) : s.advanceClock.OnTime c₀ := by
  unfold advanceClock
  split
  · refine ⟨h.clock.advance, fun q hq => ?_⟩
    obtain ⟨hle, hsent⟩ := h.place q hq
    exact ⟨hle, Nat.le_succ_of_le hsent⟩
  · exact h

/-- After every move the reader is among the hours that were sent. -/
theorem onTime_step (h : s.OnTime c₀) (m : Move) : (s.step m).1.OnTime c₀ := by
  by_cases hm : m = .advanceClock
  · subst hm
    exact onTime_advanceClock h
  · have hclock := clock_step (s := s) hm
    refine ⟨hclock ▸ h.clock, fun q hq => ?_⟩
    rcases s.ticks_step_cases m with heq | heq | heq
    · obtain ⟨p, -, hle, hpq, hsent, -⟩ := h.readOn (heq.symm.trans hq)
      exact ⟨Nat.le_trans hle hpq, hclock ▸ hsent⟩
    · rw [heq] at hq
      cases hq
    · obtain rfl := Option.some.inj (heq.symm.trans hq)
      exact ⟨hclock ▸ h.clock.sent_le, Nat.le_refl _⟩

end System

end Deeds
