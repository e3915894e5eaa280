import Deeds.Proofs.Applications
import Deeds.Proofs.Rejections
import Mathlib

/-!
# The course of a deed

What is published about a deed is the beginning of a word of its mode's language.

* `chronicle` : the events about a deed in some outputs, in order;
* `Course.ofMode`, `course` : the languages of the modes;
* `Engine.Told` : how the chronicle of a deed agrees with the state of the engine;
* `Told.transition` : every transition keeps the two in agreement;
* `System.chronicle_course` : the chronicle of every deed after any moves.
-/

namespace Deeds

open scoped Computability
open Engine (Taking Transition)

/-! ## Languages of events -/

namespace Course

variable (id : DeedId) (name : String) (target : Target)

/-- An hour of progress. -/
def hour : Language ActionEvent :=
  {w | ∃ hour current indicator, w = [.progressed id hour current indicator]}

/-- The hour that reaches the indicator: progress and, right after it, the completion of that
hour. -/
def lastHour : Language ActionEvent :=
  {w | ∃ hour current indicator,
    w = [.progressed id hour current indicator, .completed id name target (some hour)]}

/-- The end of a deed for a reason of some kind. -/
def cancelled (P : CancelReason → Prop) : Language ActionEvent :=
  {w | ∃ reason, P reason ∧ w = [.cancelled id name target reason]}

/-- A reason that is not the result of a check. -/
def Abrupt (reason : CancelReason) : Prop := reason ≠ .conditionsNotMet ∧ reason ≠ .timeout

/-- The cycle with a number: some hours, the last of which reaches the indicator, and the news that
the next cycle begins. -/
def cycle (k : Nat) : Language ActionEvent :=
  (hour id)∗ * lastHour id name target * {[.repeated id k]}

/-- The first cycles of a deed, in order. -/
def cycles : Nat → Language ActionEvent
  | 0 => 1
  | n + 1 => cycles n * cycle id name target (n + 1)

/-- What follows the start of a deed. Only right after a completion a deed may be cancelled for any
reason. -/
def ofMode : ExecutionMode → Language ActionEvent
  | .immediate => {[.completed id name target none]}
  | .indicator => (hour id)∗ * (lastHour id name target + cancelled id name target Abrupt)
  | .repeatable => ⨆ n, cycles id name target n *
      ((hour id)∗ * (cancelled id name target Abrupt
        + lastHour id name target * cancelled id name target fun _ => True))

variable {id name target} {w x a b : List ActionEvent} {n : Nat} {h : Hour}
  {current indicator : Binary32} {reason : CancelReason}

theorem kstar_append {α : Type} {l : Language α} {w x : List α} (hw : w ∈ l∗) (hx : x ∈ l) :
    w ++ x ∈ l∗ := by
  rw [← Language.one_add_kstar_mul_self_eq_kstar, Language.mem_add]
  exact .inr (Language.append_mem_mul hw hx)

theorem hour_append (hw : w ∈ (hour id)∗) :
    w ++ [.progressed id h current indicator] ∈ (hour id)∗ :=
  kstar_append hw ⟨h, current, indicator, rfl⟩

theorem lastHour_mem :
    [.progressed id h current indicator, .completed id name target (some h)]
      ∈ lastHour id name target := ⟨h, current, indicator, rfl⟩

theorem cycles_succ (ha : a ∈ cycles id name target n)
    (hb : b ∈ (hour id)∗ * lastHour id name target) :
    a ++ (b ++ [.repeated id (n + 1)]) ∈ cycles id name target (n + 1) :=
  Language.append_mem_mul ha (Language.append_mem_mul hb (Set.mem_singleton _))

/-- A deed that completes once ends with its completion. -/
theorem indicator_of_lastHour (hw : w ∈ (hour id)∗) (hx : x ∈ lastHour id name target) :
    w ++ x ∈ ofMode id name target .indicator :=
  Language.append_mem_mul hw ((Language.mem_add _ _ _).2 (.inl hx))

/-- A deed that progresses may be cancelled, but not as the result of a check. -/
theorem cancelled_hourly {mode : ExecutionMode} (hmode : mode ≠ .immediate)
    (hn : mode = .indicator → n = 0) (ha : a ∈ cycles id name target n) (hb : b ∈ (hour id)∗)
    (hr : Abrupt reason) :
    a ++ (b ++ [.cancelled id name target reason]) ∈ ofMode id name target mode := by
  have hend : [.cancelled id name target reason] ∈ cancelled id name target Abrupt :=
    ⟨reason, hr, rfl⟩
  cases mode with
  | immediate => exact absurd rfl hmode
  | indicator =>
    obtain rfl := hn rfl
    obtain rfl : a = [] := ha
    rw [List.nil_append]
    exact Language.append_mem_mul hb ((Language.mem_add _ _ _).2 (.inr hend))
  | repeatable =>
    refine Language.mem_iSup.2 ⟨n, Language.append_mem_mul ha (Language.append_mem_mul hb ?_)⟩
    exact (Language.mem_add _ _ _).2 (.inl hend)

/-- Right after a completion a deed that repeats may be cancelled for any reason. -/
theorem cancelled_completed (ha : a ∈ cycles id name target n)
    (hb : b ∈ (hour id)∗ * lastHour id name target) :
    a ++ (b ++ [.cancelled id name target reason]) ∈ ofMode id name target .repeatable := by
  obtain ⟨c, hc, x, hx, rfl⟩ := Language.mem_mul.1 hb
  have hend : [.cancelled id name target reason] ∈ cancelled id name target fun _ => True :=
    ⟨reason, trivial, rfl⟩
  refine Language.mem_iSup.2 ⟨n, Language.append_mem_mul ha ?_⟩
  rw [List.append_assoc]
  refine Language.append_mem_mul hc ((Language.mem_add _ _ _).2 (.inr ?_))
  exact Language.append_mem_mul hx hend

end Course

/-- All that may be told about a deed of a template: its start, and what follows in its mode. -/
def course (id : DeedId) (t : Template) (actor : CharacterId) (target : Target) :
    Language ActionEvent :=
  {[.started id t.name actor target t.mode]} * Course.ofMode id t.name target t.mode

theorem cons_mem_course {id : DeedId} {t : Template} {actor : CharacterId} {target : Target}
    {w : List ActionEvent} (h : w ∈ Course.ofMode id t.name target t.mode) :
    .started id t.name actor target t.mode :: w ∈ course id t actor target :=
  Language.append_mem_mul (Set.mem_singleton _) h

/-! ## Chronicles -/

/-- The event about a deed that an output publishes. -/
def Output.news? (id : DeedId) : Output → Option ActionEvent
  | .publish (.action event) => if event.deed? = some id then some event else none
  | _ => none

/-- The events about a deed that some outputs publish, in order. -/
def chronicle (id : DeedId) (outputs : List Output) : List ActionEvent :=
  outputs.filterMap (Output.news? id)

theorem Output.of_news? {id : DeedId} {o : Output} {event : ActionEvent}
    (h : o.news? id = some event) : o = .publish (.action event) ∧ event.deed? = some id := by
  unfold news? at h
  split at h
  · obtain ⟨hid, heq⟩ := Option.ite_none_right_eq_some.1 h
    cases heq
    exact ⟨rfl, hid⟩
  · cases h

section Chronicle

variable {id : DeedId} {xs ys outputs : List Output} {d : Deed} {actor : CharacterId} {hour : Hour}
  {current : Binary32} {call : CallId}

theorem chronicle_append (id : DeedId) (xs ys : List Output) :
    chronicle id (xs ++ ys) = chronicle id xs ++ chronicle id ys := List.filterMap_append

/-- No event about a deed. -/
theorem chronicle_eq_nil (h : ∀ o ∈ outputs, ∀ event, o.news? id ≠ some event) :
    chronicle id outputs = [] :=
  List.filterMap_eq_nil_iff.2 fun o ho => Option.eq_none_iff_forall_ne_some.2 (h o ho)

theorem chronicle_of_isHourly (h : ∀ o ∈ outputs, o.isHourly) : chronicle id outputs = [] := by
  refine chronicle_eq_nil fun o ho event hnews => ?_
  rw [(Output.of_news? hnews).1] at ho
  cases h _ ho

theorem chronicle_hourly_right (h : ∀ o ∈ ys, o.isHourly) :
    chronicle id (xs ++ ys) = chronicle id xs := by
  rw [chronicle_append, chronicle_of_isHourly h, List.append_nil]

theorem chronicle_finish (hid : d.id = id) :
    chronicle id
      [.apply d.id actor .costs d.template.costs,
        .publish (.action (.started d.id d.name actor d.target d.mode)),
        .apply d.id actor .effects d.template.effects,
        .publish (.action (.completed d.id d.name d.target none)),
        .answer call (.ok (.ofDeed d.completeAtOnce.clear actor))]
      = [.started id d.name actor d.target d.mode, .completed id d.name d.target none] := by
  simp [chronicle, List.filterMap_cons, Output.news?, ActionEvent.deed?, hid]

theorem chronicle_track (hid : d.id = id) (h : ∀ o ∈ ys, o.isHourly) :
    chronicle id
      ([.apply d.id actor .costs d.template.costs,
          .publish (.action (.started d.id d.name actor d.target d.mode))]
        ++ (ys ++ [.answer call (.ok (.ofDeed d.start actor))]))
      = [.started id d.name actor d.target d.mode] := by
  rw [chronicle_append, chronicle_append, chronicle_of_isHourly h]
  simp [chronicle, List.filterMap_cons, Output.news?, ActionEvent.deed?, hid]

theorem chronicle_complete :
    chronicle d.id
      [.publish (.action (.progressed d.id hour current d.template.progressIndicator)),
        .apply d.id actor .effects d.template.effects,
        .publish (.action (.completed d.id d.name d.target (some hour)))]
      = [.progressed d.id hour current d.template.progressIndicator,
        .completed d.id d.name d.target (some hour)] := by
  simp [chronicle, List.filterMap_cons, Output.news?, ActionEvent.deed?]

theorem chronicle_completeCycle {conditions : List Condition} :
    chronicle d.id
      [.publish (.action (.progressed d.id hour current d.template.progressIndicator)),
        .apply d.id actor .effects d.template.effects,
        .reverify d.id conditions d.target,
        .publish (.action (.completed d.id d.name d.target (some hour)))]
      = [.progressed d.id hour current d.template.progressIndicator,
        .completed d.id d.name d.target (some hour)] := by
  simp [chronicle, List.filterMap_cons, Output.news?, ActionEvent.deed?]

theorem chronicle_restart :
    chronicle d.id
      [.apply d.id actor .costs d.template.costs,
        .publish (.action (.repeated d.id d.completions))]
      = [.repeated d.id d.completions] := by
  simp [chronicle, List.filterMap_cons, Output.news?, ActionEvent.deed?]

end Chronicle

namespace Engine

variable {e e' : Engine} {f : Option Finding} {id j : DeedId} {outputs : List Output}
  {w : List ActionEvent} {d d' : Deed} {i : Invocation} {P : Finding → Prop}

/-- Nothing is told about other deeds. -/
theorem Transition.chronicle_of_ne (h : Transition e f j outputs e') (hj : id ≠ j) :
    chronicle id outputs = [] := by
  refine chronicle_eq_nil fun o ho event hnews => ?_
  obtain ⟨rfl, hid⟩ := Output.of_news? hnews
  rcases h.deed?_eq _ ho with hnone | hsome
  · exact nomatch hid.symm.trans hnone
  · exact hj (Option.some.inj (hid.symm.trans hsome))

/-- Nothing is told about a deed that is gone. -/
theorem Gone.chronicle (hs : e.Sound) (hg : e.Gone id) (h : Transition e f j outputs e') :
    chronicle id outputs = [] := by
  refine chronicle_eq_nil fun o ho event hnews => ?_
  obtain ⟨rfl, hid⟩ := Output.of_news? hnews
  have hsilent : ¬ (Output.publish (.action event)).advances id = true := by
    rw [hg.not_advances h _ ho]
    exact Bool.false_ne_true
  cases event with
  | cancelled deed action target reason =>
    obtain rfl := Option.some.inj hid
    exact hg.2 (List.mem_append_right _ (h.of_cancelled hs ho).1)
  | invocationFailed => cases hid
  | started => exact hsilent (decide_eq_true (Option.some.inj hid))
  | progressed => exact hsilent (decide_eq_true (Option.some.inj hid))
  | completed => exact hsilent (decide_eq_true (Option.some.inj hid))
  | repeated => exact hsilent (decide_eq_true (Option.some.inj hid))

theorem Gone.chronicle_of_chain (hs : e.Sound) (hg : e.Gone id)
    (h : Chain (Taking P) e outputs e') : Deeds.chronicle id outputs = [] := by
  refine (history_of_chain (Q := fun said e => e.Gone id ∧ Deeds.chronicle id said = []) ?_ hs
    ⟨hg, rfl⟩ h).2
  rintro said e f j outputs e' hs ⟨hg, hsaid⟩ - ht
  refine ⟨hg.transition hs ht, ?_⟩
  rw [chronicle_append, hsaid, hg.chronicle hs ht]
  rfl

/-! ## Where a deed is in its course -/

/-- What a tracked deed is at: some hours of a cycle, or the end of one. -/
inductive InCycle (d : Deed) (n : Nat) (w : List ActionEvent) : Prop
  | hours (hp : d.phase = .pending) (hn : d.completions = n) (hw : w ∈ (Course.hour d.id)∗)
  | ended (hp : d.phase = .reverifying) (hm : d.mode = .repeatable) (hn : d.completions = n + 1)
      (hw : w ∈ (Course.hour d.id)∗ * Course.lastHour d.id d.name d.target)

/-- What was told about a tracked deed: its start, the cycles before this one, and this one so far. -/
structure Running (d : Deed) (w : List ActionEvent) : Prop where
  mode : d.mode ≠ .immediate
  told : ∃ actor n, ∃ a ∈ Course.cycles d.id d.name d.target n, ∃ b, InCycle d n b ∧
    (d.mode = .indicator → n = 0) ∧ w = .started d.id d.name actor d.target d.mode :: (a ++ b)

/-- How the chronicle of a deed agrees with the state of the engine. -/
inductive Told (e : Engine) (id : DeedId) (w : List ActionEvent) : Prop
  /-- It has not started, and nothing was told about it. -/
  | unstarted (h : id ∉ e.tracker.order) (hw : w = [])
  | running {d : Deed} (hd : d ∈ e.tracker.deeds) (hid : d.id = id) (hw : Running d w)
  | ended {t : Template} {actor : CharacterId} {target : Target} (hg : e.Gone id)
      (ht : e.catalog.get? t.name = some t) (hw : w ∈ course id t actor target)

/-- A deed stays where it is in its course when the tracked deeds stay. -/
theorem Told.of_tracked (h : Told e id w) (hcatalog : e'.catalog = e.catalog)
    (htracked : ∀ d, d.id = id → (d ∈ e'.tracker.deeds ↔ d ∈ e.tracker.deeds))
    (hgone : e.Gone id → e'.Gone id) : Told e' id w := by
  cases h with
  | unstarted h hw =>
    refine .unstarted (fun hmem => h ?_) hw
    obtain ⟨d, hd, hid⟩ := Tracker.mem_order.1 hmem
    exact Tracker.mem_order.2 ⟨d, (htracked d hid).1 hd, hid⟩
  | running hd hid hw => exact .running ((htracked _ hid).2 hd) hid hw
  | ended hg ht hw => exact .ended (hgone hg) (hcatalog ▸ ht) hw

/-- Nothing was told about a pending deed. -/
theorem Told.of_pending (hs : e.Sound) (h : Told e id w) (hi : i ∈ e.pending)
    (hid : i.deed.id = id) : w = [] := by
  cases h with
  | unstarted _ hw => exact hw
  | running hd hid' => exact absurd (hid.trans hid'.symm) (hs.id_ne hi hd)
  | ended hg => exact absurd (mem_ids.2 ⟨i.deed, Sound.deed_mem hi, hid⟩) hg.2

theorem Told.of_deed (hs : e.Sound) (h : Told e d.id w) (hd : d ∈ e.tracker.deeds) :
    Running d w := by
  cases h with
  | unstarted hnot => exact absurd (Tracker.mem_order.2 ⟨d, hd, rfl⟩) hnot
  | running hx hid hw =>
    obtain rfl := deed_unique hs.nodup (Sound.tracked_mem hx) (Sound.tracked_mem hd) hid
    exact hw
  | ended hg => exact absurd (mem_ids.2 ⟨d, Sound.tracked_mem hd, rfl⟩) hg.2

/-- The course of a tracked deed that is dropped is complete. -/
theorem Told.dropped (hs : e.Sound) (hd : d ∈ e.tracker.deeds)
    (hup : Sound.Update e d.id none none e') {actor : CharacterId}
    (hw : w ∈ course d.id d.template actor d.target) : Told e' d.id w := by
  have hmem := Sound.tracked_mem hd
  refine .ended (hup.isGone (hs.id_lt d hmem)) ?_ hw
  rw [hup.catalog]
  exact hs.template d hmem

theorem Told.updated (hup : Sound.Update e id none (some d') e') (hw : Running d' w) :
    Told e' id w :=
  .running ((hup.mem_tracked d').2 (.inr rfl)) (hup.running d' rfl).2.id_eq hw

/-! ### A tracked deed goes on -/

theorem Running.start (hm : d.mode ≠ .immediate) (hp : d.phase = .pending) (hn : d.completions = 0)
    {actor : CharacterId} : Running d [.started d.id d.name actor d.target d.mode] :=
  ⟨hm, actor, 0, [], Language.nil_mem_one, [], .hours hp hn (Language.nil_mem_kstar _),
    fun _ => rfl, rfl⟩

/-- A deed that progresses is in the middle of a cycle. -/
theorem Running.of_pending (h : Running d w) (hp : d.phase = .pending) :
    ∃ actor, ∃ a ∈ Course.cycles d.id d.name d.target d.completions, ∃ b ∈ (Course.hour d.id)∗,
      (d.mode = .indicator → d.completions = 0) ∧
        w = .started d.id d.name actor d.target d.mode :: (a ++ b) := by
  obtain ⟨actor, n, a, ha, b, hb, hn, rfl⟩ := h.told
  cases hb with
  | hours _ hcount hb =>
    subst hcount
    exact ⟨actor, a, ha, b, hb, hn, rfl⟩
  | ended hp' =>
    rw [hp] at hp'
    cases hp'

/-- A deed that is checked between two cycles has just completed one. -/
theorem Running.of_reverifying (h : Running d w) (hp : d.phase = .reverifying) :
    d.mode = .repeatable ∧ ∃ actor n, d.completions = n + 1 ∧
      ∃ a ∈ Course.cycles d.id d.name d.target n,
        ∃ b ∈ (Course.hour d.id)∗ * Course.lastHour d.id d.name d.target,
          w = .started d.id d.name actor d.target d.mode :: (a ++ b) := by
  obtain ⟨actor, n, a, ha, b, hb, -, rfl⟩ := h.told
  cases hb with
  | hours hp' =>
    rw [hp] at hp'
    cases hp'
  | ended _ hm hcount hb => exact ⟨hm, actor, n, hcount, a, ha, b, hb, rfl⟩

theorem Running.progress (h : Running d w) {rate current : Binary32}
    (ha : d.advance rate = (d', .progressed current)) {hour : Hour} {indicator : Binary32} :
    Running d' (w ++ [.progressed d.id hour current indicator]) := by
  obtain ⟨hp, rfl⟩ := Deed.advance_eq_progressed ha
  obtain ⟨actor, a, ha, b, hb, hn, rfl⟩ := h.of_pending hp
  refine ⟨h.mode, actor, d.completions, a, ha, b ++ [.progressed d.id hour current indicator],
    .hours hp rfl (Course.hour_append hb), hn, ?_⟩
  rw [List.cons_append, List.append_assoc]
  rfl

theorem Running.completeCycle (h : Running d w) {rate current : Binary32}
    (ha : d.advance rate = (d', .completed current)) (hm : d.mode = .repeatable) {hour : Hour}
    {indicator : Binary32} :
    Running d'.beginReverification (w ++ [.progressed d.id hour current indicator,
      .completed d.id d.name d.target (some hour)]) := by
  obtain ⟨hp, rfl⟩ := Deed.advance_eq_completed ha
  obtain ⟨actor, a, ha, b, hb, -, rfl⟩ := h.of_pending hp
  refine ⟨h.mode, actor, d.completions, a, ha,
    b ++ [.progressed d.id hour current indicator, .completed d.id d.name d.target (some hour)],
    .ended rfl hm rfl (Language.append_mem_mul hb Course.lastHour_mem), fun h => ?_, ?_⟩
  · exact nomatch hm.symm.trans h
  · rw [List.cons_append, List.append_assoc]
    rfl

theorem Running.restart (h : Running d w) (hp : d.phase = .reverifying)
    (conditions : List Condition) :
    Running (d.recordVerification conditions true).restart (w ++ [.repeated d.id d.completions]) := by
  obtain ⟨hm, actor, n, hn, a, ha, b, hb, rfl⟩ := h.of_reverifying hp
  refine ⟨h.mode, actor, n + 1, _, Course.cycles_succ ha hb, [],
    .hours rfl hn (Language.nil_mem_kstar _), fun h => ?_, ?_⟩
  · exact nomatch hm.symm.trans h
  · rw [hn, List.cons_append, List.append_assoc, List.append_nil]
    rfl

/-- A deed that progresses may be cancelled, but not as the result of a check. -/
theorem Running.cancelled_of_pending (h : Running d w) (hp : d.phase = .pending)
    {reason : CancelReason} (hr : Course.Abrupt reason) :
    ∃ actor, w ++ [.cancelled d.id d.name d.target reason]
      ∈ course d.id d.template actor d.target := by
  obtain ⟨actor, a, ha, b, hb, hn, rfl⟩ := h.of_pending hp
  refine ⟨actor, ?_⟩
  rw [List.cons_append, List.append_assoc]
  exact cons_mem_course (Course.cancelled_hourly h.mode hn ha hb hr)

theorem Running.cancelled_of_reverifying (h : Running d w) (hp : d.phase = .reverifying)
    {reason : CancelReason} :
    ∃ actor, w ++ [.cancelled d.id d.name d.target reason]
      ∈ course d.id d.template actor d.target := by
  obtain ⟨hm, actor, n, -, a, ha, b, hb, rfl⟩ := h.of_reverifying hp
  refine ⟨actor, ?_⟩
  rw [List.cons_append, List.append_assoc]
  refine cons_mem_course ?_
  rw [show d.template.mode = .repeatable from hm]
  exact Course.cancelled_completed ha hb

/-- A running deed may be cancelled; as the result of a check it is so between two cycles only. -/
theorem Running.cancelled (h : Running d w)
    (hp : d.phase = .pending ∨ (d.phase = .reverifying ∧ d.mode = .repeatable))
    (reason : CancelReason) (hr : d.phase ≠ .reverifying → Course.Abrupt reason) :
    ∃ actor, w ++ [.cancelled d.id d.name d.target reason]
      ∈ course d.id d.template actor d.target := by
  rcases hp with hp | ⟨hp, -⟩
  · refine h.cancelled_of_pending hp (hr ?_)
    rw [hp]
    exact Phase.noConfusion
  · exact h.cancelled_of_reverifying hp

/-- A deed that completes once is over then. -/
theorem Running.complete (h : Running d w) (hp : d.phase = .pending) (hm : d.mode ≠ .repeatable)
    {hour : Hour} {current indicator : Binary32} :
    ∃ actor, w ++ [.progressed d.id hour current indicator,
        .completed d.id d.name d.target (some hour)]
      ∈ course d.id d.template actor d.target := by
  obtain ⟨actor, a, ha, b, hb, hn, rfl⟩ := h.of_pending hp
  have hmode : d.mode = .indicator := by
    cases hd : d.mode with
    | immediate => exact absurd hd h.mode
    | indicator => rfl
    | repeatable => exact absurd hd hm
  rw [hn hmode] at ha
  obtain rfl : a = [] := ha
  refine ⟨actor, cons_mem_course ?_⟩
  rw [show d.template.mode = .indicator from hmode]
  exact Course.indicator_of_lastHour hb Course.lastHour_mem

/-! ### What transitions tell -/

/-- What a transition tells about its deed agrees with what it does to the deed. -/
theorem Told.own (hs : e.Sound) (h : Told e id w) (ht : Transition e f id outputs e') :
    Told e' id (w ++ chronicle id outputs) := by
  have gone : e.Gone id → e'.Gone id := fun hg => hg.transition hs ht
  -- most transitions leave the tracked deeds alone and tell nothing
  have idle (hnil : chronicle id outputs = []) (hcatalog : e'.catalog = e.catalog)
      (htracked : e'.tracker.deeds = e.tracker.deeds) :
      Told e' id (w ++ chronicle id outputs) := by
    rw [hnil, List.append_nil]
    exact h.of_tracked hcatalog (fun d _ => by rw [htracked]) gone
  cases ht with
  | refuse => exact idle rfl rfl rfl
  | enter => exact idle rfl rfl rfl
  | fire => exact idle rfl rfl rfl
  | acknowledge => exact idle rfl rfl rfl
  | close => exact idle rfl rfl rfl
  | unsubscribe =>
    have hsame := sameDeeds_unsubscribe (e := e)
    exact idle (chronicle_of_isHourly fun _ => isHourly_of_mem_unsubscribe) hsame.catalog
      hsame.tracked
  | ignore => exact idle rfl rfl rfl
  | reject => exact idle rfl release_catalog (by rw [reject, release_tracker]; rfl)
  | bind => exact idle rfl rfl rfl
  | @finish i v d actor hi hmet hd ha hm =>
    have hlt := hs.id_lt _ (Sound.deed_mem hi)
    have htemplate := hs.template _ (Sound.deed_mem hi)
    have hup := update_finish hs hi hd
    have hid : d.id = i.deed.id := by rw [hd]; rfl
    have hd' : d.template = i.deed.template := by rw [hd]; rfl
    rw [chronicle_finish hid, h.of_pending hs hi rfl, List.nil_append]
    refine .ended (t := d.template) (hup.isGone hlt) ?_ (cons_mem_course ?_)
    · rw [hup.catalog, hd']
      exact htemplate
    · rw [show d.template.mode = .immediate from hm]
      exact Set.mem_singleton _
  | @track i v d actor hi hmet hd ha hm =>
    have hup := update_track hs hi hd ha hm
    have hid : d.id = i.deed.id := by rw [hd]; rfl
    have hcompletions : d.completions = 0 := by rw [hd]; exact (hs.starting i hi).2
    rw [chronicle_track hid fun _ => isHourly_of_mem_enrol, h.of_pending hs hi rfl, List.nil_append,
      ← hid]
    rw [← hid] at hup
    exact .updated hup (Running.start (d := d.start) hm rfl hcompletions)
  | @progress d d' rate current hour hd ha =>
    have hnews : chronicle d.id [.publish (.action (.progressed d.id hour current
        d.template.progressIndicator))]
        = [.progressed d.id hour current d.template.progressIndicator] := by
      simp [chronicle, Output.news?, ActionEvent.deed?]
    rw [hnews]
    exact .updated (update_progress hs hd ha) ((h.of_deed hs hd).progress ha)
  | @complete d d' rate current actor hour hd ha hactor hm =>
    obtain ⟨actor, hw⟩ := (h.of_deed hs hd).complete (Deed.advance_eq_completed ha).1 hm
    rw [chronicle_hourly_right fun _ => isHourly_of_mem_unsubscribeIfIdle, chronicle_complete]
    exact .dropped hs hd (update_dropTracked hs hd) hw
  | @completeCycle d d' rate current actor hour hd ha hactor hm =>
    rw [chronicle_completeCycle]
    exact .updated (update_completeCycle hs hd ha hm) ((h.of_deed hs hd).completeCycle ha hm)
  | @restart d v actor hd hp hmet hactor =>
    rw [chronicle_restart]
    exact .updated (update_restart hs hd v.conditions) ((h.of_deed hs hd).restart hp v.conditions)
  | @cancel f d reason hd hf hr =>
    -- only a deed between two cycles is cancelled by a finding
    have habrupt : d.phase ≠ .reverifying → Course.Abrupt reason := by
      intro hp
      cases f with
      | some g => exact absurd (hf g rfl).2.2 hp
      | none => rcases hr rfl with rfl | ⟨error, rfl⟩ <;> simp [Course.Abrupt]
    have hnews : chronicle d.id [.publish (.action (.cancelled d.id d.name d.target reason))]
        = [.cancelled d.id d.name d.target reason] := by
      simp [chronicle, Output.news?, ActionEvent.deed?]
    obtain ⟨actor, hw⟩ := (h.of_deed hs hd).cancelled (hs.running d hd).1 reason habrupt
    rw [← List.singleton_append, chronicle_hourly_right fun _ => isHourly_of_mem_unsubscribeIfIdle,
      hnews]
    exact .dropped hs hd (update_dropTracked hs hd) hw

/-- Every transition keeps the chronicle of every deed in agreement with the state of the engine. -/
theorem Told.transition (hs : e.Sound) (h : Told e id w) (ht : Transition e f j outputs e') :
    Told e' id (w ++ chronicle id outputs) := by
  by_cases hj : id = j
  · subst hj
    exact h.own hs ht
  · have hother := ht.sameOthers hs
    rw [ht.chronicle_of_ne hj, List.append_nil]
    exact h.of_tracked hother.catalog (fun d hd => hother.tracked d (hd ▸ hj)) (hother.gone hj)

/-- In every chain from an engine without deeds the chronicles agree with the state. -/
theorem told_of_chain {catalog : Catalog} (h : Chain (Taking P) (ofCatalog catalog) outputs e)
    (id : DeedId) : Told e id (chronicle id outputs) := by
  have hstart : Told (ofCatalog catalog) id (chronicle id []) := .unstarted List.not_mem_nil rfl
  refine history_of_chain (Q := fun said e => Told e id (chronicle id said)) ?_
    (sound_ofCatalog catalog) hstart h
  intro said e f j outputs e' hs hb _ ht
  rw [chronicle_append]
  exact hb.transition hs ht

/-- What was told about a deed begins a word of its course: a tracked deed could still be stopped. -/
theorem Told.begins (hs : e.Sound) (h : Told e id w) :
    w = [] ∨ ∃ t actor target, e.catalog.get? t.name = some t ∧
      ∃ v ∈ course id t actor target, w <+: v := by
  cases h with
  | unstarted _ hw => exact .inl hw
  | ended hg ht hw => exact .inr ⟨_, _, _, ht, w, hw, List.prefix_refl w⟩
  | @running d hd hid hw =>
    subst hid
    obtain ⟨actor, hmem⟩ := hw.cancelled (hs.running d hd).1 .stopped
      fun _ => ⟨nofun, nofun⟩
    exact .inr ⟨d.template, actor, d.target, hs.template d (Sound.tracked_mem hd), _, hmem,
      List.prefix_append w _⟩

/-- A deed starts by a finding; an immediate one is complete then. -/
theorem Transition.of_started (h : Transition e f j outputs e') {action : String}
    {actor : CharacterId} {target : Target} {mode : ExecutionMode}
    (hmem : Output.publish (.action (.started id action actor target mode)) ∈ outputs) :
    f.isSome ∧ (mode = .immediate → chronicle id outputs =
      [.started id action actor target mode, .completed id action target none]) := by
  cases h with
  | @finish i v d actor hi hmet hd ha hm =>
    simp only [List.mem_cons, reduceCtorEq, Output.publish.injEq, Event.action.injEq,
      ActionEvent.started.injEq, List.not_mem_nil, or_false, false_or] at hmem
    obtain ⟨rfl, rfl, rfl, rfl, rfl⟩ := hmem
    exact ⟨rfl, fun _ => chronicle_finish rfl⟩
  | @track i v d actor hi hmet hd ha hm =>
    simp only [List.mem_append, List.mem_cons, reduceCtorEq, Output.publish.injEq,
      Event.action.injEq, ActionEvent.started.injEq, List.not_mem_nil, or_false, false_or,
      action_not_mem_enrol] at hmem
    exact ⟨rfl, fun h => absurd (hmem.2.2.2.2.symm.trans h) hm⟩
  | refuse => simp at hmem
  | enter => simp at hmem
  | fire => simp at hmem
  | acknowledge => simp at hmem
  | close => simp at hmem
  | unsubscribe => simp at hmem
  | ignore => simp at hmem
  | reject => simp [Engine.reject] at hmem
  | bind => simp at hmem
  | progress => simp at hmem
  | complete => simp at hmem
  | completeCycle => simp at hmem
  | restart => simp at hmem
  | cancel => simp at hmem

end Engine

namespace System

variable {s t : System} {id : DeedId} {m : Move} {outputs : List Output}

/-- An immediate deed starts and completes in one move. -/
theorem Makes.immediate (hs : s.Sound) (h : Makes s m t outputs) {action : String}
    {actor : CharacterId} {target : Target}
    (hmem : Output.publish (.action (.started id action actor target .immediate)) ∈ outputs) :
    chronicle id outputs =
      [.started id action actor target .immediate, .completed id action target none] := by
  obtain ⟨index, f, -, -, ht⟩ :=
    h.taken_of_mem hs hmem fun ht hmem => nomatch (ht.of_started hmem).1
  exact (ht.of_started hmem).2 rfl

/-- After any moves, in any order, and for every number:
* nothing was told about the deed, or what was told begins a word of the language of its mode, and
  the deed is one of an action in the catalog;
* an immediate deed starts and completes in a single move;
* nothing is ever told about an invocation that a move rejects. -/
theorem chronicle_course (catalog : Catalog) (world : World) (clock : Clock) (bus : Bus)
    (moves : List Move) (id : DeedId) :
    let start := ofParts catalog world clock bus
    let s := (start.run moves).1
    let w := chronicle id (start.run moves).2
    (w = [] ∨ ∃ t actor target, catalog.get? t.name = some t ∧
      ∃ v ∈ course id t actor target, w <+: v) ∧
    (∀ m action actor target,
      .publish (.action (.started id action actor target .immediate)) ∈ (s.step m).2 →
        chronicle id (s.step m).2 =
          [.started id action actor target .immediate, .completed id action target none]) ∧
    ∀ m i error, s.Rejects m i error → i.deed.id = id →
      ∀ later, chronicle id (start.run (moves ++ m :: later)).2 = [] := by
  intro start s w
  have hstart : start.Sound := sound_ofParts catalog world clock bus
  have hs : s.Sound := run_sound hstart moves
  have hchain : Chain (Taking fun _ => True) (.ofCatalog catalog) (start.run moves).2 s.engine :=
    chain_of_run hstart moves
  have htold : s.engine.Told id w := Engine.told_of_chain hchain id
  refine ⟨?_, fun m action actor target hmem => (makes_step hs m).immediate hs hmem,
    fun m i error h hid later => ?_⟩
  · have hcatalog : s.engine.catalog = catalog := Engine.catalog_of_chain hstart.sound hchain
    rw [← hcatalog]
    exact htold.begins hs.sound
  · subst hid
    obtain ⟨index, f, rfl, hfails⟩ := h.of_step hs
    have ht : (s.step (.take index)).1.Sound := (makes_step hs (.take index)).sound hs
    have hbefore : w = [] := htold.of_pending hs.sound h.pending rfl
    have hnow : chronicle i.deed.id (s.step (.take index)).2 = [] := by
      rw [hfails.outputs]
      rfl
    have hafter := (h.gone hs).chronicle_of_chain ht.sound (chain_of_run ht later)
    rw [run_append]
    show chronicle i.deed.id ((start.run moves).2 ++ ((s.step (.take index)).2
      ++ ((s.step (.take index)).1.run later).2)) = []
    rw [chronicle_append, chronicle_append, hnow, hafter]
    exact (List.append_nil _).trans hbefore

end System

end Deeds
