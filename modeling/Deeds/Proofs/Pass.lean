import Deeds.Proofs.Tracking

/-!
# Each deed on its own

An hour passes over all tracked deeds, in the order of the tracker. What it makes of one of them
depends on this deed and the rate of its actor alone, whatever becomes of the others.

* `Deed.atHour` : what an hour makes of a deed by itself, and what is said of it;
* `Engine.visit_eq` : a visit does just this, and looks whether any deed is left;
* `Engine.visitAll_eq`, `Engine.tick_eq` : so does a pass, which looks only once, at its end;
* `System.pass_fair` : an hour after any moves.
-/

namespace Deeds

variable {rates : CharacterId → Option Binary32} {hour : Hour} {d d' x : Deed}

/-- What an hour makes of a tracked deed by itself: the deed as it goes on, if it does; and all that
is said of it. -/
def Deed.atHour (rates : CharacterId → Option Binary32) (hour : Hour) (d : Deed) :
    Option Deed × List Output :=
  match Engine.progressionRate rates d, d.actor with
  | .error error, _ =>
    (none, [.publish (.action (.cancelled d.id d.name d.target (.trackingFailed error.message)))])
  | .ok _, none => (some d, [])
  | .ok rate, some actor => match d.advance rate with
    | (_, .skipped) => (some d, [])
    | (d', .progressed current) =>
      (some d', [.publish (.action (.progressed d.id hour current d.template.progressIndicator))])
    | (d', .completed current) =>
      let progressed : Output :=
        .publish (.action (.progressed d.id hour current d.template.progressIndicator))
      let effects : Output := .apply d.id actor .effects d.template.effects
      let completed : Output := .publish (.action (.completed d.id d.name d.target (some hour)))
      if d.mode = .repeatable then
        (some d'.beginReverification,
          [progressed, effects, .reverify d.id d.freshConditions d.target, completed])
      else (none, [progressed, effects, completed])

namespace Deed

variable {rate current : Binary32} {actor : CharacterId}

theorem advance_of_reverifying (h : d.phase = .reverifying) : d.advance rate = (d, .skipped) := by
  rw [advance, if_neg (by rw [h]; decide)]

theorem atHour_of_error {error : TrackingError}
    (h : Engine.progressionRate rates d = .error error) : d.atHour rates hour =
      (none, [.publish (.action
        (.cancelled d.id d.name d.target (.trackingFailed error.message)))]) := by
  rw [atHour, h]

/-- Only a deed with an actor has a rate. -/
theorem actor_of_rate (h : Engine.progressionRate rates d = .ok rate) :
    ∃ actor, d.actor = some actor := by
  unfold Engine.progressionRate at h
  split at h
  · cases h
  · exact ⟨_, ‹_›⟩

theorem atHour_of_skipped (hrate : Engine.progressionRate rates d = .ok rate)
    (h : d.advance rate = (d', .skipped)) : d.atHour rates hour = (some d, []) := by
  obtain ⟨actor, hactor⟩ := actor_of_rate hrate
  rw [atHour, hrate, hactor]
  dsimp only
  rw [h]

theorem atHour_of_progressed (hrate : Engine.progressionRate rates d = .ok rate)
    (h : d.advance rate = (d', .progressed current)) : d.atHour rates hour = (some d',
      [.publish (.action (.progressed d.id hour current d.template.progressIndicator))]) := by
  obtain ⟨actor, hactor⟩ := actor_of_rate hrate
  rw [atHour, hrate, hactor]
  dsimp only
  rw [h]

theorem atHour_of_cycle (hrate : Engine.progressionRate rates d = .ok rate)
    (hactor : d.actor = some actor) (h : d.advance rate = (d', .completed current))
    (hm : d.mode = .repeatable) : d.atHour rates hour = (some d'.beginReverification,
      [.publish (.action (.progressed d.id hour current d.template.progressIndicator)),
        .apply d.id actor .effects d.template.effects,
        .reverify d.id d.freshConditions d.target,
        .publish (.action (.completed d.id d.name d.target (some hour)))]) := by
  rw [atHour, hrate, hactor]
  dsimp only
  rw [h]
  exact if_pos hm

theorem atHour_of_completed (hrate : Engine.progressionRate rates d = .ok rate)
    (hactor : d.actor = some actor) (h : d.advance rate = (d', .completed current))
    (hm : d.mode ≠ .repeatable) : d.atHour rates hour = (none,
      [.publish (.action (.progressed d.id hour current d.template.progressIndicator)),
        .apply d.id actor .effects d.template.effects,
        .publish (.action (.completed d.id d.name d.target (some hour)))]) := by
  rw [atHour, hrate, hactor]
  dsimp only
  rw [h]
  exact if_neg hm

/-- The cases of an hour. -/
theorem atHour_cases {motive : Option Deed × List Output → Prop}
    (gone : ∀ said, (∀ o ∈ said, o.isHourly = false ∧ o.deed? = some d.id) → motive (none, said))
    (kept : ∀ d' said, d'.id = d.id → (∀ o ∈ said, o.isHourly = false ∧ o.deed? = some d.id) →
      motive (some d', said)) :
    motive (d.atHour rates hour) := by
  cases hrate : Engine.progressionRate rates d with
  | error error =>
    rw [atHour_of_error hrate]
    exact gone _ (by simp [Output.isHourly, Output.deed?, ActionEvent.deed?])
  | ok rate =>
    obtain ⟨actor, hactor⟩ := actor_of_rate hrate
    cases h : d.advance rate with
    | mk d' step => cases step with
      | skipped =>
        rw [atHour_of_skipped hrate h]
        exact kept d [] rfl fun _ ho => absurd ho List.not_mem_nil
      | progressed current =>
        rw [atHour_of_progressed hrate h]
        obtain ⟨-, rfl⟩ := advance_eq_progressed h
        exact kept _ _ rfl (by simp [Output.isHourly, Output.deed?, ActionEvent.deed?])
      | completed current =>
        by_cases hm : d.mode = .repeatable
        · rw [atHour_of_cycle hrate hactor h hm]
          obtain ⟨-, rfl⟩ := advance_eq_completed h
          exact kept _ _ rfl (by simp [Output.isHourly, Output.deed?, ActionEvent.deed?])
        · rw [atHour_of_completed hrate hactor h hm]
          exact gone _ (by simp [Output.isHourly, Output.deed?, ActionEvent.deed?])

theorem id_of_atHour (h : (d.atHour rates hour).1 = some d') : d'.id = d.id := by
  revert h
  refine d.atHour_cases (motive := fun r => r.1 = some d' → d'.id = d.id) ?_ ?_
  · exact fun _ _ h => nomatch h
  · rintro d' _ hid - ⟨⟩
    exact hid

/-- All that is said of a deed names this deed, and is not about hours. -/
theorem said_atHour (d : Deed) : ∀ o ∈ (d.atHour rates hour).2,
    o.isHourly = false ∧ o.deed? = some d.id :=
  d.atHour_cases (motive := fun r => ∀ o ∈ r.2, o.isHourly = false ∧ o.deed? = some d.id)
    (fun _ hsaid => hsaid) fun _ _ _ hsaid => hsaid

end Deed

namespace Engine

variable {e : Engine} {ds l : List Deed} {left : Option Deed}

/-! ## One visit -/

/-- A tracked deed goes on as another, or it does not. -/
def settle (e : Engine) (d : Deed) : Option Deed → Engine
  | some d' => e.updateTracked d'
  | none => e.dropTracked d

theorem updateTracked_self (hn : e.tracker.order.Nodup) (hd : d ∈ e.tracker.deeds) :
    e.updateTracked d = e := by
  have replace (l : List Deed) (hl : ∀ x ∈ l, x ∈ e.tracker.deeds) :
      l.map (fun old => if old.id = d.id then d else old) = l := by
    refine (List.map_congr_left fun x hx => ?_).trans l.map_id
    split
    next hid => exact List.inj_on_of_nodup_map hn hd (hl x hx) hid.symm
    · rfl
  have hindicator := replace e.tracker.indicator fun x hx => List.mem_append_left _ hx
  have hrepeatable := replace e.tracker.repeatable fun x hx => List.mem_append_right _ hx
  simp only [updateTracked, Tracker.update, hindicator, hrepeatable]

theorem mem_updateTracked (hd : d ∈ e.tracker.deeds) (hid : d'.id = d.id) :
    d' ∈ (e.updateTracked d').tracker.deeds :=
  Tracker.mem_deeds_update.2 (.inr ⟨rfl, Tracker.mem_order.2 ⟨d, hd, hid.symm⟩⟩)

/-- Hours go on while a deed is tracked. -/
theorem unsubscribeIfIdle_of_mem (hx : x ∈ e.tracker.deeds) : e.unsubscribeIfIdle = (e, []) := by
  have hbusy : ¬e.tracker.isEmpty := fun h => by
    rw [Tracker.isEmpty_iff.1 h] at hx
    cases hx
  rw [unsubscribeIfIdle, if_neg hbusy]

theorem andThen_unsubscribeIfIdle_of_mem {outputs : List Output} (hx : x ∈ e.tracker.deeds) :
    Run.andThen (e, outputs) unsubscribeIfIdle = (e, outputs) := by
  rw [Run.andThen, unsubscribeIfIdle_of_mem hx]
  exact congrArg (Prod.mk e) (List.append_nil _)

/-- An hour visits a deed: it does to it what it does to the deed by itself, and looks whether any
deed is left. -/
theorem visit_eq (hn : e.tracker.order.Nodup) (hd : d ∈ e.tracker.deeds) :
    e.visit rates hour d.id = Run.andThen
      (e.settle d (d.atHour rates hour).1, (d.atHour rates hour).2) unsubscribeIfIdle := by
  have hfind : e.tracker.find? d.id = some d := (find?_key_eq_some_iff hn).2 ⟨hd, rfl⟩
  unfold visit
  rw [hfind]
  dsimp only
  cases hrate : progressionRate rates d with
  | error error =>
    rw [Deed.atHour_of_error hrate]
    rfl
  | ok rate =>
    obtain ⟨actor, hactor⟩ := Deed.actor_of_rate hrate
    dsimp only
    unfold advance
    cases h : d.advance rate with
    | mk d' step => cases step with
      | skipped =>
        rw [Deed.atHour_of_skipped hrate h]
        dsimp only [settle]
        rw [updateTracked_self hn hd]
        exact (andThen_unsubscribeIfIdle_of_mem hd).symm
      | progressed current =>
        have hid : d'.id = d.id := by rw [(Deed.advance_eq_progressed h).2]
        have htemplate : d'.template = d.template := by rw [(Deed.advance_eq_progressed h).2]
        rw [Deed.atHour_of_progressed hrate h]
        dsimp only [settle]
        rw [hid, htemplate]
        exact (andThen_unsubscribeIfIdle_of_mem (mem_updateTracked hd hid)).symm
      | completed current =>
        have hd' := (Deed.advance_eq_completed h).2
        have hid : d'.id = d.id := by rw [hd']
        have hactor' : d'.actor = d.actor := by rw [hd']
        have hmode : d'.mode = d.mode := by rw [hd']; rfl
        have htemplate : d'.template = d.template := by rw [hd']
        have hname : d'.name = d.name := by rw [hd']; rfl
        have htarget : d'.target = d.target := by rw [hd']
        dsimp only [Run.andThen]
        rw [hactor', hactor]
        unfold complete
        dsimp only
        rw [hmode, hid, htemplate, hname, htarget]
        by_cases hm : d.mode = .repeatable
        · have hrequest : Output.reverify d'.beginReverification.id
              d'.beginReverification.freshConditions d'.beginReverification.target =
              .reverify d.id d.freshConditions d.target := by rw [hd']; rfl
          have hmem : d'.beginReverification ∈
              (e.updateTracked d'.beginReverification).tracker.deeds := mem_updateTracked hd hid
          rw [Deed.atHour_of_cycle hrate hactor h hm, if_pos hm, updateTracked_updateTracked (by rfl),
            hrequest]
          dsimp only [settle]
          rw [unsubscribeIfIdle_of_mem hmem]
          rfl
        · rw [Deed.atHour_of_completed hrate hactor h hm, if_neg hm]
          dsimp only [settle, Run.andThen]
          rw [dropTracked_updateTracked hid hactor']
          rfl

/-! ## The lists after a visit -/

/-- A list after one of its deeds was settled. -/
def settled (d : Deed) (left : Option Deed) (l : List Deed) : List Deed :=
  l.filterMap fun x => if x.id = d.id then left else some x

theorem map_eq_settled (hid : d'.id = d.id) (l : List Deed) :
    l.map (fun old => if old.id = d'.id then d' else old) = settled d (some d') l := by
  rw [← List.filterMap_eq_map, settled, hid]
  refine List.filterMap_congr fun x _ => ?_
  rw [Function.comp_apply]
  split <;> rfl

theorem filter_eq_settled (d : Deed) (l : List Deed) :
    l.filter (·.id != d.id) = settled d none l := by
  rw [← List.filterMap_eq_filter, settled]
  refine List.filterMap_congr fun x _ => ?_
  by_cases hx : x.id = d.id <;> simp [Option.guard, hx]

theorem tracker_settle (hid : ∀ d', left = some d' → d'.id = d.id) :
    (e.settle d left).tracker = { e.tracker with
      indicator := settled d left e.tracker.indicator
      repeatable := settled d left e.tracker.repeatable } := by
  cases left with
  | some d' =>
    rw [← map_eq_settled (hid d' rfl), ← map_eq_settled (hid d' rfl)]
    rfl
  | none =>
    rw [← filter_eq_settled, ← filter_eq_settled, settle, dropTracked, release_tracker]
    rfl

theorem deeds_settle (hid : ∀ d', left = some d' → d'.id = d.id) :
    (e.settle d left).tracker.deeds = settled d left e.tracker.deeds := by
  rw [Tracker.deeds, tracker_settle hid, Tracker.deeds, settled, settled, settled,
    List.filterMap_append]

theorem mem_settle_of_ne (hid : ∀ d', left = some d' → d'.id = d.id) (hx : x ∈ e.tracker.deeds)
    (hne : x.id ≠ d.id) : x ∈ (e.settle d left).tracker.deeds := by
  rw [deeds_settle hid]
  exact List.mem_filterMap.2 ⟨x, hx, if_neg hne⟩

/-- What goes on under its own number keeps its place. -/
theorem sublist_map_id {f : Deed → Option Deed} (hf : ∀ d d', f d = some d' → d'.id = d.id)
    (l : List Deed) : ((l.filterMap f).map Deed.id).Sublist (l.map Deed.id) := by
  induction l with
  | nil => exact .slnil
  | cons x l ih =>
    rw [List.filterMap_cons]
    cases hx : f x with
    | none => exact .cons _ ih
    | some x' =>
      rw [List.map_cons, List.map_cons, hf x x' hx]
      exact .cons_cons _ ih

theorem nodup_settle (hid : ∀ d', left = some d' → d'.id = d.id) (hn : e.tracker.order.Nodup) :
    (e.settle d left).tracker.order.Nodup := by
  rw [Tracker.order, deeds_settle hid]
  refine (sublist_map_id (fun x x' hx => ?_) _).nodup hn
  split at hx
  next heq => exact (hid x' hx).trans heq.symm
  · cases hx
    rfl

/-! ## A pass -/

/-- Some tracked deeds go on one after the other, each as an hour by itself leaves it. -/
def settleAll (rates : CharacterId → Option Binary32) (hour : Hour) (e : Engine) (ds : List Deed) :
    Engine :=
  ds.foldl (fun e d => e.settle d (d.atHour rates hour).1) e

/-- A list after an hour for some of its deeds. -/
def passed (rates : CharacterId → Option Binary32) (hour : Hour) (ds l : List Deed) : List Deed :=
  l.filterMap fun x => if x ∈ ds then (x.atHour rates hour).1 else some x

/-- No deed is changed by the hour of another one. -/
theorem passed_settled (hds : ((d :: ds).map Deed.id).Nodup)
    (hl : ∀ x ∈ l, x.id = d.id → x = d) :
    passed rates hour ds (settled d (d.atHour rates hour).1 l) = passed rates hour (d :: ds) l := by
  rw [List.map_cons, List.nodup_cons] at hds
  rw [passed, passed, settled, List.filterMap_filterMap]
  refine List.filterMap_congr fun x hx => ?_
  by_cases hid : x.id = d.id
  · obtain rfl := hl x hx hid
    rw [if_pos rfl, if_pos List.mem_cons_self]
    cases hleft : (x.atHour rates hour).1 with
    | none => rfl
    | some d' =>
      have hnot : d' ∉ ds := fun h =>
        hds.1 (Deed.id_of_atHour hleft ▸ List.mem_map_of_mem h)
      rw [Option.bind_some, if_neg hnot]
  · have hne : x ≠ d := fun h => hid (congrArg Deed.id h)
    rw [if_neg hid, Option.bind_some]
    simp only [List.mem_cons, hne, false_or]

theorem tracker_settleAll (hn : e.tracker.order.Nodup) (hds : (ds.map Deed.id).Nodup)
    (hmem : ∀ x ∈ ds, x ∈ e.tracker.deeds) : (settleAll rates hour e ds).tracker =
      { e.tracker with
        indicator := passed rates hour ds e.tracker.indicator
        repeatable := passed rates hour ds e.tracker.repeatable } := by
  induction ds generalizing e with
  | nil => simp [settleAll, passed]
  | cons d ds ih =>
    have hid (d' : Deed) (h : (d.atHour rates hour).1 = some d') : d'.id = d.id :=
      Deed.id_of_atHour h
    have hds' := hds
    rw [List.map_cons, List.nodup_cons] at hds'
    have hrest : ∀ x ∈ ds, x ∈ (e.settle d (d.atHour rates hour).1).tracker.deeds := fun x hx =>
      mem_settle_of_ne hid (hmem x (List.mem_cons_of_mem _ hx))
        fun h => hds'.1 (h ▸ List.mem_map_of_mem hx)
    have hunique (x : Deed) (hx : x ∈ e.tracker.deeds) (h : x.id = d.id) : x = d :=
      List.inj_on_of_nodup_map hn hx (hmem d List.mem_cons_self) h
    rw [settleAll, List.foldl_cons]
    refine (ih (nodup_settle hid hn) hds'.2 hrest).trans ?_
    rw [tracker_settle hid]
    dsimp only
    rw [passed_settled hds fun x hx => hunique x (List.mem_append_left _ hx),
      passed_settled hds fun x hx => hunique x (List.mem_append_right _ hx)]

/-- A pass over some deeds looks whether any deed is left only after the last of them. -/
theorem visitAll_eq (hn : e.tracker.order.Nodup) (hds : ((d :: ds).map Deed.id).Nodup)
    (hmem : ∀ x ∈ d :: ds, x ∈ e.tracker.deeds) :
    e.visitAll rates hour ((d :: ds).map Deed.id) = Run.andThen
      (settleAll rates hour e (d :: ds), (d :: ds).flatMap fun d => (d.atHour rates hour).2)
      unsubscribeIfIdle := by
  induction ds generalizing e d with
  | nil =>
    rw [List.map_singleton, visitAll, visit_eq hn (hmem d List.mem_cons_self)]
    simp [visitAll, Run.andThen, settleAll]
  | cons next ds ih =>
    have hid (d' : Deed) (h : (d.atHour rates hour).1 = some d') : d'.id = d.id :=
      Deed.id_of_atHour h
    have hds' := hds
    rw [List.map_cons, List.nodup_cons] at hds'
    have hrest : ∀ x ∈ next :: ds, x ∈ (e.settle d (d.atHour rates hour).1).tracker.deeds :=
      fun x hx => mem_settle_of_ne hid (hmem x (List.mem_cons_of_mem _ hx))
        fun h => hds'.1 (h ▸ List.mem_map_of_mem hx)
    rw [List.map_cons, visitAll, visit_eq hn (hmem d List.mem_cons_self),
      andThen_unsubscribeIfIdle_of_mem (hrest next List.mem_cons_self)]
    show Run.andThen _ (fun e => e.visitAll rates hour ((next :: ds).map Deed.id)) = _
    dsimp only [Run.andThen]
    rw [ih (nodup_settle hid hn) hds'.2 hrest]
    simp only [Run.andThen, List.flatMap_cons, List.append_assoc]
    rfl

/-! ## An hour -/

theorem snd_unsubscribeIfIdle : e.unsubscribeIfIdle.2 =
    if e.tracker.subscribed ∧ e.tracker.deeds = [] then
      [.unsubscribe, .publish (.tracker .unsubscribed)] else [] := by
  unfold unsubscribeIfIdle unsubscribe
  simp only [Tracker.isEmpty_iff]
  by_cases hidle : e.tracker.deeds = [] <;> by_cases hsub : e.tracker.subscribed <;>
    simp [hidle, hsub]

theorem passed_self (hl : ∀ x ∈ l, x ∈ ds) :
    passed rates hour ds l = l.filterMap fun d => (d.atHour rates hour).1 :=
  List.filterMap_congr fun x hx => if_pos (hl x hx)

/-- The deeds after a pass over all of them. -/
theorem tracker_settleAll_self (hn : e.tracker.order.Nodup) :
    (settleAll rates hour e e.tracker.deeds).tracker = { e.tracker with
      indicator := e.tracker.indicator.filterMap fun d => (d.atHour rates hour).1
      repeatable := e.tracker.repeatable.filterMap fun d => (d.atHour rates hour).1 } := by
  have hindicator : passed rates hour e.tracker.deeds e.tracker.indicator
      = e.tracker.indicator.filterMap fun d => (d.atHour rates hour).1 :=
    passed_self fun x hx => List.mem_append_left _ hx
  have hrepeatable : passed rates hour e.tracker.deeds e.tracker.repeatable
      = e.tracker.repeatable.filterMap fun d => (d.atHour rates hour).1 :=
    passed_self fun x hx => List.mem_append_right _ hx
  rw [tracker_settleAll hn hn fun _ h => h, hindicator, hrepeatable]

/-- A pass over all tracked deeds. -/
theorem visitAll_order (hn : e.tracker.order.Nodup) :
    e.visitAll rates hour e.tracker.order = Run.andThen
      (settleAll rates hour e e.tracker.deeds,
        e.tracker.deeds.flatMap fun d => (d.atHour rates hour).2)
      fun x => if e.tracker.deeds = [] then (x, []) else x.unsubscribeIfIdle := by
  cases hds : e.tracker.deeds with
  | nil =>
    rw [Tracker.order, hds]
    rfl
  | cons d ds =>
    rw [Tracker.order, hds] at hn ⊢
    rw [visitAll_eq (by rwa [Tracker.order, hds]) hn fun x hx => hds ▸ hx]
    simp only [if_neg (List.cons_ne_nil d ds)]

theorem sameDeeds_visitAll (hn : e.tracker.order.Nodup) :
    SameDeeds (settleAll rates hour e e.tracker.deeds)
      (e.visitAll rates hour e.tracker.order).1 := by
  rw [visitAll_order hn]
  dsimp only [Run.andThen]
  split
  · exact .refl _
  · exact sameDeeds_unsubscribeIfIdle

theorem tick_lists (hn : e.tracker.order.Nodup) :
    (e.tick rates hour).1.tracker.indicator =
        e.tracker.indicator.filterMap (fun d => (d.atHour rates hour).1) ∧
      (e.tick rates hour).1.tracker.repeatable =
        e.tracker.repeatable.filterMap fun d => (d.atHour rates hour).1 := by
  have hsame : SameDeeds (settleAll rates hour e e.tracker.deeds)
      (e.visitAll rates hour e.tracker.order).1 := sameDeeds_visitAll hn
  refine ⟨hsame.indicator.trans ?_, hsame.repeatable.trans ?_⟩ <;> rw [tracker_settleAll_self hn]

theorem tick_said (hn : e.tracker.order.Nodup) :
    let after := (e.tick rates hour).1.tracker
    (e.tick rates hour).2 = e.tracker.deeds.flatMap (fun d => (d.atHour rates hour).2)
      ++ (if e.tracker.subscribed ∧ e.tracker.deeds ≠ [] ∧ after.deeds = [] then
          [.unsubscribe, .publish (.tracker .unsubscribed)] else [])
      ++ [.publish (.tracker (.tickProcessed hour after.indicator.length
          after.repeatable.length))] := by
  intro after
  have hafter : after.deeds = (settleAll rates hour e e.tracker.deeds).tracker.deeds := by
    have hsame : SameDeeds (settleAll rates hour e e.tracker.deeds)
        (e.visitAll rates hour e.tracker.order).1 := sameDeeds_visitAll hn
    exact congrArg₂ (· ++ ·) hsame.indicator hsame.repeatable
  have hsub : (settleAll rates hour e e.tracker.deeds).tracker.subscribed = e.tracker.subscribed := by
    rw [tracker_settleAll_self hn]
  rw [hafter]
  refine congrArg (· ++ _) (?_ : (e.visitAll rates hour e.tracker.order).2 = _)
  rw [visitAll_order hn]
  dsimp only [Run.andThen]
  split
  next hnil => simp [hnil]
  next hne => rw [snd_unsubscribeIfIdle, hsub]; simp [hne]

/-- A deed that is alone in the tracker is what an hour makes of it by itself. -/
theorem visit_alone (h : e.tracker.deeds = [d]) (hsub : e.tracker.subscribed = false) :
    (e.visit rates hour d.id).1.tracker.deeds = (d.atHour rates hour).1.toList ∧
      (e.visit rates hour d.id).2 = (d.atHour rates hour).2 := by
  have hid (d' : Deed) (h : (d.atHour rates hour).1 = some d') : d'.id = d.id :=
    Deed.id_of_atHour h
  have hn : e.tracker.order.Nodup := by
    rw [Tracker.order, h]
    exact List.nodup_singleton _
  have hd : d ∈ e.tracker.deeds := by
    rw [h]
    exact List.mem_singleton_self _
  have hquiet : (e.settle d (d.atHour rates hour).1).tracker.subscribed = false := by
    rw [tracker_settle hid, hsub]
  rw [visit_eq hn hd]
  refine ⟨?_, ?_⟩
  · refine (congrArg₂ (· ++ ·) sameDeeds_unsubscribeIfIdle.indicator
      sameDeeds_unsubscribeIfIdle.repeatable).trans ?_
    show (e.settle d (d.atHour rates hour).1).tracker.deeds = _
    rw [deeds_settle hid, h, settled]
    cases (d.atHour rates hour).1 <;> simp
  · dsimp only [Run.andThen]
    rw [snd_unsubscribeIfIdle, hquiet]
    simp

/-! ### Slots -/

theorem mem_slots_settle {a : CharacterId} {id : DeedId} :
    (a, id) ∈ (e.settle d left).slots ↔
      (a, id) ∈ e.slots ∧ (left = none → ¬(d.actor = some a ∧ id = d.id)) := by
  cases left with
  | some d' => simp [settle, updateTracked]
  | none => simp [settle, dropTracked, mem_slots_release]

theorem mem_slots_settleAll {a : CharacterId} {id : DeedId} :
    (a, id) ∈ (settleAll rates hour e ds).slots ↔ (a, id) ∈ e.slots ∧
      ∀ d ∈ ds, (d.atHour rates hour).1 = none → ¬(d.actor = some a ∧ id = d.id) := by
  induction ds generalizing e with
  | nil => simp [settleAll]
  | cons d ds ih =>
    rw [settleAll, List.foldl_cons, ← settleAll, ih, mem_slots_settle, List.forall_mem_cons,
      and_assoc]

/-- An hour frees the actors of the deeds that do not go on, and no others. -/
theorem mem_slots_tick (hs : e.Sound) {a : CharacterId} {id : DeedId} :
    (a, id) ∈ (e.tick rates hour).1.slots ↔ (a, id) ∈ e.slots ∧
      ∀ d ∈ e.tracker.deeds, d.id = id → (d.atHour rates hour).1.isSome := by
  have hn := nodup_order hs.nodup
  show (a, id) ∈ (e.visitAll rates hour e.tracker.order).1.slots ↔ _
  rw [(sameDeeds_visitAll hn).slots, mem_slots_settleAll]
  refine and_congr_right fun hmem => forall₂_congr fun d hd => ?_
  rw [← Option.ne_none_iff_isSome]
  constructor
  · rintro h rfl hnone
    exact h hnone ⟨(hs.mem_slots_iff (Sound.tracked_mem hd)).1 hmem, rfl⟩
  · rintro h hnone ⟨-, rfl⟩
    exact h rfl hnone

end Engine

/-! ## Rates -/

namespace World

variable {w : World} {actor : CharacterId}

theorem rates_applyOne (effect : Effect) : (w.applyOne actor effect).1.cast.rates = w.cast.rates := by
  unfold applyOne applyStat
  split
  · rfl
  · split
    · split
      · rfl
      · dsimp only
        split <;> rfl
    · rfl

theorem rates_applyAll (effects : List Effect) :
    (w.applyAll actor effects).1.cast.rates = w.cast.rates := by
  induction effects generalizing w with
  | nil => rfl
  | cons effect rest ih => exact ih.trans (rates_applyOne effect)

end World

namespace System

/-- Outputs leave the rates of all characters as they are, so each visit of a pass sees the rates
from before it. -/
theorem rate_performAll (s : System) (outputs : List Output) :
    (s.performAll outputs).world.cast.rate = s.world.cast.rate := by
  have hrates : (s.performAll outputs).world.cast.rates = s.world.cast.rates := by
    rw [world_performAll]
    generalize outputs.filterMap Output.application? = applications
    generalize s.world = w
    induction applications generalizing w with
    | nil => rfl
    | cons p rest ih => exact (ih _).trans (World.rates_applyAll p.2)
  funext a
  rw [Cast.rate, hrates, Cast.rate]

/-- After any moves, in any order, an hour passes over all tracked deeds, each on its own:
* what becomes of a deed is what an hour makes of it by itself, with the rate of its actor; the deeds
  that go on stay in their list and in their order, and no deed is added;
* what is said is what is said of each deed by itself, in the order of the tracker: the deeds that
  complete once come first, then those that repeat; and each of these outputs is about its deed;
* at last comes the news that the hour is over, with the hour and the number of deeds in each list
  afterwards; before it comes the news that no more hours are taken, if they were taken, a deed was
  tracked before, and none is tracked any more; neither comes at any other place;
* hours come only while they are taken;
* a deed that is checked between two cycles is left alone as long as its actor has a valid rate; and
  what an hour makes of any deed by itself is what it makes of one that is alone in a tracker;
* pending invocations stay as they are, and actors are free of the deeds that do not go on only;
* whatever the pass applies on its way leaves all rates as they are. -/
theorem pass_fair (catalog : Catalog) (world : World) (clock : Clock) (bus : Bus)
    (moves : List Move) (rates : CharacterId → Option Binary32) (hour : Hour) :
    let s := ((ofParts catalog world clock bus).run moves).1
    let before := s.engine.tracker
    let pass := s.engine.tick rates hour
    let after := pass.1.tracker
    (after.indicator = before.indicator.filterMap (fun d => (d.atHour rates hour).1) ∧
      after.repeatable = before.repeatable.filterMap fun d => (d.atHour rates hour).1) ∧
    ((after.indicator.map Deed.id).Sublist (before.indicator.map Deed.id) ∧
      (after.repeatable.map Deed.id).Sublist (before.repeatable.map Deed.id)) ∧
    pass.2 = before.deeds.flatMap (fun d => (d.atHour rates hour).2)
      ++ (if before.subscribed ∧ before.deeds ≠ [] ∧ after.deeds = [] then
          [.unsubscribe, .publish (.tracker .unsubscribed)] else [])
      ++ [.publish (.tracker (.tickProcessed hour after.indicator.length
          after.repeatable.length))] ∧
    (∀ d ∈ before.deeds, ∀ o ∈ (d.atHour rates hour).2,
      o.isHourly = false ∧ o.deed? = some d.id) ∧
    s.ticks.isSome = before.subscribed ∧
    (∀ d ∈ before.deeds, (d.phase = .pending ∨ d.phase = .reverifying) ∧
      (d.phase = .reverifying → ∀ rate, Engine.progressionRate rates d = .ok rate →
        d.atHour rates hour = (some d, [])) ∧
      ∀ e : Engine, e.tracker.deeds = [d] → e.tracker.subscribed = false →
        (e.visit rates hour d.id).1.tracker.deeds = (d.atHour rates hour).1.toList ∧
          (e.visit rates hour d.id).2 = (d.atHour rates hour).2) ∧
    pass.1.pending = s.engine.pending ∧
    (∀ a id, (a, id) ∈ pass.1.slots ↔ (a, id) ∈ s.engine.slots ∧
      ∀ d ∈ before.deeds, d.id = id → (d.atHour rates hour).1.isSome) ∧
    ∀ outputs, (s.performAll outputs).world.cast.rate = s.world.cast.rate := by
  intro s before pass after
  have hsound := sound_ofParts catalog world clock bus
  have hs : s.Sound := run_sound hsound moves
  have hn := Engine.nodup_order hs.sound.nodup
  have hlists : after.indicator = _ ∧ after.repeatable = _ := Engine.tick_lists hn
  have hsublist (l : List Deed) : ((l.filterMap fun d => (d.atHour rates hour).1).map Deed.id).Sublist
      (l.map Deed.id) := Engine.sublist_map_id (fun _ _ => Deed.id_of_atHour) l
  refine ⟨hlists, ⟨hlists.1 ▸ hsublist _, hlists.2 ▸ hsublist _⟩, Engine.tick_said hn,
    fun d _ => d.said_atHour, (inStep_run hsound ⟨rfl, fun _ => rfl⟩ moves).ticks,
    fun d hd => ⟨?_, fun hphase rate hrate => ?_, fun e halone hquiet => ?_⟩,
    (Engine.tick_aside rates hour).pending, fun a id => Engine.mem_slots_tick hs.sound,
    s.rate_performAll⟩
  · exact (hs.sound.running d hd).1.imp_right And.left
  · exact Deed.atHour_of_skipped hrate (Deed.advance_of_reverifying hphase)
  · exact Engine.visit_alone halone hquiet

end System

end Deeds
