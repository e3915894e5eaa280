import Deeds.Proofs.System.Sound

/-!
# The account of a deed

What the outputs of the engine say about one deed: who started it, which lists were applied on whose
behalf, and how often it completed and repeated.

* `account` : the account of a deed in some outputs;
* `Account.Charged` : costs are applied once for each cycle, effects once for each completion;
* `Engine.Booked` : how the account of a deed agrees with the state of the engine;
* `Booked.transition` : every transition keeps the two in agreement.
-/

namespace Deeds

/-! ## What outputs say about a deed -/

/-- Who started the deed, if the output says so, and as which action. -/
def Output.starts? (id : DeedId) : Output → Option (String × CharacterId)
  | .publish (.action (.started deed action actor _ _)) =>
    if deed = id then some (action, actor) else none
  | _ => none

/-- The list of effects that the output applies for the deed, and on whose behalf. -/
def Output.applies? (id : DeedId) (what : Application) :
    Output → Option (CharacterId × List Effect)
  | .apply deed actor applied effects =>
    if deed = id ∧ applied = what then some (actor, effects) else none
  | _ => none

/-- The output says that the deed completed. -/
def Output.isCompleted (id : DeedId) : Output → Bool
  | .publish (.action (.completed deed ..)) => deed = id
  | _ => false

/-- The output says that the deed begins its next cycle. -/
def Output.isRepeated (id : DeedId) : Output → Bool
  | .publish (.action (.repeated deed _)) => deed = id
  | _ => false

/-- What was told about a deed, and applied for it. -/
structure Account where
  starts : List (String × CharacterId)
  costs : List (CharacterId × List Effect)
  effects : List (CharacterId × List Effect)
  /-- How many times it completed. -/
  completed : Nat
  /-- How many further cycles began. -/
  repeated : Nat
  deriving DecidableEq

namespace Account

/-- Nothing was told and nothing was applied. -/
def blank : Account := ⟨[], [], [], 0, 0⟩

/-- One account after the other. -/
def add (a b : Account) : Account where
  starts := a.starts ++ b.starts
  costs := a.costs ++ b.costs
  effects := a.effects ++ b.effects
  completed := a.completed + b.completed
  repeated := a.repeated + b.repeated

theorem add_blank (a : Account) : a.add blank = a := by
  simp [add, blank]

theorem blank_add (a : Account) : blank.add a = a := by
  simp [add, blank]

end Account

/-- The account of a deed in some outputs. -/
def account (id : DeedId) (outputs : List Output) : Account where
  starts := outputs.filterMap (Output.starts? id)
  costs := outputs.filterMap (Output.applies? id .costs)
  effects := outputs.filterMap (Output.applies? id .effects)
  completed := outputs.countP (Output.isCompleted id)
  repeated := outputs.countP (Output.isRepeated id)

theorem account_append (id : DeedId) (xs ys : List Output) :
    account id (xs ++ ys) = (account id xs).add (account id ys) := by
  simp only [account, Account.add, List.filterMap_append, List.countP_append]

/-! ### Outputs that advance no deed -/

section Silent

variable {id : DeedId} {o : Output} (h : o.advances id = false)
include h

theorem starts?_of_silent : o.starts? id = none := by
  unfold Output.starts?
  split
  · exact if_neg (of_decide_eq_false h)
  · rfl

theorem applies?_of_silent (what : Application) : o.applies? id what = none := by
  unfold Output.applies?
  split
  · exact if_neg fun hid => of_decide_eq_false h hid.1
  · rfl

theorem isCompleted_of_silent : o.isCompleted id = false := by
  unfold Output.isCompleted
  split
  · exact h
  · rfl

theorem isRepeated_of_silent : o.isRepeated id = false := by
  unfold Output.isRepeated
  split
  · exact h
  · rfl

end Silent

/-- Outputs that do not advance a deed leave its account blank. -/
theorem account_eq_blank {id : DeedId} {outputs : List Output}
    (h : ∀ o ∈ outputs, o.advances id = false) : account id outputs = .blank := by
  unfold account Account.blank
  rw [List.filterMap_eq_nil_iff.2 fun o ho => starts?_of_silent (h o ho),
    List.filterMap_eq_nil_iff.2 fun o ho => applies?_of_silent (h o ho) .costs,
    List.filterMap_eq_nil_iff.2 fun o ho => applies?_of_silent (h o ho) .effects,
    List.countP_eq_zero.2 fun o ho => by simp [isCompleted_of_silent (h o ho)],
    List.countP_eq_zero.2 fun o ho => by simp [isRepeated_of_silent (h o ho)]]

theorem account_of_isHourly {id : DeedId} {outputs : List Output}
    (h : ∀ o ∈ outputs, o.isHourly) : account id outputs = .blank :=
  account_eq_blank fun o ho => o.advances_of_isHourly (h o ho)

/-! ## Costs and effects -/

namespace Account

/-- A deed of a template was started once by an actor. Its costs were applied for the first cycle
and every further one, its effects for every completion, always as the whole list and on behalf of that
actor. -/
structure Charged (c : Catalog) (a : Account) (t : Template) (actor : CharacterId) : Prop where
  template : c.get? t.name = some t
  starts : a.starts = [(t.name, actor)]
  costs : a.costs = List.replicate (1 + a.repeated) (actor, t.costs)
  effects : a.effects = List.replicate a.completed (actor, t.effects)

/-- A deed starts. -/
def start (t : Template) (actor : CharacterId) : Account :=
  ⟨[(t.name, actor)], [(actor, t.costs)], [], 0, 0⟩

/-- A deed completes. -/
def complete (t : Template) (actor : CharacterId) : Account := ⟨[], [], [(actor, t.effects)], 1, 0⟩

/-- A deed begins its next cycle. -/
def repeatCycle (t : Template) (actor : CharacterId) : Account := ⟨[], [(actor, t.costs)], [], 0, 1⟩

variable {c : Catalog} {a : Account} {t : Template} {actor : CharacterId}

theorem charged_start (ht : c.get? t.name = some t) : (start t actor).Charged c t actor :=
  ⟨ht, rfl, rfl, rfl⟩

theorem Charged.add_complete (h : a.Charged c t actor) :
    (a.add (complete t actor)).Charged c t actor where
  template := h.template
  starts := by rw [add, h.starts]; rfl
  costs := by
    show a.costs ++ [] = List.replicate (1 + (a.repeated + 0)) _
    rw [List.append_nil, h.costs]
    rfl
  effects := by
    show a.effects ++ [(actor, t.effects)] = List.replicate (a.completed + 1) _
    rw [h.effects, List.replicate_succ']

theorem Charged.add_repeatCycle (h : a.Charged c t actor) :
    (a.add (repeatCycle t actor)).Charged c t actor where
  template := h.template
  starts := by rw [add, h.starts]; rfl
  costs := by
    show a.costs ++ [(actor, t.costs)] = List.replicate (1 + (a.repeated + 1)) _
    rw [h.costs, ← Nat.add_assoc, List.replicate_succ']
  effects := by
    show a.effects ++ [] = List.replicate (a.completed + 0) _
    rw [List.append_nil, h.effects]
    rfl

end Account

namespace Engine

/-- The account of a tracked deed: as many completions as the deed counts, and a further cycle for
each of them, except for the one that is being checked. -/
structure Balanced (a : Account) (d : Deed) : Prop where
  completed : d.completions = a.completed
  pending : d.phase = .pending → a.repeated = a.completed
  reverifying : d.phase = .reverifying → a.completed = a.repeated + 1

/-- How the account of a deed agrees with the state of the engine. -/
inductive Booked (e : Engine) (id : DeedId) (a : Account) : Prop
  /-- It has not started, and nothing was applied for it. -/
  | unstarted (h : id ∉ e.tracker.order) (ha : a = .blank)
  | running {d : Deed} {actor : CharacterId} (hd : d ∈ e.tracker.deeds) (hid : d.id = id)
      (hactor : d.actor = some actor) (ha : a.Charged e.catalog d.template actor)
      (hb : Balanced a d)
  | closed {t : Template} {actor : CharacterId} (hg : e.Gone id) (ha : a.Charged e.catalog t actor)

variable {e e' : Engine} {f : Option Finding} {id j : DeedId} {outputs : List Output}
  {a : Account} {d d' : Deed} {i : Invocation}

/-- A deed stays where it is in its account when the tracked deeds stay. -/
theorem Booked.of_tracked (h : Booked e id a) (hcatalog : e'.catalog = e.catalog)
    (htracked : ∀ d, d.id = id → (d ∈ e'.tracker.deeds ↔ d ∈ e.tracker.deeds))
    (hgone : e.Gone id → e'.Gone id) : Booked e' id a := by
  cases h with
  | unstarted h ha =>
    refine .unstarted (fun hmem => h ?_) ha
    obtain ⟨d, hd, hid⟩ := Tracker.mem_order.1 hmem
    exact Tracker.mem_order.2 ⟨d, (htracked d hid).1 hd, hid⟩
  | running hd hid hactor ha hb =>
    exact .running ((htracked _ hid).2 hd) hid hactor (hcatalog ▸ ha) hb
  | closed hg ha => exact .closed (hgone hg) (hcatalog ▸ ha)

/-- A pending deed has a blank account. -/
theorem Booked.of_pending (hs : e.Sound) (h : Booked e id a) (hi : i ∈ e.pending)
    (hid : i.deed.id = id) : a = .blank := by
  cases h with
  | unstarted _ ha => exact ha
  | running hd hid' => exact absurd (hid.trans hid'.symm) (hs.id_ne hi hd)
  | closed hg => exact absurd (mem_ids.2 ⟨i.deed, Sound.deed_mem hi, hid⟩) hg.2

/-- Nothing was told about a deed that never started. -/
theorem Booked.blank_of_starts (h : Booked e id a) (hnone : a.starts = []) : a = .blank := by
  cases h with
  | unstarted _ ha => exact ha
  | running _ _ _ ha =>
    rw [ha.starts] at hnone
    cases hnone
  | closed _ ha =>
    rw [ha.starts] at hnone
    cases hnone

/-- A deed that started is charged, by its action and on behalf of its actor. -/
theorem Booked.charged_of_starts (h : Booked e id a) {name : String} {actor : CharacterId}
    (hstart : (name, actor) ∈ a.starts) : ∃ t, t.name = name ∧ a.Charged e.catalog t actor := by
  have of_charged {t : Template} {actor' : CharacterId} (ha : a.Charged e.catalog t actor') :
      ∃ t, t.name = name ∧ a.Charged e.catalog t actor := by
    rw [ha.starts, List.mem_singleton] at hstart
    obtain ⟨hname, rfl⟩ := Prod.mk.inj hstart
    exact ⟨t, hname.symm, ha⟩
  cases h with
  | unstarted _ ha =>
    rw [ha] at hstart
    cases hstart
  | running _ _ _ ha => exact of_charged ha
  | closed _ ha => exact of_charged ha

/-- A tracked deed is charged and balanced. -/
theorem Booked.of_deed (hs : e.Sound) (h : Booked e d.id a) (hd : d ∈ e.tracker.deeds)
    {actor : CharacterId} (hactor : d.actor = some actor) :
    a.Charged e.catalog d.template actor ∧ Balanced a d := by
  cases h with
  | unstarted hnot => exact absurd (Tracker.mem_order.2 ⟨d, hd, rfl⟩) hnot
  | running hx hid hactor' ha hb =>
    obtain rfl := deed_unique hs.nodup (Sound.tracked_mem hx) (Sound.tracked_mem hd) hid
    obtain rfl := Option.some.inj (hactor.symm.trans hactor')
    exact ⟨ha, hb⟩
  | closed hg => exact absurd (mem_ids.2 ⟨d, Sound.tracked_mem hd, rfl⟩) hg.2

/-- The counts of a tracked deed and the lists in its account agree. -/
theorem Booked.counts_of_deed (hs : e.Sound) (h : Booked e d.id a) (hd : d ∈ e.tracker.deeds) :
    (∃ actor, d.actor = some actor ∧ a.starts = [(d.name, actor)]) ∧
      d.completions = a.effects.length ∧
      (d.phase = .pending → a.costs.length = d.completions + 1) ∧
      (d.phase = .reverifying → a.costs.length = d.completions) := by
  obtain ⟨actor, hactor⟩ := Option.isSome_iff_exists.1 (hs.running d hd).2
  obtain ⟨ha, hb⟩ := h.of_deed hs hd hactor
  have hcosts : a.costs.length = 1 + a.repeated := by rw [ha.costs, List.length_replicate]
  have heffects : a.effects.length = a.completed := by rw [ha.effects, List.length_replicate]
  refine ⟨⟨actor, hactor, ha.starts⟩, ?_, fun hp => ?_, fun hp => ?_⟩
  · rw [heffects, hb.completed]
  · have := hb.pending hp
    have := hb.completed
    omega
  · have := hb.reverifying hp
    have := hb.completed
    omega

/-! ### The accounts of a deed's own transitions -/

/-- Of its own outputs, only some say anything about the account of a deed. -/
theorem account_hourly_right {hours : List Output} (h : ∀ o ∈ hours, o.isHourly) :
    account id (outputs ++ hours) = account id outputs := by
  rw [account_append, account_of_isHourly h, Account.add_blank]

theorem account_finish (hid : d.id = id) {actor : CharacterId} {call : CallId} :
    account id
      [.apply d.id actor .costs d.template.costs,
        .publish (.action (.started d.id d.name actor d.target d.mode)),
        .apply d.id actor .effects d.template.effects,
        .publish (.action (.completed d.id d.name d.target none)),
        .answer call (.ok (.ofDeed d.completeAtOnce.clear actor))]
      = (Account.start d.template actor).add (.complete d.template actor) := by
  simp [account, List.filterMap_cons, Output.starts?, Output.applies?, Output.isCompleted,
    Output.isRepeated, hid, Account.add, Account.start, Account.complete, Deed.name]

theorem account_track (hid : d.id = id) {actor : CharacterId} {call : CallId}
    {hours : List Output} (h : ∀ o ∈ hours, o.isHourly) :
    account id
      ([.apply d.id actor .costs d.template.costs,
          .publish (.action (.started d.id d.name actor d.target d.mode))]
        ++ (hours ++ [.answer call (.ok (.ofDeed d.start actor))]))
      = .start d.template actor := by
  rw [account_append, account_append, account_of_isHourly h, Account.blank_add]
  simp [account, List.filterMap_cons, Output.starts?, Output.applies?, Output.isCompleted,
    Output.isRepeated, hid, Account.add, Account.start, Deed.name]

theorem account_complete {actor : CharacterId} {hour : Hour} {current : Binary32} :
    account d.id
      [.publish (.action (.progressed d.id hour current d.template.progressIndicator)),
        .apply d.id actor .effects d.template.effects,
        .publish (.action (.completed d.id d.name d.target (some hour)))]
      = .complete d.template actor := by
  simp [account, List.filterMap_cons, Output.starts?, Output.applies?, Output.isCompleted,
    Output.isRepeated, Account.complete]

theorem account_completeCycle {actor : CharacterId} {hour : Hour} {current : Binary32}
    {conditions : List Condition} :
    account d.id
      [.publish (.action (.progressed d.id hour current d.template.progressIndicator)),
        .apply d.id actor .effects d.template.effects,
        .reverify d.id conditions d.target,
        .publish (.action (.completed d.id d.name d.target (some hour)))]
      = .complete d.template actor := by
  simp [account, List.filterMap_cons, Output.starts?, Output.applies?, Output.isCompleted,
    Output.isRepeated, Account.complete]

theorem account_restart {actor : CharacterId} :
    account d.id
      [.apply d.id actor .costs d.template.costs,
        .publish (.action (.repeated d.id d.completions))]
      = .repeatCycle d.template actor := by
  simp [account, List.filterMap_cons, Output.starts?, Output.applies?, Output.isCompleted,
    Output.isRepeated, Account.repeatCycle]

theorem Booked.enrolled (hs : e.Sound) (h : Booked e i.deed.id a) (hi : i ∈ e.pending)
    (hup : Sound.Update e i.deed.id none (some d) e') {actor : CharacterId}
    (hactor : d.actor = some actor)
    (hphase : d.phase = .pending) (hcompletions : d.completions = 0) :
    Booked e' i.deed.id (a.add (.start d.template actor)) := by
  rw [h.of_pending hs hi rfl, Account.blank_add]
  have hd : d ∈ e'.tracker.deeds := (hup.mem_tracked d).2 (.inr rfl)
  refine .running hd (hup.running d rfl).2.id_eq hactor (Account.charged_start ?_) ?_
  · exact (hup.running d rfl).2.template
  · refine ⟨hcompletions, fun _ => rfl, fun hp => ?_⟩
    rw [hphase] at hp
    cases hp

/-- A deed that only progresses, or takes its next step in the tracker. -/
theorem Booked.updated (hup : Sound.Update e id none (some d') e') {actor : CharacterId}
    (hactor : d'.actor = some actor) {b : Account} (ha : b.Charged e.catalog d'.template actor)
    (hb : Balanced b d') : Booked e' id b :=
  .running ((hup.mem_tracked d').2 (.inr rfl)) (hup.running d' rfl).2.id_eq hactor
    (hup.catalog ▸ ha) hb

/-- What a transition does to the account of its deed agrees with what it does to the deed. -/
theorem Booked.own (hs : e.Sound) (h : Booked e id a) (ht : Transition e f id outputs e') :
    Booked e' id (a.add (account id outputs)) := by
  have gone : e.Gone id → e'.Gone id := fun hg => hg.transition hs ht
  -- most transitions leave the tracked deeds alone and say nothing that counts
  have idle (hblank : account id outputs = .blank) (hcatalog : e'.catalog = e.catalog)
      (htracked : e'.tracker.deeds = e.tracker.deeds) :
      Booked e' id (a.add (account id outputs)) := by
    rw [hblank, Account.add_blank]
    exact h.of_tracked hcatalog (fun d _ => by rw [htracked]) gone
  cases ht with
  | refuse => exact idle rfl rfl rfl
  | enter => exact idle rfl rfl rfl
  | fire => exact idle rfl rfl rfl
  | acknowledge => exact idle rfl rfl rfl
  | close => exact idle rfl rfl rfl
  | unsubscribe =>
    have hsame := sameDeeds_unsubscribe (e := e)
    exact idle (account_of_isHourly fun _ => isHourly_of_mem_unsubscribe) hsame.catalog
      hsame.tracked
  | ignore => exact idle rfl rfl rfl
  | reject => exact idle rfl release_catalog (by rw [reject, release_tracker]; rfl)
  | bind => exact idle rfl rfl rfl
  | @finish i v d actor hi hmet hd ha hm =>
    have hlt := hs.id_lt _ (Sound.deed_mem hi)
    have htemplate := hs.template _ (Sound.deed_mem hi)
    have hup := update_finish hs hi hd
    have hid : d.id = i.deed.id := by rw [hd]; rfl
    have hd' : d.template = i.deed.template := by rw [hd]; rfl
    rw [account_finish hid, h.of_pending hs hi rfl, Account.blank_add, hd']
    have hcharged : (Account.start i.deed.template actor).Charged e.catalog i.deed.template actor :=
      Account.charged_start htemplate
    rw [← hup.catalog] at hcharged
    exact .closed (hup.isGone hlt) hcharged.add_complete
  | @track i v d actor hi hmet hd ha hm =>
    have hup := update_track hs hi hd ha hm
    have hid : d.id = i.deed.id := by rw [hd]; rfl
    have hcompletions : d.completions = 0 := by rw [hd]; exact (hs.starting i hi).2
    rw [account_track hid fun _ => isHourly_of_mem_enrol]
    exact h.enrolled hs hi hup ha rfl hcompletions
  | @progress d d' rate current hour hd ha =>
    obtain ⟨actor, hactor⟩ := Option.isSome_iff_exists.1 (hs.running d hd).2
    obtain ⟨hcharged, hbalanced⟩ := h.of_deed hs hd hactor
    have hup := update_progress hs hd ha
    obtain ⟨-, rfl⟩ := Deed.advance_eq_progressed ha
    have hblank : account d.id [.publish (.action (.progressed d.id hour current
        d.template.progressIndicator))] = .blank := rfl
    rw [hblank, Account.add_blank]
    exact Booked.updated hup hactor hcharged ⟨hbalanced.completed, hbalanced.pending,
      hbalanced.reverifying⟩
  | @complete d d' rate current actor hour hd ha hactor hm =>
    obtain ⟨hcharged, -⟩ := h.of_deed hs hd hactor
    have hup := update_dropTracked hs hd
    rw [account_hourly_right fun _ => isHourly_of_mem_unsubscribeIfIdle, account_complete]
    exact .closed (hup.isGone (hs.id_lt _ (Sound.tracked_mem hd)))
      (hup.catalog ▸ hcharged.add_complete)
  | @completeCycle d d' rate current actor hour hd ha hactor hm =>
    obtain ⟨hcharged, hbalanced⟩ := h.of_deed hs hd hactor
    have hup := update_completeCycle hs hd ha hm
    obtain ⟨hp, rfl⟩ := Deed.advance_eq_completed ha
    rw [account_completeCycle]
    refine Booked.updated hup hactor hcharged.add_complete
      ⟨congrArg (· + 1) hbalanced.completed, fun hp => (by cases hp), fun _ => ?_⟩
    exact congrArg (· + 1) (hbalanced.pending hp).symm
  | @restart d v actor hd hp hmet hactor =>
    obtain ⟨hcharged, hbalanced⟩ := h.of_deed hs hd hactor
    have hup := update_restart hs hd v.conditions
    rw [account_restart]
    refine Booked.updated hup hactor hcharged.add_repeatCycle
      ⟨hbalanced.completed, fun _ => ?_, fun hp => (by cases hp)⟩
    exact (hbalanced.reverifying hp).symm
  | @cancel f d reason hd =>
    obtain ⟨actor, hactor⟩ := Option.isSome_iff_exists.1 (hs.running d hd).2
    obtain ⟨hcharged, -⟩ := h.of_deed hs hd hactor
    have hup := update_dropTracked hs hd
    rw [← List.singleton_append, account_hourly_right fun _ => isHourly_of_mem_unsubscribeIfIdle]
    show Booked _ _ (a.add .blank)
    rw [Account.add_blank]
    exact .closed (hup.isGone (hs.id_lt _ (Sound.tracked_mem hd))) (hup.catalog ▸ hcharged)

/-- Every transition keeps the account of every deed in agreement with the state of the engine. -/
theorem Booked.transition (hs : e.Sound) (h : Booked e id a) (ht : Transition e f j outputs e') :
    Booked e' id (a.add (account id outputs)) := by
  by_cases hj : id = j
  · subst hj
    exact h.own hs ht
  · have hother := ht.sameOthers hs
    rw [account_eq_blank (ht.not_advances_of_ne hj), Account.add_blank]
    exact h.of_tracked hother.catalog (fun d hd => hother.tracked d (hd ▸ hj)) (hother.gone hj)

/-! ## Chains -/

variable {P : Finding → Prop}

/-- In every chain from an engine without deeds the accounts agree with the state. -/
theorem booked_of_chain {catalog : Catalog} (h : Chain (Taking P) (ofCatalog catalog) outputs e)
    (id : DeedId) : Booked e id (account id outputs) := by
  have hstart : Booked (ofCatalog catalog) id (account id []) := .unstarted List.not_mem_nil rfl
  refine history_of_chain (Q := fun said e => Booked e id (account id said)) ?_
    (sound_ofCatalog catalog) hstart h
  intro said e f j outputs e' hs hb _ ht
  rw [account_append]
  exact hb.transition hs ht

/-- The account of a deed that is gone is closed. -/
theorem Gone.account_of_chain (hs : e.Sound) (hg : e.Gone id) (h : Chain (Taking P) e outputs e') :
    account id outputs = .blank := by
  refine (history_of_chain (Q := fun said e => e.Gone id ∧ account id said = .blank) ?_ hs
    ⟨hg, rfl⟩ h).2
  rintro said e f j outputs e' hs ⟨hg, hsaid⟩ - ht
  refine ⟨hg.transition hs ht, ?_⟩
  rw [account_append, hsaid, account_eq_blank (hg.not_advances ht), Account.add_blank]

end Engine

end Deeds
