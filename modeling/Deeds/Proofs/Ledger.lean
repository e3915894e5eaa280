import Deeds.Proofs.Payments
import Deeds.Proofs.Rejections
import Deeds.Proofs.System.Inputs
import Mathlib

/-!
# The events are a ledger

Whoever has the action events and the catalog can say what was applied, to whom and in which order,
and so what the balances and the stats are.

* `charge` : what one event charges; `ledger` : what all of them do;
* `Engine.Kept` : the applications are those in the ledger; `Engine.kept_of_chain` : so it stays;
* `World.balance_post`, `World.adjustments_post`, `World.stat_post` : the sums over effects;
* `System.sums_run` : after any moves the world has the sums of all that was applied;
* `System.ledger_complete` : the sums are those of the ledger, and nothing else moves them.
-/

namespace Deeds

open Engine (Taking Transition)

/-! ## Sums over effects -/

namespace Effect

/-- The effect depends on a roll. -/
def isGated (e : Effect) : Bool := e.statChange.any (·.chance.isSome)

/-- The signed change of a stat by an effect that passes. -/
def statDelta (s : Stat) (e : Effect) : Int :=
  match e.statChange with
  | some c => if c.stat = s then c.delta.toInt else 0
  | none => 0

end Effect

/-- The effects of some applications, one after the other, each on behalf of its actor. -/
def entries (applications : List (CharacterId × List Effect)) : List (CharacterId × Effect) :=
  applications.flatMap fun (actor, effects) => effects.map fun e => (actor, e)

theorem entries_append (xs ys : List (CharacterId × List Effect)) :
    entries (xs ++ ys) = entries xs ++ entries ys :=
  List.flatMap_append

theorem lookup_filter_ne {α β : Type} [BEq α] [LawfulBEq α] {k j : α} (h : j ≠ k)
    (l : List (α × β)) : (l.filter (·.1 != k)).lookup j = l.lookup j := by
  induction l with
  | nil => rfl
  | cons p l ih =>
    by_cases hp : p.1 = k
    · have hj : (j == p.1) = false := beq_eq_false_iff_ne.2 (hp ▸ h)
      rw [List.filter_cons_of_neg (by simp [hp]), ih, List.lookup_cons, hj]
    · rw [List.filter_cons_of_pos (by simpa using hp), List.lookup_cons, List.lookup_cons, ih]

theorem Cast.stat_adjustStat (c : Cast) (actor a : CharacterId) (changed s : Stat) (delta : Int) :
    (c.adjustStat actor changed delta).stat a s
      = c.stat a s + if actor = a ∧ changed = s then delta else 0 := by
  by_cases h : actor = a ∧ changed = s
  · obtain ⟨rfl, rfl⟩ := h
    rw [if_pos ⟨rfl, rfl⟩]
    show ((List.lookup _ (_ :: _)).getD 0 : Int) = _
    rw [List.lookup_cons_self]
    rfl
  · have hne : (a, s) ≠ (actor, changed) := fun heq => by
      obtain ⟨rfl, rfl⟩ := Prod.mk.inj heq
      exact h ⟨rfl, rfl⟩
    rw [if_neg h, Int.add_zero]
    show ((List.lookup _ (_ :: _)).getD 0 : Int) = _
    rw [List.lookup_cons, beq_eq_false_iff_ne.2 hne]
    exact congrArg (·.getD 0) (lookup_filter_ne hne c.stats)

namespace World

variable {w w' : World} {actor : CharacterId} {e : Effect}

/-- The world after some effects, in order, each on behalf of its actor. -/
def post (w : World) (effects : List (CharacterId × Effect)) : World :=
  effects.foldl (fun w (actor, e) => (w.applyOne actor e).1) w

theorem post_append (w : World) (xs ys : List (CharacterId × Effect)) :
    w.post (xs ++ ys) = (w.post xs).post ys :=
  List.foldl_append

theorem applyAll_eq_post (w : World) (actor : CharacterId) (effects : List Effect) :
    (w.applyAll actor effects).1 = w.post (effects.map fun e => (actor, e)) := by
  induction effects generalizing w with
  | nil => rfl
  | cons e rest ih => exact ih (w.applyOne actor e).1

/-- A balance is what it was and the sum of all signed changes, at 64 bits. -/
theorem balance_post (w : World) (effects : List (CharacterId × Effect)) (r : Resource) :
    (w.post effects).treasury.balance r
      = .ofInt ((w.treasury.balance r).toInt
          + (effects.map fun (_, e) => (e.change r).toInt).sum) := by
  induction effects generalizing w with
  | nil => simp [post]
  | cons p rest ih =>
    show (((w.applyOne p.1 p.2).1).post rest).treasury.balance r = _
    rw [ih, balance_applyOne, List.map_cons, List.sum_cons]
    simp only [Int64.ofInt_add, Int64.ofInt_toInt, Int64.add_assoc]

theorem adjustments_applyOne (w : World) (actor : CharacterId) (e : Effect) :
    (w.applyOne actor e).1.treasury.adjustments
      = w.treasury.adjustments + if e.resourceDelta.isSome then 1 else 0 := by
  unfold applyOne
  cases h : e.resourceDelta with
  | some p =>
    obtain ⟨r, delta⟩ := p
    cases r <;> rfl
  | none =>
    dsimp only
    split
    · rw [treasury_applyStat]
      rfl
    · rfl

/-- The treasury counts the effects on resources. -/
theorem adjustments_post (w : World) (effects : List (CharacterId × Effect)) :
    (w.post effects).treasury.adjustments
      = w.treasury.adjustments + effects.countP (·.2.resourceDelta.isSome) := by
  induction effects generalizing w with
  | nil => rfl
  | cons p rest ih =>
    show (((w.applyOne p.1 p.2).1).post rest).treasury.adjustments = _
    rw [ih, adjustments_applyOne, List.countP_cons]
    omega

theorem stat_applyOne (w : World) (h : e.isGated = false) (a : CharacterId) (s : Stat) :
    (w.applyOne actor e).1.cast.stat a s
      = w.cast.stat a s + if actor = a then e.statDelta s else 0 := by
  cases e with
  | resource direction =>
    cases direction <;> exact (by simp [applyOne, Effect.resourceDelta, Effect.statDelta,
      Effect.statChange])
  | stat direction changed amount chance =>
    have hnone : chance = none := by
      cases direction <;> simpa [Effect.isGated, Effect.statChange] using h
    subst hnone
    cases direction <;>
      simp [applyOne, applyStat, adjustStat, Effect.resourceDelta, Effect.statDelta,
        Effect.statChange, Cast.stat_adjustStat, ite_and]

/-- A stat is what it was and the sum of all signed changes for the character, without chance. -/
theorem stat_post (w : World) {effects : List (CharacterId × Effect)}
    (h : ∀ p ∈ effects, p.2.isGated = false) (a : CharacterId) (s : Stat) :
    (w.post effects).cast.stat a s
      = w.cast.stat a s
          + (effects.map fun (actor, e) => if actor = a then e.statDelta s else 0).sum := by
  induction effects generalizing w with
  | nil => simp [post]
  | cons p rest ih =>
    obtain ⟨hp, hrest⟩ := List.forall_mem_cons.1 h
    show (((w.applyOne p.1 p.2).1).post rest).cast.stat a s = _
    rw [ih _ hrest, stat_applyOne w hp, List.map_cons, List.sum_cons, Int.add_assoc]

end World

/-! ### Worlds with the same sums -/

namespace SameSums

variable {w w' w'' : World}

theorem trans (h₁ : SameSums w w') (h₂ : SameSums w' w'') : SameSums w w'' :=
  ⟨h₂.treasury.trans h₁.treasury, h₂.stats.trans h₁.stats, h₂.dice.trans h₁.dice⟩

theorem adjustStat (h : SameSums w w') (actor : CharacterId) (c : StatChange) :
    SameSums (w.adjustStat actor c) (w'.adjustStat actor c) where
  treasury := h.treasury
  stats := by
    have hstat : w'.cast.stat actor c.stat = w.cast.stat actor c.stat := by
      rw [Cast.stat, h.stats]
      rfl
    show (_ :: _ : List ((CharacterId × Stat) × Int)) = _ :: _
    rw [hstat, h.stats]
  dice := h.dice

theorem applyOne (h : SameSums w w') (actor : CharacterId) (e : Effect) :
    SameSums (w.applyOne actor e).1 (w'.applyOne actor e).1 := by
  unfold World.applyOne
  cases e.resourceDelta with
  | some p => exact ⟨congrArg (·.adjust p.1 p.2) h.treasury, h.stats, h.dice⟩
  | none =>
    cases e.statChange with
    | none => exact h
    | some c =>
      dsimp only
      unfold World.applyStat
      cases c.chance with
      | none => exact h.adjustStat actor c
      | some chance =>
        dsimp only
        rw [h.dice]
        have hrolled : SameSums { w with dice := w.dice.roll.2 }
            { w' with dice := w.dice.roll.2 } :=
          ⟨h.treasury, h.stats, rfl⟩
        split
        · exact hrolled.adjustStat actor c
        · exact hrolled

/-- The same effects keep the sums of two worlds the same. -/
theorem post (h : SameSums w w') (effects : List (CharacterId × Effect)) :
    SameSums (w.post effects) (w'.post effects) := by
  induction effects generalizing w w' with
  | nil => exact h
  | cons p rest ih => exact ih (h.applyOne p.1 p.2)

end SameSums

/-! ## The ledger -/

/-- The action event that an output publishes. -/
def Output.event? : Output → Option ActionEvent
  | .publish (.action event) => some event
  | _ => none

theorem Output.event?_of_isHourly {o : Output} (h : o.isHourly) : o.event? = none := by
  obtain rfl | rfl | ⟨_, rfl⟩ := cases_of_isHourly h <;> rfl

/-- All action events that some outputs publish, in order. -/
def log (outputs : List Output) : List ActionEvent := outputs.filterMap Output.event?

/-- The list of effects of a template that is applied. -/
def Template.list (t : Template) : Application → List Effect
  | .costs => t.costs
  | .effects => t.effects

namespace ActionEvent

/-- The deed that an event charges for, and with which list: costs for each cycle that begins,
effects for each that is over. -/
def charges? : ActionEvent → Option (DeedId × Application)
  | .started deed .. => some (deed, .costs)
  | .repeated deed _ => some (deed, .costs)
  | .completed deed .. => some (deed, .effects)
  | _ => none

/-- As which action and by whom the deed was started, if the event is the news of that. -/
def start? (id : DeedId) : ActionEvent → Option (String × CharacterId)
  | .started deed action actor _ _ => if deed = id then some (action, actor) else none
  | _ => none

end ActionEvent

/-- As which action and by whom a deed was started, as some events tell it. -/
def start? (events : List ActionEvent) (id : DeedId) : Option (String × CharacterId) :=
  events.findSome? (·.start? id)

/-- What an event charges, and whom: the list of the action as which the deed was started, on behalf
of the actor who started it. -/
def charge (catalog : Catalog) (events : List ActionEvent) (event : ActionEvent) :
    Option (CharacterId × List Effect) :=
  event.charges?.bind fun (id, what) => (start? events id).bind fun (action, actor) =>
    (catalog.get? action).map fun t => (actor, t.list what)

/-- All that some events charge, in order. -/
def ledger (catalog : Catalog) (events : List ActionEvent) : List (CharacterId × List Effect) :=
  events.filterMap (charge catalog events)

theorem log_append (xs ys : List Output) : log (xs ++ ys) = log xs ++ log ys :=
  List.filterMap_append

/-- The events and the account of a deed tell the same of its start. -/
theorem start?_log (outputs : List Output) (id : DeedId) :
    start? (log outputs) id = (account id outputs).starts.head? := by
  rw [start?, ← List.head?_filterMap, log, List.filterMap_filterMap]
  refine congrArg (fun f => (outputs.filterMap f).head?) (funext fun o => ?_)
  cases o with
  | publish event => cases event with
    | action event => cases event <;> rfl
    | tracker => rfl
  | _ => rfl

/-- What is told of the start of a deed is told by the news of it. -/
theorem mem_of_start? {events : List ActionEvent} {id : DeedId} {action : String}
    {actor : CharacterId} (h : start? events id = some (action, actor)) :
    ∃ target mode, .started id action actor target mode ∈ events := by
  obtain ⟨event, hevent, hstart⟩ := List.exists_of_findSome?_eq_some h
  cases event with
  | started deed action' actor' target mode =>
    obtain ⟨rfl, heq⟩ := Option.ite_none_right_eq_some.1 hstart
    cases heq
    exact ⟨target, mode, hevent⟩
  | _ => cases hstart

/-- What is charged by an event whose deed was started. -/
theorem charge_eq_some {catalog : Catalog} {events : List ActionEvent} {event : ActionEvent}
    {id : DeedId} {what : Application} {t : Template} {actor : CharacterId}
    (hcharges : event.charges? = some (id, what)) (hstart : start? events id = some (t.name, actor))
    (ht : catalog.get? t.name = some t) :
    charge catalog events event = some (actor, t.list what) := by
  rw [charge, hcharges]
  show (start? events id).bind _ = _
  rw [hstart]
  show (catalog.get? t.name).map _ = _
  rw [ht]
  rfl

/-- Later events change nothing for a deed that was started. -/
theorem start?_append {xs ys : List ActionEvent} {id : DeedId} {p : String × CharacterId}
    (h : start? xs id = some p) : start? (xs ++ ys) id = some p := by
  rw [start?, List.findSome?_append]
  exact Option.or_eq_some_iff.2 (.inl h)

/-- An event that charges nothing is not in the ledger. -/
theorem charge_eq_none {catalog : Catalog} {events : List ActionEvent} {event : ActionEvent}
    (h : event.charges? = none) : charge catalog events event = none := by
  rw [charge, h]
  rfl

/-- Events that charge one deed only charge its lists to its actor. -/
theorem filterMap_charge {catalog : Catalog} {all events : List ActionEvent} {id : DeedId}
    {t : Template} {actor : CharacterId}
    (hown : ∀ p ∈ events.filterMap ActionEvent.charges?, p.1 = id)
    (hstart : start? all id = some (t.name, actor)) (ht : catalog.get? t.name = some t) :
    events.filterMap (charge catalog all)
      = (events.filterMap ActionEvent.charges?).map fun p => (actor, t.list p.2) := by
  rw [List.map_filterMap]
  refine List.filterMap_congr fun event hevent => ?_
  cases hcharges : event.charges? with
  | none => exact charge_eq_none hcharges
  | some p =>
    have hp : p.1 = id := hown p (List.mem_filterMap.2 ⟨event, hevent, hcharges⟩)
    exact charge_eq_some hcharges (hp ▸ hstart) ht

/-- The applications among some outputs are those in the ledger of their events, and only deeds that
were started are charged for. -/
structure Kept (catalog : Catalog) (said : List Output) : Prop where
  started : ∀ event ∈ log said, ∀ id what, event.charges? = some (id, what) →
    ∃ t actor, catalog.get? t.name = some t ∧ start? (log said) id = some (t.name, actor)
  applications : said.filterMap Output.application? = ledger catalog (log said)

/-- What some events charge stays in the ledger as it is. -/
theorem Kept.filterMap_charge_append {catalog : Catalog} {said : List Output}
    (h : Kept catalog said) (more : List ActionEvent) :
    (log said).filterMap (charge catalog (log said ++ more)) = ledger catalog (log said) := by
  refine List.filterMap_congr fun event hevent => ?_
  cases hcharges : event.charges? with
  | none => rw [charge_eq_none hcharges, charge_eq_none hcharges]
  | some p =>
    obtain ⟨t, actor, ht, hstart⟩ := h.started event hevent p.1 p.2 hcharges
    rw [charge_eq_some hcharges hstart ht, charge_eq_some hcharges (start?_append hstart) ht]

/-- All applications among some outputs are for one deed, and the events charge for each of them in
turn. -/
structure Tallies (id : DeedId) (t : Template) (actor : CharacterId) (outputs : List Output) :
    Prop where
  own : ∀ p ∈ (log outputs).filterMap ActionEvent.charges?, p.1 = id
  applications : outputs.filterMap Output.application?
    = ((log outputs).filterMap ActionEvent.charges?).map fun p => (actor, t.list p.2)

/-- Nothing is applied, and nothing is charged for. -/
structure Free (outputs : List Output) : Prop where
  charges : (log outputs).filterMap ActionEvent.charges? = []
  applications : outputs.filterMap Output.application? = []

section Free

variable {xs ys : List Output} {id : DeedId} {t : Template} {actor : CharacterId}

theorem Free.append (h₁ : Free xs) (h₂ : Free ys) : Free (xs ++ ys) where
  charges := by rw [log_append, List.filterMap_append, h₁.charges, h₂.charges]; rfl
  applications := by rw [List.filterMap_append, h₁.applications, h₂.applications]; rfl

theorem Tallies.append_free (h₁ : Tallies id t actor xs) (h₂ : Free ys) :
    Tallies id t actor (xs ++ ys) := by
  refine ⟨?_, ?_⟩
  · rw [log_append, List.filterMap_append, h₂.charges, List.append_nil]
    exact h₁.own
  · rw [log_append, List.filterMap_append, List.filterMap_append, h₂.charges, h₂.applications,
      List.append_nil, List.append_nil]
    exact h₁.applications

theorem free_of_isHourly (h : ∀ o ∈ xs, o.isHourly) : Free xs := by
  have hlog : log xs = [] :=
    List.filterMap_eq_nil_iff.2 fun o ho => o.event?_of_isHourly (h o ho)
  refine ⟨by rw [hlog]; rfl, ?_⟩
  exact List.filterMap_eq_nil_iff.2 fun o ho => o.application?_of_isHourly (h o ho)

end Free

namespace Engine

variable {e e' : Engine} {f : Option Finding} {g : Finding} {id : DeedId} {outputs : List Output}
  {a : Account} {P : Finding → Prop}

/-- In every transition nothing is applied and nothing charged, or as much as is charged for its
deed, which was started by then. -/
theorem Transition.tallies (hs : e.Sound) (ha : Booked e id a) (h : Transition e f id outputs e') :
    Free outputs ∨ ∃ t actor, e.catalog.get? t.name = some t ∧
      (a.add (account id outputs)).starts.head? = some (t.name, actor) ∧
      Tallies id t actor outputs := by
  cases h with
  | refuse => exact .inl ⟨rfl, rfl⟩
  | enter => exact .inl ⟨rfl, rfl⟩
  | fire => exact .inl ⟨rfl, rfl⟩
  | acknowledge => exact .inl ⟨rfl, rfl⟩
  | close => exact .inl ⟨rfl, rfl⟩
  | unsubscribe => exact .inl (free_of_isHourly fun _ => isHourly_of_mem_unsubscribe)
  | ignore => exact .inl ⟨rfl, rfl⟩
  | reject => exact .inl ⟨rfl, rfl⟩
  | bind => exact .inl ⟨rfl, rfl⟩
  | @finish i v d actor hi hmet hd hactor hm =>
    have hid : d.id = i.deed.id := by rw [hd]; rfl
    have htemplate : d.template = i.deed.template := by rw [hd]; rfl
    refine .inr ⟨d.template, actor, ?_, ?_, ?_, rfl⟩
    · rw [htemplate]
      exact hs.template _ (Sound.deed_mem hi)
    · rw [ha.of_pending hs hi rfl, account_finish hid]
      rfl
    · exact List.forall_mem_cons.2 ⟨hid, List.forall_mem_singleton.2 hid⟩
  | @track i v d actor hi hmet hd hactor hm =>
    have hid : d.id = i.deed.id := by rw [hd]; rfl
    have htemplate : d.template = i.deed.template := by rw [hd]; rfl
    have hpaid : Tallies i.deed.id d.template actor [.apply d.id actor .costs d.template.costs,
        .publish (.action (.started d.id d.name actor d.target d.mode))] :=
      ⟨List.forall_mem_singleton.2 hid, rfl⟩
    have hfree : Free [.answer i.call (.ok (.ofDeed d.start actor))] := ⟨rfl, rfl⟩
    refine .inr ⟨d.template, actor, ?_, ?_, ?_⟩
    · rw [htemplate]
      exact hs.template _ (Sound.deed_mem hi)
    · rw [ha.of_pending hs hi rfl, account_track hid fun _ => isHourly_of_mem_enrol]
      rfl
    · exact hpaid.append_free ((free_of_isHourly fun _ => isHourly_of_mem_enrol).append hfree)
  | progress => exact .inl ⟨rfl, rfl⟩
  | @complete d d' rate current actor hour hd hadvance hactor hm =>
    obtain ⟨hcharged, -⟩ := ha.of_deed hs hd hactor
    have hdone : Tallies d.id d.template actor
        [.publish (.action (.progressed d.id hour current d.template.progressIndicator)),
          .apply d.id actor .effects d.template.effects,
          .publish (.action (.completed d.id d.name d.target (some hour)))] :=
      ⟨List.forall_mem_singleton.2 rfl, rfl⟩
    refine .inr ⟨d.template, actor, hcharged.template, ?_, ?_⟩
    · rw [Account.add, hcharged.starts]
      rfl
    · exact hdone.append_free (free_of_isHourly fun _ => isHourly_of_mem_unsubscribeIfIdle)
  | completeCycle hour hd hadvance hactor hm =>
    obtain ⟨hcharged, -⟩ := ha.of_deed hs hd hactor
    refine .inr ⟨_, _, hcharged.template, ?_, List.forall_mem_singleton.2 rfl, rfl⟩
    rw [Account.add, hcharged.starts]
    rfl
  | restart hd hp hmet hactor =>
    obtain ⟨hcharged, -⟩ := ha.of_deed hs hd hactor
    refine .inr ⟨_, _, hcharged.template, ?_, List.forall_mem_singleton.2 rfl, rfl⟩
    rw [Account.add, hcharged.starts]
    rfl
  | @cancel f d reason hd =>
    have hfree : Free [.publish (.action (.cancelled d.id d.name d.target reason))] := ⟨rfl, rfl⟩
    exact .inl (hfree.append (free_of_isHourly fun _ => isHourly_of_mem_unsubscribeIfIdle))

/-- A transition keeps the ledger. -/
theorem Transition.kept {catalog : Catalog} {said : List Output} (hs : e.Sound)
    (hcatalog : e.catalog = catalog) (ha : Booked e id (account id said))
    (hkept : Kept catalog said) (h : Transition e f id outputs e') :
    Kept catalog (said ++ outputs) := by
  have hold : ∀ event ∈ log said, ∀ id what, event.charges? = some (id, what) →
      ∃ t actor, catalog.get? t.name = some t ∧
        start? (log said ++ log outputs) id = some (t.name, actor) := by
    intro event hevent id what hcharges
    obtain ⟨t, actor, ht, hstart⟩ := hkept.started event hevent id what hcharges
    exact ⟨t, actor, ht, start?_append hstart⟩
  -- the old events charge what they did; the new ones charge nothing, or one deed that was started
  rcases h.tallies hs ha with hfree | ⟨t, actor, ht, hstart, htallies⟩
  · have hnone : ∀ event ∈ log outputs, event.charges? = none :=
      List.filterMap_eq_nil_iff.1 hfree.charges
    refine ⟨?_, ?_⟩
    · rw [log_append]
      intro event hevent id what hcharges
      rcases List.mem_append.1 hevent with hevent | hevent
      · exact hold event hevent id what hcharges
      · rw [hnone event hevent] at hcharges
        cases hcharges
    · rw [List.filterMap_append, hfree.applications, hkept.applications, log_append, ledger,
        ledger, List.filterMap_append, hkept.filterMap_charge_append,
        List.filterMap_eq_nil_iff.2 fun event hevent => charge_eq_none (hnone event hevent)]
      rfl
  · have hstart' : start? (log said ++ log outputs) id = some (t.name, actor) := by
      rw [← log_append, start?_log, account_append]
      exact hstart
    rw [hcatalog] at ht
    refine ⟨?_, ?_⟩
    · rw [log_append]
      intro event hevent j what hcharges
      rcases List.mem_append.1 hevent with hevent | hevent
      · exact hold event hevent j what hcharges
      · obtain rfl : j = id := htallies.own _ (List.mem_filterMap.2 ⟨event, hevent, hcharges⟩)
        exact ⟨t, actor, ht, hstart'⟩
    · rw [List.filterMap_append, htallies.applications, hkept.applications, log_append,
        ← filterMap_charge htallies.own hstart' ht, ← hkept.filterMap_charge_append (log outputs),
        ← List.filterMap_append]
      rfl

/-- In every chain from an engine without deeds the applications are those in the ledger. -/
theorem kept_of_chain {catalog : Catalog} (h : Chain (Taking P) (ofCatalog catalog) outputs e) :
    Kept catalog outputs := by
  refine (history_of_chain (Q := fun said e => (e.catalog = catalog ∧
    ∀ id, Booked e id (account id said)) ∧ Kept catalog said) ?_ (sound_ofCatalog catalog) ?_ h).2
  · rintro said e f id outputs e' hs ⟨⟨hcatalog, hbooked⟩, hkept⟩ - ht
    refine ⟨⟨(ht.sameOthers hs).catalog.trans hcatalog, fun j => ?_⟩,
      ht.kept hs hcatalog (hbooked id) hkept⟩
    rw [account_append]
    exact (hbooked j).transition hs ht
  · exact ⟨⟨rfl, fun _ => .unstarted List.not_mem_nil rfl⟩, fun _ h => (nomatch h), rfl⟩

/-- A pending deed with an actor is being checked. -/
theorem Sound.verifying_of_actor {i : Invocation} {actor : CharacterId} (hs : e.Sound)
    (hi : i ∈ e.pending) (h : i.deed.actor = some actor) : i.deed.phase = .verifying := by
  rcases (hs.starting i hi).1 with ⟨-, hnone⟩ | ⟨hphase, -⟩
  · rw [h] at hnone
    cases hnone
  · exact hphase

/-- Of findings, only a met verdict charges, if its deed waits for it. -/
theorem Transition.of_charges (hs : e.Sound) (h : Transition e (some g) id outputs e')
    {event : ActionEvent} (hevent : event ∈ log outputs) (hcharges : event.charges?.isSome) :
    e.Awaits g.deed g.stage ∧ ∃ v, g.verdict? = some v ∧ v.isMet := by
  have absurd_of_free {p : Prop} (hfree : Free outputs) : p := by
    rw [List.filterMap_eq_nil_iff.1 hfree.charges event hevent] at hcharges
    cases hcharges
  cases h with
  | ignore => exact absurd_of_free ⟨rfl, rfl⟩
  | reject => exact absurd_of_free ⟨rfl, rfl⟩
  | bind => exact absurd_of_free ⟨rfl, rfl⟩
  | finish hi hmet hd ha => exact ⟨⟨_, hi, rfl, hs.verifying_of_actor hi (hd ▸ ha)⟩, _, rfl, hmet⟩
  | track hi hmet hd ha => exact ⟨⟨_, hi, rfl, hs.verifying_of_actor hi (hd ▸ ha)⟩, _, rfl, hmet⟩
  | restart hd hp hmet => exact ⟨⟨_, hd, rfl, hp⟩, _, rfl, hmet⟩
  | @cancel f d reason hd =>
    have hfree : Free [.publish (.action (.cancelled d.id d.name d.target reason))] := ⟨rfl, rfl⟩
    exact absurd_of_free (hfree.append (free_of_isHourly fun _ =>
      isHourly_of_mem_unsubscribeIfIdle))

end Engine

namespace System

variable {s : System} {m : Move} {moves : List Move}

/-! ## Moves that charge -/

theorem invoke_free (e : Engine) (call : CallId) (name : String) (target : Target) (token : Token) :
    Free (e.invoke call name target token).2 := by
  unfold Engine.invoke
  cases e.catalog.instantiate e.nextId name target <;> exact ⟨rfl, rfl⟩

theorem stop_free (e : Engine) (id : DeedId) : Free (e.stop id).2 := by
  unfold Engine.stop
  cases e.pending? id with
  | some i => exact ⟨rfl, rfl⟩
  | none =>
    cases e.tracker.find? id with
    | none => exact ⟨rfl, rfl⟩
    | some d =>
      have hcancelled : Free [.publish (.action (.cancelled d.id d.name d.target .stopped))] :=
        ⟨rfl, rfl⟩
      have hanswered : Free [.acknowledge id (.ok ())] := ⟨rfl, rfl⟩
      exact (hcancelled.append (free_of_isHourly fun _ =>
        Engine.isHourly_of_mem_unsubscribeIfIdle)).append hanswered

/-- Only an hour and a met verdict that its deed waits for charge anything. -/
theorem of_charges (hs : s.Sound) {event : ActionEvent} (hevent : event ∈ log (s.step m).2)
    (hcharges : event.charges?.isSome) :
    m = .takeTick ∨ ∃ f v, s.taken? m = some f ∧ s.engine.Awaits f.deed f.stage ∧
      f.verdict? = some v ∧ v.isMet := by
  have absurd_of_free {p : Prop} (hfree : Free (s.step m).2) : p := by
    rw [List.filterMap_eq_nil_iff.1 hfree.charges event hevent] at hcharges
    cases hcharges
  cases m with
  | invoke call name target token =>
    exact absurd_of_free (invoke_free s.engine call name target token)
  | stop id => exact absurd_of_free (stop_free s.engine id)
  | take index =>
    cases hindex : s.finished[index]? with
    | none =>
      rw [step, take_of_none hindex] at hevent
      cases hevent
    | some f =>
      obtain ⟨hawaits, v, hv, hmet⟩ :=
        (transition_of_finding hs (m := .take index) hindex).of_charges hs.sound hevent hcharges
      exact .inr ⟨f, v, hindex, hawaits, hv, hmet⟩
  | takeTick => exact .inl rfl
  | _ => cases hevent

/-! ## The sums of the world -/

/-- Nothing but the engine changes balances, stats and dice. -/
def KeepsSums (s : System) : List Move → Prop
  | [] => True
  | m :: rest => (∀ w, m = .outside w → SameSums s.world w) ∧ KeepsSums (s.step m).1 rest

/-- So it is when nothing happens outside. -/
theorem keepsSums_of_not_outside (h : ∀ w, .outside w ∉ moves) : s.KeepsSums moves := by
  induction moves generalizing s with
  | nil => trivial
  | cons m rest ih =>
    refine ⟨fun w hm => absurd List.mem_cons_self (hm ▸ h w), ih fun w hmem => ?_⟩
    exact h w (List.mem_cons_of_mem _ hmem)

theorem applied_eq_post (w : World) (applications : List (CharacterId × List Effect)) :
    applied w applications = w.post (entries applications) := by
  induction applications generalizing w with
  | nil => rfl
  | cons p rest ih =>
    show applied (w.applyAll p.1 p.2).1 rest = w.post (p.2.map (fun e => (p.1, e)) ++ entries rest)
    rw [ih, World.applyAll_eq_post, World.post_append]

/-- A move that hands nothing to the engine keeps the sums. -/
theorem sums_unheard (h : s.input? m = none) (hm : ∀ w, m = .outside w → SameSums s.world w) :
    SameSums s.world (s.step m).1.world := by
  cases m with
  | invoke => cases h
  | stop => cases h
  | poll deed => exact .of_eq (poll_world s deed)
  | answer deed => exact answer_world s deed
  | expire deed => exact .of_eq (expire_world s deed)
  | take index =>
    rw [step, take_of_none (Option.map_eq_none_iff.1 h)]
    exact .refl _
  | takeTick =>
    obtain ⟨ticks, hfst⟩ := readClock_fst (s := s)
    have htake : s.step .takeTick = (s.readClock.1, []) := by
      show s.takeTick = _
      unfold takeTick
      dsimp only
      rw [show s.readClock.2 = none from h]
      rfl
    rw [htake, hfst]
    exact .refl _
  | advanceClock =>
    show SameSums s.world s.advanceClock.world
    unfold advanceClock
    split <;> exact .refl _
  | outside w => exact hm w rfl
  | fire => exact .refl _
  | lose => exact .refl _
  | closeClock => exact .refl _

/-- After a move the world has the sums that its applications make. -/
theorem sums_step (hm : ∀ w, m = .outside w → SameSums s.world w) :
    SameSums (s.world.post (entries ((s.step m).2.filterMap Output.application?)))
      (s.step m).1.world := by
  cases hinput : s.input? m with
  | some input =>
    rw [world_of_input hinput, applied_eq_post]
    exact .refl _
  | none =>
    rw [(unheard_of_none hinput).outputs]
    exact sums_unheard hinput hm

/-- So it is after any moves. -/
theorem sums_run (h : s.KeepsSums moves) :
    SameSums (s.world.post (entries ((s.run moves).2.filterMap Output.application?)))
      (s.run moves).1.world := by
  induction moves generalizing s with
  | nil => exact .refl _
  | cons m rest ih =>
    show SameSums (s.world.post (entries (((s.step m).2 ++ ((s.step m).1.run rest).2).filterMap
      Output.application?))) ((s.step m).1.run rest).1.world
    rw [List.filterMap_append, entries_append, World.post_append]
    exact ((sums_step h.1).post _).trans (ih h.2)

/-- A further move applies what its own events charge. -/
theorem charged_step {catalog : Catalog} (hs : s.Sound) (hengine : s.engine = .ofCatalog catalog)
    (moves : List Move) (m : Move) :
    let said := ((s.run moves).1.step m).2
    said.filterMap Output.application?
      = (log said).filterMap (charge catalog (log (s.run moves).2 ++ log said)) := by
  intro said
  have kept (xs : List Move) : Kept catalog (s.run xs).2 :=
    Engine.kept_of_chain (hengine ▸ chain_of_run hs xs)
  have hlonger := (kept (moves ++ [m])).applications
  rw [run_concat, List.filterMap_append, (kept moves).applications, log_append, ledger, ledger,
    List.filterMap_append, (kept moves).filterMap_charge_append] at hlonger
  exact List.append_cancel_left hlonger

/-- After any moves, in any order, when nothing but the engine changes balances, stats and dice:
* each balance is the one at the start and the sum of the signed changes in the ledger of all events
  so far, at 64 bits: of the costs of its template for each start and each further cycle of a deed,
  of the effects for each completion; the treasury was adjusted once for each change of a resource
  in there;
* without chance, each stat of a character is the one at the start and the sum of the signed changes
  in the ledger on behalf of that character, who is named by the news of the start; with chance, the
  world has the sums that the effects of the ledger make when they are applied in order;
* every event that charges is in the ledger: its deed was started as an action of the catalog;
* every further move changes the sums by what its own events charge, and by nothing else: it charges
  only as an hour, or with a met verdict that its deed waits for. -/
theorem ledger_complete (catalog : Catalog) (world : World) (clock : Clock) (bus : Bus)
    (moves : List Move) (h : (ofParts catalog world clock bus).KeepsSums moves) :
    let s := ((ofParts catalog world clock bus).run moves).1
    let outputs := ((ofParts catalog world clock bus).run moves).2
    let events := log outputs
    let book := entries (ledger catalog events)
    (∀ r, s.world.treasury.balance r = .ofInt ((world.treasury.balance r).toInt
      + (book.map fun (_, e) => (e.change r).toInt).sum)) ∧
    s.world.treasury.adjustments
      = world.treasury.adjustments + book.countP (·.2.resourceDelta.isSome) ∧
    ((∀ p ∈ book, p.2.isGated = false) → ∀ a stat, s.world.cast.stat a stat
      = world.cast.stat a stat
        + (book.map fun (actor, e) => if actor = a then e.statDelta stat else 0).sum) ∧
    SameSums (world.post book) s.world ∧
    (∀ event ∈ events, ∀ id what, event.charges? = some (id, what) →
      ∃ t actor target mode, catalog.get? t.name = some t ∧
        .started id t.name actor target mode ∈ events ∧
        charge catalog events event = some (actor, t.list what)) ∧
    ∀ m, (∀ w, m = .outside w → SameSums s.world w) →
      let said := log (s.step m).2
      SameSums (s.world.post (entries (said.filterMap (charge catalog (events ++ said)))))
        (s.step m).1.world ∧
      ((∀ event ∈ said, event.charges? = none) → SameSums s.world (s.step m).1.world) ∧
      ∀ event ∈ said, event.charges?.isSome → m = .takeTick ∨
        ∃ f v, s.taken? m = some f ∧ s.engine.Awaits f.deed f.stage ∧ f.verdict? = some v ∧
          v.isMet := by
  intro s outputs events book
  have hsound := sound_ofParts catalog world clock bus
  have hs : s.Sound := run_sound hsound moves
  have hkept : Kept catalog outputs := Engine.kept_of_chain (chain_of_run hsound moves)
  have hbook : entries (outputs.filterMap Output.application?) = book :=
    congrArg entries hkept.applications
  have hsums : SameSums (world.post book) s.world := by
    rw [← hbook]
    exact sums_run h
  refine ⟨fun r => ?_, ?_, fun hgated a stat => ?_, hsums, fun event hevent id what hcharges => ?_,
    fun m hm => ?_⟩
  · rw [hsums.treasury, World.balance_post]
  · rw [hsums.treasury, World.adjustments_post]
  · rw [← World.stat_post world hgated, Cast.stat, Cast.stat, hsums.stats]
  · obtain ⟨t, actor, ht, hstart⟩ := hkept.started event hevent id what hcharges
    obtain ⟨target, mode, hstarted⟩ := mem_of_start? hstart
    exact ⟨t, actor, target, mode, ht, hstarted, charge_eq_some hcharges hstart ht⟩
  · intro said
    have hcharged := charged_step hsound rfl moves m
    have hstep := sums_step hm
    rw [hcharged] at hstep
    refine ⟨hstep, fun hnone => ?_, fun event hevent hcharges => of_charges hs hevent hcharges⟩
    rwa [List.filterMap_eq_nil_iff.2 fun x hx => charge_eq_none (hnone x hx)] at hstep

/-! ## A watch -/

/-- A choice is queued; then the watch is kept for an hour, and its second cycle begins. -/
def keepWatch : List Move :=
  .outside { watchWorld with cast := watchWorld.cast.queue (.chosen ⟨2⟩) }
    :: (beginWatch ++ [.advanceClock, .takeTick, .poll ⟨1⟩, .take 0])

/-- Two cycles of the watch were paid for and one is over: so say the events, and so it is. -/
theorem ledger_of_watch :
    let s := (watchtower.run keepWatch).1
    let events := log (watchtower.run keepWatch).2
    watchtower.KeepsSums keepWatch ∧
      ledger watchCatalog events
        = [(⟨1⟩, watch.costs), (⟨1⟩, watch.effects), (⟨1⟩, watch.costs)] ∧
      s.world.treasury = ⟨6, 1, 3⟩ := by
  intro s events
  have hkeeps : watchtower.KeepsSums keepWatch := by
    refine ⟨fun w hm => ?_, keepsSums_of_not_outside fun w hmem => ?_⟩
    · cases hm
      exact ⟨rfl, rfl, rfl⟩
    · simp [beginWatch, callWatch] at hmem
  have hledger : ledger watchCatalog events
      = [(⟨1⟩, watch.costs), (⟨1⟩, watch.effects), (⟨1⟩, watch.costs)] := by decide +kernel
  obtain ⟨hbalance, hadjustments, -⟩ :=
    ledger_complete watchCatalog watchWorld (.ofCapacity 4) (.ofCapacity 4) keepWatch hkeeps
  refine ⟨hkeeps, hledger, ?_⟩
  have hmoney : s.world.treasury.money = 6 := by
    rw [show s.world.treasury.money = _ from hbalance .money]
    decide +kernel
  have hinfluence : s.world.treasury.influence = 1 := by
    rw [show s.world.treasury.influence = _ from hbalance .influence]
    decide +kernel
  have hcount : s.world.treasury.adjustments = 3 := by
    rw [show s.world.treasury.adjustments = _ from hadjustments]
    decide +kernel
  rw [← hmoney, ← hinfluence, ← hcount]

end System

end Deeds
