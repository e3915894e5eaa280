import Deeds.Proofs.Engine.Frame

/-!
# Where live deeds come from

A deed is live after a transition because it was so before, or because of what the transition did to
it. What holds of each live deed by itself is kept by all transitions if it is kept from the origins
to the deeds.

* `Engine.PendingOrigin`, `Engine.TrackedOrigin` : the origins of pending and of tracked deeds;
* `Transition.origins` : every live deed has one.
-/

namespace Deeds

namespace Engine

variable {e e' : Engine} {f : Option Finding} {id : DeedId} {outputs : List Output}
  {p : Option Invocation} {t : Option Deed}

/-- Where a pending invocation after a transition comes from. -/
inductive PendingOrigin (e : Engine) : Invocation → Prop
  | kept {i : Invocation} (hi : i ∈ e.pending) : PendingOrigin e i
  | entered {t : Template} (target : Target) (token : Token) (call : CallId)
      (ht : e.catalog.get? t.name = some t) :
      PendingOrigin e ⟨.ofTemplate e.nextId t target, token, call⟩
  | bound {i : Invocation} {actor : CharacterId} {d : Deed} (hi : i ∈ e.pending)
      (hd : i.deed.assign? actor = some d) : PendingOrigin e { i with deed := d }

/-- Where a tracked deed after a transition comes from. -/
inductive TrackedOrigin (e : Engine) (f : Option Finding) : Deed → Prop
  | kept {d : Deed} (hd : d ∈ e.tracker.deeds) : TrackedOrigin e f d
  | begun {i : Invocation} {v : Verdict} (hi : i ∈ e.pending)
      (hf : f = some (.verified i.deed.id (.checked v))) (hmet : v.isMet)
      (hm : i.deed.mode ≠ .immediate) :
      TrackedOrigin e f (i.deed.recordVerification v.conditions true).start
  | progressed {d d' : Deed} {rate current : Binary32} (hd : d ∈ e.tracker.deeds)
      (ha : d.advance rate = (d', .progressed current)) : TrackedOrigin e f d'
  | completed {d d' : Deed} {rate current : Binary32} (hd : d ∈ e.tracker.deeds)
      (ha : d.advance rate = (d', .completed current)) : TrackedOrigin e f d'.beginReverification
  | restarted {d : Deed} {v : Verdict} (hd : d ∈ e.tracker.deeds) (hp : d.phase = .reverifying)
      (hf : f = some (.reverified d.id (.checked v))) (hmet : v.isMet) :
      TrackedOrigin e f (d.recordVerification v.conditions true).restart

/-- All live deeds come from somewhere. -/
structure Origins (e : Engine) (f : Option Finding) (e' : Engine) : Prop where
  pending : ∀ i ∈ e'.pending, PendingOrigin e i
  tracked : ∀ d ∈ e'.tracker.deeds, TrackedOrigin e f d

theorem SameDeeds.origins (h : SameDeeds e e') : Origins e f e' where
  pending i hi := .kept (by rwa [← h.pending])
  tracked d hd := .kept (by rwa [← h.tracked])

/-- After a change of one deed, only that deed has to be looked at. -/
theorem Sound.Update.origins (h : Sound.Update e id p t e')
    (hp : ∀ i, p = some i → PendingOrigin e i) (ht : ∀ d, t = some d → TrackedOrigin e f d) :
    Origins e f e' where
  pending i hi := by
    rcases (h.mem_pending i).1 hi with hold | hnew
    · exact .kept hold.1
    · exact hp i hnew
  tracked d hd := by
    rcases (h.mem_tracked d).1 hd with hold | hnew
    · exact .kept hold.1
    · exact ht d hnew

theorem Transition.origins (hs : e.Sound) (h : Transition e f id outputs e') : Origins e f e' := by
  have gone {id : DeedId} (hup : Sound.Update e id none none e') : Origins e f e' :=
    hup.origins (fun _ h => nomatch h) fun _ h => nomatch h
  have tracked {id : DeedId} {d : Deed} (hup : Sound.Update e id none (some d) e')
      (hd : TrackedOrigin e f d) : Origins e f e' :=
    hup.origins (fun _ h => nomatch h) fun _ h => by cases h; exact hd
  have pending {id : DeedId} {i : Invocation} (hup : Sound.Update e id (some i) none e')
      (hi : PendingOrigin e i) : Origins e f e' :=
    hup.origins (fun _ h => by cases h; exact hi) fun _ h => nomatch h
  cases h with
  | refuse => exact (SameDeeds.refl e).origins
  | enter call token h =>
    have hup := update_enter hs call token h
    obtain ⟨t, ht, -, rfl⟩ := Catalog.instantiate_eq_some h
    exact pending hup (.entered _ token call ht)
  | fire => exact (SameDeeds.refl e).origins
  | acknowledge => exact (SameDeeds.refl e).origins
  | close => exact (SameDeeds.refl e).origins
  | unsubscribe => exact sameDeeds_unsubscribe.origins
  | ignore => exact (SameDeeds.refl e).origins
  | reject error hi => exact gone (update_dropPending hs hi rfl rfl)
  | bind hi hfree hd => exact pending (update_bind hs hi hfree hd) (.bound hi hd)
  | finish hi hmet hd => exact gone (update_finish hs hi hd)
  | track hi hmet hd ha hm =>
    have hup := update_track hs hi hd ha hm
    subst hd
    exact tracked hup (.begun hi rfl hmet hm)
  | progress hour hd ha => exact tracked (update_progress hs hd ha) (.progressed hd ha)
  | complete hour hd => exact gone (update_dropTracked hs hd)
  | completeCycle hour hd ha hactor hm =>
    exact tracked (update_completeCycle hs hd ha hm) (.completed hd ha)
  | @restart d v actor hd hp hmet =>
    exact tracked (update_restart hs hd v.conditions) (.restarted hd hp rfl hmet)
  | cancel hd => exact gone (update_dropTracked hs hd)

end Engine

end Deeds
