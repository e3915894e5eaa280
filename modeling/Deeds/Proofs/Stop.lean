import Deeds.Proofs.System.Sound

/-!
# What a stop ends

A tracked deed is dropped at once. A pending one only has its token fired, and ends when its
question is looked at next; a check that is over by then, and is met, starts the deed all the same.

* `Engine.Ending` : a deed that is gone, or pending with a token that was fired;
* `System.Stopped` : such a deed, if no met check of it is over;
* `Stopped.run` : it does not advance, whatever happens later;
* `System.stop_iff` : after any moves, a stop is final exactly when no met check is over.
-/

namespace Deeds

open Engine (Taking Transition)

namespace Engine

variable {e e' : Engine} {f : Option Finding} {id j : DeedId} {outputs : List Output}

/-- A deed that can only end: it is gone, or its token was fired while it was pending. -/
def Ending (e : Engine) (fired : List Token) (id : DeedId) : Prop :=
  e.Gone id ∨ ∃ i ∈ e.pending, i.deed.id = id ∧ i.token ∈ fired

/-- A finding ends a pending deed or keeps it pending under its token, unless its check is met. -/
theorem Transition.ending (hs : e.Sound) (h : Transition e f j outputs e') {fired : List Token}
    (hid : e.Ending fired id) (hf : ∀ g, f = some g → ¬ g.starts id) : e'.Ending fired id := by
  rcases hid with hg | ⟨i, hi, hid, htoken⟩
  · exact .inl (hg.transition hs h)
  · by_cases hj : id = j
    · subst hj
      have hlt := hs.id_lt _ (Sound.deed_mem hi)
      have hunique : ∀ k ∈ e.pending, k.deed.id = id → k = i := fun k hk hkid =>
        pending_unique hs.nodup hk hi (hkid.trans hid.symm)
      cases f with
      | none => exact .inr ⟨i, h.pending_own hs hi, hid, htoken⟩
      | some g =>
        cases h with
        | ignore => exact .inr ⟨i, hi, hid, htoken⟩
        | reject error hk =>
          exact .inl ((update_dropPending hs hk rfl rfl).isGone (hs.id_lt _ (Sound.deed_mem hk)))
        | bind hk hfree hd =>
          have hup := update_bind hs hk hfree hd
          refine .inr ⟨_, (hup.mem_pending _).2 (.inr rfl), (hup.starting _ rfl).2.id_eq, ?_⟩
          rw [hunique _ hk rfl]
          exact htoken
        | finish hi hmet => exact absurd ⟨rfl, hmet⟩ (hf _ rfl)
        | track hi hmet => exact absurd ⟨rfl, hmet⟩ (hf _ rfl)
        | restart hd => exact absurd hid (hs.id_ne hi hd)
        | cancel hd => exact absurd hid (hs.id_ne hi hd)
    · exact .inr ⟨i, ((h.sameOthers hs).pending i (hid ▸ hj)).2 hi, hid, htoken⟩

theorem Ending.mono {fired fired' : List Token} (h : e.Ending fired id)
    (hsub : ∀ t ∈ fired, t ∈ fired') : e.Ending fired' id := by
  rcases h with hg | ⟨i, hi, hid, htoken⟩
  · exact .inl hg
  · exact .inr ⟨i, hi, hid, hsub _ htoken⟩

/-- A deed that can only end is not tracked. -/
theorem Ending.not_tracked (hs : e.Sound) {fired : List Token} (h : e.Ending fired id) :
    id ∉ e.tracker.order := by
  rcases h with hg | ⟨i, hi, rfl, -⟩
  · exact fun hmem => hg.2 (List.mem_append_right _ hmem)
  · exact not_mem_order_of_pending hs.nodup (Sound.mem_pendingIds hi)

/-- In a chain that takes no met check of it, a deed that can only end does not advance. -/
theorem ending_chain (hs : e.Sound) {fired : List Token} (hid : e.Ending fired id)
    (h : Chain (Taking fun g => ¬ g.starts id) e outputs e') :
    e'.Ending fired id ∧ ∀ o ∈ outputs, o.advances id = false := by
  refine history_of_chain (Q := fun said e => e.Ending fired id ∧
    ∀ o ∈ said, o.advances id = false) ?_ hs ⟨hid, fun _ h => nomatch h⟩ h
  rintro said e f j outputs e' hs ⟨hid, hsaid⟩ hf ht
  refine ⟨ht.ending hs hid hf, fun o ho => ?_⟩
  rcases List.mem_append.1 ho with ho | ho
  · exact hsaid o ho
  · exact ht.not_advances (hid.not_tracked hs) (fun _ => hf) o ho

/-- A met check that a deed waits for starts the deed. -/
theorem Transition.advances_of_starts {f : Finding} (h : Transition e (some f) j outputs e')
    (hw : e.Awaits f.deed f.stage) (hf : f.starts id) : ∃ o ∈ outputs, o.advances id := by
  cases h with
  | ignore hnot => exact absurd hw hnot
  | reject error hi hdeed hs hv =>
    cases f with
    | verified deed outcome =>
      cases outcome with
      | checked v =>
        cases hdeed
        have hmet := hf.2
        rw [hv v rfl] at hmet
        cases hmet
      | timedOut => cases hf
      | cancelled => cases hf
    | resolved => cases hf
    | reverified => cases hf
  | bind => cases hf
  | finish hi hmet hd =>
    subst hd
    exact ⟨_, List.mem_cons_self, decide_eq_true hf.1⟩
  | track hi hmet hd =>
    subst hd
    exact ⟨_, List.mem_append_left _ List.mem_cons_self, decide_eq_true hf.1⟩
  | restart => cases hf
  | cancel hd hg =>
    cases f with
    | verified => cases (hg _ rfl).2.1
    | resolved => cases hf
    | reverified => cases hf

/-! ## Requests to stop -/

theorem stop_of_not_mem (h : id ∉ e.ids) :
    e.stop id = (e, [.acknowledge id (.error (.unknownInstance id))]) := by
  have hpending : e.pending? id = none :=
    pending?_eq_none_iff.2 fun hmem => h (List.mem_append_left _ hmem)
  have htracked : e.tracker.find? id = none :=
    Tracker.find?_eq_none_iff.2 fun hmem => h (List.mem_append_right _ hmem)
  simp only [stop, hpending, htracked]

/-- A stop of a live deed fires the token of its invocation, or drops it. -/
theorem stop_of_mem (hs : e.Sound) (h : id ∈ e.ids) :
    Output.acknowledge id (.ok ()) ∈ (e.stop id).2 ∧
      (∀ error, Output.acknowledge id (.error error) ∉ (e.stop id).2) ∧
      ((e.stop id).1.Gone id ∨
        ∃ i ∈ (e.stop id).1.pending, i.deed.id = id ∧ Output.fire i.token ∈ (e.stop id).2) := by
  unfold stop
  cases hp : e.pending? id with
  | some i =>
    obtain ⟨hi, hid⟩ := mem_of_pending? hp
    exact ⟨by simp, by simp, .inr ⟨i, hi, hid, List.mem_cons_self⟩⟩
  | none =>
    dsimp only
    cases hfind : e.tracker.find? id with
    | none =>
      rcases List.mem_append.1 h with hmem | hmem
      · exact absurd hmem (pending?_eq_none_iff.1 hp)
      · exact absurd hmem (Tracker.find?_eq_none_iff.1 hfind)
    | some d =>
      obtain ⟨hd, rfl⟩ := Tracker.mem_of_find? hfind
      refine ⟨List.mem_append_right _ List.mem_cons_self, fun error hmem => ?_,
        .inl ((update_dropTracked hs hd).isGone (hs.id_lt d (Sound.tracked_mem hd)))⟩
      rcases List.mem_append.1 hmem with hmem | hmem
      · rcases List.mem_cons.1 hmem with heq | hmem
        · cases heq
        · cases isHourly_of_mem_unsubscribeIfIdle hmem
      · cases List.mem_singleton.1 hmem

end Engine

namespace System

variable {s t : System} {id : DeedId} {m : Move} {outputs : List Output}

/-- A deed that was stopped in time: it can only end, and no met check of it is over. -/
structure Stopped (s : System) (id : DeedId) : Prop where
  ending : s.engine.Ending s.fired id
  unmet : ∀ f ∈ s.finished, ¬ f.starts id

/-- A fired token stays fired. -/
theorem Makes.fired (h : Makes s m t outputs) {token : Token} (hfired : token ∈ s.fired) :
    token ∈ t.fired := by
  cases h with
  | input ticks => exact mem_fired_performAll.2 (.inl hfired)
  | take => exact mem_fired_performAll.2 (.inl hfired)
  | proceed h => exact h.fired token hfired
  | lose => exact hfired

/-- A question that goes on for a stopped deed ends as cancelled. -/
theorem Proceeds.unmet (h : Proceeds s t) (hs : s.Sound) (hid : s.Stopped id) :
    ∀ f ∈ t.finished, ¬ f.starts id := by
  intro f hf hstarts
  rcases h.finished f hf with hmem | ⟨w, hw, hdeed, hstage, hcancelled⟩
  · exact hid.unmet f hmem hstarts
  · obtain ⟨deed, question⟩ := w
    cases f with
    | resolved => cases hstarts
    | reverified => cases hstarts
    | verified deed' outcome =>
      cases hdeed
      cases question with
      | actor => cases hstage
      | again => cases hstage
      | start check target token =>
        obtain ⟨i, hi, hideed, htoken⟩ := hs.cancels _ hw token rfl
        cases outcome with
        | timedOut => cases hstarts
        | cancelled => cases hstarts
        | checked v =>
          obtain ⟨rfl, -⟩ := hstarts
          rcases hid.ending with hg | ⟨k, hk, hkid, hfired⟩
          · exact hg.2 (Engine.mem_ids.2 ⟨i.deed, Engine.Sound.deed_mem hi, hideed⟩)
          · -- the question has the token that was fired
            rw [Engine.pending_unique hs.sound.nodup hk hi (hkid.trans hideed.symm), htoken]
              at hfired
            have : s.isCancelled (.start check target token) = true := by
              simpa [isCancelled, Question.token?] using hfired
            cases hcancelled this

theorem Makes.unmet (h : Makes s m t outputs) (hs : s.Sound) (hid : s.Stopped id) :
    ∀ f ∈ t.finished, ¬ f.starts id := by
  cases h with
  | input ticks =>
    rw [finished_deliver]
    exact hid.unmet
  | take =>
    rw [finished_deliver]
    exact fun f hf => hid.unmet f (List.mem_of_mem_eraseIdx hf)
  | proceed h => exact h.unmet hs hid
  | lose => exact hid.unmet

/-- A deed that was stopped in time does not advance by a move, and stays stopped. -/
theorem Makes.stopped (h : Makes s m t outputs) (hs : s.Sound) (hid : s.Stopped id) :
    t.Stopped id ∧ ∀ o ∈ outputs, o.advances id = false := by
  have hchain : Chain (Taking fun g => ¬ g.starts id) s.engine outputs t.engine :=
    (h.chain hs).mono fun _ _ _ h => h.mono fun g hg => hid.unmet g (mem_of_taken? hg)
  obtain ⟨hending, hsilent⟩ := Engine.ending_chain hs.sound hid.ending hchain
  exact ⟨⟨hending.mono fun _ => h.fired, h.unmet hs hid⟩, hsilent⟩

theorem Stopped.run (hs : s.Sound) (hid : s.Stopped id) (moves : List Move) :
    ∀ o ∈ (s.run moves).2, o.advances id = false := by
  induction moves generalizing s with
  | nil => exact fun _ h => nomatch h
  | cons m rest ih =>
    have hmakes := makes_step hs m
    obtain ⟨hstep, hsilent⟩ := hmakes.stopped hs hid
    intro o ho
    rcases List.mem_append.1 ho with ho | ho
    · exact hsilent o ho
    · exact ih (hmakes.sound hs) hstep o ho

/-- A stop of a live deed is in time when no met check of it is over. -/
theorem stopped_of_stop (hs : s.Sound) (hlive : id ∈ s.engine.ids)
    (hunmet : ∀ f ∈ s.finished, ¬ f.starts id) : (s.step (.stop id)).1.Stopped id := by
  obtain ⟨-, -, hstop⟩ := Engine.stop_of_mem hs.sound hlive
  refine ⟨?_, fun f hf => hunmet f ?_⟩
  · show (s.deliver (.stop id)).1.engine.Ending (s.deliver (.stop id)).1.fired id
    rw [engine_deliver]
    rcases hstop with hg | ⟨i, hi, hid, hfire⟩
    · exact .inl hg
    · exact .inr ⟨i, hi, hid, mem_fired_performAll.2 (.inr hfire)⟩
  · have heq : (s.step (.stop id)).1.finished = s.finished := finished_deliver
    rwa [heq] at hf

/-- A met check that is over starts its deed as soon as the engine takes it. -/
theorem exists_advances (hs : s.Sound) {f : Finding} (hf : f ∈ s.finished) (hstarts : f.starts id) :
    ∃ index, ∃ o ∈ (s.take index).2, o.advances id := by
  obtain ⟨index, hindex⟩ := List.getElem?_of_mem hf
  refine ⟨index, ?_⟩
  rw [take_of_some hindex]
  refine (take_transition hs hindex).advances_of_starts ?_ hstarts
  rcases expects_taken hs hindex with hw | ⟨hstage, -⟩
  · exact hw
  · cases f with
    | verified => cases hstage
    | resolved => cases hstarts
    | reverified => cases hstarts

/-- After any moves, in any order, a request to stop a live deed is answered with success, and no
other; and then nothing is ever applied for the deed again, it is never told to go on, and its
invoker never learns that it was begun, if and only if no check that is met was over by then without
being taken. A request to stop any other deed is answered as unknown, and changes nothing. -/
theorem stop_iff (catalog : Catalog) (world : World) (clock : Clock) (bus : Bus)
    (moves : List Move) (id : DeedId) :
    let s := ((ofParts catalog world clock bus).run moves).1
    let t := (s.step (.stop id)).1
    (id ∈ s.engine.ids →
      Output.acknowledge id (.ok ()) ∈ (s.step (.stop id)).2 ∧
      (∀ error, Output.acknowledge id (.error error) ∉ (s.step (.stop id)).2) ∧
      ((∀ later, ∀ o ∈ (t.run later).2, o.advances id = false) ↔
        ∀ v, Finding.verified id (.checked v) ∈ s.finished → v.isMet = false)) ∧
    (id ∉ s.engine.ids →
      s.step (.stop id) = (s, [.acknowledge id (.error (.unknownInstance id))])) := by
  intro s t
  have hs : s.Sound := run_sound (sound_ofParts catalog world clock bus) moves
  have ht : t.Sound := (makes_step hs (.stop id)).sound hs
  have hfinished : t.finished = s.finished := finished_deliver
  refine ⟨fun hlive => ?_, fun hnot => ?_⟩
  · obtain ⟨hok, herror, -⟩ := Engine.stop_of_mem hs.sound hlive
    refine ⟨hok, herror, fun hsilent v hv => ?_, fun hunmet later => ?_⟩
    · -- a met check that is over would start the deed
      rw [← Bool.not_eq_true]
      intro hmet
      obtain ⟨index, o, ho, hadv⟩ := exists_advances ht (hfinished ▸ hv)
        (show (Finding.verified id (.checked v)).starts id from ⟨rfl, hmet⟩)
      have hsilent := hsilent [.take index] o (List.mem_append_left _ ho)
      rw [hadv] at hsilent
      cases hsilent
    · refine (stopped_of_stop hs hlive fun f hf hstarts => ?_).run ht later
      cases f with
      | resolved => cases hstarts
      | reverified => cases hstarts
      | verified deed outcome =>
        cases outcome with
        | timedOut => cases hstarts
        | cancelled => cases hstarts
        | checked v =>
          obtain ⟨rfl, hmet⟩ := hstarts
          rw [hunmet v hf] at hmet
          cases hmet
  · show s.deliver (.stop id) = _
    have hstep : s.engine.step s.world.cast.rate (.stop id) =
        (s.engine, [.acknowledge id (.error (.unknownInstance id))]) := Engine.stop_of_not_mem hnot
    unfold deliver
    rw [hstep]
    rfl

/-- A watch whose check is over is stopped with success; then the engine takes the check, pays for
the watch and begins it, and its invoker learns so. -/
theorem stop_not_final :
    let s := (watchtower.run callWatch).1
    let t := (s.step (.stop ⟨1⟩)).1
    Output.acknowledge ⟨1⟩ (.ok ()) ∈ (s.step (.stop ⟨1⟩)).2 ∧
      t.world.treasury.money = 10 ∧
      (t.run [.take 0]).1.world.treasury.money = 8 ∧
      (t.run [.take 0]).1.engine.tracker.order = [⟨1⟩] ∧
      ¬ ∀ later, ∀ o ∈ (t.run later).2, o.advances ⟨1⟩ = false := by
  have hs : (watchtower.run callWatch).1.Sound :=
    run_sound (sound_ofParts watchCatalog watchWorld (.ofCapacity 4) (.ofCapacity 4)) callWatch
  have hlive : ⟨1⟩ ∈ (watchtower.run callWatch).1.engine.ids := by decide
  refine ⟨(Engine.stop_of_mem hs.sound hlive).1, by decide, by decide,
    by decide, fun h => ?_⟩
  have hsome : ∃ o ∈ ((watchtower.run callWatch).1.step (.stop ⟨1⟩)).1.run [.take 0] |>.2,
      Output.advances ⟨1⟩ o := by decide
  obtain ⟨o, ho, hadv⟩ := hsome
  have hnone := h [.take 0] o ho
  rw [hadv] at hnone
  cases hnone

end System

end Deeds
