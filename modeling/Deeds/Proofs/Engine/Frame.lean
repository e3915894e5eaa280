import Deeds.Proofs.Engine.Transition

/-!
# What a transition changes

A transition changes one deed, leaves that deed in order or takes it out together with its slot, and
says nothing about any other deed.

* `Transition.change`, `Transition.sound` : a transition of a sound engine leads to a sound one;
* `Transition.sameOthers`, `Transition.deed?_eq` : it concerns a single deed;
* `Transition.not_advances` : a deed that is not tracked advances only when its check is met;
* `Gone.transition`, `Gone.not_advances` : a deed that is gone does not come back.
-/

namespace Deeds

namespace Engine

/-! ## What a transition changes -/

variable {e e' : Engine} {f : Option Finding} {id : DeedId} {outputs : List Output}
  {i : Invocation} {d d' : Deed}

theorem sameDeeds_enrol :
    SameDeeds { e with tracker := e.tracker.register d } (e.enrol d).1 := by
  unfold enrol
  dsimp only
  split
  · exact sameDeeds_subscribe
  · exact .refl _

/-- A deed is in the tracker as it was, but for its progress. -/
theorem update_updateTracked (hs : e.Sound) (hd : d ∈ e.tracker.deeds) (hid : d'.id = d.id)
    (htemplate : d'.template = d.template) (hactor : d'.actor = d.actor)
    (hphase : d'.phase = .pending ∨ (d'.phase = .reverifying ∧ d'.mode = .repeatable)) :
    Sound.Update e d.id none (some d') (e.updateTracked d') := by
  have h : Rewrites e d.id none (some d') (e.updateTracked d') := by
    rw [← hid]
    exact .updateTracked hs.nodup hd hid
  refine ⟨h, fun _ h => (nomatch h), fun x hx => ?_, fun _ h => (nomatch h), hs.slots_nodup⟩
  cases hx
  refine ⟨⟨hphase, ?_⟩, .of_deed hs (Sound.tracked_mem hd) h rfl hid htemplate hactor⟩
  rw [hactor]
  exact (hs.running d hd).2

/-- A tracked deed is gone, and hours may be over. -/
theorem update_dropTracked (hs : e.Sound) (hd : d ∈ e.tracker.deeds) :
    Sound.Update e d.id none none (e.dropTracked d).unsubscribeIfIdle.1 := by
  have hsame : SameDeeds (e.dropTracked d) (e.dropTracked d).unsubscribeIfIdle.1 :=
    sameDeeds_unsubscribeIfIdle
  refine ⟨(Rewrites.dropTracked hs.nodup hd).congr hsame,
    fun _ h => (nomatch h), fun _ h => (nomatch h), fun _ _ a => ?_, ?_⟩
  · rw [hsame.slots, dropTracked]
    exact hs.not_mem_slots_release (Sound.tracked_mem hd) (by rfl) rfl rfl a
  · rw [hsame.slots, dropTracked]
    exact hs.slots_release_nodup (by rfl) d

/-- A pending deed is gone. -/
theorem update_dropPending (hs : e.Sound) (hi : i ∈ e.pending) (hid : d.id = i.deed.id)
    (hactor : d.actor = i.deed.actor) :
    Sound.Update e i.deed.id none none ((e.dropPending i.deed.id).release d) := by
  have h : Rewrites e d.id none none (e.dropPending d.id) :=
    .dropPending hs.nodup (hid ▸ Sound.mem_pendingIds hi)
  rw [← hid]
  refine ⟨h.release, fun _ h => (nomatch h), fun _ h => (nomatch h), fun _ _ a => ?_,
    hs.slots_release_nodup (by rfl) d⟩
  rw [hid]
  exact hs.not_mem_slots_release (Sound.deed_mem hi) (by rfl) hid hactor a

/-- A pending deed is now tracked. -/
theorem update_enrol (hs : e.Sound) (hi : i ∈ e.pending) (hid : d.id = i.deed.id)
    (htemplate : d.template = i.deed.template) (hactor : d.actor = i.deed.actor)
    (hsome : d.actor.isSome) (hphase : d.phase = .pending) (hm : d.mode ≠ .immediate) :
    Sound.Update e i.deed.id none (some d) ((e.dropPending i.deed.id).enrol d).1 := by
  have hdrop : Rewrites e d.id none none (e.dropPending d.id) :=
    .dropPending hs.nodup (hid ▸ Sound.mem_pendingIds hi)
  have h : Rewrites e i.deed.id none (some d) ((e.dropPending i.deed.id).enrol d).1 := by
    rw [← hid]
    exact (hdrop.register hm).congr sameDeeds_enrol
  have hslots : ((e.dropPending i.deed.id).enrol d).1.slots = e.slots := sameDeeds_enrol.slots
  refine ⟨h, fun _ h => (nomatch h), fun x hx => ?_, fun _ h => (nomatch h), ?_⟩
  · cases hx
    exact ⟨⟨.inl hphase, hsome⟩,
      .of_deed hs (Sound.deed_mem hi) h hslots hid htemplate hactor⟩
  · rw [hslots]
    exact hs.slots_nodup

theorem update_finish (hs : e.Sound) (hi : i ∈ e.pending) {conditions : List Condition}
    (hd : d = i.deed.recordVerification conditions true) :
    Sound.Update e i.deed.id none none ((e.dropPending d.id).release d) := by
  subst hd
  exact update_dropPending hs hi rfl rfl

theorem update_track (hs : e.Sound) (hi : i ∈ e.pending) {conditions : List Condition}
    (hd : d = i.deed.recordVerification conditions true) {actor : CharacterId}
    (ha : d.actor = some actor) (hm : d.mode ≠ .immediate) :
    Sound.Update e i.deed.id none (some d.start) ((e.dropPending d.id).enrol d.start).1 := by
  subst hd
  exact update_enrol hs hi rfl rfl rfl (Option.isSome_of_eq_some ha) rfl hm

theorem update_progress (hs : e.Sound) (hd : d ∈ e.tracker.deeds) {rate current : Binary32}
    (ha : d.advance rate = (d', .progressed current)) :
    Sound.Update e d.id none (some d') (e.updateTracked d') := by
  obtain ⟨hp, rfl⟩ := Deed.advance_eq_progressed ha
  exact update_updateTracked hs hd rfl rfl rfl (.inl hp)

theorem update_completeCycle (hs : e.Sound) (hd : d ∈ e.tracker.deeds) {rate current : Binary32}
    (ha : d.advance rate = (d', .completed current)) (hm : d.mode = .repeatable) :
    Sound.Update e d.id none (some d'.beginReverification)
      (e.updateTracked d'.beginReverification) := by
  obtain ⟨-, rfl⟩ := Deed.advance_eq_completed ha
  exact update_updateTracked hs hd rfl rfl rfl (.inr ⟨rfl, hm⟩)

theorem update_restart (hs : e.Sound) (hd : d ∈ e.tracker.deeds) (conditions : List Condition) :
    Sound.Update e d.id none (some (d.recordVerification conditions true).restart)
      (e.updateTracked (d.recordVerification conditions true).restart) :=
  update_updateTracked hs hd rfl rfl rfl (.inl rfl)

theorem update_bind (hs : e.Sound) (hi : i ∈ e.pending) {actor : CharacterId}
    (hfree : e.current? actor = none) (hd : i.deed.assign? actor = some d) :
    Sound.Update e i.deed.id (some { i with deed := d }) none
      { e.updatePending d with slots := e.slots ++ [(actor, i.deed.id)] } := by
  obtain ⟨hnone, rfl⟩ := Deed.assign?_eq_some hd
  have hkey : actor ∉ e.slots.map Prod.fst := by
    rw [List.mem_map]
    rintro ⟨⟨a, j⟩, hmem, rfl⟩
    rw [current?, (lookup_eq_some_iff_mem hs.slots_nodup).2 hmem] at hfree
    cases hfree
  have hslots : ∀ a j, j ≠ i.deed.id →
      ((a, j) ∈ e.slots ++ [(actor, i.deed.id)] ↔ (a, j) ∈ e.slots) := by
    intro a j hj
    simp only [List.mem_append, List.mem_singleton, Prod.mk.injEq]
    exact or_iff_left fun h => hj h.2
  have hid : ({ i.deed with actor := some actor, phase := .verifying } : Deed).id = i.deed.id := rfl
  have h := (Rewrites.updatePending hs.nodup hi hid).withSlots hslots
  refine ⟨h, fun j hj => ?_, fun _ h => (by cases h), fun h => (by cases h), ?_⟩
  · cases hj
    have hmem := Sound.deed_mem hi
    have htemplate := hs.template _ hmem
    refine ⟨⟨.inr ⟨rfl, rfl⟩, (hs.starting i hi).2⟩, rfl, hs.id_lt _ hmem, htemplate, fun a => ?_⟩
    simp only [List.mem_append, hs.mem_slots_iff hmem, hnone, List.mem_singleton,
      Prod.mk.injEq, Option.some.injEq, reduceCtorEq, false_or, and_true, eq_comm]
  · rw [List.map_append]
    refine List.nodup_append.2 ⟨hs.slots_nodup, List.nodup_singleton _, ?_⟩
    rintro a ha b hb rfl
    rw [List.map_singleton, List.mem_singleton] at hb
    subst hb
    exact hkey ha

theorem update_enter (hs : e.Sound) (call : CallId) (token : Token) {name : String}
    {target : Target} (h : e.catalog.instantiate e.nextId name target = some d) :
    Sound.Update e d.id (some ⟨d, token, call⟩) none
      { e with nextId := e.nextId.next, pending := e.pending ++ [⟨d, token, call⟩] } := by
  obtain ⟨t, ht, rfl, rfl⟩ := Catalog.instantiate_eq_some h
  have hnew : e.nextId ∉ e.ids := hs.not_mem_ids (Nat.le_refl _)
  have h := Rewrites.enter (i := ⟨.ofTemplate e.nextId t target, token, call⟩) hs.nodup hnew
    (show e.nextId.val ≤ e.nextId.next.val from Nat.le_succ _)
  refine ⟨h, fun i hi => ?_,
    fun _ h => (nomatch h), fun h => (nomatch h), hs.slots_nodup⟩
  cases hi
  refine ⟨⟨.inl ⟨rfl, rfl⟩, rfl⟩, rfl, Nat.lt_succ_self _, ht, fun a => ⟨fun ha => ?_, ?_⟩⟩
  swap
  · exact fun ha => nomatch ha
  obtain ⟨x, hx, hid, -⟩ := (hs.mem_slots a e.nextId).1 ha
  exact absurd (mem_ids.2 ⟨x, hx, hid⟩) hnew

/-- A transition changes one deed, and leaves it in order. -/
theorem Transition.change (hs : e.Sound) (h : Transition e f id outputs e') :
    SameDeeds e e' ∨ ∃ p t, Sound.Update e id p t e' := by
  cases h with
  | refuse => exact .inl (.refl e)
  | enter call token h => exact .inr ⟨_, _, update_enter hs call token h⟩
  | fire => exact .inl (.refl e)
  | acknowledge => exact .inl (.refl e)
  | close => exact .inl (.refl e)
  | unsubscribe => exact .inl sameDeeds_unsubscribe
  | ignore => exact .inl (.refl e)
  | reject error hi => exact .inr ⟨_, _, update_dropPending hs hi rfl rfl⟩
  | bind hi hfree hd => exact .inr ⟨_, _, update_bind hs hi hfree hd⟩
  | finish hi hmet hd => exact .inr ⟨_, _, update_finish hs hi hd⟩
  | track hi hmet hd ha hm => exact .inr ⟨_, _, update_track hs hi hd ha hm⟩
  | progress hour hd ha => exact .inr ⟨_, _, update_progress hs hd ha⟩
  | complete hour hd => exact .inr ⟨_, _, update_dropTracked hs hd⟩
  | completeCycle hour hd ha hactor hm => exact .inr ⟨_, _, update_completeCycle hs hd ha hm⟩
  | restart hd => exact .inr ⟨_, _, update_restart hs hd _⟩
  | cancel hd => exact .inr ⟨_, _, update_dropTracked hs hd⟩

/-- A transition of a sound engine leads to a sound one. -/
theorem Transition.sound (hs : e.Sound) (h : Transition e f id outputs e') : e'.Sound := by
  rcases h.change hs with h | ⟨p, t, h⟩
  · exact hs.of_sameDeeds h
  · exact hs.of_update h

/-! ## What a transition leaves alone -/

/-- All deeds but one are as they were. -/
structure SameOthers (e : Engine) (id : DeedId) (e' : Engine) : Prop where
  catalog : e'.catalog = e.catalog
  nextId : e.nextId.val ≤ e'.nextId.val
  pending : ∀ i, i.deed.id ≠ id → (i ∈ e'.pending ↔ i ∈ e.pending)
  tracked : ∀ d, d.id ≠ id → (d ∈ e'.tracker.deeds ↔ d ∈ e.tracker.deeds)
  slots : ∀ a j, j ≠ id → ((a, j) ∈ e'.slots ↔ (a, j) ∈ e.slots)

theorem SameOthers.mem_ids_iff (h : SameOthers e id e') {j : DeedId} (hj : j ≠ id) :
    j ∈ e'.ids ↔ j ∈ e.ids := by
  simp only [ids, List.mem_append, mem_pendingIds, Tracker.mem_order]
  exact or_congr (exists_congr fun i => and_congr_left fun hi => h.pending i (hi ▸ hj))
    (exists_congr fun d => and_congr_left fun hd => h.tracked d (hd ▸ hj))

theorem SameDeeds.sameOthers (h : SameDeeds e e') (id : DeedId) : SameOthers e id e' where
  catalog := h.catalog
  nextId := Nat.le_of_eq (congrArg DeedId.val h.nextId.symm)
  pending i _ := by rw [h.pending]
  tracked d _ := by rw [h.tracked]
  slots a j _ := by rw [h.slots]

theorem Sound.Update.sameOthers {p : Option Invocation} {t : Option Deed}
    (h : Sound.Update e id p t e') : SameOthers e id e' where
  catalog := h.catalog
  nextId := h.nextId
  pending _ := h.pending_iff fun i hi => (h.starting i hi).2.id_eq
  tracked _ := h.tracked_iff fun d hd => (h.running d hd).2.id_eq
  slots := h.mem_slots

/-- A transition of one deed changes no other. -/
theorem Transition.sameOthers (hs : e.Sound) (h : Transition e f id outputs e') :
    SameOthers e id e' := by
  rcases h.change hs with h | ⟨p, t, h⟩
  · exact h.sameOthers id
  · exact h.sameOthers

/-! ## What a transition says -/

theorem isHourly_of_mem_subscribe {o : Output} (h : o ∈ e.subscribe.2) : o.isHourly := by
  unfold subscribe at h
  split at h
  · cases h
  · rcases List.mem_cons.1 h with rfl | h
    · rfl
    · rw [List.mem_singleton.1 h]
      rfl

theorem isHourly_of_mem_unsubscribe {o : Output} (h : o ∈ e.unsubscribe.2) : o.isHourly := by
  unfold unsubscribe at h
  split at h
  · rcases List.mem_cons.1 h with rfl | h
    · rfl
    · rw [List.mem_singleton.1 h]
      rfl
  · cases h

theorem isHourly_of_mem_unsubscribeIfIdle {o : Output} (h : o ∈ e.unsubscribeIfIdle.2) :
    o.isHourly := by
  unfold unsubscribeIfIdle at h
  split at h
  · exact isHourly_of_mem_unsubscribe h
  · cases h

theorem isHourly_of_mem_enrol {o : Output} (h : o ∈ (e.enrol d).2) : o.isHourly := by
  unfold enrol at h
  dsimp only at h
  split at h
  · exact isHourly_of_mem_subscribe h
  · cases h

@[simp] theorem action_not_mem_unsubscribe {event : ActionEvent} :
    Output.publish (.action event) ∉ e.unsubscribe.2 := fun h => by
  cases isHourly_of_mem_unsubscribe h

@[simp] theorem action_not_mem_unsubscribeIfIdle {event : ActionEvent} :
    Output.publish (.action event) ∉ e.unsubscribeIfIdle.2 := fun h => by
  cases isHourly_of_mem_unsubscribeIfIdle h

@[simp] theorem action_not_mem_enrol {event : ActionEvent} :
    Output.publish (.action event) ∉ (e.enrol d).2 := fun h => by
  cases isHourly_of_mem_enrol h

/-- A transition says nothing about any other deed. -/
theorem Transition.deed?_eq (h : Transition e f id outputs e') :
    ∀ o ∈ outputs, o.deed? = none ∨ o.deed? = some id := by
  have hourly : ∀ {hours : List Output}, (∀ o ∈ hours, o.isHourly) →
      ∀ o ∈ hours, o.deed? = none ∨ o.deed? = some id :=
    fun h o ho => .inl (o.deed?_of_isHourly (h o ho))
  cases h with
  | refuse => simp [Output.deed?, ActionEvent.deed?]
  | enter => simp [Output.deed?]
  | fire => simp [Output.deed?]
  | acknowledge => simp [Output.deed?]
  | close => simp [Output.deed?]
  | unsubscribe => exact hourly fun _ => isHourly_of_mem_unsubscribe
  | ignore => simp
  | reject => simp [Engine.reject, Output.deed?, ActionEvent.deed?]
  | bind => simp [Output.deed?]
  | finish hi hmet hd =>
    subst hd
    simp [Output.deed?, ActionEvent.deed?, Deed.recordVerification, Receipt.ofDeed, Deed.clear,
      Deed.completeAtOnce]
  | track hi hmet hd =>
    subst hd
    rw [List.forall_mem_append, List.forall_mem_append]
    refine ⟨?_, hourly fun _ => isHourly_of_mem_enrol, ?_⟩
    · simp [Output.deed?, ActionEvent.deed?, Deed.recordVerification]
    · simp [Output.deed?, Deed.recordVerification, Receipt.ofDeed, Deed.start]
  | progress => simp [Output.deed?, ActionEvent.deed?]
  | complete =>
    rw [List.forall_mem_append]
    refine ⟨?_, hourly fun _ => isHourly_of_mem_unsubscribeIfIdle⟩
    simp [Output.deed?, ActionEvent.deed?]
  | completeCycle => simp [Output.deed?, ActionEvent.deed?]
  | restart => simp [Output.deed?, ActionEvent.deed?]
  | cancel =>
    rw [List.forall_mem_cons]
    exact ⟨.inr rfl, hourly fun _ => isHourly_of_mem_unsubscribeIfIdle⟩

/-- A transition advances no other deed. -/
theorem Transition.not_advances_of_ne (h : Transition e f id outputs e') {j : DeedId}
    (hj : j ≠ id) : ∀ o ∈ outputs, o.advances j = false := by
  intro o ho
  rw [← Bool.not_eq_true]
  intro hadv
  rcases h.deed?_eq o ho with hnone | hsome
  · rw [o.deed?_of_advances hadv] at hnone
    cases hnone
  · rw [o.deed?_of_advances hadv] at hsome
    exact hj (Option.some.inj hsome)

/-- A deed that is not tracked advances only when the check before its start is met. -/
theorem Transition.not_advances (h : Transition e f id outputs e') {j : DeedId}
    (hj : j ∉ e.tracker.order) (hf : j ∈ e.pendingIds → ∀ g, f = some g → ¬ g.starts j) :
    ∀ o ∈ outputs, o.advances j = false := by
  by_cases hid : j = id
  · subst hid
    have htracked : ∀ d ∈ e.tracker.deeds, d.id ≠ j := fun d hd hdj =>
      hj (Tracker.mem_order.2 ⟨d, hd, hdj⟩)
    cases h with
    | refuse => simp [Output.advances]
    | enter => simp [Output.advances]
    | fire => simp [Output.advances]
    | acknowledge => simp [Output.advances]
    | close => simp [Output.advances]
    | unsubscribe => exact fun o ho => o.advances_of_isHourly (isHourly_of_mem_unsubscribe ho)
    | ignore => simp
    | reject => simp [Engine.reject, Output.advances]
    | bind => simp [Output.advances]
    | finish hi hmet => exact absurd ⟨rfl, hmet⟩ (hf (Sound.mem_pendingIds hi) _ rfl)
    | track hi hmet => exact absurd ⟨rfl, hmet⟩ (hf (Sound.mem_pendingIds hi) _ rfl)
    | progress hour hd => exact absurd rfl (htracked _ hd)
    | complete hour hd => exact absurd rfl (htracked _ hd)
    | completeCycle hour hd => exact absurd rfl (htracked _ hd)
    | restart hd => exact absurd rfl (htracked _ hd)
    | cancel hd => exact absurd rfl (htracked _ hd)
  · exact h.not_advances_of_ne hid

/-! ## What is gone -/

/-- The deed of a finding is the deed of its transition. -/
theorem Transition.deed_finding {g : Finding} (h : Transition e (some g) id outputs e') :
    g.deed = id := by
  cases h with
  | ignore => rfl
  | reject error hi hf => exact hf
  | bind => rfl
  | finish => rfl
  | track => rfl
  | restart => rfl
  | cancel hd hf => exact (hf g rfl).1

/-- Gone for good: the number was given to a deed that is no longer live. -/
def Gone (e : Engine) (id : DeedId) : Prop := id.val < e.nextId.val ∧ id ∉ e.ids

theorem Gone.ne_of_mem (hg : e.Gone id) (hd : d ∈ e.deeds) : d.id ≠ id :=
  fun hid => hg.2 (mem_ids.2 ⟨d, hd, hid⟩)

theorem SameDeeds.gone_iff (h : SameDeeds e e') : e'.Gone id ↔ e.Gone id := by
  rw [Gone, Gone, h.nextId, ← map_id_deeds, h.deeds_eq, map_id_deeds]

theorem SameOthers.gone {j : DeedId} (h : SameOthers e id e') (hj : j ≠ id) (hg : e.Gone j) :
    e'.Gone j :=
  ⟨Nat.lt_of_lt_of_le hg.1 h.nextId, mt (h.mem_ids_iff hj).1 hg.2⟩

/-- A deed that is neither pending nor tracked after a change is not live. -/
theorem Sound.Update.not_mem_ids (h : Sound.Update e id none none e') : id ∉ e'.ids := by
  intro hmem
  obtain ⟨x, hx, hid⟩ := mem_ids.1 hmem
  rcases (Sound.mem_deeds_rewrites h.toRewrites).1 hx with hx | ⟨_, h, -⟩ | h
  · exact hx.2 hid
  · cases h
  · cases h

theorem Sound.Update.isGone (h : Sound.Update e id none none e') (hlt : id.val < e.nextId.val) :
    e'.Gone id := ⟨Nat.lt_of_lt_of_le hlt h.nextId, h.not_mem_ids⟩

/-- What is gone does not come back. -/
theorem Gone.transition (hs : e.Sound) (hg : e.Gone id) {j : DeedId}
    (h : Transition e f j outputs e') : e'.Gone id := by
  by_cases hj : id = j
  · subst hj
    cases h with
    | refuse => exact hg
    | enter call token h =>
      obtain ⟨t, -, -, rfl⟩ := Catalog.instantiate_eq_some h
      exact absurd hg.1 (Nat.lt_irrefl _)
    | fire => exact hg
    | acknowledge => exact hg
    | close => exact hg
    | unsubscribe => exact sameDeeds_unsubscribe.gone_iff.2 hg
    | ignore => exact hg
    | reject error hi => exact absurd rfl (hg.ne_of_mem (Sound.deed_mem hi))
    | bind hi => exact absurd rfl (hg.ne_of_mem (Sound.deed_mem hi))
    | finish hi => exact absurd rfl (hg.ne_of_mem (Sound.deed_mem hi))
    | track hi => exact absurd rfl (hg.ne_of_mem (Sound.deed_mem hi))
    | progress hour hd => exact absurd rfl (hg.ne_of_mem (Sound.tracked_mem hd))
    | complete hour hd => exact absurd rfl (hg.ne_of_mem (Sound.tracked_mem hd))
    | completeCycle hour hd => exact absurd rfl (hg.ne_of_mem (Sound.tracked_mem hd))
    | restart hd => exact absurd rfl (hg.ne_of_mem (Sound.tracked_mem hd))
    | cancel hd => exact absurd rfl (hg.ne_of_mem (Sound.tracked_mem hd))
  · exact (h.sameOthers hs).gone hj hg

/-- What is gone does not advance. -/
theorem Gone.not_advances (hg : e.Gone id) {j : DeedId} (h : Transition e f j outputs e') :
    ∀ o ∈ outputs, o.advances id = false :=
  h.not_advances (fun hmem => hg.2 (List.mem_append_right _ hmem)) fun hmem =>
    absurd (List.mem_append_left _ hmem) hg.2

end Engine

end Deeds
