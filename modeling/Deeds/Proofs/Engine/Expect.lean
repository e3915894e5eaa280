import Deeds.Proofs.Engine.Step

/-!
# What a deed waits for

A deed that waits has asked one question and gets one answer. `Expected e onWay` says that the list
`onWay`, of all that is on the way to the engine, holds at most one answer for each deed, and only
answers that a live deed waits for or that come too late. `NoneLost e onWay` says that none is
missing.

* `Engine.asked` : the answers that outputs ask for;
* `Engine.awaits_iff` : what a live deed waits for is told by its phase;
* `Expected.own`, `Expected.taken` : every transition keeps the answers in order;
* `NoneLost.own`, `NoneLost.taken` : and none is lost.
-/

namespace Deeds

/-- The stage that a deed of this phase waits for. -/
def Deed.stage? (d : Deed) : Option Stage :=
  match d.phase with
  | .resolving => some .resolution
  | .verifying => some .verification
  | .reverifying => some .reverification
  | _ => none

/-- The answer that an output asks for. -/
def Output.asks? : Output → Option (DeedId × Stage)
  | .resolve deed .. => some (deed, .resolution)
  | .verify deed .. => some (deed, .verification)
  | .reverify deed .. => some (deed, .reverification)
  | _ => none

theorem Output.asks?_of_isHourly {o : Output} (h : o.isHourly) : o.asks? = none := by
  obtain rfl | rfl | ⟨_, rfl⟩ := cases_of_isHourly h <;> rfl

namespace Engine

/-- The answers that outputs ask for. -/
def asked (outputs : List Output) : List (DeedId × Stage) := outputs.filterMap Output.asks?

theorem asked_append (xs ys : List Output) : asked (xs ++ ys) = asked xs ++ asked ys :=
  List.filterMap_append

theorem asked_of_isHourly {outputs : List Output} (h : ∀ o ∈ outputs, o.isHourly) :
    asked outputs = [] :=
  List.filterMap_eq_nil_iff.2 fun o ho => o.asks?_of_isHourly (h o ho)

/-- An answer that a live deed waits for, or one that comes too late. -/
def Expects (e : Engine) (id : DeedId) (stage : Stage) : Prop :=
  e.Awaits id stage ∨ (stage = .reverification ∧ e.Gone id)

variable {e e' : Engine} {f : Option Finding} {id j : DeedId} {outputs : List Output}
  {stage : Stage} {d : Deed} {onWay : List (DeedId × Stage)}

/-! ## Phases and stages -/

theorem awaits_iff (hs : e.Sound) :
    e.Awaits id stage ↔ ∃ d ∈ e.deeds, d.id = id ∧ d.stage? = some stage := by
  have starting : ∀ i ∈ e.pending, i.deed.phase = .resolving ∨ i.deed.phase = .verifying :=
    fun i hi => (hs.starting i hi).1.imp And.left And.left
  have running : ∀ d ∈ e.tracker.deeds, d.phase = .pending ∨ d.phase = .reverifying :=
    fun d hd => (hs.running d hd).1.imp_right And.left
  constructor
  · intro h
    cases stage with
    | resolution =>
      obtain ⟨i, hi, hid, hp⟩ := h
      exact ⟨i.deed, Sound.deed_mem hi, hid, by rw [Deed.stage?, hp]⟩
    | verification =>
      obtain ⟨i, hi, hid, hp⟩ := h
      exact ⟨i.deed, Sound.deed_mem hi, hid, by rw [Deed.stage?, hp]⟩
    | reverification =>
      obtain ⟨d, hd, hid, hp⟩ := h
      exact ⟨d, Sound.tracked_mem hd, hid, by rw [Deed.stage?, hp]⟩
  · rintro ⟨d, hd, hid, hstage⟩
    rcases mem_deeds.1 hd with ⟨i, hi, rfl⟩ | hd
    · rcases starting i hi with hp | hp
      · rw [Deed.stage?, hp] at hstage
        cases hstage
        exact ⟨i, hi, hid, hp⟩
      · rw [Deed.stage?, hp] at hstage
        cases hstage
        exact ⟨i, hi, hid, hp⟩
    · rcases running d hd with hp | hp
      · rw [Deed.stage?, hp] at hstage
        cases hstage
      · rw [Deed.stage?, hp] at hstage
        cases hstage
        exact ⟨d, hd, hid, hp⟩

theorem mem_ids_of_awaits (hs : e.Sound) (h : e.Awaits id stage) : id ∈ e.ids := by
  obtain ⟨d, hd, hid, -⟩ := (awaits_iff hs).1 h
  exact mem_ids.2 ⟨d, hd, hid⟩

/-- What comes for a live deed is what the deed waits for. -/
theorem expects_iff (hs : e.Sound) (hd : d ∈ e.deeds) :
    e.Expects d.id stage ↔ d.stage? = some stage := by
  rw [Expects, awaits_iff hs]
  constructor
  · rintro (⟨x, hx, hid, hstage⟩ | ⟨-, -, hnot⟩)
    · rwa [deed_unique hs.nodup hx hd hid] at hstage
    · exact absurd (mem_ids.2 ⟨d, hd, rfl⟩) hnot
  · exact fun h => .inl ⟨d, hd, rfl, h⟩

theorem Expects.id_lt (hs : e.Sound) (h : e.Expects id stage) : id.val < e.nextId.val := by
  rcases h with h | ⟨-, hlt, -⟩
  · obtain ⟨d, hd, rfl, -⟩ := (awaits_iff hs).1 h
    exact hs.id_lt d hd
  · exact hlt

/-! ## Other deeds -/

theorem SameOthers.awaits_iff (h : SameOthers e id e') (hj : j ≠ id) :
    e'.Awaits j stage ↔ e.Awaits j stage := by
  have pending : ∀ phase, (∃ i ∈ e'.pending, i.deed.id = j ∧ i.deed.phase = phase) ↔
      ∃ i ∈ e.pending, i.deed.id = j ∧ i.deed.phase = phase := fun phase =>
    exists_congr fun i => and_congr_left fun hi => h.pending i (hi.1 ▸ hj)
  cases stage with
  | resolution => exact pending _
  | verification => exact pending _
  | reverification => exact exists_congr fun d => and_congr_left fun hd => h.tracked d (hd.1 ▸ hj)

theorem SameOthers.expects (h : SameOthers e id e') (hj : j ≠ id) (hx : e.Expects j stage) :
    e'.Expects j stage := by
  rcases hx with hx | ⟨hstage, hg⟩
  · exact .inl ((h.awaits_iff hj).2 hx)
  · exact .inr ⟨hstage, h.gone hj hg⟩

theorem SameDeeds.awaits_iff (h : SameDeeds e e') : e'.Awaits id stage ↔ e.Awaits id stage := by
  cases stage <;> simp only [Awaits, h.pending, h.tracked]

theorem SameDeeds.expects_iff (h : SameDeeds e e') :
    e'.Expects id stage ↔ e.Expects id stage := by
  rw [Expects, Expects, h.awaits_iff, h.gone_iff]

/-! ## The deed of a transition -/

/-- What a changed deed waits for. -/
theorem Sound.Update.awaits_iff {p : Option Invocation} {t : Option Deed} (hs : e.Sound)
    (h : Sound.Update e id p t e') :
    e'.Awaits id stage ↔
      (∃ i, p = some i ∧ i.deed.stage? = some stage) ∨ ∃ d, t = some d ∧ d.stage? = some stage := by
  simp only [Engine.awaits_iff (hs.of_update h), Sound.mem_deeds_rewrites h.toRewrites]
  constructor
  · rintro ⟨d, hd | ⟨i, hi, rfl⟩ | hd, hid, hstage⟩
    · exact absurd hid hd.2
    · exact .inl ⟨i, hi, hstage⟩
    · exact .inr ⟨d, hd, hstage⟩
  · rintro (⟨i, hi, hstage⟩ | ⟨d, hd, hstage⟩)
    · exact ⟨i.deed, .inr (.inl ⟨i, hi, rfl⟩), (h.starting i hi).2.id_eq, hstage⟩
    · exact ⟨d, .inr (.inr hd), (h.running d hd).2.id_eq, hstage⟩

/-- A deed that is gone waits for nothing. -/
theorem Sound.Update.not_awaits (hs : e.Sound) (h : Sound.Update e id none none e') :
    ¬ e'.Awaits id stage := by
  rw [h.awaits_iff hs]
  rintro (⟨_, h, -⟩ | ⟨_, h, -⟩)
  · cases h
  · cases h

theorem asked_enrol : asked (e.enrol d).2 = [] := asked_of_isHourly fun _ => isHourly_of_mem_enrol

theorem asked_unsubscribe : asked e.unsubscribe.2 = [] :=
  asked_of_isHourly fun _ => isHourly_of_mem_unsubscribe

theorem asked_unsubscribeIfIdle : asked e.unsubscribeIfIdle.2 = [] :=
  asked_of_isHourly fun _ => isHourly_of_mem_unsubscribeIfIdle

theorem not_expects_nextId (hs : e.Sound) : ¬ e.Expects e.nextId stage := fun h =>
  Nat.lt_irrefl _ (h.id_lt hs)

/-- A deed that progresses waits for nothing. -/
theorem not_expects_of_pending (hs : e.Sound) (hd : d ∈ e.tracker.deeds) (hp : d.phase = .pending) :
    ¬ e.Expects d.id stage := by
  rw [expects_iff hs (Sound.tracked_mem hd), Deed.stage?, hp]
  exact fun h => nomatch h

namespace Transition

/-- A transition asks at most one question, on behalf of its own deed, which then waits for the
answer. Without a finding it asks only for a deed that waited for nothing. -/
theorem asked_cases (hs : e.Sound) (h : Transition e f id outputs e') :
    asked outputs = [] ∨ ∃ stage, asked outputs = [(id, stage)] ∧ e'.Awaits id stage ∧
      (f = none → ∀ stage, ¬ e.Expects id stage) := by
  cases h with
  | refuse => exact .inl rfl
  | enter call token h =>
    have hup := update_enter hs call token h
    obtain ⟨t, -, -, rfl⟩ := Catalog.instantiate_eq_some h
    exact .inr ⟨.resolution, rfl, (hup.awaits_iff hs).2 (.inl ⟨_, rfl, rfl⟩),
      fun _ _ => not_expects_nextId hs⟩
  | fire => exact .inl rfl
  | acknowledge => exact .inl rfl
  | close => exact .inl rfl
  | unsubscribe => exact .inl asked_unsubscribe
  | ignore => exact .inl rfl
  | reject => exact .inl rfl
  | bind hi hfree hd =>
    have hup := update_bind hs hi hfree hd
    obtain ⟨-, rfl⟩ := Deed.assign?_eq_some hd
    exact .inr ⟨.verification, rfl, (hup.awaits_iff hs).2 (.inl ⟨_, rfl, rfl⟩),
      fun h => nomatch h⟩
  | finish => exact .inl rfl
  | track =>
    rw [asked_append, asked_append, asked_enrol]
    exact .inl rfl
  | progress => exact .inl rfl
  | complete =>
    rw [asked_append, asked_unsubscribeIfIdle]
    exact .inl rfl
  | completeCycle hour hd ha hactor hm =>
    have hup := update_completeCycle hs hd ha hm
    have hp := (Deed.advance_eq_completed ha).1
    exact .inr ⟨.reverification, rfl, (hup.awaits_iff hs).2 (.inr ⟨_, rfl, rfl⟩),
      fun _ _ => not_expects_of_pending hs hd hp⟩
  | restart => exact .inl rfl
  | cancel =>
    rw [asked, List.filterMap_cons]
    exact .inl asked_unsubscribeIfIdle

/-- A deed that waits after a transition waits for what was just asked, or did so before. -/
theorem awaits_of (hs : e.Sound) (h : Transition e f id outputs e')
    (hx : ∀ g, f = some g → e.Expects id g.stage) (hw : e'.Awaits id stage) :
    (id, stage) ∈ asked outputs ∨ (f = none ∧ e.Awaits id stage) := by
  cases h with
  | refuse => exact .inr ⟨rfl, hw⟩
  | enter call token h =>
    have hup := update_enter hs call token h
    obtain ⟨t, -, -, rfl⟩ := Catalog.instantiate_eq_some h
    rcases (hup.awaits_iff hs).1 hw with ⟨i, hi, hstage⟩ | ⟨d, hd, -⟩
    · cases hi
      cases hstage
      exact .inl List.mem_cons_self
    · cases hd
  | fire => exact .inr ⟨rfl, hw⟩
  | acknowledge => exact .inr ⟨rfl, hw⟩
  | close => exact .inr ⟨rfl, hw⟩
  | unsubscribe => exact .inr ⟨rfl, sameDeeds_unsubscribe.awaits_iff.1 hw⟩
  | ignore hnot =>
    rcases hx _ rfl with h | ⟨-, -, h⟩
    · exact absurd h hnot
    · exact absurd (mem_ids_of_awaits hs hw) h
  | reject error hi =>
    exact absurd hw ((update_dropPending hs hi rfl rfl).not_awaits hs)
  | bind hi hfree hd =>
    have hup := update_bind hs hi hfree hd
    obtain ⟨-, rfl⟩ := Deed.assign?_eq_some hd
    rcases (hup.awaits_iff hs).1 hw with ⟨i, hi, hstage⟩ | ⟨d, hd, -⟩
    · cases hi
      cases hstage
      exact .inl List.mem_cons_self
    · cases hd
  | finish hi hmet hd =>
    exact absurd hw ((update_finish hs hi hd).not_awaits hs)
  | track hi hmet hd ha hm =>
    rcases ((update_track hs hi hd ha hm).awaits_iff hs).1 hw with ⟨_, h, -⟩ | ⟨d, hd, hstage⟩
    · cases h
    · cases hd
      cases hstage
  | progress hour hd ha =>
    rcases ((update_progress hs hd ha).awaits_iff hs).1 hw with ⟨_, h, -⟩ | ⟨d, hd, hstage⟩
    · cases h
    · cases hd
      obtain ⟨hp, rfl⟩ := Deed.advance_eq_progressed ha
      rw [Deed.stage?, hp] at hstage
      cases hstage
  | complete hour hd =>
    exact absurd hw ((update_dropTracked hs hd).not_awaits hs)
  | completeCycle hour hd ha hactor hm =>
    rcases ((update_completeCycle hs hd ha hm).awaits_iff hs).1 hw with ⟨_, h, -⟩ | ⟨d, hd, hstage⟩
    · cases h
    · cases hd
      cases hstage
      exact .inl List.mem_cons_self
  | restart hd =>
    rcases ((update_restart hs hd _).awaits_iff hs).1 hw with ⟨_, h, -⟩ | ⟨d, hd, hstage⟩
    · cases h
    · cases hd
      cases hstage
  | cancel hd =>
    exact absurd hw ((update_dropTracked hs hd).not_awaits hs)

/-- A deed that does something of its own accord waited for nothing, unless it is cancelled. -/
theorem expects_own (hs : e.Sound) (h : Transition e none id outputs e')
    (hx : e.Expects j stage) : e'.Expects j stage := by
  by_cases hj : j = id
  · subst hj
    cases h with
    | refuse => exact hx
    | enter call token h =>
      obtain ⟨t, -, -, rfl⟩ := Catalog.instantiate_eq_some h
      exact absurd hx (not_expects_nextId hs)
    | fire => exact hx
    | acknowledge => exact hx
    | close => exact hx
    | unsubscribe => exact sameDeeds_unsubscribe.expects_iff.2 hx
    | progress hour hd ha =>
      exact absurd hx (not_expects_of_pending hs hd (Deed.advance_eq_progressed ha).1)
    | complete hour hd ha =>
      exact absurd hx (not_expects_of_pending hs hd (Deed.advance_eq_completed ha).1)
    | completeCycle hour hd ha =>
      exact absurd hx (not_expects_of_pending hs hd (Deed.advance_eq_completed ha).1)
    | cancel hd =>
      have hup := update_dropTracked hs hd
      have hstage := (expects_iff hs (Sound.tracked_mem hd)).1 hx
      refine .inr ⟨?_, hup.isGone (hx.id_lt hs)⟩
      rcases (hs.running _ hd).1 with hp | ⟨hp, -⟩
      · rw [Deed.stage?, hp] at hstage
        cases hstage
      · rw [Deed.stage?, hp] at hstage
        exact (Option.some.inj hstage).symm
  · exact (h.sameOthers hs).expects hj hx

end Transition

/-! ## All answers on their way -/

/-- On the way are only answers that are expected, and for each deed at most one. -/
structure Expected (e : Engine) (onWay : List (DeedId × Stage)) : Prop where
  nodup : (onWay.map Prod.fst).Nodup
  expects : ∀ p ∈ onWay, e.Expects p.1 p.2

/-- Every deed that waits has its answer on the way. -/
def NoneLost (e : Engine) (onWay : List (DeedId × Stage)) : Prop :=
  ∀ id stage, e.Awaits id stage → (id, stage) ∈ onWay

theorem Expected.perm {l l' : List (DeedId × Stage)} (h : Expected e l) (hp : l.Perm l') :
    Expected e l' where
  nodup := (hp.map Prod.fst).nodup_iff.1 h.nodup
  expects p hp' := h.expects p (hp.mem_iff.2 hp')

theorem Expected.sublist {l l' : List (DeedId × Stage)} (h : Expected e l) (hsub : l'.Sublist l) :
    Expected e l' where
  nodup := h.nodup.sublist (hsub.map Prod.fst)
  expects p hp := h.expects p (hsub.subset hp)

theorem NoneLost.perm {l l' : List (DeedId × Stage)} (h : NoneLost e l) (hp : l.Perm l') :
    NoneLost e l' := fun id stage hw => hp.mem_iff.1 (h id stage hw)

/-- A deed without an answer on the way may ask. -/
theorem Expected.ask (h : Expected e onWay) (hw : e.Awaits id stage) (hne : ∀ p ∈ onWay, p.1 ≠ id) :
    Expected e (onWay ++ [(id, stage)]) where
  nodup := by
    rw [List.map_append, List.nodup_append]
    refine ⟨h.nodup, List.nodup_singleton _, fun j hj k hk => ?_⟩
    obtain ⟨p, hp, rfl⟩ := List.mem_map.1 hj
    rw [List.map_singleton, List.mem_singleton] at hk
    rw [hk]
    exact hne p hp
  expects p hp := by
    rcases List.mem_append.1 hp with hp | hp
    · exact h.expects p hp
    · rw [List.mem_singleton.1 hp]
      exact .inl hw

/-- What the engine does of its own accord keeps the answers in order. -/
theorem Expected.own (hs : e.Sound) (h : Expected e onWay) (ht : Transition e none id outputs e') :
    Expected e' (onWay ++ asked outputs) := by
  have hkeep : Expected e' onWay := ⟨h.nodup, fun p hp => ht.expects_own hs (h.expects p hp)⟩
  rcases ht.asked_cases hs with hnil | ⟨stage, hone, hw, hnot⟩
  · rwa [hnil, List.append_nil]
  · rw [hone]
    exact hkeep.ask hw fun p hp hid => hnot rfl p.2 (hid ▸ h.expects p hp)

/-- An answer that is taken makes room for the next one. -/
theorem Expected.taken (hs : e.Sound) (h : Expected e ((id, stage) :: onWay))
    (ht : Transition e f id outputs e') : Expected e' (onWay ++ asked outputs) := by
  have hne : ∀ p ∈ onWay, p.1 ≠ id := fun p hp hid =>
    (List.nodup_cons.1 h.nodup).1 (List.mem_map.2 ⟨p, hp, hid⟩)
  have hkeep : Expected e' onWay :=
    ⟨(List.nodup_cons.1 h.nodup).2, fun p hp =>
      (ht.sameOthers hs).expects (hne p hp) (h.expects p (List.mem_cons_of_mem _ hp))⟩
  rcases ht.asked_cases hs with hnil | ⟨stage, hone, hw, -⟩
  · rwa [hnil, List.append_nil]
  · rw [hone]
    exact hkeep.ask hw hne

theorem NoneLost.own (hs : e.Sound) (h : NoneLost e onWay) (ht : Transition e none id outputs e') :
    NoneLost e' (onWay ++ asked outputs) := by
  intro j stage hw
  by_cases hj : j = id
  · subst hj
    rcases ht.awaits_of hs (fun _ h => nomatch h) hw with hmem | ⟨-, hw⟩
    · exact List.mem_append_right _ hmem
    · exact List.mem_append_left _ (h j stage hw)
  · exact List.mem_append_left _ (h j stage (((ht.sameOthers hs).awaits_iff hj).1 hw))

theorem NoneLost.taken (hs : e.Sound) {g : Finding} (h : NoneLost e ((id, g.stage) :: onWay))
    (hx : e.Expects id g.stage) (ht : Transition e (some g) id outputs e') :
    NoneLost e' (onWay ++ asked outputs) := by
  intro j stage hw
  by_cases hj : j = id
  · subst hj
    rcases ht.awaits_of hs (fun _ hg => Option.some.inj hg ▸ hx) hw with hmem | ⟨hnone, -⟩
    · exact List.mem_append_right _ hmem
    · cases hnone
  · rcases List.mem_cons.1 (h j stage (((ht.sameOthers hs).awaits_iff hj).1 hw)) with heq | hmem
    · exact absurd (congrArg Prod.fst heq) hj
    · exact List.mem_append_left _ hmem

end Engine

end Deeds
