import Deeds.Proofs.System.Perform

/-!
# How questions go on

A look at a question, an answer to it and the end of its time concern one deed and leave the engine
alone. The question ends with one finding of its stage, or stays.

* `System.Proceeds` : what these moves have in common;
* `System.poll_proceeds`, `System.answer_proceeds`, `System.expire_proceeds`.
-/

namespace Deeds

/-! ## Findings of a question -/

namespace Question

variable {q q' : Question} {deed : DeedId} {f : Finding}

theorem deed_cancelled : (q.cancelled deed).deed = deed := by
  cases q <;> rfl

theorem stage_cancelled : (q.cancelled deed).stage = q.stage := by
  cases q <;> rfl

theorem of_timedOut (h : q.timedOut deed = some f) : f.deed = deed ∧ f.stage = q.stage := by
  cases q with
  | actor => cases h
  | start => cases h; exact ⟨rfl, rfl⟩
  | again => cases h; exact ⟨rfl, rfl⟩

theorem of_finding? (h : q.finding? deed = some f) : f.deed = deed ∧ f.stage = q.stage := by
  cases q with
  | actor => cases h
  | start =>
    obtain ⟨v, -, rfl⟩ := Option.map_eq_some_iff.1 h
    exact ⟨rfl, rfl⟩
  | again =>
    obtain ⟨v, -, rfl⟩ := Option.map_eq_some_iff.1 h
    exact ⟨rfl, rfl⟩

end Question

/-- A list with one entry for each key is the entry of a key and all others. -/
theorem perm_cons_filter {α κ : Type} [DecidableEq κ] {key : α → κ} {l : List α} {x : α}
    (hn : (l.map key).Nodup) (hx : x ∈ l) : l.Perm (x :: l.filter (key · != key x)) := by
  induction l with
  | nil => cases hx
  | cons y l ih =>
    obtain ⟨hy, hn⟩ := List.nodup_cons.1 hn
    rcases List.mem_cons.1 hx with rfl | hx
    · have hall : ∀ z ∈ l, (key z != key x) = true := fun z hz => by
        rw [bne_iff_ne]
        exact fun h => hy (List.mem_map.2 ⟨z, hz, h⟩)
      rw [List.filter_cons, bne_self_eq_false, if_neg Bool.false_ne_true,
        List.filter_eq_self.2 hall]
    · have hne : (key y != key x) = true := by
        rw [bne_iff_ne]
        exact fun h => hy (List.mem_map.2 ⟨x, hx, h.symm⟩)
      rw [List.filter_cons, if_pos hne]
      exact ((ih hn hx).cons y).trans (.swap x y _)

namespace System

/-- Questions went on or stayed as they are, and the engine was not concerned. A fired token stays
fired, and its question can only end as cancelled. -/
structure Proceeds (s t : System) : Prop where
  engine : t.engine = s.engine
  fired : ∀ token ∈ s.fired, token ∈ t.fired
  onWay : t.onWay.Perm s.onWay
  waiting : ∀ w ∈ t.waiting, ∃ w' ∈ s.waiting, w'.deed = w.deed ∧
    w'.question.token? = w.question.token?
  finished : ∀ f ∈ t.finished, f ∈ s.finished ∨
    ∃ w ∈ s.waiting, w.deed = f.deed ∧ w.question.stage = f.stage ∧
      (s.isCancelled w.question → f = w.question.cancelled w.deed)

variable {s t : System} {deed : DeedId} {q q' : Question} {f : Finding}

/-- No question goes on. -/
theorem Proceeds.of_same (engine : t.engine = s.engine) (fired : ∀ token ∈ s.fired, token ∈ t.fired)
    (waiting : t.waiting = s.waiting) (finished : t.finished = s.finished) : Proceeds s t where
  engine := engine
  fired := fired
  onWay := by rw [System.onWay, System.onWay, waiting, finished]
  waiting w hw := ⟨w, waiting ▸ hw, rfl, rfl⟩
  finished _ hf := .inl (finished ▸ hf)

theorem Proceeds.refl (s : System) : Proceeds s s := .of_same rfl (fun _ h => h) rfl rfl

theorem fire_proceeds (s : System) (token : Token) : Proceeds s (s.fire token) :=
  .of_same rfl (fun _ h => List.mem_cons_of_mem _ h) rfl rfl

theorem Proceeds.of_world {world : World} (h : Proceeds { s with world } t) : Proceeds s t where
  engine := h.engine
  fired := h.fired
  onWay := h.onWay
  waiting := h.waiting
  finished := h.finished

theorem nodup_waiting (hn : (s.onWay.map Prod.fst).Nodup) :
    (s.waiting.map Suspension.deed).Nodup := by
  rw [onWay, List.map_append, List.map_map, List.map_map] at hn
  exact (List.nodup_append.1 hn).2.1

theorem mem_waiting_of_question? (h : s.question? deed = some q) :
    (⟨deed, q⟩ : Suspension) ∈ s.waiting := by
  obtain ⟨w, hw, rfl⟩ := Option.map_eq_some_iff.1 h
  have hd : w.deed = deed := by simpa using List.find?_some hw
  rw [← hd]
  exact List.mem_of_find?_eq_some hw

/-- A question ends with a finding of its stage. -/
theorem finish_proceeds (hn : (s.onWay.map Prod.fst).Nodup)
    (hq : (⟨f.deed, q⟩ : Suspension) ∈ s.waiting) (hstage : f.stage = q.stage)
    (hc : s.isCancelled q → f = q.cancelled f.deed) :
    Proceeds s (s.finish f) where
  engine := rfl
  fired _ h := h
  onWay := by
    have hp := (perm_cons_filter (nodup_waiting hn) hq).map fun w => (w.deed, w.question.stage)
    rw [onWay, onWay, finish, lose, List.map_append, List.append_assoc, List.map_singleton, hstage]
    exact hp.symm.append_left _
  waiting w hw := ⟨w, (List.mem_filter.1 hw).1, rfl, rfl⟩
  finished g hg := by
    rcases List.mem_append.1 hg with hg | hg
    · exact .inl hg
    · rw [List.mem_singleton.1 hg]
      exact .inr ⟨_, hq, rfl, hstage.symm, hc⟩

/-- A question becomes another one of its stage and token, or ends. -/
theorem goOn_proceeds (hn : (s.onWay.map Prod.fst).Nodup)
    (hq : (⟨deed, q⟩ : Suspension) ∈ s.waiting) (hstage : q'.stage = q.stage)
    (htoken : q'.token? = q.token?) (hc : ¬ s.isCancelled q) :
    Proceeds s (s.goOn deed q') := by
  unfold goOn
  split
  · rename_i f hf
    obtain ⟨hd, hst⟩ := Question.of_finding? hf
    subst hd
    exact finish_proceeds hn hq (hst.trans hstage) fun h => absurd h hc
  · -- the only question of the deed is the one that goes on
    have hone : ∀ w ∈ s.waiting, w.deed = deed → w = ⟨deed, q⟩ := fun w hw hd =>
      List.inj_on_of_nodup_map (nodup_waiting hn) hw hq hd
    refine ⟨rfl, fun _ h => h, ?_, fun w hw => ?_, fun f hf => .inl hf⟩
    · refine .of_eq (congrArg (s.finished.map _ ++ ·) ?_)
      rw [List.map_map]
      refine List.map_congr_left fun w hw => ?_
      simp only [Function.comp_apply]
      split
      · rename_i hd
        rw [hone w hw hd, hstage]
      · rfl
    · obtain ⟨w', hw', rfl⟩ := List.mem_map.1 hw
      refine ⟨w', hw', ?_⟩
      split
      · rename_i hd
        rw [hone w' hw' hd, htoken]
        exact ⟨rfl, rfl⟩
      · exact ⟨rfl, rfl⟩

/-- A question whose token was fired ends as cancelled. -/
theorem cancelled_proceeds (hn : (s.onWay.map Prod.fst).Nodup) (hq : s.question? deed = some q) :
    Proceeds s (s.finish (q.cancelled deed)) := by
  refine finish_proceeds hn ?_ Question.stage_cancelled ?_
  · rw [Question.deed_cancelled]
    exact mem_waiting_of_question? hq
  · intro _
    rw [Question.deed_cancelled]

theorem poll_proceeds (hn : (s.onWay.map Prod.fst).Nodup) (deed : DeedId) :
    Proceeds s (s.poll deed) := by
  unfold poll
  cases hq : s.question? deed with
  | none => exact .refl s
  | some q =>
    dsimp only
    split
    · exact cancelled_proceeds hn hq
    · have hmem := mem_waiting_of_question? hq
      cases q with
      | actor => exact goOn_proceeds hn hmem rfl rfl ‹_›
      | start => exact goOn_proceeds hn hmem rfl rfl ‹_›
      | again => exact goOn_proceeds hn hmem rfl rfl ‹_›

theorem answer_proceeds (hn : (s.onWay.map Prod.fst).Nodup) (deed : DeedId) :
    Proceeds s (s.answer deed) := by
  unfold answer
  cases hq : s.question? deed with
  | none => exact .refl s
  | some q =>
    dsimp only
    split
    · exact cancelled_proceeds hn hq
    · have hmem := mem_waiting_of_question? hq
      cases q with
      | actor mode action target token asked =>
        cases mode with
        | personal => exact finish_proceeds hn hmem rfl fun h => absurd h ‹_›
        | organization =>
          refine .of_world (finish_proceeds (s := { s with world := _ }) hn hmem rfl ?_)
          exact fun h => absurd h ‹_›
      | start check =>
        dsimp only
        split
        · exact goOn_proceeds hn hmem rfl rfl ‹_›
        · exact goOn_proceeds hn hmem rfl rfl ‹_›
      | again check =>
        dsimp only
        split
        · exact goOn_proceeds hn hmem rfl rfl ‹_›
        · exact goOn_proceeds hn hmem rfl rfl ‹_›

theorem expire_proceeds (hn : (s.onWay.map Prod.fst).Nodup) (deed : DeedId) :
    Proceeds s (s.expire deed) := by
  unfold expire
  cases hq : s.question? deed with
  | none => exact .refl s
  | some q =>
    dsimp only
    split
    · exact cancelled_proceeds hn hq
    · split
      · rename_i f hf
        obtain ⟨hd, hst⟩ := Question.of_timedOut hf
        subst hd
        exact finish_proceeds hn (mem_waiting_of_question? hq) hst fun h => absurd h ‹_›
      · exact .refl s

/-! ## What questions leave alone -/

/-- Only questions and findings change as a question goes on. -/
theorem goOn_eq (s : System) (deed : DeedId) (q : Question) :
    s.goOn deed q =
      { s with
        waiting := (s.goOn deed q).waiting
        finished := (s.goOn deed q).finished } := by
  unfold goOn
  split <;> rfl

theorem poll_eq (s : System) (deed : DeedId) :
    s.poll deed =
      { s with
        waiting := (s.poll deed).waiting
        finished := (s.poll deed).finished } := by
  unfold poll
  cases s.question? deed with
  | none => rfl
  | some q =>
    dsimp only
    split
    · rfl
    · cases q <;> exact goOn_eq s deed _

theorem expire_eq (s : System) (deed : DeedId) :
    s.expire deed =
      { s with
        waiting := (s.expire deed).waiting
        finished := (s.expire deed).finished } := by
  unfold expire
  cases s.question? deed with
  | none => rfl
  | some q =>
    dsimp only
    split
    · rfl
    · split <;> rfl

/-- The cast may use up a queued answer as it chooses. -/
theorem answer_eq (s : System) (deed : DeedId) :
    s.answer deed =
      { s with
        world := (s.answer deed).world
        waiting := (s.answer deed).waiting
        finished := (s.answer deed).finished } := by
  unfold answer
  cases s.question? deed with
  | none => rfl
  | some q =>
    dsimp only
    split
    · rfl
    · cases q with
      | actor mode => cases mode <;> rfl
      | start check =>
        dsimp only
        split
        · rw [goOn_eq]
        · rw [goOn_eq]
      | again check =>
        dsimp only
        split
        · rw [goOn_eq]
        · rw [goOn_eq]

end System

end Deeds
