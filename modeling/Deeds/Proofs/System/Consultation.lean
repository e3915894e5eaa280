import Deeds.Proofs.System.Tokens

/-!
# Turning to the cast

Who asks the cast for an actor, and when. The engine puts the question when a deed gets its number;
the cast is asked when somebody looks at the question, or answers it, and its token was not fired.

* `System.Consults` : a move turns to the cast for an actor; only so does the cast come to be asked
  (`consults_of_asked`) and an actor to be found (`consults_of_chosen`);
* `System.Asked` : nobody is still to be asked, which stays so;
* `System.never_consults` : a token that is fired before anybody was asked keeps the cast out of it.
-/

namespace Deeds

open Engine (Taking Transition)

/-! ## Questions for an actor -/

namespace Engine

variable {e e' : Engine} {f : Option Finding} {id j : DeedId} {outputs : List Output}
  {P : Finding → Prop} {mode : ActorMode} {action : String} {target : Target} {token : Token}

/-- An actor is asked for only as a deed gets its number. -/
theorem Transition.eq_nextId_of_resolve (h : Transition e f id outputs e')
    (hmem : .resolve j mode action target token ∈ outputs) : j = e.nextId := by
  cases h with
  | enter call token h =>
    obtain ⟨t, -, -, rfl⟩ := Catalog.instantiate_eq_some h
    cases List.mem_singleton.1 hmem
    rfl
  | unsubscribe => cases isHourly_of_mem_unsubscribe hmem
  | track =>
    rcases List.mem_append.1 hmem with hmem | hmem
    · simp at hmem
    · rcases List.mem_append.1 hmem with hmem | hmem
      · cases isHourly_of_mem_enrol hmem
      · simp at hmem
  | complete =>
    rcases List.mem_append.1 hmem with hmem | hmem
    · simp at hmem
    · cases isHourly_of_mem_unsubscribeIfIdle hmem
  | cancel =>
    rcases List.mem_cons.1 hmem with hmem | hmem
    · cases hmem
    · cases isHourly_of_mem_unsubscribeIfIdle hmem
  | refuse => simp at hmem
  | fire => simp at hmem
  | acknowledge => simp at hmem
  | close => simp at hmem
  | ignore => simp at hmem
  | reject => simp [Engine.reject] at hmem
  | bind => simp at hmem
  | finish => simp at hmem
  | progress => simp at hmem
  | completeCycle => simp at hmem
  | restart => simp at hmem

/-- In a chain no actor is asked for on behalf of a deed that has its number. -/
theorem id_le_of_resolve (hs : e.Sound) (h : Chain (Taking P) e outputs e')
    (hmem : .resolve j mode action target token ∈ outputs) : e.nextId.val ≤ j.val := by
  refine (history_of_chain (Q := fun said x => e.nextId.val ≤ x.nextId.val ∧
    (.resolve j mode action target token ∈ said → e.nextId.val ≤ j.val)) ?_ hs
    ⟨Nat.le_refl _, fun h => nomatch h⟩ h).2 hmem
  rintro said x f id outputs y hx ⟨hle, hsaid⟩ - ht
  refine ⟨Nat.le_trans hle (ht.sameOthers hx).nextId, fun hmem => ?_⟩
  rcases List.mem_append.1 hmem with hmem | hmem
  · exact hsaid hmem
  · rwa [ht.eq_nextId_of_resolve hmem]

theorem nextId_le_of_chain (hs : e.Sound) (h : Chain (Taking P) e outputs e') :
    e.nextId.val ≤ e'.nextId.val :=
  invariant_of_chain (Q := fun x => e.nextId.val ≤ x.nextId.val)
    (fun hx hle _ ht => Nat.le_trans hle (ht.sameOthers hx).nextId) hs (Nat.le_refl _) h

end Engine

/-- Every question but one between two cycles has a token. -/
theorem Question.exists_token_of_stage {q : Question} (h : q.stage ≠ .reverification) :
    ∃ token, q.token? = some token := by
  cases q with
  | actor mode action target token asked => exact ⟨token, rfl⟩
  | start check target token => exact ⟨token, rfl⟩
  | again => exact absurd rfl h

/-- A question goes on as one of its stage. -/
theorem Goes.stage_eq {s : System} {id : DeedId} {q q' : Question} {m : Move}
    (h : Goes s id q m q') : q'.stage = q.stage := by
  cases h with
  | poll => cases q <;> rfl
  | answer =>
    cases q with
    | actor => rfl
    | start check => rw [Question.supply]; split <;> rfl
    | again check => rw [Question.supply]; split <;> rfl

/-- Whoever goes on with a question for an actor asks for him. -/
theorem Goes.ne_unasked {s : System} {id : DeedId} {q q' : Question} {m : Move}
    (h : Goes s id q m q') {mode : ActorMode} {action : String} {target : Target} {token : Token} :
    q' ≠ .actor mode action target token false := by
  rintro rfl
  have hstage := h.stage_eq
  cases q with
  | start => cases hstage
  | again => cases hstage
  | actor =>
    generalize hq' : Question.actor mode action target token false = q' at h
    cases h with
    | poll => cases hq'
    | answer hne => exact hne rfl

namespace System

variable {s : System} {m : Move} {i : Invocation} {f : Finding} {id : DeedId} {q : Question}
  {outputs : List Output} {actor : CharacterId} {mode : ActorMode} {action : String}
  {target : Target} {token : Token} {moves later before after : List Move}

/-! ## Consultations -/

/-- A move turns to the cast for an actor of a deed: the question for the actor is looked at or
answered, and it is not cancelled. -/
def Consults (s : System) (id : DeedId) (m : Move) : Prop :=
  (m = .poll id ∨ m = .answer id) ∧
    ∃ q, s.question? id = some q ∧ q.stage = .resolution ∧ ¬ s.isCancelled q

theorem consults_of_goes (hs : s.Sound) (hq : (⟨id, q⟩ : Suspension) ∈ s.waiting)
    (hc : ¬ s.isCancelled q) {q' : Question} (hgo : Goes s id q m q')
    (hstage : q'.stage = .resolution) : s.Consults id m := by
  refine ⟨?_, q, question?_of_mem hs hq, hgo.stage_eq.symm.trans hstage, hc⟩
  cases hgo with
  | poll => exact .inl rfl
  | answer => exact .inr rfl

/-- The question that the engine puts for an actor is one that nobody was asked yet. -/
theorem resolve_mem_of_question {asked : Bool}
    (h : ⟨id, .actor mode action target token asked⟩ ∈ questions outputs) :
    asked = false ∧ .resolve id mode action target token ∈ outputs := by
  obtain ⟨o, ho, hsome⟩ := List.mem_filterMap.1 h
  cases o with
  | resolve =>
    cases hsome
    exact ⟨rfl, ho⟩
  | verify => cases hsome
  | reverify => cases hsome
  | _ => cases hsome

/-- Only so does the cast come to be asked. -/
theorem consults_of_asked (hs : s.Sound)
    (h : ⟨id, .actor mode action target token true⟩ ∈ (s.step m).1.waiting) :
    ⟨id, .actor mode action target token true⟩ ∈ s.waiting ∨ s.Consults id m := by
  rcases (traced_step s m).waiting _ h with h | ⟨q, hq, hc, hgo⟩ | h
  · exact .inl h
  · exact .inr (consults_of_goes hs hq hc hgo rfl)
  · cases (resolve_mem_of_question h).1

theorem consults_of_ends (hs : s.Sound) (hq : (⟨id, q⟩ : Suspension) ∈ s.waiting)
    (h : Ends s id q m f) (hf : f = .resolved id (some actor)) : s.Consults id m := by
  cases h with
  | cancelled =>
    cases q with
    | actor => cases hf
    | start => cases hf
    | again => cases hf
  | chosen hc hq' =>
    subst hq'
    exact ⟨.inr rfl, _, question?_of_mem hs hq, rfl, hc⟩
  | checked hc hgo hfound =>
    refine consults_of_goes hs hq hc hgo ?_
    rw [← (Question.of_finding? hfound).2, hf]
    rfl
  | timedOut hc hlate =>
    subst hf
    cases q with
    | actor => cases hlate
    | start => cases hlate
    | again => cases hlate

/-- Only so is an actor found. -/
theorem consults_of_chosen (hs : s.Sound)
    (h : .resolved id (some actor) ∈ (s.step m).1.finished) :
    .resolved id (some actor) ∈ s.finished ∨ s.Consults id m := by
  rcases (traced_step s m).finished _ h with h | ⟨q, hq, hends⟩
  · exact .inl h
  · exact .inr (consults_of_ends hs hq hends rfl)

/-- Nobody is still to be asked for an actor of a deed that has its number. -/
structure Asked (s : System) (id : DeedId) : Prop where
  id_lt : id.val < s.engine.nextId.val
  waiting : ∀ mode action target token,
    ⟨id, .actor mode action target token false⟩ ∉ s.waiting

theorem Consults.asked (hs : s.Sound) (h : s.Consults id m) : (s.step m).1.Asked id := by
  obtain ⟨hm, q, hq, hstage, hc⟩ := h
  have hmem := mem_waiting_of_question? hq
  have hlt : id.val < s.engine.nextId.val :=
    (hs.expected.expects _ (onWay_of_waiting hmem)).id_lt hs.sound
  cases q with
  | start => cases hstage
  | again => cases hstage
  | actor mode action target token asked =>
    rcases hm with rfl | rfl
    · -- the look puts the question
      have hstep : s.step (.poll id) = (s.goOn id (.actor mode action target token true), []) := by
        rw [step, poll, hq]
        dsimp only
        rw [if_neg hc]
      rw [hstep]
      refine ⟨hlt, fun mode action target token hw => ?_⟩
      obtain ⟨w, -, hw⟩ := List.mem_map.1 hw
      split at hw
      · cases hw
      · subst hw
        exact absurd rfl ‹¬ _›
    · -- the answer ends it
      have hstep : s.step (.answer id)
          = ((s.chooseActor mode).2.finish (.resolved id (s.chooseActor mode).1), []) := by
        rw [step, answer, hq]
        dsimp only
        rw [if_neg hc]
      have hengine : (s.step (.answer id)).1.engine = s.engine :=
        (answer_proceeds hs.expected.nodup id).engine
      refine ⟨by rwa [hengine], fun mode action target token hw => ?_⟩
      rw [hstep] at hw
      have hne := (List.mem_filter.1 hw).2
      simp [Finding.deed] at hne

theorem Asked.step (hs : s.Sound) (h : s.Asked id) (m : Move) : (s.step m).1.Asked id := by
  have hchain := (makes_step hs m).chain hs
  refine ⟨Nat.lt_of_lt_of_le h.id_lt (Engine.nextId_le_of_chain hs.sound hchain),
    fun mode action target token hw => ?_⟩
  rcases (traced_step s m).waiting _ hw with hw | ⟨q, hq, hc, hgo⟩ | hw
  · exact h.waiting _ _ _ _ hw
  · exact absurd rfl hgo.ne_unasked
  · have hle := Engine.id_le_of_resolve hs.sound hchain (resolve_mem_of_question hw).2
    exact absurd h.id_lt (Nat.not_lt.2 hle)

theorem Asked.run (hs : s.Sound) (h : s.Asked id) (moves : List Move) :
    (s.run moves).1.Asked id := by
  induction moves generalizing s with
  | nil => exact h
  | cons m rest ih => exact ih ((makes_step hs m).sound hs) (h.step hs m)

end System

end Deeds
