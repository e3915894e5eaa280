import Deeds.Proofs.System.Question
import Mathlib.Data.List.Perm.Basic

/-!
# Sound systems

`System.Sound` says what holds of a system after any moves: its engine is sound, what is on its way
to the engine is expected there, and a question can be cancelled by the token of its invocation.

* `System.Makes` : all that a move can do;
* `Makes.sound`, `Makes.chain` : a move keeps soundness, and the engine makes a chain of
  transitions, which take no finding but the one of the move;
* `Makes.noneLost` : no answer is lost unless a collaborator fails;
* `System.run_sound`, `System.run_chain`, `System.run_noneLost` : the same for moves in any order.
-/

namespace Deeds

open Engine (Own Taking Transition Expected NoneLost)

/-! ## Tokens of questions -/

namespace Engine

/-- Questions with a token are those of pending deeds, and have the token of the invocation. -/
def Cancels (e : Engine) (questions : List Suspension) : Prop :=
  ∀ w ∈ questions, ∀ token, w.question.token? = some token →
    ∃ i ∈ e.pending, i.deed.id = w.deed ∧ i.token = token

variable {e e' : Engine} {f : Option Finding} {id : DeedId} {outputs : List Output}
  {waiting : List Suspension} {i : Invocation}

/-- Of its own accord the engine ends no invocation. -/
theorem Transition.pending_own (hs : e.Sound) (h : Transition e none id outputs e')
    (hi : i ∈ e.pending) : i ∈ e'.pending := by
  by_cases hid : i.deed.id = id
  · cases h with
    | refuse => exact hi
    | enter => exact List.mem_append_left _ hi
    | fire => exact hi
    | acknowledge => exact hi
    | close => exact hi
    | unsubscribe => rwa [sameDeeds_unsubscribe.pending]
    | progress hour hd => exact absurd hid (hs.id_ne hi hd)
    | complete hour hd => exact absurd hid (hs.id_ne hi hd)
    | completeCycle hour hd => exact absurd hid (hs.id_ne hi hd)
    | cancel hd => exact absurd hid (hs.id_ne hi hd)
  · exact ((h.sameOthers hs).pending i hid).2 hi

theorem questions_eq_nil (h : asked outputs = []) : System.questions outputs = [] := by
  rw [System.asked_eq_map_questions] at h
  exact List.map_eq_nil_iff.1 h

/-- What a transition of a deed asks: an actor under the token of the invocation, a check of the
conditions as they are then, or nothing. -/
inductive Asks (e' : Engine) (id : DeedId) : List Suspension → Prop
  | nothing : Asks e' id []
  | actor {i : Invocation} {mode : ActorMode} {action : String} {target : Target}
      (hi : i ∈ e'.pending) (hid : i.deed.id = id) :
      Asks e' id [⟨id, .actor mode action target i.token false⟩]
  | start {i : Invocation} (hi : i ∈ e'.pending) (hid : i.deed.id = id) :
      Asks e' id
        [⟨id, .start (.begin i.deed.target i.deed.freshConditions) i.deed.target i.token⟩]
  | again {d : Deed} (hd : d ∈ e'.tracker.deeds) (hid : d.id = id) :
      Asks e' id [⟨id, .again (.begin d.target d.freshConditions) d.target⟩]

theorem Transition.asks (hs : e.Sound) (h : Transition e f id outputs e') :
    Asks e' id (System.questions outputs) := by
  have nothing (hnil : asked outputs = []) : Asks e' id (System.questions outputs) := by
    rw [questions_eq_nil hnil]
    exact .nothing
  cases h with
  | enter call token h =>
    exact .actor (i := ⟨_, token, call⟩) (List.mem_append_right _ List.mem_cons_self) rfl
  | bind hi hfree hd =>
    have hup := update_bind hs hi hfree hd
    exact .start ((hup.mem_pending _).2 (.inr rfl)) (hup.starting _ rfl).2.id_eq
  | completeCycle hour hd ha hactor hm =>
    have hup := update_completeCycle hs hd ha hm
    have hmem := (hup.mem_tracked _).2 (.inr rfl)
    obtain ⟨-, rfl⟩ := Deed.advance_eq_completed ha
    have hagain := Asks.again hmem rfl
    exact hagain
  | refuse => exact nothing rfl
  | fire => exact nothing rfl
  | acknowledge => exact nothing rfl
  | close => exact nothing rfl
  | unsubscribe => exact nothing asked_unsubscribe
  | ignore => exact nothing rfl
  | reject => exact nothing rfl
  | finish => exact nothing rfl
  | track =>
    refine nothing ?_
    rw [asked_append, asked_append, asked_enrol]
    rfl
  | progress => exact nothing rfl
  | complete =>
    refine nothing ?_
    rw [asked_append, asked_unsubscribeIfIdle]
    rfl
  | restart => exact nothing rfl
  | cancel => exact nothing asked_unsubscribeIfIdle

/-- A question that is put has the token of its invocation. -/
theorem Transition.cancels_questions (hs : e.Sound) (h : Transition e f id outputs e') :
    e'.Cancels (System.questions outputs) := by
  intro w hw t ht
  have hasks := h.asks hs
  generalize System.questions outputs = qs at hw hasks
  cases hasks with
  | nothing => cases hw
  | actor hi hid =>
    rw [List.mem_singleton.1 hw] at ht ⊢
    cases ht
    exact ⟨_, hi, hid, rfl⟩
  | start hi hid =>
    rw [List.mem_singleton.1 hw] at ht ⊢
    cases ht
    exact ⟨_, hi, hid, rfl⟩
  | again =>
    rw [List.mem_singleton.1 hw] at ht
    cases ht

theorem Cancels.own (hs : e.Sound) (hc : e.Cancels waiting) (h : Transition e none id outputs e') :
    e'.Cancels (waiting ++ System.questions outputs) := by
  intro w hw token htoken
  rcases List.mem_append.1 hw with hw | hw
  · obtain ⟨i, hi, hid⟩ := hc w hw token htoken
    exact ⟨i, h.pending_own hs hi, hid⟩
  · exact h.cancels_questions hs w hw token htoken

theorem Cancels.taken (hs : e.Sound) (hc : e.Cancels waiting) (hne : ∀ w ∈ waiting, w.deed ≠ id)
    (h : Transition e f id outputs e') : e'.Cancels (waiting ++ System.questions outputs) := by
  intro w hw token htoken
  rcases List.mem_append.1 hw with hw | hw
  · obtain ⟨i, hi, hid, ht⟩ := hc w hw token htoken
    exact ⟨i, ((h.sameOthers hs).pending i (hid ▸ hne w hw)).2 hi, hid, ht⟩
  · exact h.cancels_questions hs w hw token htoken

/-- What holds of an engine, of the answers on their way to it, and of the questions that wait. -/
structure Served (e : Engine) (onWay : List (DeedId × Stage)) (waiting : List Suspension) :
    Prop where
  sound : e.Sound
  expected : e.Expected onWay
  cancels : e.Cancels waiting

variable {onWay : List (DeedId × Stage)} {stage : Stage}

theorem Served.own (hs : e.Served onWay waiting) (h : Own e outputs e') :
    e'.Served (onWay ++ asked outputs) (waiting ++ System.questions outputs) := by
  obtain ⟨id, h⟩ := h
  exact ⟨h.sound hs.sound, hs.expected.own hs.sound h, hs.cancels.own hs.sound h⟩

/-- Of its own accord the engine keeps everything in order. -/
theorem Served.own_chain (hs : e.Served onWay waiting) (h : Chain Own e outputs e') :
    e'.Served (onWay ++ asked outputs) (waiting ++ System.questions outputs) := by
  refine h.history
    (P := fun said e => e.Served (onWay ++ asked said) (waiting ++ System.questions said))
    (fun said e xs e' hs h => ?_) ?_
  · rw [asked_append, System.questions, List.filterMap_append, ← List.append_assoc,
      ← List.append_assoc]
    exact hs.own h
  · simpa [asked, System.questions] using hs

/-- A finding that is taken was expected, and keeps everything in order. -/
theorem Served.taken (hs : e.Served ((id, stage) :: onWay) waiting)
    (hne : ∀ w ∈ waiting, w.deed ≠ id) (h : Transition e f id outputs e') :
    e'.Served (onWay ++ asked outputs) (waiting ++ System.questions outputs) :=
  ⟨h.sound hs.sound, hs.expected.taken hs.sound h, hs.cancels.taken hs.sound hne h⟩

theorem NoneLost.own_chain (hs : e.Sound) (hn : NoneLost e onWay) (h : Chain Own e outputs e') :
    NoneLost e' (onWay ++ asked outputs) := by
  have hstep : ∀ said e xs e', (e.Sound ∧ NoneLost e (onWay ++ asked said)) → Own e xs e' →
      e'.Sound ∧ NoneLost e' (onWay ++ asked (said ++ xs)) := by
    rintro said e xs e' ⟨hs, hn⟩ ⟨id, h⟩
    rw [asked_append, ← List.append_assoc]
    exact ⟨h.sound hs, hn.own hs h⟩
  exact (h.history hstep (by simpa [asked] using And.intro hs hn)).2

end Engine

namespace System

/-- What holds of a system after any moves. -/
def Sound (s : System) : Prop := s.engine.Served s.onWay s.waiting

variable {s t : System} {outputs : List Output} {input : Input} {f g : Finding} {m : Move}
  {id : DeedId} {q : Question} {w : Suspension}

theorem sound_ofParts (catalog : Catalog) (world : World) (clock : Clock) (bus : Bus) :
    (ofParts catalog world clock bus).Sound where
  sound := Engine.sound_ofCatalog catalog
  expected := ⟨List.nodup_nil, fun _ h => nomatch h⟩
  cancels _ h := nomatch h

theorem noneLost_ofParts (catalog : Catalog) (world : World) (clock : Clock) (bus : Bus) :
    NoneLost (ofParts catalog world clock bus).engine (ofParts catalog world clock bus).onWay := by
  intro id stage h
  have hmem := Engine.mem_ids_of_awaits (Engine.sound_ofCatalog catalog) h
  cases hmem

/-! ## Inputs -/

theorem engine_deliver : (s.deliver input).1.engine = (s.engine.step s.world.cast.rate input).1 :=
  engine_performAll

theorem onWay_deliver : (s.deliver input).1.onWay = s.onWay ++ Engine.asked (s.deliver input).2 :=
  onWay_performAll

theorem waiting_deliver :
    (s.deliver input).1.waiting = s.waiting ++ questions (s.deliver input).2 := waiting_performAll

theorem finished_deliver : (s.deliver input).1.finished = s.finished := finished_performAll

/-- The engine changes the world by applications only. -/
theorem world_deliver (input : Input) :
    (s.deliver input).1.world =
      applied s.world ((s.deliver input).2.filterMap Output.application?) := world_performAll

/-- A request to stop applies nothing. -/
theorem stop_applies_nothing (e : Engine) (id : DeedId) :
    (e.stop id).2.filterMap Output.application? = [] := by
  have hours : ∀ e : Engine, e.unsubscribeIfIdle.2.filterMap Output.application? = [] := fun e =>
    List.filterMap_eq_nil_iff.2 fun o ho =>
      o.application?_of_isHourly (Engine.isHourly_of_mem_unsubscribeIfIdle ho)
  unfold Engine.stop
  split
  · rfl
  · split
    · simp only [Engine.cancelTracked, Engine.Run.andThen, List.filterMap_append, hours]
      rfl
    · rfl

/-- A request to stop asks nothing. -/
theorem stop_asks_nothing (e : Engine) (id : DeedId) : questions (e.stop id).2 = [] := by
  refine Engine.questions_eq_nil ?_
  unfold Engine.stop
  split
  · rfl
  · split
    · simp only [Engine.cancelTracked, Engine.Run.andThen, Engine.asked_append,
        Engine.asked_unsubscribeIfIdle]
      rfl
    · rfl

/-- An input that is no finding makes the engine act of its own accord. -/
theorem deliver_own (hf : ∀ f, input ≠ .finding f) :
    Chain Own s.engine (s.deliver input).2 (s.deliver input).1.engine := by
  rw [engine_deliver]
  exact Engine.step_chain _ input hf

theorem deliver_own_sound (hs : s.Sound) (hf : ∀ f, input ≠ .finding f) :
    (s.deliver input).1.Sound := by
  rw [Sound, onWay_deliver, waiting_deliver]
  exact hs.own_chain (deliver_own hf)

theorem deliver_own_noneLost (hs : s.Sound) (hn : NoneLost s.engine s.onWay)
    (hf : ∀ f, input ≠ .finding f) :
    NoneLost (s.deliver input).1.engine (s.deliver input).1.onWay := by
  rw [onWay_deliver]
  exact hn.own_chain hs.sound (deliver_own hf)

/-- A finding that is on its way makes a single transition of its deed. -/
theorem deliver_finding (hs : s.engine.Sound) (hx : s.engine.Expects f.deed f.stage) :
    Transition s.engine (some f) f.deed (s.deliver (.finding f)).2
      (s.deliver (.finding f)).1.engine := by
  rw [engine_deliver]
  refine Engine.take_transition hs f fun hne => ?_
  rcases hx with hx | ⟨hst, -, -⟩
  · exact hx
  · exact absurd hst hne

/-! ## Moves -/

/-- The finding that a move hands to the engine. -/
def taken? (s : System) : Move → Option Finding
  | .take index => s.finished[index]?
  | _ => none

/-- The finding that a move takes was finished. -/
theorem mem_of_taken? {m : Move} (h : s.taken? m = some f) : f ∈ s.finished := by
  cases m with
  | take index => exact List.mem_of_getElem? h
  | _ => cases h

theorem take_of_none {index : Nat} (h : s.finished[index]? = none) : s.take index = (s, []) := by
  have hle : s.finished.length ≤ index := List.getElem?_eq_none_iff.1 h
  rw [take, nextFinding, h, List.eraseIdx_of_length_le hle]
  rfl

/-- The findings without one of them. -/
def without (s : System) (index : Nat) : System :=
  { s with finished := s.finished.eraseIdx index }

theorem take_of_some {index : Nat} (h : s.finished[index]? = some f) :
    s.take index = (s.without index).deliver (.finding f) := by
  rw [take, nextFinding, h]
  rfl

/-- All that is on the way is the finding that is taken and the rest. -/
theorem onWay_take {index : Nat} (h : s.finished[index]? = some f) :
    s.onWay.Perm ((f.deed, f.stage) :: (s.without index).onWay) := by
  obtain ⟨hlt, rfl⟩ := List.getElem?_eq_some_iff.1 h
  have hp := (List.getElem_cons_eraseIdx_perm hlt).symm.map fun f => (f.deed, f.stage)
  exact hp.append_right _

theorem expects_taken (hs : s.Sound) {index : Nat} (h : s.finished[index]? = some f) :
    s.engine.Expects f.deed f.stage :=
  hs.expected.expects _ ((onWay_take h).mem_iff.2 List.mem_cons_self)

/-- The deed of a finding that is taken has no other answer on its way. -/
theorem not_onWay_taken (hs : s.Sound) {index : Nat} (h : s.finished[index]? = some f) :
    f.deed ∉ (s.without index).onWay.map Prod.fst := by
  have hnodup := ((onWay_take h).map Prod.fst).nodup_iff.1 hs.expected.nodup
  exact (List.nodup_cons.1 hnodup).1

/-! ### One answer for a deed -/

theorem question?_of_mem (hs : s.Sound) (h : (⟨id, q⟩ : Suspension) ∈ s.waiting) :
    s.question? id = some q := by
  rw [question?, (find?_key_eq_some_iff (nodup_waiting hs.expected.nodup)).2 ⟨h, rfl⟩]
  rfl

theorem nodup_finished (hs : s.Sound) : (s.finished.map Finding.deed).Nodup := by
  have hn := hs.expected.nodup
  rw [onWay, List.map_append, List.map_map] at hn
  exact (List.nodup_append.1 hn).1

/-- No question of the deed is left when a finding of it is taken. -/
theorem taken_ne_of_waiting (hs : s.Sound) (hf : s.taken? m = some f) (hw : w ∈ s.waiting) :
    f.deed ≠ w.deed := by
  cases m with
  | take index =>
    intro hdeed
    exact not_onWay_taken hs hf (hdeed ▸ deed_onWay_of_waiting (s := s.without index) hw)
  | _ => cases hf

/-- No other finding of the deed is left when one of them is taken. -/
theorem taken_ne_of_finished (hs : s.Sound) (hf : s.taken? m = some f)
    (hg : g ∈ (s.step m).1.finished) : f.deed ≠ g.deed := by
  cases m with
  | take index =>
    have hfinished : (s.step (.take index)).1.finished = (s.without index).finished := by
      rw [show s.step (.take index) = (s.without index).deliver (.finding f) from take_of_some hf]
      exact finished_deliver
    rw [hfinished] at hg
    intro hdeed
    exact not_onWay_taken hs hf (hdeed ▸ deed_onWay_of_finished (s := s.without index) hg)
  | _ => cases hf

/-! ### The clock -/

/-- Only the place of the reader changes. -/
theorem readClock_fst : ∃ ticks, s.readClock.1 = { s with ticks } := by
  unfold readClock
  split
  · exact ⟨s.ticks, rfl⟩
  · exact ⟨_, rfl⟩

/-- The clock gives the engine hours, or their end. -/
theorem readClock_cases (h : s.readClock.2 = some input) :
    (∃ hour, input = .tick hour) ∨ input = .clockClosed := by
  unfold readClock at h
  split at h
  · cases h
  · dsimp only at h
    split at h
    · exact .inl ⟨_, (Option.some.inj h).symm⟩
    · cases h
    · split at h
      · cases h
      · exact .inr (Option.some.inj h).symm

/-- The engine takes an hour, or the end of all hours, or nothing. -/
theorem takeTick_cases (s : System) : ∃ ticks, s.takeTick = ({ s with ticks }, []) ∨
    ∃ input, ((∃ hour, input = .tick hour) ∨ input = .clockClosed) ∧
      s.takeTick = { s with ticks }.deliver input := by
  obtain ⟨ticks, hfst⟩ := readClock_fst (s := s)
  refine ⟨ticks, ?_⟩
  unfold takeTick
  dsimp only
  rw [hfst]
  cases h : s.readClock.2 with
  | none => exact .inl rfl
  | some input => exact .inr ⟨input, readClock_cases h, rfl⟩

/-- All that a move can do: the engine gets an input or a finding, questions go on, or the question
of a deed is lost. -/
inductive Makes (s : System) : Move → System → List Output → Prop
  | input {m : Move} (ticks : Option Nat) {input : Input} (hf : ∀ f, input ≠ .finding f) :
      Makes s m ({ s with ticks }.deliver input).1 ({ s with ticks }.deliver input).2
  | take {index : Nat} {f : Finding} (h : s.finished[index]? = some f) :
      Makes s (.take index) ((s.without index).deliver (.finding f)).1
        ((s.without index).deliver (.finding f)).2
  | proceed {m : Move} {t : System} (h : Proceeds s t) : Makes s m t []
  | lose (deed : DeedId) : Makes s (.lose deed) (s.lose deed) []

theorem makes_takeTick : Makes s .takeTick s.takeTick.1 s.takeTick.2 := by
  obtain ⟨ticks, h | ⟨input, hinput, h⟩⟩ := takeTick_cases s
  · rw [h]
    exact .proceed (.of_same rfl (fun _ h => h) rfl rfl)
  · rw [h]
    refine .input ticks ?_
    rcases hinput with ⟨hour, rfl⟩ | rfl <;> nofun

theorem makes_take (index : Nat) : Makes s (.take index) (s.take index).1 (s.take index).2 := by
  cases h : s.finished[index]? with
  | none =>
    rw [take_of_none h]
    exact .proceed (.refl s)
  | some f =>
    rw [take_of_some h]
    exact .take h

theorem advanceClock_proceeds (s : System) : Proceeds s s.advanceClock := by
  unfold advanceClock
  split
  · exact .of_same rfl (fun _ h => h) rfl rfl
  · exact .refl s

/-- What each move does. -/
theorem makes_step (hs : s.Sound) (m : Move) : Makes s m (s.step m).1 (s.step m).2 := by
  have hn := hs.expected.nodup
  cases m with
  | invoke call name target token => exact .input s.ticks fun _ h => nomatch h
  | stop deed => exact .input s.ticks fun _ h => nomatch h
  | fire token => exact .proceed (fire_proceeds s token)
  | poll deed => exact .proceed (poll_proceeds hn deed)
  | answer deed => exact .proceed (answer_proceeds hn deed)
  | expire deed => exact .proceed (expire_proceeds hn deed)
  | lose deed => exact .lose deed
  | take index => exact makes_take index
  | takeTick => exact makes_takeTick
  | advanceClock => exact .proceed (advanceClock_proceeds s)
  | closeClock => exact .proceed (.of_same rfl (fun _ h => h) rfl rfl)
  | outside world => exact .proceed (.of_world (.refl { s with world }))

/-! ### What moves keep -/

/-- Taking a finding makes a single transition of its deed. -/
theorem take_transition (hs : s.Sound) {index : Nat} (h : s.finished[index]? = some f) :
    Transition s.engine (some f) f.deed ((s.without index).deliver (.finding f)).2
      ((s.without index).deliver (.finding f)).1.engine := by
  have hx := expects_taken hs h
  exact deliver_finding (s := s.without index) hs.sound hx

theorem take_sound (hs : s.Sound) {index : Nat} (h : s.finished[index]? = some f) :
    ((s.without index).deliver (.finding f)).1.Sound := by
  have hexpected := hs.expected.perm (onWay_take h)
  rw [Sound, onWay_deliver, waiting_deliver]
  refine Engine.Served.taken ⟨hs.sound, hexpected, hs.cancels⟩ (fun w hw hid => ?_)
    (take_transition hs h)
  exact not_onWay_taken hs h (hid ▸ deed_onWay_of_waiting (s := s.without index) hw)

theorem Proceeds.sound (h : Proceeds s t) (hs : s.Sound) : t.Sound := by
  rw [Sound, h.engine]
  refine ⟨hs.sound, hs.expected.perm h.onWay.symm, fun w hw token htoken => ?_⟩
  obtain ⟨w', hw', hd, htok⟩ := h.waiting w hw
  rw [← hd]
  exact hs.cancels w' hw' token (htok.trans htoken)

theorem lose_sound (hs : s.Sound) (deed : DeedId) : (s.lose deed).Sound where
  sound := hs.sound
  expected := hs.expected.sublist
    ((List.Sublist.refl _).append (List.Sublist.map _ List.filter_sublist))
  cancels w hw := hs.cancels w (List.mem_filter.1 hw).1

theorem Makes.sound (hs : s.Sound) (h : Makes s m t outputs) : t.Sound := by
  cases h with
  | input ticks hf => exact deliver_own_sound (s := { s with ticks }) hs hf
  | take h => exact take_sound hs h
  | proceed h => exact h.sound hs
  | lose deed => exact lose_sound hs deed

/-- No answer is lost unless a collaborator fails. -/
theorem Makes.noneLost (hs : s.Sound) (hn : NoneLost s.engine s.onWay) (h : Makes s m t outputs)
    (hm : ∀ id, m ≠ .lose id) : NoneLost t.engine t.onWay := by
  cases h with
  | input ticks hf => exact deliver_own_noneLost (s := { s with ticks }) hs hn hf
  | take h =>
    rw [onWay_deliver]
    exact (hn.perm (onWay_take h)).taken hs.sound (expects_taken hs h) (take_transition hs h)
  | proceed h =>
    rw [h.engine]
    exact hn.perm h.onWay.symm
  | lose deed => exact absurd rfl (hm deed)

/-- The engine takes the finding of the move, or acts of its own accord, or does nothing. -/
theorem Makes.chain (hs : s.Sound) (h : Makes s m t outputs) :
    Chain (Taking fun f => s.taken? m = some f) s.engine outputs t.engine := by
  cases h with
  | input ticks hf => exact (deliver_own (s := { s with ticks }) hf).mono fun _ _ _ h => h.taking
  | @take index f h =>
    refine .single ⟨some f, f.deed, fun g hg => ?_, take_transition hs h⟩
    cases hg
    exact h
  | proceed h =>
    rw [h.engine]
    exact .nil _
  | lose deed => exact .nil _

/-- What the engine never puts out of its own accord comes with a finding that it takes. -/
theorem Makes.taken_of_mem (hs : s.Sound) (h : Makes s m t outputs) {o : Output} (ho : o ∈ outputs)
    (hown : ∀ {e id xs e'}, Transition e none id xs e' → o ∉ xs) :
    ∃ index f, m = .take index ∧ s.finished[index]? = some f ∧
      Transition s.engine (some f) f.deed outputs t.engine := by
  cases h with
  | input ticks hf =>
    have hchain := deliver_own (s := { s with ticks }) hf
    refine absurd ho (hchain.history (P := fun said _ => o ∉ said) (fun said e xs e' hsaid ht => ?_)
      fun h => nomatch h)
    obtain ⟨id, ht⟩ := ht
    rw [List.mem_append]
    exact fun hmem => hmem.elim hsaid (hown ht)
  | take h => exact ⟨_, _, rfl, h, take_transition hs h⟩
  | proceed => cases ho
  | lose => cases ho

/-! ## Runs -/

/-- Every finding that the moves hand to the engine has a property. -/
def Takes (P : Finding → Prop) (s : System) : List Move → Prop
  | [] => True
  | m :: rest => (∀ f, s.taken? m = some f → P f) ∧ Takes P (s.step m).1 rest

variable {P : Finding → Prop} {moves : List Move}

theorem takes_true : Takes (fun _ => True) s moves := by
  induction moves generalizing s with
  | nil => trivial
  | cons m rest ih => exact ⟨fun _ _ => trivial, ih⟩

theorem run_sound (hs : s.Sound) (moves : List Move) : (s.run moves).1.Sound := by
  induction moves generalizing s with
  | nil => exact hs
  | cons m rest ih => exact ih ((makes_step hs m).sound hs)

theorem run_noneLost (hs : s.Sound) (hnone : NoneLost s.engine s.onWay)
    (hm : ∀ id, .lose id ∉ moves) : NoneLost (s.run moves).1.engine (s.run moves).1.onWay := by
  induction moves generalizing s with
  | nil => exact hnone
  | cons m rest ih =>
    have hmakes := makes_step hs m
    refine ih (hmakes.sound hs) (hmakes.noneLost hs hnone fun id h => ?_) fun id h => ?_
    · exact hm id (h ▸ List.mem_cons_self)
    · exact hm id (List.mem_cons_of_mem _ h)

/-- A run is a chain of transitions of the engine. -/
theorem run_chain (hs : s.Sound) (ht : Takes P s moves) :
    Chain (Taking P) s.engine (s.run moves).2 (s.run moves).1.engine := by
  induction moves generalizing s with
  | nil => exact .nil _
  | cons m rest ih =>
    have hmakes := makes_step hs m
    exact ((hmakes.chain hs).mono fun _ _ _ h => h.mono ht.1).trans (ih (hmakes.sound hs) ht.2)

theorem chain_of_run (hs : s.Sound) (moves : List Move) :
    Chain (Taking fun _ => True) s.engine (s.run moves).2 (s.run moves).1.engine :=
  run_chain hs takes_true

/-! ## A small system -/

/-- A deed that takes an hour, again and again. -/
def watch : Template where
  name := "watch"
  description := ""
  duration := 1
  targetNumber := 1
  progressIndicator := .ofNat 1
  fixedProgression := .ofNat 1
  tags := ⟨[.repeatable]⟩
  mode := .repeatable
  conditions := []
  effects := [.resource .up .influence 1]
  costs := [.resource .down .money 2]
  mode_eq := rfl

/-- Nothing but watches. -/
def watchCatalog : Catalog := ⟨[watch]⟩

/-- One character, and the money for some watches. -/
def watchWorld : World where
  treasury := .ofBalances 10 0
  cast := Cast.empty.withProtagonist ⟨1⟩ .zero
  dice := .ofSeed 0

/-- A system in which a watch can be kept. -/
def watchtower : System := ofParts watchCatalog watchWorld (.ofCapacity 4) (.ofCapacity 4)

theorem watchtower_sound : watchtower.Sound := sound_ofParts _ _ _ _

/-- The watch is called for, and its actor is found; the check before the start is over, but its
answer is not taken yet. -/
def callWatch : List Move :=
  [.invoke ⟨0⟩ "watch" (.location ⟨1⟩ "Gate") ⟨0⟩, .answer ⟨1⟩, .take 0, .poll ⟨1⟩]

/-- The watch begins. -/
def beginWatch : List Move := callWatch ++ [.take 0]

end System

end Deeds
