import Deeds.Proofs.System.Sound
import Mathlib.Data.List.Induction

/-!
# The history of a run

What is there after some moves came about in one of them.

* `System.run_append`, `System.run_split`, `System.run_concat` : runs one after the other;
* `Goes`, `Ends` : how a question goes on, and how it ends, in a move;
* `System.Traced`, `System.traced_step` : every question and every finding after a move was there, or
  comes from the move;
* `System.finished_run` : so every finding after a run comes from one of its moves.
-/

namespace Deeds

/-! ## Questions that go on -/

namespace Question

/-- The question after a first look: an actor is asked for now. -/
def put : Question → Question
  | .actor mode action target token _ => .actor mode action target token true
  | q => q

/-- The question after the answer to what it waits for, when the store holds these balances. -/
def supply (balance : Resource → Int64) : Question → Question
  | .actor mode action target token asked => .actor mode action target token asked
  | .start check target token => match check.awaits with
    | some r => .start (check.supply target (balance r)) target token
    | none => .start check target token
  | .again check target => match check.awaits with
    | some r => .again (check.supply target (balance r)) target
    | none => .again check target

end Question

/-- How a question goes on in a move. -/
inductive Goes (s : System) (deed : DeedId) (q : Question) : Move → Question → Prop
  | poll : Goes s deed q (.poll deed) q.put
  | answer (h : q.stage ≠ .resolution) :
      Goes s deed q (.answer deed) (q.supply s.world.treasury.balance)

/-- How a question ends in a move: because its token was fired, or else as its collaborator answers,
by a verdict, or because its time is over. -/
inductive Ends (s : System) (deed : DeedId) (q : Question) : Move → Finding → Prop
  | cancelled {m : Move} (hc : s.isCancelled q) : Ends s deed q m (q.cancelled deed)
  | chosen {mode : ActorMode} {action : String} {target : Target} {token : Token} {asked : Bool}
      (hc : ¬ s.isCancelled q) (hq : q = .actor mode action target token asked) :
      Ends s deed q (.answer deed) (.resolved deed (s.chooseActor mode).1)
  | checked {m : Move} {q' : Question} {f : Finding} (hc : ¬ s.isCancelled q)
      (hgo : Goes s deed q m q') (hf : q'.finding? deed = some f) : Ends s deed q m f
  | timedOut {f : Finding} (hc : ¬ s.isCancelled q) (hf : q.timedOut deed = some f) :
      Ends s deed q (.expire deed) f

/-- A question whose token is not fired ends with what the cast chose, or with a check that was not
cancelled. -/
theorem Ends.of_not_cancelled {s : System} {deed : DeedId} {q : Question} {m : Move} {f : Finding}
    (h : Ends s deed q m f) (hc : ¬ s.isCancelled q) :
    (∃ mode, m = .answer deed ∧ f = .resolved deed (s.chooseActor mode).1) ∨
      ∃ outcome, outcome ≠ .cancelled ∧
        (f = .verified deed outcome ∨ f = .reverified deed outcome) := by
  cases h with
  | cancelled hcancelled => exact absurd hcancelled hc
  | @chosen mode => exact .inl ⟨mode, rfl, rfl⟩
  | @checked _ q' _ _ _ hf =>
    cases q' with
    | actor => cases hf
    | start =>
      obtain ⟨v, -, rfl⟩ := Option.map_eq_some_iff.1 hf
      exact .inr ⟨.checked v, by simp, .inl rfl⟩
    | again =>
      obtain ⟨v, -, rfl⟩ := Option.map_eq_some_iff.1 hf
      exact .inr ⟨.checked v, by simp, .inr rfl⟩
  | timedOut _ hf =>
    cases q with
    | actor => cases hf
    | start =>
      cases hf
      exact .inr ⟨.timedOut, by simp, .inl rfl⟩
    | again =>
      cases hf
      exact .inr ⟨.timedOut, by simp, .inr rfl⟩

namespace System

variable {s t : System} {deed : DeedId} {q q' : Question} {f g : Finding} {w : Suspension}
  {m : Move} {xs ys : List Move}

/-! ## Runs one after the other -/

theorem run_append (s : System) (xs ys : List Move) :
    s.run (xs ++ ys)
      = (((s.run xs).1.run ys).1, (s.run xs).2 ++ ((s.run xs).1.run ys).2) := by
  induction xs generalizing s with
  | nil => rfl
  | cons m xs ih =>
    show (((s.step m).1.run (xs ++ ys)).1, (s.step m).2 ++ ((s.step m).1.run (xs ++ ys)).2) = _
    rw [ih]
    simp only [run, List.append_assoc]

/-- The state after a run, split at one of its moves. -/
theorem run_split (s : System) (xs : List Move) (m : Move) (ys : List Move) :
    (s.run (xs ++ m :: ys)).1 = (((s.run xs).1.step m).1.run ys).1 := by
  rw [run_append]
  rfl

theorem run_single (s : System) (m : Move) : s.run [m] = s.step m := by
  simp only [run, List.append_nil]

/-- The last of some moves. -/
theorem run_concat (s : System) (xs : List Move) (m : Move) :
    s.run (xs ++ [m]) = (((s.run xs).1.step m).1, (s.run xs).2 ++ ((s.run xs).1.step m).2) := by
  rw [run_append, run_single]

/-! ## Questions and findings after a move -/

theorem mem_finished_finish : g ∈ (s.finish f).finished ↔ g ∈ s.finished ∨ g = f := by
  simp only [finish, lose, List.mem_append, List.mem_singleton]

theorem mem_waiting_finish (h : w ∈ (s.finish f).waiting) : w ∈ s.waiting := (List.mem_filter.1 h).1

theorem mem_finished_goOn (h : g ∈ (s.goOn deed q').finished) :
    g ∈ s.finished ∨ q'.finding? deed = some g := by
  unfold goOn at h
  split at h
  · rename_i f hf
    rcases mem_finished_finish.1 h with h | rfl
    · exact .inl h
    · exact .inr hf
  · exact .inl h

theorem mem_waiting_goOn (h : w ∈ (s.goOn deed q').waiting) :
    w ∈ s.waiting ∨ (w.deed = deed ∧ w.question = q') := by
  unfold goOn at h
  split at h
  · exact .inl (mem_waiting_finish h)
  · obtain ⟨w', hw', rfl⟩ := List.mem_map.1 h
    split
    · exact .inr ⟨‹_›, rfl⟩
    · exact .inl hw'

/-- Where the findings and the questions after a move come from. -/
structure Traced (s : System) (m : Move) (t : System) (outputs : List Output) : Prop where
  finished : ∀ f ∈ t.finished, f ∈ s.finished ∨
    ∃ q, (⟨f.deed, q⟩ : Suspension) ∈ s.waiting ∧ Ends s f.deed q m f
  waiting : ∀ w ∈ t.waiting, w ∈ s.waiting ∨
    (∃ q, (⟨w.deed, q⟩ : Suspension) ∈ s.waiting ∧ ¬ s.isCancelled q ∧
      Goes s w.deed q m w.question) ∨
    w ∈ questions outputs

variable {outputs : List Output} {input : Input}

/-- No finding comes, and at most questions go. -/
theorem Traced.of_subset (finished : ∀ f ∈ t.finished, f ∈ s.finished)
    (waiting : ∀ w ∈ t.waiting, w ∈ s.waiting) : Traced s m t outputs where
  finished f hf := .inl (finished f hf)
  waiting w hw := .inl (waiting w hw)

/-- An input of the engine only puts new questions. -/
theorem traced_deliver (finished : ∀ f ∈ t.finished, f ∈ s.finished)
    (waiting : t.waiting = s.waiting) : Traced s m (t.deliver input).1 (t.deliver input).2 where
  finished f hf := by
    rw [finished_deliver] at hf
    exact .inl (finished f hf)
  waiting w hw := by
    rw [waiting_deliver, waiting] at hw
    rcases List.mem_append.1 hw with hw | hw
    · exact .inl hw
    · exact .inr (.inr hw)

/-- A question ends. -/
theorem traced_finish (hq : (⟨f.deed, q⟩ : Suspension) ∈ s.waiting) (hends : Ends s f.deed q m f) :
    Traced s m (s.finish f) [] where
  finished g hg := by
    rcases mem_finished_finish.1 hg with hg | rfl
    · exact .inl hg
    · exact .inr ⟨q, hq, hends⟩
  waiting w hw := .inl (mem_waiting_finish hw)

/-- A question goes on, and may end then. -/
theorem traced_goOn (hq : (⟨deed, q⟩ : Suspension) ∈ s.waiting) (hc : ¬ s.isCancelled q)
    (hgo : Goes s deed q m q') : Traced s m (s.goOn deed q') [] where
  finished g hg := by
    rcases mem_finished_goOn hg with hg | hg
    · exact .inl hg
    · obtain ⟨rfl, -⟩ := Question.of_finding? hg
      exact .inr ⟨q, hq, .checked hc hgo hg⟩
  waiting w hw := by
    rcases mem_waiting_goOn hw with hw | ⟨rfl, rfl⟩
    · exact .inl hw
    · exact .inr (.inl ⟨q, hq, hc, hgo⟩)

/-- A question whose token was fired ends so. -/
theorem traced_cancelled (hq : (⟨deed, q⟩ : Suspension) ∈ s.waiting) (hc : s.isCancelled q) :
    Traced s m (s.finish (q.cancelled deed)) [] := by
  have hdeed : (q.cancelled deed).deed = deed := Question.deed_cancelled
  refine traced_finish (q := q) ?_ ?_
  · rw [hdeed]
    exact hq
  · rw [hdeed]
    exact .cancelled hc

theorem traced_poll (s : System) (deed : DeedId) :
    Traced s (.poll deed) (s.poll deed) [] := by
  unfold poll
  cases hq : s.question? deed with
  | none => exact .of_subset (fun _ h => h) fun _ h => h
  | some q =>
    have hmem := mem_waiting_of_question? hq
    dsimp only
    split
    · exact traced_cancelled hmem ‹_›
    · cases q with
      | actor => exact traced_goOn hmem ‹_› .poll
      | start => exact traced_goOn hmem ‹_› .poll
      | again => exact traced_goOn hmem ‹_› .poll

theorem traced_answer (s : System) (deed : DeedId) :
    Traced s (.answer deed) (s.answer deed) [] := by
  unfold answer
  cases hq : s.question? deed with
  | none => exact .of_subset (fun _ h => h) fun _ h => h
  | some q =>
    have hmem := mem_waiting_of_question? hq
    dsimp only
    split
    · exact traced_cancelled hmem ‹_›
    · cases q with
      | actor mode action target token asked =>
        have h := traced_finish (m := .answer deed)
          (f := .resolved deed (s.chooseActor mode).1) hmem (.chosen ‹_› rfl)
        -- the cast may change as it answers
        cases mode with
        | personal => exact h
        | organization => exact ⟨h.finished, h.waiting⟩
      | start check target token =>
        have h := traced_goOn hmem ‹_› (.answer fun h => nomatch h)
        rw [Question.supply] at h
        dsimp only
        split
        · rename_i r hr
          simpa only [hr] using h
        · rename_i hr
          simpa only [hr] using h
      | again check target =>
        have h := traced_goOn hmem ‹_› (.answer fun h => nomatch h)
        rw [Question.supply] at h
        dsimp only
        split
        · rename_i r hr
          simpa only [hr] using h
        · rename_i hr
          simpa only [hr] using h

theorem traced_expire (s : System) (deed : DeedId) :
    Traced s (.expire deed) (s.expire deed) [] := by
  unfold expire
  cases hq : s.question? deed with
  | none => exact .of_subset (fun _ h => h) fun _ h => h
  | some q =>
    have hmem := mem_waiting_of_question? hq
    dsimp only
    split
    · exact traced_cancelled hmem ‹_›
    · split
      · rename_i f hf
        obtain ⟨rfl, -⟩ := Question.of_timedOut hf
        exact traced_finish hmem (.timedOut ‹_› hf)
      · exact .of_subset (fun _ h => h) fun _ h => h

theorem traced_take (s : System) (index : Nat) :
    Traced s (.take index) (s.take index).1 (s.take index).2 := by
  cases h : s.finished[index]? with
  | none =>
    rw [take_of_none h]
    exact .of_subset (fun _ h => h) fun _ h => h
  | some f =>
    rw [take_of_some h]
    exact traced_deliver (fun _ hf => List.mem_of_mem_eraseIdx hf) rfl

theorem traced_takeTick (s : System) : Traced s .takeTick s.takeTick.1 s.takeTick.2 := by
  obtain ⟨ticks, h | ⟨input, -, h⟩⟩ := takeTick_cases s
  · rw [h]
    exact .of_subset (fun _ h => h) fun _ h => h
  · rw [h]
    exact traced_deliver (fun _ h => h) rfl

/-- Every question and every finding after a move was there, or comes from the move. -/
theorem traced_step (s : System) (m : Move) : Traced s m (s.step m).1 (s.step m).2 := by
  cases m with
  | invoke => exact traced_deliver (fun _ h => h) rfl
  | stop => exact traced_deliver (fun _ h => h) rfl
  | fire => exact .of_subset (fun _ h => h) fun _ h => h
  | poll deed => exact traced_poll s deed
  | answer deed => exact traced_answer s deed
  | expire deed => exact traced_expire s deed
  | lose => exact .of_subset (fun _ h => h) fun _ h => (List.mem_filter.1 h).1
  | take index => exact traced_take s index
  | takeTick => exact traced_takeTick s
  | advanceClock =>
    refine .of_subset ?_ ?_
    · exact fun f hf => by
        rw [step, advanceClock] at hf
        split at hf <;> exact hf
    · exact fun w hw => by
        rw [step, advanceClock] at hw
        split at hw <;> exact hw
  | closeClock => exact .of_subset (fun _ h => h) fun _ h => h
  | outside => exact .of_subset (fun _ h => h) fun _ h => h

/-! ## Runs -/

/-- Every finding after a run was there before, or ended a question in one of the moves. -/
theorem finished_run (s : System) (moves : List Move) (hf : f ∈ (s.run moves).1.finished) :
    f ∈ s.finished ∨ ∃ xs m ys q, moves = xs ++ m :: ys ∧
      (⟨f.deed, q⟩ : Suspension) ∈ (s.run xs).1.waiting ∧ Ends (s.run xs).1 f.deed q m f := by
  induction moves using List.reverseRecOn with
  | nil => exact .inl hf
  | append_singleton moves m ih =>
    rw [run_concat] at hf
    rcases (traced_step _ m).finished f hf with hf | ⟨q, hq, hends⟩
    · rcases ih hf with hf | ⟨xs, m', ys, q, rfl, hq, hends⟩
      · exact .inl hf
      · exact .inr ⟨xs, m', ys ++ [m], q, by simp, hq, hends⟩
    · exact .inr ⟨moves, m, [], q, rfl, hq, hends⟩

end System

end Deeds
