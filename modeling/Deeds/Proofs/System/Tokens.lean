import Deeds.Proofs.Engine.Pending
import Deeds.Proofs.System.History

/-!
# Tokens

A token is fired by an invoker, or by a request to stop a pending deed that has it. The token of a
deed is the one that its invocation came with, and it alone can cancel a question of the deed.

* `Engine.fire_mem_step_iff` : of all that happens to an engine, only a request to stop fires a token;
* `System.FiresBy`, `System.mem_fired_step`, `System.mem_fired_run` : who fired the tokens of a system;
* `System.NeverFires` : no move of a run fires a token;
* `System.token_of_run`, `System.token_of_question` : the token of a deed at any time of a run.
-/

namespace Deeds

open Engine (Transition)

namespace Engine

variable {e e' : Engine} {f : Finding} {id : DeedId} {outputs : List Output} {i k : Invocation}
  {token : Token} {P : Finding → Prop}

/-! ## Who fires a token -/

@[simp] theorem fire_not_mem_unsubscribeIfIdle : .fire token ∉ e.unsubscribeIfIdle.2 := by
  intro h
  cases isHourly_of_mem_unsubscribeIfIdle h

/-- No finding fires a token. -/
theorem Transition.fire_not_mem (h : Transition e (some f) id outputs e') :
    .fire token ∉ outputs := by
  cases h with
  | track =>
    rw [List.mem_append, List.mem_append]
    rintro (h | h | h)
    · simp at h
    · cases isHourly_of_mem_enrol h
    · simp at h
  | ignore => simp
  | reject => simp [Engine.reject]
  | bind => simp
  | finish => simp
  | restart => simp
  | cancel => simp

theorem fire_mem_stop_iff (hs : e.Sound) :
    .fire token ∈ (e.stop id).2 ↔ ∃ i ∈ e.pending, i.deed.id = id ∧ i.token = token := by
  unfold stop
  cases hp : e.pending? id with
  | some i =>
    obtain ⟨hi, hid⟩ := mem_of_pending? hp
    constructor
    · intro h
      exact ⟨i, hi, hid, by simpa [eq_comm] using h⟩
    · rintro ⟨k, hk, hkid, rfl⟩
      rw [pending_unique hs.nodup hk hi (hkid.trans hid.symm)]
      exact List.mem_cons_self
  | none =>
    have hno : ¬ ∃ i ∈ e.pending, i.deed.id = id ∧ i.token = token := by
      rintro ⟨i, hi, hid, -⟩
      exact pending?_eq_none_iff.1 hp (mem_pendingIds.2 ⟨i, hi, hid⟩)
    rw [iff_false_right hno]
    cases e.tracker.find? id with
    | none => simp
    | some d => simp [cancelTracked, Run.andThen]

/-- Of all that happens to an engine, only a request to stop a pending deed fires a token. -/
theorem fire_mem_step_iff (hs : e.Sound) {rates : CharacterId → Option Binary32} {input : Input}
    (hf : ∀ f, input ≠ .finding f) :
    .fire token ∈ (e.step rates input).2 ↔
      ∃ i ∈ e.pending, i.token = token ∧ input = .stop i.deed.id := by
  cases input with
  | invoke call name target token' =>
    rw [step, invoke]
    cases e.catalog.instantiate e.nextId name target <;> simp
  | stop id =>
    rw [step, fire_mem_stop_iff hs]
    constructor
    · rintro ⟨i, hi, rfl, htoken⟩
      exact ⟨i, hi, htoken, rfl⟩
    · rintro ⟨i, hi, htoken, h⟩
      cases h
      exact ⟨i, hi, rfl, htoken⟩
  | finding f => exact absurd rfl (hf f)
  | tick hour =>
    have hno : .fire token ∉ (e.tick rates hour).2 := by
      intro h
      have houtputs := tick_outputs rates hour _ h
      simp [Output.isHourly, Output.deed?] at houtputs
    simp [step, hno]
  | clockClosed =>
    have hno : .fire token ∉ e.unsubscribe.2 := by
      intro h
      cases isHourly_of_mem_unsubscribe h
    simp [step, hno]

/-! ## The token of a deed -/

/-- The token of a deed that has its number never changes. -/
theorem token_of_chain (hs : e.Sound) (hc : Chain (Taking P) e outputs e')
    (hlt : id.val < e.nextId.val) (hk : k ∈ e'.pending) (hid : k.deed.id = id) :
    ∃ i ∈ e.pending, i.deed.id = id ∧ i.token = k.token := by
  refine (invariant_of_chain (Q := fun x => id.val < x.nextId.val ∧ ∀ k ∈ x.pending,
    k.deed.id = id → ∃ i ∈ e.pending, i.deed.id = id ∧ i.token = k.token) ?_ hs
    ⟨hlt, fun k hk hid => ⟨k, hk, hid, rfl⟩⟩ hc).2 k hk hid
  rintro x f j outputs y hx ⟨hlt, hall⟩ - ht
  refine ⟨Nat.lt_of_lt_of_le hlt (ht.sameOthers hx).nextId, fun k hk hid => ?_⟩
  rcases ht.of_pending hx hk with ⟨i, hi, hik, htoken, -⟩ | hnew
  · obtain ⟨i₀, hi₀, hid₀, htoken₀⟩ := hall i hi (hik.trans hid)
    exact ⟨i₀, hi₀, hid₀, htoken₀.trans htoken⟩
  · rw [← hid, hnew] at hlt
    exact absurd hlt (Nat.lt_irrefl _)

end Engine

namespace System

variable {start s : System} {token : Token} {i k : Invocation} {q : Question}
  {moves xs ys : List Move}

/-! ## Fired tokens -/

/-- A move fires a token: its invoker does, or a request to stop a pending deed that has it. -/
def FiresBy (s : System) (token : Token) (m : Move) : Prop :=
  m = .fire token ∨ ∃ i ∈ s.engine.pending, i.token = token ∧ m = .stop i.deed.id

/-- No move of a run fires a token. -/
def NeverFires (start : System) (token : Token) (moves : List Move) : Prop :=
  ∀ xs m ys, moves = xs ++ m :: ys → ¬ (start.run xs).1.FiresBy token m

theorem mem_fired_deliver (hs : s.Sound) (input : Input) (hf : ∀ f, input ≠ .finding f) :
    token ∈ (s.deliver input).1.fired ↔ token ∈ s.fired ∨
      ∃ i ∈ s.engine.pending, i.token = token ∧ input = .stop i.deed.id :=
  mem_fired_performAll.trans (or_congr Iff.rfl (Engine.fire_mem_step_iff hs.sound hf))

theorem mem_fired_take (hs : s.Sound) (index : Nat) :
    token ∈ (s.take index).1.fired ↔ token ∈ s.fired := by
  cases hindex : s.finished[index]? with
  | none => rw [take_of_none hindex]
  | some f =>
    rw [take_of_some hindex]
    exact mem_fired_performAll.trans (or_iff_left (take_transition hs hindex).fire_not_mem)

theorem mem_fired_takeTick (hs : s.Sound) : token ∈ s.takeTick.1.fired ↔ token ∈ s.fired := by
  obtain ⟨ticks, h | ⟨input, hinput, h⟩⟩ := takeTick_cases s
  · rw [h]
  · rw [h]
    rcases hinput with ⟨hour, rfl⟩ | rfl
    · refine (mem_fired_deliver (s := { s with ticks }) hs (.tick hour) nofun).trans ?_
      simp
    · refine (mem_fired_deliver (s := { s with ticks }) hs .clockClosed nofun).trans ?_
      simp

/-- What a move fires. -/
theorem mem_fired_step (hs : s.Sound) (m : Move) :
    token ∈ (s.step m).1.fired ↔ token ∈ s.fired ∨ s.FiresBy token m := by
  -- only the first three kinds of moves are told apart by what they fire
  cases m with
  | invoke call name target token' =>
    refine (mem_fired_deliver hs (.invoke call name target token') nofun).trans ?_
    simp [FiresBy]
  | stop deed =>
    refine (mem_fired_deliver hs (.stop deed) nofun).trans ?_
    simp [FiresBy]
  | fire token' =>
    simp [step, fire, FiresBy, or_comm, eq_comm]
  | poll deed =>
    rw [step, poll_eq]
    simp [FiresBy]
  | answer deed =>
    rw [step, answer_eq]
    simp [FiresBy]
  | expire deed =>
    rw [step, expire_eq]
    simp [FiresBy]
  | lose deed => simp [step, lose, FiresBy]
  | take index => simp [step, mem_fired_take hs, FiresBy]
  | takeTick => simp [step, mem_fired_takeTick hs, FiresBy]
  | advanceClock =>
    rw [step, advanceClock]
    split <;> simp [FiresBy]
  | closeClock => simp [step, closeClock, FiresBy]
  | outside world => simp [step, FiresBy]

/-- A token that is fired after a run was fired before, or by one of the moves. -/
theorem mem_fired_run (hs : s.Sound) (moves : List Move) :
    token ∈ (s.run moves).1.fired ↔ token ∈ s.fired ∨
      ∃ xs m ys, moves = xs ++ m :: ys ∧ (s.run xs).1.FiresBy token m := by
  induction moves using List.reverseRecOn with
  | nil => simp [run]
  | append_singleton moves m ih =>
    rw [run_concat, mem_fired_step (run_sound hs moves) m, ih]
    constructor
    · rintro ((h | ⟨xs, m', ys, rfl, h⟩) | h)
      · exact .inl h
      · exact .inr ⟨xs, m', ys ++ [m], by simp, h⟩
      · exact .inr ⟨moves, m, [], rfl, h⟩
    · rintro (h | ⟨xs, m', ys, heq, h⟩)
      · exact .inl (.inl h)
      · -- the move that fires it is the last one, or an earlier one
        rcases List.eq_nil_or_concat ys with rfl | ⟨ys, y, rfl⟩
        · obtain ⟨rfl, hm⟩ := List.append_inj' heq rfl
          cases hm
          exact .inr h
        · have heq' : moves ++ [m] = (xs ++ m' :: ys) ++ [y] := by simpa using heq
          obtain ⟨rfl, -⟩ := List.append_inj' heq' rfl
          exact .inl (.inr ⟨xs, m', ys, rfl, h⟩)

/-- A token that no move fires is not fired, at no time. -/
theorem NeverFires.not_fired (hs : s.Sound) (h : s.NeverFires token moves)
    (hnone : token ∉ s.fired) (hmoves : moves = xs ++ ys) : token ∉ (s.run xs).1.fired := by
  rw [mem_fired_run hs, not_or]
  refine ⟨hnone, ?_⟩
  rintro ⟨xs', m, rest, rfl, hfires⟩
  exact h xs' m (rest ++ ys) (by simp [hmoves]) hfires

theorem neverFires_of_not_fired (hs : s.Sound) (h : token ∉ (s.run moves).1.fired) :
    s.NeverFires token moves := by
  rw [mem_fired_run hs, not_or] at h
  intro xs m ys heq hfires
  exact h.2 ⟨xs, m, ys, heq, hfires⟩

/-! ## The token of a deed in a run -/

/-- The invocations of a deed at two times of a run have the same token. -/
theorem token_of_run (hs : s.Sound) (moves : List Move) (hi : i ∈ s.engine.pending)
    (hk : k ∈ (s.run moves).1.engine.pending) (hid : k.deed.id = i.deed.id) :
    k.token = i.token := by
  have hlt := hs.sound.id_lt _ (Engine.Sound.deed_mem hi)
  obtain ⟨i', hi', hid', htoken⟩ :=
    Engine.token_of_chain hs.sound (chain_of_run hs moves) hlt hk hid
  rw [← htoken, Engine.pending_unique hs.sound.nodup hi' hi hid']

/-- The token that can cancel a question of a deed is the token of its invocation. -/
theorem token_of_question (hs : start.Sound) (hi : i ∈ (start.run xs).1.engine.pending)
    (hmoves : xs ++ ys = moves)
    {before after : List Move} (hsplit : before ++ after = moves)
    (hq : (⟨i.deed.id, q⟩ : Suspension) ∈ (start.run before).1.waiting)
    (htoken : q.token? = some token) : token = i.token := by
  have hbefore := run_sound hs before
  obtain ⟨k, hk, hid, rfl⟩ := hbefore.cancels _ hq token htoken
  subst hsplit
  rcases List.append_eq_append_iff.1 hmoves with ⟨rest, rfl, -⟩ | ⟨rest, rfl, -⟩
  · rw [run_append] at hk
    exact token_of_run (run_sound hs xs) rest hi hk hid
  · rw [run_append] at hi
    exact (token_of_run hbefore rest hk hi hid.symm).symm

end System

end Deeds
