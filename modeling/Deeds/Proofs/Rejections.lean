import Deeds.Proofs.Engine.Pending
import Deeds.Proofs.Suspensions
import Deeds.Proofs.System.History

/-!
# Rejected invocations

An invocation that is answered with an error leaves no trace, but for the number that it was given.

* `System.Rejects` : a move answers the call of a deed with an error; `Rejects.of_step` says how it
  comes to that;
* `System.OnBehalf` : the moves on behalf of a deed;
* `Quiet` : nothing changed but the invocation and the slot of one deed;
* `System.quiet_of_not_settled`, `System.quiet_of_gone` : so it is with every move on behalf of a deed
  that was not begun;
* `System.rejection_leaves_no_trace` : all that remains of an invocation that fails.
-/

namespace Deeds

open Engine (Taking)

/-! ## What a rejection does -/

namespace Engine

variable {e : Engine} {i : Invocation}

/-- The actor who made an invocation fail is busy with another deed, and stays so. -/
theorem current?_forget_of_busy (hs : e.Sound) (hi : i ∈ e.pending) {f : Finding}
    (hw : e.Awaits f.deed f.stage) (hf : f.deed = i.deed.id) {actor : CharacterId}
    {current : DeedId} (h : e.failure? i f = some (.actorBusy actor current)) :
    (e.forget i.deed.id).current? actor = some current := by
  cases f with
  | resolved id chosen =>
    cases chosen with
    | none => cases h
    | some chosen =>
      obtain ⟨j, hj, heq⟩ := Option.map_eq_some_iff.1 h
      cases heq
      have hslot : (actor, current) ∈ e.slots := (lookup_eq_some_iff_mem hs.slots_nodup).1 hj
      -- the deed that waits for an actor has no slot
      have hne : current ≠ i.deed.id := by
        rintro rfl
        obtain ⟨k, hk, hkid, hphase⟩ := hw
        rw [pending_unique hs.nodup hk hi (hkid.trans hf)] at hphase
        have hactor := (hs.mem_slots_iff (Sound.deed_mem hi)).1 hslot
        rw [hs.actor_of_resolving hi hphase] at hactor
        cases hactor
      have hkeys : (((e.forget i.deed.id).slots).map Prod.fst).Nodup :=
        hs.slots_nodup.sublist (List.filter_sublist.map _)
      rw [current?, lookup_eq_some_iff_mem hkeys]
      exact List.mem_filter.2 ⟨hslot, bne_iff_ne.2 hne⟩
  | verified id outcome =>
    cases outcome with
    | cancelled => cases h
    | timedOut => cases h
    | checked v =>
      rw [failure?] at h
      split at h <;> cases h
  | reverified => cases h

end Engine

namespace System

/-- A move answers the call of a pending deed with an error; no other pending deed has this call, and
the move does not make it again. -/
structure Rejects (s : System) (m : Move) (i : Invocation) (error : InvocationError) : Prop where
  pending : i ∈ s.engine.pending
  answered : .answer i.call (.error error) ∈ (s.step m).2
  alone : ∀ k ∈ s.engine.pending, k.call = i.call → k.deed.id = i.deed.id
  fresh : ∀ name target token, m ≠ .invoke i.call name target token

variable {s t u : System} {m : Move} {i : Invocation} {error : InvocationError} {id : DeedId}
  {f : Finding} {index : Nat} {input : Input}

/-- A pending deed waits for the finding that is taken of it. -/
theorem awaits_taken (hs : s.Sound) (hi : i ∈ s.engine.pending) (hf : f.deed = i.deed.id)
    (hindex : s.finished[index]? = some f) : s.engine.Awaits f.deed f.stage := by
  rcases expects_taken hs hindex with hw | ⟨-, hg⟩
  · exact hw
  · rw [hf] at hg
    exact absurd (Engine.mem_ids.2 ⟨i.deed, Engine.Sound.deed_mem hi, rfl⟩) hg.2

/-- What a taken finding does when it makes an invocation fail. -/
structure Fails (s : System) (index : Nat) (i : Invocation) (error : InvocationError) (f : Finding) :
    Prop where
  taken : s.finished[index]? = some f
  deed : f.deed = i.deed.id
  failure : s.engine.failure? i f = some error
  outputs : (s.step (.take index)).2 = (s.engine.reject i error).2
  engine : (s.step (.take index)).1.engine = s.engine.forget i.deed.id
  world : (s.step (.take index)).1.world = s.world

/-- Only a call is answered with an error at once. -/
theorem not_error_deliver {call : CallId} (hf : ∀ f, input ≠ .finding f)
    (hi : ∀ name target token, input ≠ .invoke call name target token) :
    .answer call (.error error) ∉ (s.deliver input).2 := by
  intro hmem
  obtain ⟨name, target, token, heq⟩ := Engine.of_error_step hf hmem
  exact hi name target token heq

/-- An error answers the call of a pending deed of which the move takes a finding. -/
theorem taken_of_error (hs : s.Sound) {call : CallId}
    (hmem : .answer call (.error error) ∈ (s.step m).2)
    (hfresh : ∀ name target token, m ≠ .invoke call name target token) :
    ∃ index f, m = .take index ∧ s.finished[index]? = some f ∧
      ∃ k ∈ s.engine.pending, k.deed.id = f.deed ∧ k.call = call := by
  cases m with
  | invoke call' name target token =>
    refine absurd hmem (not_error_deliver (by simp) fun name' target' token' heq => ?_)
    cases heq
    exact hfresh name target token rfl
  | stop deed => exact absurd hmem (not_error_deliver (by simp) (by simp))
  | takeTick =>
    obtain ⟨ticks, h | ⟨input, hinput, h⟩⟩ := takeTick_cases s
    · rw [step, h] at hmem
      cases hmem
    · rw [step, h] at hmem
      rcases hinput with ⟨hour, rfl⟩ | rfl
      · exact absurd hmem (not_error_deliver (by simp) (by simp))
      · exact absurd hmem (not_error_deliver (by simp) (by simp))
  | take index =>
    cases hindex : s.finished[index]? with
    | none =>
      rw [step, take_of_none hindex] at hmem
      cases hmem
    | some f =>
      rw [step, take_of_some hindex] at hmem
      exact ⟨index, f, rfl, hindex, (take_transition hs hindex).of_error hmem⟩
  | fire => cases hmem
  | poll => cases hmem
  | answer => cases hmem
  | expire => cases hmem
  | lose => cases hmem
  | advanceClock => cases hmem
  | closeClock => cases hmem
  | outside => cases hmem

/-- A finding that stands for an error makes the invocation fail with it, and does nothing else. -/
theorem fails_of_failure (hs : s.Sound) (hi : i ∈ s.engine.pending)
    (hindex : s.finished[index]? = some f) (hf : f.deed = i.deed.id)
    (hfail : s.engine.failure? i f = some error) : s.Fails index i error f := by
  have hstep : s.step (.take index) = (s.without index).deliver (.finding f) := take_of_some hindex
  have htake := Engine.take_eq_reject hs.sound hi hf hfail
  have hnone : (s.engine.take f).2.filterMap Output.application? = [] := by
    rw [htake]
    rfl
  refine ⟨hindex, hf, hfail, ?_, ?_, ?_⟩
  · rw [hstep, ← htake]
    rfl
  · rw [hstep, engine_deliver, ← Engine.forget_reject hs.sound hi error, ← htake]
    rfl
  · rw [hstep, world_deliver]
    show applied s.world ((s.engine.take f).2.filterMap Output.application?) = s.world
    rw [hnone]
    rfl

/-- An invocation fails only by a finding of its own that the engine takes. -/
theorem Rejects.of_step (hs : s.Sound) (h : s.Rejects m i error) :
    ∃ index f, m = .take index ∧ s.Fails index i error f := by
  obtain ⟨hi, hanswer, halone, hfresh⟩ := h
  obtain ⟨index, f, rfl, hindex, k, hk, hkid, hcall⟩ := taken_of_error hs hanswer hfresh
  have hdeed : f.deed = i.deed.id := hkid.symm.trans (halone k hk hcall)
  have hstep : s.step (.take index) = (s.without index).deliver (.finding f) := take_of_some hindex
  have hw := awaits_taken hs hi hdeed hindex
  have hmem : .answer i.call (.error error) ∈ (s.engine.take f).2 := by
    rw [hstep] at hanswer
    exact hanswer
  obtain ⟨-, hfail, -⟩ := Engine.failure_of_answer hs.sound hi hdeed hw hmem
  exact ⟨index, f, rfl, fails_of_failure hs hi hindex hdeed hfail⟩

/-- A call that no other pending deed has is answered with the error of its finding. -/
theorem rejects_of_failure (hs : s.Sound) (hi : i ∈ s.engine.pending)
    (halone : ∀ k ∈ s.engine.pending, k.call = i.call → k.deed.id = i.deed.id)
    (hindex : s.finished[index]? = some f) (hf : f.deed = i.deed.id)
    (hfail : s.engine.failure? i f = some error) : s.Rejects (.take index) i error := by
  refine ⟨hi, ?_, halone, nofun⟩
  rw [(fails_of_failure hs hi hindex hf hfail).outputs]
  exact List.mem_cons_of_mem _ List.mem_cons_self

theorem Rejects.forget (hs : s.Sound) (h : s.Rejects m i error) :
    (s.step m).1.engine = s.engine.forget i.deed.id := by
  obtain ⟨index, f, rfl, hfails⟩ := h.of_step hs
  exact hfails.engine

/-- A deed whose invocation failed is gone for good. -/
theorem Rejects.gone (hs : s.Sound) (h : s.Rejects m i error) :
    (s.step m).1.engine.Gone i.deed.id := by
  rw [h.forget hs, ← Engine.forget_reject hs.sound h.pending error]
  exact (Engine.update_dropPending hs.sound h.pending rfl rfl).isGone
    (hs.sound.id_lt _ (Engine.Sound.deed_mem h.pending))

/-! ## Moves on behalf of a deed -/

/-- A move on behalf of a deed: its call, a request to stop it, its token, a look at its question, an
answer to it, the end of its time, its loss, and a finding of the deed that the engine takes. -/
def OnBehalf (s : System) (id : DeedId) : Move → Prop
  | .invoke .. => s.engine.nextId = id
  | .stop deed => deed = id
  | .fire token => ∃ i ∈ s.engine.pending, i.deed.id = id ∧ i.token = token
  | .poll deed => deed = id
  | .answer deed => deed = id
  | .expire deed => deed = id
  | .lose deed => deed = id
  | .take index => ∃ f, s.finished[index]? = some f ∧ f.deed = id
  | _ => False

/-- Moves on behalf of one deed only. -/
def AllOnBehalf (id : DeedId) (s : System) : List Move → Prop
  | [] => True
  | m :: rest => s.OnBehalf id m ∧ AllOnBehalf id (s.step m).1 rest

end System

/-- Two worlds with the same balances, adjustments, stats and dice. -/
structure SameSums (w w' : World) : Prop where
  treasury : w'.treasury = w.treasury
  stats : w'.cast.stats = w.cast.stats
  dice : w'.dice = w.dice

theorem SameSums.refl (w : World) : SameSums w w := ⟨rfl, rfl, rfl⟩

theorem SameSums.of_eq {w w' : World} (h : w' = w) : SameSums w w' := h ▸ .refl w

/-- Nothing changed but the invocation and the slot of a deed; and the next number, if it was the
deed's. -/
structure Quiet (id : DeedId) (s t : System) : Prop where
  world : SameSums s.world t.world
  tracker : t.engine.tracker = s.engine.tracker
  others : t.engine.forget id = { s.engine.forget id with nextId := t.engine.nextId }
  nextId : t.engine.nextId = s.engine.nextId ∨
    (s.engine.nextId = id ∧ t.engine.nextId = id.next)

namespace Quiet

variable {s t u : System} {id : DeedId}

/-- The engine is not concerned. -/
theorem of_engine (engine : t.engine = s.engine) (world : SameSums s.world t.world) :
    Quiet id s t where
  world := world
  tracker := by rw [engine]
  others := by rw [engine]; rfl
  nextId := .inl (by rw [engine])

theorem refl (s : System) : Quiet id s s := of_engine rfl (.refl _)

theorem trans (h₁ : Quiet id s t) (h₂ : Quiet id t u) : Quiet id s u where
  world := ⟨h₂.world.treasury.trans h₁.world.treasury, h₂.world.stats.trans h₁.world.stats,
    h₂.world.dice.trans h₁.world.dice⟩
  tracker := h₂.tracker.trans h₁.tracker
  others := by rw [h₂.others, h₁.others]
  nextId := by
    rcases h₁.nextId with h | ⟨h, h'⟩
    · rcases h₂.nextId with hk | ⟨hk, hk'⟩
      · exact .inl (hk.trans h)
      · exact .inr ⟨h.symm.trans hk, hk'⟩
    · rcases h₂.nextId with hk | ⟨hk, -⟩
      · exact .inr ⟨h, hk.trans h'⟩
      · -- a number is not its own successor
        have hval := congrArg DeedId.val (hk.symm.trans h')
        exact absurd hval (Nat.ne_of_lt (Nat.lt_succ_self _))

end Quiet

namespace System

variable {s t u : System} {m : Move} {i : Invocation} {error : InvocationError} {id : DeedId}
  {f : Finding} {index : Nat} {input : Input}

/-! ### Questions -/

theorem goOn_world (s : System) (deed : DeedId) (q : Question) : (s.goOn deed q).world = s.world := by
  rw [goOn_eq]

theorem poll_world (s : System) (deed : DeedId) : (s.poll deed).world = s.world := by
  rw [poll_eq]

theorem expire_world (s : System) (deed : DeedId) : (s.expire deed).world = s.world := by
  rw [expire_eq]

/-- The cast may only use up a queued answer as it chooses. -/
theorem chooseActor_world (s : System) (mode : ActorMode) :
    SameSums s.world (s.chooseActor mode).2.world := by
  cases mode with
  | personal => exact .refl _
  | organization =>
    unfold chooseActor Cast.select
    cases s.world.cast.selections <;> exact ⟨rfl, rfl, rfl⟩

theorem answer_world (s : System) (deed : DeedId) : SameSums s.world (s.answer deed).world := by
  unfold answer
  cases s.question? deed with
  | none => exact .refl _
  | some q =>
    dsimp only
    split
    · exact .refl _
    · cases q with
      | actor mode => exact chooseActor_world s mode
      | start check =>
        dsimp only
        split
        · exact .of_eq (goOn_world s deed _)
        · exact .of_eq (goOn_world s deed _)
      | again check =>
        dsimp only
        split
        · exact .of_eq (goOn_world s deed _)
        · exact .of_eq (goOn_world s deed _)

/-- Whatever happens to questions, the engine is not concerned, and the world keeps its sums. -/
theorem quiet_question (hs : s.Sound) {deed : DeedId}
    (hm : m = .poll deed ∨ m = .answer deed ∨ m = .expire deed ∨ m = .lose deed) :
    Quiet id s (s.step m).1 := by
  have hn := hs.expected.nodup
  rcases hm with rfl | rfl | rfl | rfl
  · exact .of_engine (poll_proceeds hn deed).engine (.of_eq (poll_world s deed))
  · exact .of_engine (answer_proceeds hn deed).engine (answer_world s deed)
  · exact .of_engine (expire_proceeds hn deed).engine (.of_eq (expire_world s deed))
  · exact .of_engine rfl (.refl _)

/-! ### Inputs -/

/-- An input that applies nothing leaves the world alone. -/
theorem deliver_world (h : (s.deliver input).2.filterMap Output.application? = []) :
    (s.deliver input).1.world = s.world := by
  rw [world_deliver, h]
  rfl

/-- A call that gets a number changes nothing else; a call for an unknown action changes nothing. -/
theorem quiet_invoke (s : System) (call : CallId) (name : String) (target : Target) (token : Token) :
    Quiet s.engine.nextId s (s.step (.invoke call name target token)).1 := by
  have hengine : (s.step (.invoke call name target token)).1.engine
      = (s.engine.invoke call name target token).1 := engine_deliver
  have hworld : (s.engine.invoke call name target token).2.filterMap Output.application? = [] →
      (s.step (.invoke call name target token)).1.world = s.world := by
    intro h
    exact deliver_world h
  cases h : s.engine.catalog.instantiate s.engine.nextId name target with
  | none =>
    rw [Engine.invoke, h] at hengine hworld
    exact .of_engine hengine (.of_eq (hworld rfl))
  | some d =>
    rw [Engine.invoke, h] at hengine hworld
    obtain ⟨t, -, -, rfl⟩ := Catalog.instantiate_eq_some h
    refine ⟨.of_eq (hworld rfl), by rw [hengine], ?_, .inr ⟨rfl, by rw [hengine]⟩⟩
    rw [hengine]
    exact Engine.forget_enter (i := ⟨.ofTemplate s.engine.nextId t target, token, call⟩)

/-- A request to stop a deed that is not tracked changes nothing. -/
theorem quiet_stop (h : id ∉ s.engine.tracker.order) : Quiet id s (s.step (.stop id)).1 := by
  have hstop : (s.engine.stop id).1 = s.engine := by
    unfold Engine.stop
    cases s.engine.pending? id with
    | some i => rfl
    | none => rw [Tracker.find?_eq_none_iff.2 h]
  exact .of_engine (engine_deliver.trans hstop)
    (.of_eq (deliver_world (stop_applies_nothing s.engine id)))

/-- A finding after which its deed is still pending changes nothing else. -/
theorem quiet_take_pending (hs : s.Sound) (hindex : s.finished[index]? = some f)
    (hmem : f.deed ∈ s.engine.pendingIds)
    (hlater : f.deed ∈ (s.step (.take index)).1.engine.pendingIds) :
    Quiet f.deed s (s.step (.take index)).1 := by
  have hstep : s.step (.take index) = (s.without index).deliver (.finding f) := take_of_some hindex
  rw [hstep] at hlater ⊢
  obtain ⟨hothers, hnext, htracker, happly⟩ :=
    (take_transition hs hindex).of_still_pending hs.sound hmem hlater
  refine ⟨.of_eq ?_, htracker, ?_, .inl hnext⟩
  · refine deliver_world (s := s.without index) (List.filterMap_eq_nil_iff.2 fun o ho => ?_)
    cases o with
    | apply deed actor what effects => exact absurd ho (happly _ _ _ _)
    | _ => rfl
  · rw [hothers, hnext]
    rfl

/-! ### Deeds that were not begun -/

theorem not_settled_iff : ¬ s.engine.Settled id ↔
    s.engine.nextId.val ≤ id.val ∨ id ∈ s.engine.pendingIds := by
  rw [Engine.Settled, not_and_or, not_not, Nat.not_lt]

theorem not_tracked_of_not_settled (hs : s.Sound) (h : ¬ s.engine.Settled id) :
    id ∉ s.engine.tracker.order := by
  rcases not_settled_iff.1 h with h | h
  · exact fun hmem => hs.sound.not_mem_ids h (List.mem_append_right _ hmem)
  · exact Engine.not_mem_order_of_pending hs.sound.nodup h

theorem settled_step (hs : s.Sound) (m : Move) (h : s.engine.Settled id) :
    (s.step m).1.engine.Settled id :=
  h.chain hs.sound ((makes_step hs m).chain hs)

/-- A move on behalf of a deed that is called for or still pending then is quiet. -/
theorem quiet_of_not_settled (hs : s.Sound) (hm : s.OnBehalf id m)
    (h : ¬ (s.step m).1.engine.Settled id) : Quiet id s (s.step m).1 := by
  have hbefore : ¬ s.engine.Settled id := fun hset => h (settled_step hs m hset)
  cases m with
  | invoke call name target token =>
    cases hm
    exact quiet_invoke s call name target token
  | stop deed =>
    cases hm
    exact quiet_stop (not_tracked_of_not_settled hs hbefore)
  | fire token => exact .of_engine rfl (.refl _)
  | poll deed => exact quiet_question hs (.inl rfl)
  | answer deed => exact quiet_question hs (.inr (.inl rfl))
  | expire deed => exact quiet_question hs (.inr (.inr (.inl rfl)))
  | lose deed => exact quiet_question hs (.inr (.inr (.inr rfl)))
  | take index =>
    obtain ⟨f, hindex, rfl⟩ := hm
    have hlt := (expects_taken hs hindex).id_lt hs.sound
    have hmem : f.deed ∈ s.engine.pendingIds :=
      (not_settled_iff.1 hbefore).resolve_left (Nat.not_le.2 hlt)
    have hlt' : f.deed.val < (s.step (.take index)).1.engine.nextId.val := by
      have hnext := ((take_transition hs hindex).sameOthers hs.sound).nextId
      rw [← take_of_some hindex] at hnext
      exact Nat.lt_of_lt_of_le hlt hnext
    exact quiet_take_pending hs hindex hmem
      ((not_settled_iff.1 h).resolve_left (Nat.not_le.2 hlt'))
  | takeTick => cases hm
  | advanceClock => cases hm
  | closeClock => cases hm
  | outside => cases hm

/-- A move on behalf of a deed that is gone is quiet. -/
theorem quiet_of_gone (hs : s.Sound) (hm : s.OnBehalf id m) (hg : s.engine.Gone id) :
    Quiet id s (s.step m).1 := by
  cases m with
  | invoke =>
    cases hm
    exact absurd hg.1 (Nat.lt_irrefl _)
  | stop deed =>
    cases hm
    exact quiet_stop fun hmem => hg.2 (List.mem_append_right _ hmem)
  | fire token => exact .of_engine rfl (.refl _)
  | poll deed => exact quiet_question hs (.inl rfl)
  | answer deed => exact quiet_question hs (.inr (.inl rfl))
  | expire deed => exact quiet_question hs (.inr (.inr (.inl rfl)))
  | lose deed => exact quiet_question hs (.inr (.inr (.inr rfl)))
  | take index =>
    obtain ⟨f, hindex, rfl⟩ := hm
    have hstep : s.step (.take index) = (s.without index, []) := take_stale hs hindex hg.2
    rw [hstep]
    exact .of_engine rfl (.refl _)
  | takeTick => cases hm
  | advanceClock => cases hm
  | closeClock => cases hm
  | outside => cases hm

/-! ## No trace -/

/-- Moves on behalf of one deed are quiet together while the deed is pending. -/
theorem quiet_run (hs : s.Sound) {moves : List Move} (hfor : AllOnBehalf id s moves)
    (h : id ∈ (s.run moves).1.engine.pendingIds) : Quiet id s (s.run moves).1 := by
  induction moves generalizing s with
  | nil => exact .refl s
  | cons m rest ih =>
    have ht : (s.step m).1.Sound := (makes_step hs m).sound hs
    have hstep : Quiet id s (s.step m).1 :=
      quiet_of_not_settled hs hfor.1 (Engine.not_settled_of_chain ht.sound (chain_of_run ht rest) h)
    exact hstep.trans (ih ht hfor.2 h)

theorem Rejects.quiet (hs : s.Sound) (h : s.Rejects m i error) :
    Quiet i.deed.id s (s.step m).1 := by
  obtain ⟨index, f, rfl, hfails⟩ := h.of_step hs
  refine ⟨.of_eq hfails.world, ?_, ?_, .inl ?_⟩
  · rw [hfails.engine]
    rfl
  · rw [hfails.engine, Engine.forget_forget]
  · rw [hfails.engine]
    rfl

/-- So is every move on behalf of a deed whose invocation fails, before, then and ever after. -/
theorem Rejects.quiet_of_split {start : System} {moves before after later : List Move} {x : Move}
    (hstart : start.Sound) (h : (start.run moves).1.Rejects m i error)
    (heq : moves ++ m :: later = before ++ x :: after)
    (hfor : (start.run before).1.OnBehalf i.deed.id x) :
    Quiet i.deed.id (start.run before).1 ((start.run before).1.step x).1 := by
  have hs : (start.run moves).1.Sound := run_sound hstart moves
  have hu : (start.run before).1.Sound := run_sound hstart before
  -- the move comes before the rejection, is the rejection, or comes after it
  rcases List.append_eq_append_iff.1 heq with ⟨rest, rfl, hrest⟩ | ⟨rest, rfl, hrest⟩
  · cases rest with
    | nil =>
      obtain ⟨rfl, -⟩ := List.cons.inj hrest
      rw [List.append_nil]
      exact h.quiet hs
    | cons y rest =>
      obtain ⟨rfl, -⟩ := List.cons.inj hrest
      rw [run_split] at hfor hu ⊢
      have ht : ((start.run moves).1.step m).1.Sound := (makes_step hs m).sound hs
      exact quiet_of_gone hu hfor ((h.gone hs).chain ht.sound (chain_of_run ht rest))
  · cases rest with
    | nil =>
      obtain ⟨rfl, -⟩ := List.cons.inj hrest
      rw [List.append_nil] at h hs
      exact h.quiet hs
    | cons y rest =>
      obtain ⟨rfl, -⟩ := List.cons.inj hrest
      have hmem := Engine.Sound.mem_pendingIds h.pending
      rw [run_split] at hmem
      have ht : ((start.run before).1.step x).1.Sound := (makes_step hu x).sound hu
      exact quiet_of_not_settled hu hfor
        (Engine.not_settled_of_chain ht.sound (chain_of_run ht rest) hmem)

/-- When nothing happens between a call and its rejection but on behalf of the call, the engine is as
it was before, but for the next number. -/
theorem Rejects.engine_eq {call : CallId} {name : String} {target : Target} {token : Token}
    {moves : List Move} (hu : u.Sound) (hid : u.engine.nextId = i.deed.id)
    (hfor : AllOnBehalf i.deed.id (u.step (.invoke call name target token)).1 moves)
    (hs : ((u.step (.invoke call name target token)).1.run moves).1 = s)
    (h : s.Rejects m i error) :
    (s.step m).1.engine = { u.engine with nextId := i.deed.id.next } ∧
      SameSums u.world (s.step m).1.world := by
  have hv : (u.step (.invoke call name target token)).1.Sound :=
    (makes_step hu _).sound hu
  have hsound : s.Sound := hs ▸ run_sound hv moves
  have hmem : i.deed.id ∈ s.engine.pendingIds := Engine.Sound.mem_pendingIds h.pending
  have hcall : Quiet i.deed.id u (u.step (.invoke call name target token)).1 := by
    rw [← hid]
    exact quiet_invoke u call name target token
  have hrun : Quiet i.deed.id (u.step (.invoke call name target token)).1 s := by
    subst hs
    exact quiet_run hv hfor hmem
  have hall := (hcall.trans hrun).trans (h.quiet hsound)
  refine ⟨?_, hall.world⟩
  have hlt : i.deed.id.val < (s.step m).1.engine.nextId.val := (h.gone hsound).1
  have hnext : (s.step m).1.engine.nextId = i.deed.id.next := by
    rcases hall.nextId with heq | ⟨-, heq⟩
    · rw [heq, hid] at hlt
      exact absurd hlt (Nat.lt_irrefl _)
    · exact heq
  have hfresh : i.deed.id ∉ u.engine.ids :=
    hu.sound.not_mem_ids (Nat.le_of_eq (congrArg DeedId.val hid))
  have hothers := hall.others
  rw [Engine.forget_eq_self hu.sound hfresh, hnext, h.forget hsound, Engine.forget_forget] at hothers
  rw [h.forget hsound, hothers]

/-- A call for an unknown action is answered so at once, and changes nothing. -/
theorem refused_of_answer {call : CallId} {name : String} {target : Target} {token : Token}
    (h : .answer call (.error error) ∈ (s.step (.invoke call name target token)).2) :
    error = .unknownAction name ∧ s.engine.catalog.get? name = none ∧
      (s.step (.invoke call name target token)).1
        = { s with bus := (s.step (.invoke call name target token)).1.bus } := by
  have hmem : .answer call (.error error) ∈ (s.engine.invoke call name target token).2 := h
  cases hd : s.engine.catalog.instantiate s.engine.nextId name target with
  | some d =>
    rw [Engine.invoke, hd] at hmem
    simp at hmem
  | none =>
    have hstep : s.step (.invoke call name target token)
        = (performAll { s with engine := (s.engine.invoke call name target token).1 }
            (s.engine.invoke call name target token).2,
          (s.engine.invoke call name target token).2) := rfl
    rw [Engine.invoke, hd] at hmem hstep
    refine ⟨by simpa using hmem, Option.map_eq_none_iff.1 hd, ?_⟩
    rw [hstep]
    rfl

/-- After any moves, in any order:
* a call that is answered with an error at once asked for an unknown action, and changes nothing but
  what is on the bus;
* when a move answers a pending invocation with an error, it takes a finding of the invocation that
  stands for this error; it takes out the invocation and its slot and changes nothing else of the
  engine, and nothing of the world; an actor who was busy stays at the other deed;
* no move on behalf of this invocation, before that, then or ever after, changes a balance, the count
  of adjustments, a stat, the dice, the tracker, or any other invocation or slot;
* when there was no other move between the call and the rejection, the engine is as it was before the
  call, but for the next number. -/
theorem rejection_leaves_no_trace (catalog : Catalog) (world : World) (clock : Clock) (bus : Bus)
    (moves : List Move) (m : Move) :
    let start := ofParts catalog world clock bus
    let s := (start.run moves).1
    let t := (s.step m).1
    (∀ call name target token error, m = .invoke call name target token →
      .answer call (.error error) ∈ (s.step m).2 →
        error = .unknownAction name ∧ catalog.get? name = none ∧ t = { s with bus := t.bus }) ∧
    ∀ i error, s.Rejects m i error →
      (∃ index f, m = .take index ∧ s.finished[index]? = some f ∧ f.deed = i.deed.id ∧
        s.engine.failure? i f = some error) ∧
      t.engine = s.engine.forget i.deed.id ∧ t.world = s.world ∧
      (∀ actor current, error = .actorBusy actor current →
        t.engine.current? actor = some current) ∧
      (∀ later before x after, moves ++ m :: later = before ++ x :: after →
        let u := (start.run before).1
        u.OnBehalf i.deed.id x → Quiet i.deed.id u (u.step x).1) ∧
      ∀ before call name target token between,
        moves = before ++ .invoke call name target token :: between →
          let u := (start.run before).1
          u.engine.nextId = i.deed.id →
          AllOnBehalf i.deed.id (u.step (.invoke call name target token)).1 between →
            t.engine = { u.engine with nextId := i.deed.id.next } ∧ SameSums u.world t.world := by
  intro start s t
  have hstart : start.Sound := sound_ofParts catalog world clock bus
  have hs : s.Sound := run_sound hstart moves
  refine ⟨fun call name target token error hm hmem => ?_, fun i error h => ?_⟩
  · subst hm
    have hchain : Chain (Taking fun _ => True) (.ofCatalog catalog) (start.run moves).2 s.engine :=
      chain_of_run hstart moves
    have hcatalog : s.engine.catalog = catalog := Engine.catalog_of_chain hstart.sound hchain
    rw [← hcatalog]
    exact refused_of_answer hmem
  · obtain ⟨index, f, hm, hfails⟩ := h.of_step hs
    have hengine : t.engine = s.engine.forget i.deed.id := h.forget hs
    have hgone : t.engine.Gone i.deed.id := h.gone hs
    refine ⟨⟨index, f, hm, hfails.taken, hfails.deed, hfails.failure⟩, hengine, ?_,
      fun actor current herror => ?_, fun later before x after heq hfor => ?_,
      fun before call name target token between heq hid hfor => ?_⟩
    · subst hm
      exact hfails.world
    · subst herror
      rw [hengine]
      exact Engine.current?_forget_of_busy hs.sound h.pending
        (awaits_taken hs h.pending hfails.deed hfails.taken) hfails.deed hfails.failure
    · exact h.quiet_of_split hstart heq hfor
    · have hrun : s = ((((start.run before).1.step (.invoke call name target token)).1.run
          between).1) := by
        show (start.run moves).1 = _
        rw [heq, run_append]
        rfl
      exact Rejects.engine_eq (run_sound hstart before) hid hfor hrun.symm h

/-- The protagonist keeps a watch and is found for a second one; this news is not taken yet. -/
def callSecondWatch : List Move :=
  beginWatch ++ [.invoke ⟨1⟩ "watch" (.location ⟨2⟩ "Wall") ⟨1⟩, .answer ⟨2⟩]

/-- The second watch fails, as the protagonist is busy; he stays at the first one, nothing is paid,
and only the next number shows that there was a second call. -/
theorem second_watch_leaves_no_trace :
    let u := (watchtower.run beginWatch).1
    let s := (watchtower.run callSecondWatch).1
    let t := (s.step (.take 0)).1
    (∃ i, s.Rejects (.take 0) i (.actorBusy ⟨1⟩ ⟨1⟩)) ∧
      t.engine.current? ⟨1⟩ = some ⟨1⟩ ∧ t.world = s.world ∧
      t.engine = { u.engine with nextId := ⟨3⟩ } := by
  intro u s t
  have hs : s.Sound := run_sound watchtower_sound callSecondWatch
  obtain ⟨i, hi, hid, halone, hfail⟩ : ∃ i ∈ s.engine.pending, i.deed.id = ⟨2⟩ ∧
      (∀ k ∈ s.engine.pending, k.call = i.call → k.deed.id = i.deed.id) ∧
      s.engine.failure? i (.resolved ⟨2⟩ (some ⟨1⟩)) = some (.actorBusy ⟨1⟩ ⟨1⟩) := by
    decide
  have hindex : s.finished[0]? = some (.resolved ⟨2⟩ (some ⟨1⟩)) := by decide
  have h : s.Rejects (.take 0) i (.actorBusy ⟨1⟩ ⟨1⟩) :=
    rejects_of_failure hs hi halone hindex hid.symm hfail
  obtain ⟨-, -, hworld, hbusy, -, halone⟩ := (rejection_leaves_no_trace watchCatalog watchWorld
    (.ofCapacity 4) (.ofCapacity 4) callSecondWatch (.take 0)).2 i _ h
  have hcall : u.engine.nextId = i.deed.id := by
    rw [hid]
    decide
  have heq := (halone beginWatch ⟨1⟩ "watch" (.location ⟨2⟩ "Wall") ⟨1⟩ [.answer ⟨2⟩] rfl hcall
    ⟨hid.symm, trivial⟩).1
  rw [hid] at heq
  exact ⟨⟨i, h⟩, hbusy ⟨1⟩ ⟨1⟩ rfl, hworld, heq⟩

end System

end Deeds
