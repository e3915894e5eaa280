import Deeds.Proofs.Payments
import Deeds.Proofs.Rejections
import Deeds.Proofs.System.Tokens

/-!
# Stops are local

A stop leaves every deed but its own as it is. What it can reach beyond is a token: the token of a
pending deed is fired, and every invocation that was given the same one ends with it.

* `Engine.Untouched` : what an engine knows of a deed is the same; `SameOthers.untouched` : so it is
  with every deed but one when a single deed changes;
* `System.Answered` : a finding that a collaborator gave while no token of the question was fired;
* `System.answered_of_neverFires` : a deed whose token is never fired gets nothing but answers;
* `System.stop_local` : what a stop does to the other deeds, and what it never does;
* `System.stop_reaches_sharer` : two deeds under one token.
-/

namespace Deeds

open Engine (SameOthers SameDeeds)

/-! ## Deeds that stay as they are -/

namespace Tracker

theorem isEmpty_eq_false {t : Tracker} {id : DeedId} (h : id ∈ t.order) : t.isEmpty = false := by
  obtain ⟨d, hd, -⟩ := mem_order.1 h
  rcases List.mem_append.1 hd with hd | hd
  · simp [isEmpty, List.ne_nil_of_mem hd]
  · simp [isEmpty, List.ne_nil_of_mem hd]

end Tracker

namespace Engine

variable {e e' : Engine} {f : Finding} {id j : DeedId} {i : Invocation}

/-- What the engine knows of a deed is the same: its invocation, the deed itself, and its slot. -/
structure Untouched (e : Engine) (j : DeedId) (e' : Engine) : Prop where
  pending? : e'.pending? j = e.pending? j
  tracked? : e'.tracker.find? j = e.tracker.find? j
  slot : ∀ actor, e'.current? actor = some j ↔ e.current? actor = some j

/-- What changes a single deed leaves every other deed untouched. -/
theorem SameOthers.untouched (hs : e.Sound) (hs' : e'.Sound) (h : SameOthers e id e')
    (hj : j ≠ id) : Untouched e j e' where
  pending? := by
    refine Option.ext fun i => ?_
    rw [pending?_eq_some_iff hs.nodup, pending?_eq_some_iff hs'.nodup]
    exact and_congr_left fun hid => h.pending i (hid ▸ hj)
  tracked? := by
    refine Option.ext fun d => ?_
    rw [tracked_eq_some_iff hs.nodup, tracked_eq_some_iff hs'.nodup]
    exact and_congr_left fun hid => h.tracked d (hid ▸ hj)
  slot actor := by
    rw [current?, current?, lookup_eq_some_iff_mem hs.slots_nodup,
      lookup_eq_some_iff_mem hs'.slots_nodup]
    exact h.slots actor j hj

/-- A stop changes a single deed. -/
theorem stop_sameOthers (hs : e.Sound) (id : DeedId) : SameOthers e id (e.stop id).1 := by
  unfold stop
  cases e.pending? id with
  | some i => exact (SameDeeds.refl e).sameOthers id
  | none =>
    cases hfind : e.tracker.find? id with
    | none => exact (SameDeeds.refl e).sameOthers id
    | some d =>
      obtain ⟨hd, rfl⟩ := Tracker.mem_of_find? hfind
      exact (update_dropTracked hs hd).sameOthers

/-- Hours go on after a stop as long as another deed is tracked. -/
theorem stop_keeps_hours (hj : j ∈ e.tracker.order) (hne : j ≠ id) :
    (e.stop id).1.tracker.subscribed = e.tracker.subscribed ∧
      .subscribe ∉ (e.stop id).2 ∧ .unsubscribe ∉ (e.stop id).2 := by
  unfold stop
  cases e.pending? id with
  | some i => simp
  | none =>
    cases hfind : e.tracker.find? id with
    | none => simp
    | some d =>
      obtain ⟨-, rfl⟩ := Tracker.mem_of_find? hfind
      have hmem : j ∈ (e.dropTracked d).tracker.order := by
        rw [dropTracked, release_tracker, Tracker.order_remove]
        exact List.mem_filter.2 ⟨hj, bne_iff_ne.2 hne⟩
      have hsame : (e.dropTracked d).unsubscribeIfIdle = (e.dropTracked d, []) := by
        simp [unsubscribeIfIdle, Tracker.isEmpty_eq_false hmem]
      simp only [cancelTracked, Run.andThen, hsame]
      simp [dropTracked, Tracker.remove]

/-! ## Cancelled invocations -/

theorem of_failure?_stopped {name : String} (h : e.failure? i f = some (.stopped name)) :
    f = .verified f.deed .cancelled := by
  cases f with
  | resolved id actor =>
    cases actor with
    | none => simp [failure?] at h
    | some actor => simp [failure?] at h
  | verified id outcome =>
    cases outcome with
    | cancelled => rfl
    | timedOut => simp [failure?] at h
    | checked v => simp [failure?] at h
  | reverified id outcome => simp [failure?] at h

theorem of_failure?_resolutionCancelled {name : String}
    (h : e.failure? i f = some (.resolutionCancelled name)) : f = .resolved f.deed none := by
  cases f with
  | resolved id actor =>
    cases actor with
    | none => rfl
    | some actor => simp [failure?] at h
  | verified id outcome => cases outcome <;> simp [failure?] at h
  | reverified id outcome => simp [failure?] at h

end Engine

namespace System

variable {start : System} {i : Invocation} {f : Finding} {moves xs ys : List Move}

/-! ## Answers -/

/-- A finding that ended a question in one of the moves, while the question's token was not fired. -/
def Answered (start : System) (moves : List Move) (f : Finding) : Prop :=
  ∃ xs m ys q, moves = xs ++ m :: ys ∧ (⟨f.deed, q⟩ : Suspension) ∈ (start.run xs).1.waiting ∧
    ¬ (start.run xs).1.isCancelled q ∧ Ends (start.run xs).1 f.deed q m f

/-- A deed whose token is never fired gets nothing but answers. -/
theorem answered_of_neverFires (hs : start.Sound) (hnone : start.finished = [])
    (hfired : start.fired = []) (hi : i ∈ (start.run xs).1.engine.pending)
    (hmoves : xs ++ ys = moves) (h : start.NeverFires i.token moves)
    (hf : f ∈ (start.run moves).1.finished) (hdeed : f.deed = i.deed.id) :
    start.Answered moves f := by
  rcases finished_run start moves hf with hmem | ⟨before, m, after, q, heq, hq, hends⟩
  · rw [hnone] at hmem
    cases hmem
  · refine ⟨before, m, after, q, heq, hq, ?_, hends⟩
    intro hc
    obtain ⟨token, htoken, hmem⟩ : ∃ token, q.token? = some token ∧
        token ∈ (start.run before).1.fired := by
      simpa [isCancelled, Option.any_eq_true] using hc
    have heq' : before ++ m :: after = moves := heq.symm
    rw [token_of_question hs hi hmoves heq' (hdeed ▸ hq) htoken] at hmem
    exact h.not_fired hs (by simp [hfired]) heq hmem

/-- A check that is answered is not cancelled. -/
theorem Answered.ne_cancelled {deed : DeedId} :
    ¬ start.Answered moves (.verified deed .cancelled) := by
  rintro ⟨xs, m, ys, q, -, -, hc, hends⟩
  rcases hends.of_not_cancelled hc with ⟨mode, -, h⟩ | ⟨outcome, hne, h | h⟩
  · simp at h
  · simp only [Finding.verified.injEq] at h
    exact hne h.2.symm
  · simp at h

/-- Nobody is found for a deed only when the cast chose nobody. -/
theorem Answered.of_nobody {deed : DeedId} (h : start.Answered moves (.resolved deed none)) :
    ∃ xs ys mode, moves = xs ++ .answer deed :: ys ∧
      ((start.run xs).1.chooseActor mode).1 = none := by
  obtain ⟨xs, m, ys, q, rfl, -, hc, hends⟩ := h
  rcases hends.of_not_cancelled hc with ⟨mode, rfl, h⟩ | ⟨outcome, -, h | h⟩
  · simp only [Finding.resolved.injEq] at h
    exact ⟨xs, ys, mode, rfl, h.2.symm⟩
  · simp at h
  · simp at h

/-! ## Requests to stop -/

/-- After any moves, in any order, a request to stop leaves every other deed as it is, with its slot
and its hours, and it changes no question, no finding and nothing of the world. Of all tokens it
fires the one of the deed, if it is pending.

So when the token of a pending deed is never fired, by an invoker or by a request to stop a pending
deed that has it, then every finding of this deed is an answer: its check is never cancelled, and
nobody is found for it only when the cast chose nobody. -/
theorem stop_local (catalog : Catalog) (world : World) (clock : Clock) (bus : Bus)
    (moves : List Move) (id : DeedId) :
    let start := ofParts catalog world clock bus
    let s := (start.run moves).1
    let t := (s.step (.stop id)).1
    (∀ j, j ≠ id → Engine.Untouched s.engine j t.engine ∧
      (j ∈ s.engine.tracker.order →
        t.engine.tracker.subscribed = s.engine.tracker.subscribed ∧ t.ticks = s.ticks)) ∧
    (t.waiting = s.waiting ∧ t.finished = s.finished ∧ t.world = s.world) ∧
    (∀ token, token ∈ t.fired ↔
      token ∈ s.fired ∨ ∃ i ∈ s.engine.pending, i.deed.id = id ∧ i.token = token) ∧
    ∀ i ∈ s.engine.pending, ∀ later,
      let all := moves ++ .stop id :: later
      let u := (start.run all).1
      start.NeverFires i.token all →
        (∀ f ∈ u.finished, f.deed = i.deed.id → start.Answered all f) ∧
        ∀ m k error, u.Rejects m k error → k.deed.id = i.deed.id →
          (∀ name, error ≠ .stopped name) ∧
          ∀ name, error = .resolutionCancelled name →
            ∃ xs ys mode, all = xs ++ .answer i.deed.id :: ys ∧
              ((start.run xs).1.chooseActor mode).1 = none := by
  intro start s t
  have hstart : start.Sound := sound_ofParts catalog world clock bus
  have hs : s.Sound := run_sound hstart moves
  have ht : t.Sound := (makes_step hs (.stop id)).sound hs
  have hengine : t.engine = (s.engine.stop id).1 := engine_deliver
  refine ⟨fun j hj => ⟨?_, fun hmem => ?_⟩, ⟨?_, ?_, ?_⟩, fun token => ?_,
    fun i hi later => ?_⟩
  · have hothers := Engine.stop_sameOthers hs.sound id
    rw [← hengine] at hothers
    exact hothers.untouched hs.sound ht.sound hj
  · obtain ⟨hsame, hsub, hunsub⟩ := Engine.stop_keeps_hours hmem hj
    refine ⟨?_, ticks_performAll hsub hunsub⟩
    rw [hengine]
    exact hsame
  · have hnone : questions (s.deliver (.stop id)).2 = [] := stop_asks_nothing s.engine id
    show (s.deliver (.stop id)).1.waiting = s.waiting
    rw [waiting_deliver, hnone, List.append_nil]
  · exact finished_deliver
  · exact deliver_world (stop_applies_nothing s.engine id)
  · exact mem_fired_performAll.trans (or_congr Iff.rfl (Engine.fire_mem_stop_iff hs.sound))
  · intro all u hnever
    have hanswered : ∀ f ∈ u.finished, f.deed = i.deed.id → start.Answered all f := by
      intro f hf hdeed
      exact answered_of_neverFires hstart rfl rfl hi rfl hnever hf hdeed
    refine ⟨hanswered, fun m k error hrejects hid => ?_⟩
    have hu : u.Sound := run_sound hstart all
    obtain ⟨index, f, -, hfails⟩ := hrejects.of_step hu
    have hdeed : f.deed = i.deed.id := hfails.deed.trans hid
    have hanswer := hanswered f (List.mem_of_getElem? hfails.taken) hdeed
    constructor
    · rintro name rfl
      rw [Engine.of_failure?_stopped hfails.failure] at hanswer
      exact hanswer.ne_cancelled
    · rintro name rfl
      rw [Engine.of_failure?_resolutionCancelled hfails.failure, hdeed] at hanswer
      exact hanswer.of_nobody

/-- Two watches are called for, the second one under a token of its own or of the first. -/
def callTwo (second : Token) : List Move :=
  [.invoke ⟨0⟩ "watch" (.location ⟨1⟩ "Gate") ⟨0⟩,
    .invoke ⟨1⟩ "watch" (.location ⟨2⟩ "Wall") second]

/-- The first watch is stopped; the second one has a token of its own, and the protagonist is found
for it. -/
theorem stop_of_first_watch :
    let s := (watchtower.run (callTwo ⟨1⟩)).1
    let t := (s.step (.stop ⟨1⟩)).1
    let all := callTwo ⟨1⟩ ++ .stop ⟨1⟩ :: [.answer ⟨2⟩]
    watchtower.NeverFires ⟨1⟩ all ∧ Engine.Untouched s.engine ⟨2⟩ t.engine ∧
      (watchtower.run all).1.finished = [.resolved ⟨2⟩ (some ⟨1⟩)] ∧
      watchtower.Answered all (.resolved ⟨2⟩ (some ⟨1⟩)) := by
  intro s t all
  have hnever : watchtower.NeverFires ⟨1⟩ all :=
    neverFires_of_not_fired watchtower_sound (by decide)
  have hfinished : (watchtower.run all).1.finished = [.resolved ⟨2⟩ (some ⟨1⟩)] := by
    decide
  obtain ⟨i, hi, hid, htoken⟩ : ∃ i ∈ s.engine.pending, i.deed.id = ⟨2⟩ ∧ i.token = ⟨1⟩ := by
    decide
  obtain ⟨hothers, -, -, hanswers⟩ := stop_local watchCatalog watchWorld (.ofCapacity 4)
    (.ofCapacity 4) (callTwo ⟨1⟩) ⟨1⟩
  have hunfired : watchtower.NeverFires i.token all := by
    rw [htoken]
    exact hnever
  have hall := (hanswers i hi [.answer ⟨2⟩] hunfired).1
  refine ⟨hnever, (hothers ⟨2⟩ (by decide)).1, hfinished, hall _ ?_ hid.symm⟩
  show _ ∈ (watchtower.run all).1.finished
  rw [hfinished]
  exact List.mem_singleton_self _

/-- A camp whose cast chooses nobody for the first question, and a member for the second. -/
def halfCamp : System :=
  ofParts ⟨[raid]⟩ { campWorld with cast.selections := [.cancelled, .chosen ⟨1⟩] }
    (.ofCapacity 4) (.ofCapacity 4)

/-- Two raids are called for, each under its own token. -/
def callBoth : List Move :=
  [.invoke ⟨0⟩ "raid" (.location ⟨1⟩ "Docks") ⟨0⟩, .invoke ⟨1⟩ "raid" (.location ⟨2⟩ "Docks") ⟨1⟩]

-- A choice of the cast is meant for no deed: without the stop the first raid is the one that
-- nobody is chosen for, and with it the second raid gets this answer.
example :
    (halfCamp.run (callBoth ++ [.answer ⟨1⟩, .answer ⟨2⟩])).1.finished =
        [.resolved ⟨1⟩ none, .resolved ⟨2⟩ (some ⟨1⟩)] ∧
      (halfCamp.run (callBoth ++ [.stop ⟨1⟩, .poll ⟨1⟩, .answer ⟨2⟩])).1.finished =
        [.resolved ⟨1⟩ none, .resolved ⟨2⟩ none] := by
  decide

/-- Both watches are called for under one token, and the first is stopped. No invoker fires a token
and nobody stops the second watch, but it is rejected as if nobody had been chosen for it. -/
theorem stop_reaches_sharer :
    let s := (watchtower.run (callTwo ⟨0⟩)).1
    let all := callTwo ⟨0⟩ ++ [.stop ⟨1⟩, .poll ⟨2⟩]
    let u := (watchtower.run all).1
    (∀ token, .fire token ∉ all) ∧ .stop ⟨2⟩ ∉ all ∧
      (s.chooseActor .personal).1 = some ⟨1⟩ ∧ (s.run [.poll ⟨2⟩]).1.finished = [] ∧
      u.finished = [.resolved ⟨2⟩ none] ∧
      ∃ i ∈ s.engine.pending, i.deed.id = ⟨2⟩ ∧
        u.Rejects (.take 0) i (.resolutionCancelled "watch") := by
  intro s all u
  have hu : u.Sound := run_sound watchtower_sound all
  have hfinished : u.finished = [.resolved ⟨2⟩ none] := by decide
  obtain ⟨i, hi, hiu, hid, hname, halone⟩ : ∃ i ∈ s.engine.pending, i ∈ u.engine.pending ∧
      i.deed.id = ⟨2⟩ ∧ i.deed.name = "watch" ∧
      ∀ k ∈ u.engine.pending, k.call = i.call → k.deed.id = i.deed.id := by decide
  refine ⟨fun token => by simp [all, callTwo], by decide, by decide, by decide,
    hfinished, i, hi, hid, ?_⟩
  refine rejects_of_failure (f := .resolved ⟨2⟩ none) hu hiu halone ?_ hid.symm ?_
  · rw [hfinished]
    rfl
  · rw [Engine.failure?, hname]

end System

end Deeds
