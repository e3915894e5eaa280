import Deeds.Proofs.Engine.Hours
import Deeds.Proofs.System.History
import Deeds.Proofs.System.Inputs
import Deeds.Session.State

/-!
# One answer for each call

A call is pending from the move that makes it until the move that answers it, and that move tells of
the answer in one event.

* `answers`, `outcomes` : the answers in some outputs, and the events that tell of them;
* `Engine.Handles` : what an input does to the pending calls; `System.handles_step` says that every
  move does so;
* `System.Numbered` : the number of a call among those for known actions;
* `System.Accounted` : all calls of a run, the answers, and the calls that are pending;
* `System.answered_once` : what was answered, told and numbered after any moves.
-/

namespace Deeds

open Engine (Transition)

/-! ## Calls and their answers -/

/-- What a call asks for. -/
structure Request where
  call : CallId
  action : String
  target : Target
  deriving DecidableEq

/-- The call that a pending deed was made for. -/
def Invocation.request (i : Invocation) : Request := ⟨i.call, i.deed.name, i.deed.target⟩

/-- The call that an input makes. -/
def Input.request? : Input → Option Request
  | .invoke call name target _ => some ⟨call, name, target⟩
  | _ => none

/-- The call that a move makes. -/
def Move.request? : Move → Option Request
  | .invoke call name target _ => some ⟨call, name, target⟩
  | _ => none

/-- The answer that an output gives to a call. -/
def Output.answer? : Output → Option (CallId × Except InvocationError Receipt)
  | .answer call result => some (call, result)
  | _ => none

theorem Output.answer?_of_silent {o : Output} (h : o.ends = false) : o.answer? = none := by
  cases o with
  | answer => cases h
  | _ => rfl

/-- The event of an output that tells how an invocation ended. -/
def Output.outcome? : Output → Option ActionEvent
  | .publish (.action (.started deed action actor target mode)) =>
    some (.started deed action actor target mode)
  | .publish (.action (.invocationFailed action target error)) =>
    some (.invocationFailed action target error)
  | _ => none

/-- All answers in some outputs, in order. -/
def answers (outputs : List Output) : List (CallId × Except InvocationError Receipt) :=
  outputs.filterMap Output.answer?

/-- All events in some outputs that tell how an invocation ended, in order. -/
def outcomes (outputs : List Output) : List ActionEvent := outputs.filterMap Output.outcome?

/-- All receipts in some outputs, in order. -/
def receipts (outputs : List Output) : List Receipt :=
  (answers outputs).filterMap fun a => a.2.toOption

/-- The event that tells of the answer to a call. -/
def announcement (q : Request) : Except InvocationError Receipt → ActionEvent
  | .error error => .invocationFailed q.action q.target error.message
  | .ok r => .started r.deed r.action r.actor q.target r.mode

section

variable {xs ys : List Output}

theorem answers_append : answers (xs ++ ys) = answers xs ++ answers ys := List.filterMap_append

theorem outcomes_append : outcomes (xs ++ ys) = outcomes xs ++ outcomes ys := List.filterMap_append

theorem receipts_append : receipts (xs ++ ys) = receipts xs ++ receipts ys := by
  simp only [receipts, answers_append, List.filterMap_append]

theorem mem_receipts {r : Receipt} : r ∈ receipts xs ↔ ∃ call, (call, .ok r) ∈ answers xs := by
  simp only [receipts, List.mem_filterMap, Prod.exists]
  constructor
  · rintro ⟨call, result, hmem, hr⟩
    cases result with
    | error => cases hr
    | ok r' =>
      cases hr
      exact ⟨call, hmem⟩
  · rintro ⟨call, hmem⟩
    exact ⟨call, .ok r, hmem, rfl⟩

/-- Outputs that end no invocation answer nothing. -/
theorem answers_of_silent (h : ∀ o ∈ xs, o.ends = false) : answers xs = [] :=
  List.filterMap_eq_nil_iff.2 fun o ho => o.answer?_of_silent (h o ho)

theorem receipts_of_silent (h : ∀ o ∈ xs, o.ends = false) : receipts xs = [] := by
  rw [receipts, answers_of_silent h]
  rfl

theorem outcomes_of_silent (h : ∀ o ∈ xs, o.ends = false) : outcomes xs = [] := by
  refine List.filterMap_eq_nil_iff.2 fun o ho => ?_
  have hends := h o ho
  unfold Output.outcome?
  split
  · cases hends
  · cases hends
  · rfl

end

/-! ## What an input does to the pending calls -/

namespace Engine

/-- The pending calls, each under the number of its deed. -/
def entries (e : Engine) : List (DeedId × Request) :=
  e.pending.map fun i => (i.deed.id, i.request)

/-- A receipt says of a deed what is true of it: an immediate one is over, any other is tracked. -/
structure Honours (e : Engine) (id : DeedId) (q : Request) (r : Receipt) : Prop where
  deed : r.deed = id
  action : r.action = q.action
  ended : r.mode = .immediate → r.phase = .cleared ∧ id ∉ e.ids
  begun : r.mode ≠ .immediate → r.phase = .pending ∧
    ∃ d ∈ e.tracker.deeds, d.id = id ∧ d.name = r.action ∧ d.actor = some r.actor ∧ d.mode = r.mode

/-- What an input does to the pending calls: nothing, or it adds the call that it makes, refuses it,
or answers one of those pending. -/
inductive Handles (e : Engine) : Option Request → List Output → Engine → Prop
  | aside {outputs : List Output} {e' : Engine} (entries : e'.entries = e.entries)
      (nextId : e'.nextId = e.nextId) (silent : ∀ o ∈ outputs, o.ends = false) :
      Handles e none outputs e'
  | enter {q : Request} {outputs : List Output} {e' : Engine}
      (known : (e.catalog.get? q.action).isSome)
      (entries : e'.entries = e.entries ++ [(e.nextId, q)])
      (nextId : e'.nextId = e.nextId.next) (silent : ∀ o ∈ outputs, o.ends = false) :
      Handles e (some q) outputs e'
  | refuse {q : Request} {outputs : List Output} (unknown : e.catalog.get? q.action = none)
      (answers : answers outputs = [(q.call, .error (.unknownAction q.action))])
      (outcomes : outcomes outputs = [announcement q (.error (.unknownAction q.action))]) :
      Handles e (some q) outputs e
  | settle {i : Invocation} (result : Except InvocationError Receipt) {outputs : List Output}
      {e' : Engine} (hi : i ∈ e.pending)
      (entries : e'.entries = e.entries.filter (·.1 != i.deed.id)) (nextId : e'.nextId = e.nextId)
      (answers : answers outputs = [(i.call, result)])
      (outcomes : outcomes outputs = [announcement i.request result])
      (honours : ∀ r, result = .ok r → e'.Honours i.deed.id i.request r) :
      Handles e none outputs e'

variable {e e' : Engine} {f : Finding} {id : DeedId} {outputs : List Output} {i : Invocation}
  {d : Deed}

theorem entries_of_pending (h : e'.pending = e.pending) : e'.entries = e.entries := by
  rw [entries, h, entries]

theorem entries_dropPending (id : DeedId) :
    (e.dropPending id).entries = e.entries.filter (·.1 != id) := by
  rw [entries, entries, dropPending, List.filter_map]
  rfl

/-- An actor is found for a deed; what it was called for stays. -/
theorem entries_updatePending (hs : e.Sound) (hi : i ∈ e.pending) (hid : d.id = i.deed.id)
    (hname : d.name = i.deed.name) (htarget : d.target = i.deed.target) :
    (e.updatePending d).entries = e.entries := by
  rw [entries, entries, updatePending, List.map_map]
  refine List.map_congr_left fun j hj => ?_
  simp only [Function.comp_apply]
  split
  · rename_i hjd
    obtain rfl := pending_unique hs.nodup hj hi (hjd.trans hid)
    simp only [Invocation.request, hid, hname, htarget]
  · rfl

theorem Aside.handles {r : Run} (h : Aside e r) : Handles e none r.2 r.1 :=
  .aside (entries_of_pending h.pending) h.nextId h.silent

theorem invoke_handles (call : CallId) (name : String) (target : Target) (token : Token) :
    Handles e (some ⟨call, name, target⟩) (e.invoke call name target token).2
      (e.invoke call name target token).1 := by
  unfold invoke
  cases h : e.catalog.instantiate e.nextId name target with
  | none => exact .refuse (Option.map_eq_none_iff.1 h) rfl rfl
  | some d =>
    obtain ⟨t, ht, rfl, rfl⟩ := Catalog.instantiate_eq_some h
    refine .enter (Option.isSome_of_eq_some ht) ?_ rfl (by simp [Output.ends])
    simp only [entries, List.map_append]
    rfl

/-- A finding answers the call of its deed, or none. -/
theorem Transition.handles (hs : e.Sound) (h : Transition e (some f) id outputs e') :
    Handles e none outputs e' := by
  cases h with
  | ignore => exact .aside rfl rfl (by simp)
  | @reject f i error hi =>
    refine .settle (.error error) hi ?_ ?_ rfl rfl fun r hr => nomatch hr
    · rw [← entries_dropPending]
      exact entries_of_pending release_pending
    · exact release_nextId
  | bind hi hfree hd =>
    obtain ⟨-, rfl⟩ := Deed.assign?_eq_some hd
    exact .aside (entries_updatePending hs hi rfl rfl rfl) rfl (by simp [Output.ends])
  | @finish i v d actor hi hmet hd ha hm =>
    have hup := update_finish hs hi hd
    have hid : d.id = i.deed.id := by rw [hd]; rfl
    have hname : d.name = i.deed.name := by rw [hd]; rfl
    have htarget : d.target = i.deed.target := by rw [hd]; rfl
    refine .settle (.ok (.ofDeed d.completeAtOnce.clear actor)) hi ?_ release_nextId rfl ?_ ?_
    · rw [← hid, ← entries_dropPending]
      exact entries_of_pending release_pending
    · show [ActionEvent.started d.id d.name actor d.target d.mode]
        = [.started d.id d.name actor i.deed.target d.mode]
      rw [htarget]
    · intro r hr
      cases hr
      exact ⟨hid, hname, fun _ => ⟨rfl, hup.not_mem_ids⟩, fun hne => absurd hm hne⟩
  | @track i v d actor hi hmet hd ha hm =>
    have hup := update_track hs hi hd ha hm
    have hid : d.id = i.deed.id := by rw [hd]; rfl
    have hname : d.name = i.deed.name := by rw [hd]; rfl
    have htarget : d.target = i.deed.target := by rw [hd]; rfl
    have hhours : ∀ o ∈ ((e.dropPending d.id).enrol d.start).2, o.ends = false :=
      fun o ho => o.ends_of_isHourly (isHourly_of_mem_enrol ho)
    refine .settle (.ok (.ofDeed d.start actor)) hi ?_ sameDeeds_enrol.nextId ?_ ?_ ?_
    · rw [← hid, ← entries_dropPending]
      exact entries_of_pending sameDeeds_enrol.pending
    · rw [answers_append, answers_append, answers_of_silent hhours]
      rfl
    · rw [outcomes_append, outcomes_append, outcomes_of_silent hhours]
      show [ActionEvent.started d.id d.name actor d.target d.mode]
        = [.started d.id d.name actor i.deed.target d.mode]
      rw [htarget]
    · intro r hr
      cases hr
      exact ⟨hid, hname, fun himm => absurd himm hm, fun _ =>
        ⟨rfl, _, (hup.mem_tracked _).2 (.inr rfl), hid, rfl, ha, rfl⟩⟩
  | restart => exact .aside rfl rfl (by simp [Output.ends])
  | cancel =>
    refine .aside (entries_of_pending ?_) ?_ (List.forall_mem_cons.2
      ⟨rfl, fun o ho => o.ends_of_isHourly (isHourly_of_mem_unsubscribeIfIdle ho)⟩)
    · rw [sameDeeds_unsubscribeIfIdle.pending, dropTracked, release_pending]
    · rw [sameDeeds_unsubscribeIfIdle.nextId, dropTracked, release_nextId]

/-- Every input handles the call that it makes, if it makes one. -/
theorem step_handles (rates : CharacterId → Option Binary32) (input : Input)
    (hf : ∀ f, input ≠ .finding f) :
    Handles e input.request? (e.step rates input).2 (e.step rates input).1 := by
  cases input with
  | invoke call name target token => exact invoke_handles call name target token
  | stop id => exact (stop_aside id).handles
  | finding f => exact absurd rfl (hf f)
  | tick hour => exact (tick_aside rates hour).handles
  | clockClosed =>
    exact .aside (entries_of_pending sameDeeds_unsubscribe.pending) sameDeeds_unsubscribe.nextId
      fun o ho => o.ends_of_isHourly (isHourly_of_mem_unsubscribe ho)

end Engine

namespace System

variable {s : System} {catalog : Catalog} {moves : List Move} {m : Move} {id : DeedId}
  {q : Request} {outputs said : List Output} {e e' : Engine}

theorem request?_eq (s : System) (m : Move) : m.request? = (s.input? m).bind Input.request? := by
  cases m with
  | take index =>
    show none = (s.finished[index]?.map Input.finding).bind _
    cases s.finished[index]? <;> rfl
  | takeTick =>
    show none = s.readClock.2.bind _
    cases h : s.readClock.2 with
    | none => rfl
    | some input => rcases readClock_cases h with ⟨hour, rfl⟩ | rfl <;> rfl
  | _ => rfl

/-- Every move handles the call that it makes, if it makes one. -/
theorem handles_step (hs : s.Sound) (m : Move) :
    s.engine.Handles m.request? (s.step m).2 (s.step m).1.engine := by
  rw [request?_eq s m]
  cases h : s.input? m with
  | none =>
    have hunheard := unheard_of_none h
    rw [hunheard.engine, hunheard.outputs]
    exact .aside rfl rfl (by simp)
  | some input =>
    by_cases hf : ∃ f, input = .finding f
    · obtain ⟨f, rfl⟩ := hf
      exact (transition_of_finding hs (input?_eq_finding_iff.1 h)).handles hs.sound
    · rw [(engine_of_input h).1, (engine_of_input h).2]
      exact Engine.step_handles _ input fun f heq => hf ⟨f, heq⟩

/-! ## All calls of a run -/

/-- The calls of some moves, in order. -/
def requests (moves : List Move) : List Request := moves.filterMap Move.request?

/-- The calls of some moves for actions of a catalog, in order. -/
def known (catalog : Catalog) (moves : List Move) : List Request :=
  (requests moves).filter fun q => (catalog.get? q.action).isSome

/-- The number of a call: calls for actions of the catalog are numbered in order, from one on. -/
def Numbered (catalog : Catalog) (moves : List Move) (id : DeedId) (q : Request) : Prop :=
  ∃ k, id = ⟨k + 1⟩ ∧ (known catalog moves)[k]? = some q

theorem requests_concat :
    requests (moves ++ [m]) = requests moves ++ m.request?.toList := by
  rw [requests, List.filterMap_append]
  cases h : m.request? <;> simp [requests, h]

theorem known_concat : known catalog (moves ++ [m]) =
    known catalog moves ++ m.request?.toList.filter fun q => (catalog.get? q.action).isSome := by
  rw [known, requests_concat, List.filter_append, known]

theorem Numbered.concat (h : Numbered catalog moves id q) (m : Move) :
    Numbered catalog (moves ++ [m]) id q := by
  obtain ⟨k, rfl, hk⟩ := h
  refine ⟨k, rfl, ?_⟩
  rw [known_concat, List.getElem?_append_left (List.getElem?_eq_some_iff.1 hk).1, hk]

theorem Numbered.mem (h : Numbered catalog moves id q) : q ∈ requests moves := by
  obtain ⟨k, -, hk⟩ := h
  exact (List.mem_filter.1 (List.mem_of_getElem? hk)).1

/-- A number that was given is below the next one. -/
theorem Numbered.id_lt (h : Numbered catalog moves id q) :
    id.val < (known catalog moves).length + 1 := by
  obtain ⟨k, rfl, hk⟩ := h
  have := (List.getElem?_eq_some_iff.1 hk).1
  show k + 1 < _
  omega

/-- All calls of a run: each is answered or pending, the events tell of the answers in order, and
the numbers of deeds are those of their calls. -/
structure Accounted (catalog : Catalog) (moves : List Move) (outputs : List Output) (e : Engine) :
    Prop where
  calls : ((requests moves).map Request.call).Perm
    ((answers outputs).map Prod.fst ++ e.entries.map (·.2.call))
  told : List.Forall₂ (fun a event => ∃ q ∈ requests moves, q.call = a.1 ∧
    event = announcement q a.2) (answers outputs) (outcomes outputs)
  nextId : e.nextId = ⟨(known catalog moves).length + 1⟩
  pending : ∀ p ∈ e.entries, Numbered catalog moves p.1 p.2
  given : ∀ call r, (call, .ok r) ∈ answers outputs → ∃ q, Numbered catalog moves r.deed q ∧
    q.call = call ∧ q.action = r.action
  nodup : ((receipts outputs).map Receipt.deed ++ e.entries.map Prod.fst).Nodup

theorem accounted_nil (catalog : Catalog) : Accounted catalog [] [] (.ofCatalog catalog) where
  calls := .nil
  told := .nil
  nextId := rfl
  pending _ h := nomatch h
  given _ _ h := nomatch h
  nodup := List.nodup_nil

variable (h : Accounted catalog moves outputs e)
include h

/-- The numbers that were given are below the next one. -/
theorem Accounted.id_lt (hid : id ∈ (receipts outputs).map Receipt.deed ++ e.entries.map Prod.fst) :
    id.val < e.nextId.val := by
  rw [h.nextId]
  rcases List.mem_append.1 hid with hid | hid
  · obtain ⟨r, hr, rfl⟩ := List.mem_map.1 hid
    obtain ⟨call, hmem⟩ := mem_receipts.1 hr
    obtain ⟨q, hq, -⟩ := h.given call r hmem
    exact hq.id_lt
  · obtain ⟨p, hp, rfl⟩ := List.mem_map.1 hid
    exact (h.pending p hp).id_lt

/-- All calls are accounted for after a move if those of the move, its answers and the calls that
are pending then agree. -/
theorem Accounted.concat
    (calls : (m.request?.toList.map Request.call ++ e.entries.map (·.2.call)).Perm
      ((answers said).map Prod.fst ++ e'.entries.map (·.2.call)))
    (told : List.Forall₂ (fun a event => ∃ q ∈ requests (moves ++ [m]), q.call = a.1 ∧
      event = announcement q a.2) (answers said) (outcomes said))
    (nextId : e'.nextId = ⟨(known catalog (moves ++ [m])).length + 1⟩)
    (pending : ∀ p ∈ e'.entries, Numbered catalog (moves ++ [m]) p.1 p.2)
    (given : ∀ call r, (call, .ok r) ∈ answers said →
      ∃ q, Numbered catalog (moves ++ [m]) r.deed q ∧ q.call = call ∧ q.action = r.action)
    (nodup : ((receipts outputs).map Receipt.deed ++
      ((receipts said).map Receipt.deed ++ e'.entries.map Prod.fst)).Nodup) :
    Accounted catalog (moves ++ [m]) (outputs ++ said) e' := by
  refine ⟨?_, ?_, nextId, pending, fun call r hr => ?_, ?_⟩
  · rw [answers_append, requests_concat, List.map_append, List.map_append, List.append_assoc]
    refine ((h.calls.append_right _).trans ?_).trans (calls.append_left _)
    rw [List.append_assoc]
    exact List.perm_append_comm.append_left _
  · rw [answers_append, outcomes_append]
    refine List.rel_append (h.told.imp fun a event ⟨q, hq, hevent⟩ => ⟨q, ?_, hevent⟩) told
    rw [requests_concat]
    exact List.mem_append_left _ hq
  · rw [answers_append] at hr
    rcases List.mem_append.1 hr with hr | hr
    · obtain ⟨q, hq, hcall⟩ := h.given call r hr
      exact ⟨q, hq.concat m, hcall⟩
    · exact given call r hr
  · rw [receipts_append, List.map_append, List.append_assoc]
    exact nodup

/-- A move that answers nobody keeps all calls accounted for. -/
theorem Accounted.silent (hsilent : ∀ o ∈ said, o.ends = false)
    (calls : (m.request?.toList.map Request.call ++ e.entries.map (·.2.call)).Perm
      (e'.entries.map (·.2.call)))
    (nextId : e'.nextId = ⟨(known catalog (moves ++ [m])).length + 1⟩)
    (pending : ∀ p ∈ e'.entries, Numbered catalog (moves ++ [m]) p.1 p.2)
    (nodup : ((receipts outputs).map Receipt.deed ++ e'.entries.map Prod.fst).Nodup) :
    Accounted catalog (moves ++ [m]) (outputs ++ said) e' := by
  have hanswers := answers_of_silent hsilent
  refine h.concat ?_ ?_ nextId pending ?_ ?_
  · rw [hanswers]
    exact calls
  · rw [hanswers, outcomes_of_silent hsilent]
    exact .nil
  · rw [hanswers]
    exact fun _ _ hr => nomatch hr
  · rw [receipts_of_silent hsilent]
    exact nodup

/-- A call for a known action gets the next number, which was given to no call before. -/
theorem Accounted.enter (hrequest : m.request? = some q) (hq : (catalog.get? q.action).isSome)
    (hentries : e'.entries = e.entries ++ [(e.nextId, q)]) (hnext : e'.nextId = e.nextId.next)
    (hsilent : ∀ o ∈ said, o.ends = false) :
    Accounted catalog (moves ++ [m]) (outputs ++ said) e' := by
  have hknown : known catalog (moves ++ [m]) = known catalog moves ++ [q] := by
    rw [known_concat, hrequest]
    simp [hq]
  refine h.silent hsilent ?_ ?_ ?_ ?_
  · rw [hrequest, hentries, List.map_append]
    exact List.perm_append_comm
  · rw [hnext, h.nextId, hknown, List.length_append]
    rfl
  · rw [hentries, List.forall_mem_append]
    refine ⟨fun p hp => (h.pending p hp).concat m,
      List.forall_mem_singleton.2 ⟨_, h.nextId, ?_⟩⟩
    rw [hknown, List.getElem?_concat_length]
  · rw [hentries, List.map_append]
    show ((receipts outputs).map Receipt.deed ++ (e.entries.map Prod.fst ++ [e.nextId])).Nodup
    rw [← List.append_assoc]
    refine List.nodup_append.2 ⟨h.nodup, List.nodup_singleton _, ?_⟩
    rintro id hid _ hmem rfl
    rw [List.mem_singleton.1 hmem] at hid
    exact Nat.lt_irrefl _ (h.id_lt hid)

/-- A call for an unknown action is answered at once, and gets no number. -/
theorem Accounted.refuse {error : InvocationError} (hrequest : m.request? = some q)
    (hq : catalog.get? q.action = none) (hanswers : answers said = [(q.call, .error error)])
    (houtcomes : outcomes said = [announcement q (.error error)]) :
    Accounted catalog (moves ++ [m]) (outputs ++ said) e := by
  have hmem : q ∈ requests (moves ++ [m]) := by
    rw [requests_concat, hrequest]
    exact List.mem_append_right _ List.mem_cons_self
  have hnone : receipts said = [] := by
    rw [receipts, hanswers]
    rfl
  refine h.concat ?_ ?_ ?_ (fun p hp => (h.pending p hp).concat m) ?_ ?_
  · rw [hrequest, hanswers]
    exact .refl _
  · rw [hanswers, houtcomes]
    exact .cons ⟨q, hmem, rfl, rfl⟩ .nil
  · rw [h.nextId, known_concat, hrequest]
    simp [hq]
  · rw [hanswers]
    exact fun _ _ hr => by cases List.mem_singleton.1 hr
  · rw [hnone]
    exact h.nodup

/-- A pending call is answered, and its number goes to the receipt or to nobody. -/
theorem Accounted.settle {result : Except InvocationError Receipt} (hrequest : m.request? = none)
    (hmem : (id, q) ∈ e.entries) (hentries : e'.entries = e.entries.filter (·.1 != id))
    (hnext : e'.nextId = e.nextId) (hanswers : answers said = [(q.call, result)])
    (houtcomes : outcomes said = [announcement q result])
    (hreceipt : ∀ r, result = .ok r → r.deed = id ∧ r.action = q.action) :
    Accounted catalog (moves ++ [m]) (outputs ++ said) e' := by
  have hperm : e.entries.Perm ((id, q) :: e.entries.filter (·.1 != id)) :=
    perm_cons_filter (List.nodup_append.1 h.nodup).2.1 hmem
  have hnumber := (h.pending _ hmem).concat m
  refine h.concat ?_ ?_ ?_ (fun p hp => ?_) ?_ ?_
  · rw [hrequest, hanswers, hentries]
    exact hperm.map _
  · rw [hanswers, houtcomes]
    exact .cons ⟨q, hnumber.mem, rfl, rfl⟩ .nil
  · rw [hnext, h.nextId, known_concat, hrequest]
    simp
  · rw [hentries] at hp
    exact (h.pending p (List.mem_filter.1 hp).1).concat m
  · rw [hanswers]
    intro call r hr
    obtain ⟨rfl, rfl⟩ := Prod.mk.inj (List.mem_singleton.1 hr)
    obtain ⟨hdeed, haction⟩ := hreceipt r rfl
    exact ⟨q, hdeed ▸ hnumber, rfl, haction.symm⟩
  · have hreceipts : receipts said = result.toOption.toList := by
      rw [receipts, hanswers]
      cases result <;> rfl
    rw [hentries, hreceipts]
    cases result with
    | error error =>
      exact h.nodup.sublist ((List.Sublist.refl _).append (List.filter_sublist.map _))
    | ok r =>
      show ((receipts outputs).map Receipt.deed ++ (r.deed ::
        (e.entries.filter (·.1 != id)).map Prod.fst)).Nodup
      rw [(hreceipt r rfl).1]
      exact ((hperm.map Prod.fst).append_left _).nodup_iff.1 h.nodup

/-- Every move keeps all calls accounted for. -/
theorem Accounted.handles (hm : e.catalog = catalog)
    (hstep : e.Handles m.request? said e') :
    Accounted catalog (moves ++ [m]) (outputs ++ said) e' := by
  generalize hrequest : m.request? = request at hstep
  cases hstep with
  | aside hentries hnext hsilent =>
    refine h.silent hsilent ?_ ?_ ?_ (hentries ▸ h.nodup)
    · rw [hrequest, hentries]
      exact .refl _
    · rw [hnext, h.nextId, known_concat, hrequest]
      simp
    · rw [hentries]
      exact fun p hp => (h.pending p hp).concat m
  | enter hq hentries hnext hsilent =>
    exact h.enter hrequest (hm ▸ hq) hentries hnext hsilent
  | refuse hq hanswers houtcomes =>
    exact h.refuse hrequest (hm ▸ hq) hanswers houtcomes
  | @settle i result _ _ hi hentries hnext hanswers houtcomes hhonours =>
    exact h.settle hrequest (List.mem_map_of_mem hi) hentries hnext hanswers houtcomes
      fun r hr => ⟨(hhonours r hr).deed, (hhonours r hr).action⟩

omit h

theorem accounted_run (catalog : Catalog) (world : World) (clock : Clock) (bus : Bus)
    (moves : List Move) :
    Accounted catalog moves ((ofParts catalog world clock bus).run moves).2
      ((ofParts catalog world clock bus).run moves).1.engine := by
  have hsound := sound_ofParts catalog world clock bus
  induction moves using List.reverseRecOn with
  | nil => exact accounted_nil catalog
  | append_singleton moves m ih =>
    rw [run_concat]
    exact ih.handles (Engine.catalog_of_chain hsound.sound (chain_of_run hsound moves))
      (handles_step (run_sound hsound moves) m)

/-! ## The end of the engine -/

/-- Outputs without answers leave the calls of a session as they are. -/
theorem foldl_note (x : Session) {before : List Output} (h : answers before = []) :
    (before.foldl Session.note x).unanswered = x.unanswered ∧
      (before.foldl Session.note x).replies = x.replies := by
  induction before generalizing x with
  | nil => exact ⟨rfl, rfl⟩
  | cons o before ih =>
    have hrest : answers before = [] := by
      rw [← List.singleton_append, answers_append] at h
      exact (List.append_eq_nil_iff.1 h).2
    rw [List.foldl_cons, (ih _ hrest).1, (ih _ hrest).2]
    cases o with
    | answer => cases h
    | _ => exact ⟨rfl, rfl⟩

theorem foldl_stopped {calls : List CallId} (hn : calls.Nodup) (x : Session)
    (h : x.unanswered = calls) :
    let y := calls.foldl (fun s call => s.reply call (.error .engineStopped)) x
    y.unanswered = [] ∧
      y.replies = x.replies ++ calls.map fun call => (call, .error .engineStopped) := by
  induction calls generalizing x with
  | nil => exact ⟨h, (List.append_nil _).symm⟩
  | cons call calls ih =>
    obtain ⟨hcall, hn⟩ := List.nodup_cons.1 hn
    have hmem : x.unanswered.contains call := by simp [h]
    have hrest : (x.reply call (.error .engineStopped)).unanswered = calls := by
      rw [Session.reply, if_pos hmem, h, List.filter_cons, bne_self_eq_false,
        if_neg Bool.false_ne_true]
      exact List.filter_eq_self.2 fun c hc => bne_iff_ne.2 fun heq => hcall (heq ▸ hc)
    obtain ⟨hnone, hreplies⟩ := ih hn (x.reply call (.error .engineStopped)) hrest
    refine ⟨hnone, hreplies.trans ?_⟩
    rw [Session.reply, if_pos hmem]
    simp

/-- When the engine ends, all calls that wait learn that it has stopped, and no other. -/
theorem crash_replies (x : Session) (hn : x.unanswered.Nodup) {before : List Output}
    (h : answers before = []) :
    (x.crash before).unanswered = [] ∧ (x.crash before).replies =
      x.replies ++ x.unanswered.map fun call => (call, .error .engineStopped) := by
  let system := x.system.performAll before
  let broken : Session := { x with
    system := { system with waiting := [], finished := [], ticks := none }
    isAlive := false }
  obtain ⟨hunanswered, hreplies⟩ := foldl_note broken h
  have hstopped := foldl_stopped hn (before.foldl Session.note broken) hunanswered
  rw [hreplies, ← hunanswered] at hstopped
  rw [← hunanswered]
  exact hstopped

/-! ## Every call is answered once -/

/-- All that a move says to invokers: nothing, or one answer and the event that tells of it. -/
theorem answered_step (hs : s.Sound) (m : Move) :
    (answers (s.step m).2 = [] ∧ outcomes (s.step m).2 = []) ∨
      ∃ q result, answers (s.step m).2 = [(q.call, result)] ∧
        outcomes (s.step m).2 = [announcement q result] ∧
        ((m.request? = some q ∧ s.engine.catalog.get? q.action = none ∧
            result = .error (.unknownAction q.action) ∧ (s.step m).1.engine = s.engine) ∨
          ∃ i ∈ s.engine.pending, i.request = q ∧ i.deed.id ∉ (s.step m).1.engine.pendingIds ∧
            ∀ r, result = .ok r → (s.step m).1.engine.Honours i.deed.id q r) := by
  have hstep := handles_step hs m
  generalize hrequest : m.request? = request at hstep
  generalize (s.step m).2 = said at hstep
  generalize (s.step m).1.engine = e' at hstep
  cases hstep with
  | aside hentries hnext hsilent =>
    exact .inl ⟨answers_of_silent hsilent, outcomes_of_silent hsilent⟩
  | enter hq hentries hnext hsilent =>
    exact .inl ⟨answers_of_silent hsilent, outcomes_of_silent hsilent⟩
  | refuse hq hanswers houtcomes =>
    exact .inr ⟨_, _, hanswers, houtcomes, .inl ⟨rfl, hq, rfl, rfl⟩⟩
  | @settle i result _ _ hi hentries hnext hanswers houtcomes hhonours =>
    refine .inr ⟨i.request, result, hanswers, houtcomes, .inr ⟨i, hi, rfl, ?_, hhonours⟩⟩
    intro hmem
    obtain ⟨k, hk, hid⟩ := Engine.mem_pendingIds.1 hmem
    have hentry : (k.deed.id, k.request) ∈ e'.entries := List.mem_map_of_mem hk
    rw [hentries] at hentry
    simpa [hid] using (List.mem_filter.1 hentry).2

/-- After any moves, in any order:
* every call that was made was answered, or its deed is pending: as often as it was made, and not
  both; when all calls are different, none is answered twice, and a call is pending if and only if
  it is unanswered;
* the events that say how an invocation ended tell of the answers, one event for each, in order;
* every further move answers one call at most, and tells of that answer and no other: it is its own
  call, for an unknown action, or one that is pending, and is not afterwards; a receipt names the
  deed, which is over when it is immediate, and tracked otherwise;
* no two receipts name the same deed; deeds are numbered in the order in which known actions were
  called for, from one on, and so are those pending and those named in receipts;
* when the engine ends, the calls that are pending learn that it has stopped. -/
theorem answered_once (catalog : Catalog) (world : World) (clock : Clock) (bus : Bus)
    (moves : List Move) :
    let s := ((ofParts catalog world clock bus).run moves).1
    let outputs := ((ofParts catalog world clock bus).run moves).2
    ((requests moves).map Request.call).Perm
        ((answers outputs).map Prod.fst ++ s.engine.pending.map Invocation.call) ∧
    (((requests moves).map Request.call).Nodup →
      ((answers outputs).map Prod.fst).Nodup ∧
        ∀ q ∈ requests moves, q.call ∉ (answers outputs).map Prod.fst ↔
          ∃ i ∈ s.engine.pending, i.request = q) ∧
    List.Forall₂ (fun a event => ∃ q ∈ requests moves, q.call = a.1 ∧
      event = announcement q a.2) (answers outputs) (outcomes outputs) ∧
    (∀ m, let t := (s.step m).1
      let said := (s.step m).2
      (answers said = [] ∧ outcomes said = []) ∨
        ∃ q result, answers said = [(q.call, result)] ∧ outcomes said = [announcement q result] ∧
          ((m.request? = some q ∧ catalog.get? q.action = none ∧
              result = .error (.unknownAction q.action) ∧ t.engine = s.engine) ∨
            ∃ i ∈ s.engine.pending, i.request = q ∧ i.deed.id ∉ t.engine.pendingIds ∧
              ∀ r, result = .ok r → r.deed = i.deed.id ∧ r.action = q.action ∧
                (r.mode = .immediate → r.phase = .cleared ∧ r.deed ∉ t.engine.ids) ∧
                (r.mode ≠ .immediate → r.phase = .pending ∧
                  ∃ d ∈ t.engine.tracker.deeds, d.id = r.deed ∧ d.name = r.action ∧
                    d.actor = some r.actor ∧ d.mode = r.mode))) ∧
    ((receipts outputs).map Receipt.deed).Nodup ∧
    s.engine.nextId = ⟨(known catalog moves).length + 1⟩ ∧
    (∀ i ∈ s.engine.pending, Numbered catalog moves i.deed.id i.request) ∧
    (∀ call r, (call, .ok r) ∈ answers outputs → ∃ q, Numbered catalog moves r.deed q ∧
      q.call = call ∧ q.action = r.action) ∧
    ∀ (x : Session) (before : List Output), x.unanswered = s.engine.pending.map Invocation.call →
      x.unanswered.Nodup → answers before = [] →
        (x.crash before).unanswered = [] ∧ (x.crash before).replies =
          x.replies ++ s.engine.pending.map fun i => (i.call, .error .engineStopped) := by
  intro s outputs
  have hsound := sound_ofParts catalog world clock bus
  have hs : s.Sound := run_sound hsound moves
  have hcatalog : s.engine.catalog = catalog :=
    Engine.catalog_of_chain hsound.sound (chain_of_run hsound moves)
  have h : Accounted catalog moves outputs s.engine := accounted_run catalog world clock bus moves
  have hentries : s.engine.entries.map (·.2.call) = s.engine.pending.map Invocation.call := by
    rw [Engine.entries, List.map_map]
    rfl
  have hcalls := h.calls
  rw [hentries] at hcalls
  have hpending : ∀ i ∈ s.engine.pending, Numbered catalog moves i.deed.id i.request :=
    fun i hi => h.pending _ (List.mem_map_of_mem hi)
  refine ⟨hcalls, fun hn => ?_, h.told, fun m => ?_, (List.nodup_append.1 h.nodup).1, h.nextId,
    hpending, h.given, fun x before hx hn hbefore => ?_⟩
  · obtain ⟨hanswered, -, hdisjoint⟩ := List.nodup_append.1 (hcalls.nodup_iff.1 hn)
    refine ⟨hanswered, fun q hq => ⟨fun hnot => ?_, ?_⟩⟩
    · have hmem := hcalls.mem_iff.1 (List.mem_map_of_mem hq)
      obtain ⟨i, hi, hcall⟩ := List.mem_map.1 ((List.mem_append.1 hmem).resolve_left hnot)
      exact ⟨i, hi, List.inj_on_of_nodup_map hn (hpending i hi).mem hq hcall⟩
    · rintro ⟨i, hi, rfl⟩ hmem
      exact hdisjoint _ hmem i.call (List.mem_map_of_mem hi) rfl
  · intro t said
    rcases answered_step hs m with hnone | ⟨q, result, hanswers, houtcomes, hq⟩
    · exact .inl hnone
    · refine .inr ⟨q, result, hanswers, houtcomes, ?_⟩
      rcases hq with hrefused | ⟨i, hi, hiq, hnot, hhonours⟩
      · exact .inl (hcatalog ▸ hrefused)
      · refine .inr ⟨i, hi, hiq, hnot, fun r hr => ?_⟩
        have hr := hhonours r hr
        exact ⟨hr.deed, hr.action, hr.deed ▸ hr.ended, hr.deed ▸ hr.begun⟩
  · obtain ⟨hnone, hreplies⟩ := crash_replies x hn hbefore
    rw [hx, List.map_map] at hreplies
    exact ⟨hnone, hreplies⟩

end System

end Deeds
