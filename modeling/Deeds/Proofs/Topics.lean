import Deeds.Bus
import Mathlib.Data.List.Forall2
import Mathlib.Data.List.Induction

/-!
# Topics

The two topics of a bus have nothing to do with each other, and a receiver reads what is published
on its topic in order. It misses only the oldest events that it has not read, when there are more of
them than the bus keeps, and then it is told how many.

* `Channel.Carries` : what was ever sent on a channel; `Channel.Carries.receive` : what a position
  reads of it;
* `Delivered` : what a receiver reads, turn by turn; `Delivered.exists_covers` : nothing is read
  twice or lost without a notice;
* `Bus.Call`, `Bus.Shared.run` : any calls on a bus, with all its receivers;
* `Bus.Shared.SameTopic.run_filter` : a topic sees its own calls only;
* `Bus.Shared.Follows.step`, `Bus.Shared.Follows.run` : what a call and a run bring to a receiver;
* `Bus.topics_exact` : what every receiver hears, on a bus of any capacity.
-/

namespace Deeds

/-! ## Channels -/

namespace Channel

variable {α : Type} {c : Channel α} {history : List α} {p : Nat}

/-- All values that were ever sent on a channel, of which it keeps the latest. -/
structure Carries (c : Channel α) (history : List α) : Prop where
  sent : c.sent = history.length
  kept : c.kept = history.drop (history.length - c.capacity)

theorem carries_ofCapacity (capacity : Nat) : Carries (.ofCapacity capacity : Channel α) [] :=
  ⟨rfl, (List.drop_nil ..).symm⟩

theorem Carries.send (h : Carries c history) (a : α) : Carries (c.send a) (history ++ [a]) where
  sent := by simp [Channel.send, h.sent]
  kept := by
    have hlength := c.length_kept
    rw [h.sent] at hlength
    show (c.kept ++ [a]).drop (c.kept.length + 1 - c.capacity) = _
    rw [hlength, h.kept, ← List.drop_append_of_le_length (by omega), List.drop_drop]
    congr 1
    show _ = (history ++ [a]).length - c.capacity
    rw [List.length_append, List.length_singleton]
    omega

theorem Carries.oldest_eq (h : Carries c history) : c.oldest = history.length - c.capacity := by
  have hlength := c.length_kept
  have hsent := h.sent
  unfold oldest
  omega

/-- A position that is behind what is kept is told so, any other one reads the value there. -/
theorem Carries.receive (h : Carries c history) : c.receive p =
    if p < history.length - c.capacity then
      (.lagged (history.length - c.capacity - p), history.length - c.capacity)
    else match history[p]? with
      | some a => (.value a, p + 1)
      | none => (.empty, p) := by
  rw [Channel.receive, h.oldest_eq]
  split
  · rfl
  next hle =>
    have hget : c.kept[p - (history.length - c.capacity)]? = history[p]? := by
      rw [h.kept, List.getElem?_drop]
      congr 1
      omega
    exact hget ▸ rfl

end Channel

/-- What happens to a receiver: a value is sent to it, or it reads. -/
inductive Turn (α : Type) where
  | sent (a : α)
  | read

/-- The value that is sent in a turn. -/
def Turn.value? {α : Type} : Turn α → Option α
  | .sent a => some a
  | .read => none

/-- What a receiver reads, turn by turn since it subscribed, and the values that it has not read
yet. -/
inductive Delivered {α : Type} (capacity : Nat) :
    List (Turn α) → List (Reading α) → List α → Prop
  | subscribed : Delivered capacity [] [] []
  | sent {turns : List (Turn α)} {readings : List (Reading α)} {unread : List α} (a : α)
      (h : Delivered capacity turns readings unread) :
      Delivered capacity (turns ++ [.sent a]) readings (unread ++ [a])
  /-- The oldest value is read. -/
  | value {turns : List (Turn α)} {readings : List (Reading α)} {unread : List α} {a : α}
      (hfits : (a :: unread).length ≤ capacity)
      (h : Delivered capacity turns readings (a :: unread)) :
      Delivered capacity (turns ++ [.read]) (readings ++ [.value a]) unread
  /-- The oldest values are lost, as many as are too many; the receiver is told how many. -/
  | lagged {turns : List (Turn α)} {readings : List (Reading α)} {missed unread : List α}
      (hmissed : missed ≠ []) (hfull : unread.length = capacity)
      (h : Delivered capacity turns readings (missed ++ unread)) :
      Delivered capacity (turns ++ [.read]) (readings ++ [.lagged missed.length]) unread
  | empty {turns : List (Turn α)} {readings : List (Reading α)}
      (h : Delivered capacity turns readings []) :
      Delivered capacity (turns ++ [.read]) (readings ++ [.empty]) []

/-- The values that a reading stands for: the one that is read, or those that are missed. -/
inductive Covers {α : Type} : Reading α → List α → Prop
  | value (a : α) : Covers (.value a) [a]
  | lagged (missed : List α) : Covers (.lagged missed.length) missed
  | empty : Covers .empty []

section Delivered

variable {α : Type} {c : Channel α} {capacity p : Nat} {turns : List (Turn α)}
  {readings : List (Reading α)} {history unread : List α}

/-- Every value that was sent is read, missed or unread, once and in order. -/
theorem Delivered.exists_covers (h : Delivered capacity turns readings unread) :
    ∃ parts, List.Forall₂ Covers readings parts ∧
      turns.filterMap Turn.value? = parts.flatten ++ unread := by
  have extend {readings : List (Reading α)} {parts : List (List α)} {r : Reading α} {part : List α}
      (hparts : List.Forall₂ Covers readings parts) (hr : Covers r part) :
      List.Forall₂ Covers (readings ++ [r]) (parts ++ [part]) :=
    List.rel_append hparts (.cons hr .nil)
  induction h with
  | subscribed => exact ⟨[], .nil, rfl⟩
  | sent a _ ih =>
    obtain ⟨parts, hparts, hsent⟩ := ih
    exact ⟨parts, hparts, by simp [hsent, Turn.value?]⟩
  | value _ _ ih =>
    obtain ⟨parts, hparts, hsent⟩ := ih
    exact ⟨_, extend hparts (.value _), by simp [hsent, Turn.value?]⟩
  | lagged _ _ _ ih =>
    obtain ⟨parts, hparts, hsent⟩ := ih
    exact ⟨_, extend hparts (.lagged _), by simp [hsent, Turn.value?]⟩
  | empty _ ih =>
    obtain ⟨parts, hparts, hsent⟩ := ih
    exact ⟨_, extend hparts .empty, by simp [hsent, Turn.value?]⟩

/-- A channel delivers: what a position has not read is what was sent after it. -/
theorem Delivered.receive (h : Delivered c.capacity turns readings (history.drop p))
    (hc : c.Carries history) (hp : p ≤ history.length) :
    (c.receive p).2 ≤ history.length ∧ Delivered c.capacity (turns ++ [.read])
      (readings ++ [(c.receive p).1]) (history.drop (c.receive p).2) := by
  rw [hc.receive]
  split
  next hbehind =>
    -- What is lost lies between the position and the oldest value that is kept.
    let missed := (history.drop p).take (history.length - c.capacity - p)
    have hlength : missed.length = history.length - c.capacity - p := by
      simp only [missed, List.length_take, List.length_drop]
      omega
    have hsplit : missed ++ history.drop (history.length - c.capacity) = history.drop p := by
      conv_rhs => rw [← List.take_append_drop (history.length - c.capacity - p) (history.drop p)]
      rw [List.drop_drop]
      congr 2
      omega
    refine ⟨Nat.sub_le .., ?_⟩
    rw [← hlength]
    refine .lagged (List.ne_nil_of_length_pos (by omega)) ?_ (hsplit ▸ h)
    rw [List.length_drop]
    omega
  next hkept =>
    split
    next a ha =>
      obtain ⟨hlt, rfl⟩ := List.getElem?_eq_some_iff.1 ha
      rw [List.drop_eq_getElem_cons hlt] at h
      refine ⟨hlt, .value ?_ h⟩
      rw [List.length_cons, List.length_drop]
      omega
    next hnone =>
      have hunread : history.drop p = [] := List.drop_eq_nil_of_le (List.getElem?_eq_none_iff.1 hnone)
      exact ⟨hp, hunread ▸ .empty (hunread ▸ h)⟩

end Delivered

namespace Bus

theorem channel_publish (b : Bus) (e : Event) (topic : Topic) : (b.publish e).channel topic =
    if e.topic = topic then (b.channel topic).send e else b.channel topic := by
  unfold publish
  cases topic <;> cases e <;> rfl

/-- A receiver reads the channel of its topic. -/
theorem receive_eq (b : Bus) (topic : Topic) (position : Nat) : b.receive ⟨topic, position⟩ =
    (((b.channel topic).receive position).1, ⟨topic, ((b.channel topic).receive position).2⟩) := rfl

/-! ## Calls -/

/-- A call on a bus. The receivers of a topic are numbered in the order in which they subscribe. -/
inductive Call where
  | publish (e : Event)
  | subscribe (topic : Topic)
  | receive (topic : Topic) (number : Nat)
  deriving DecidableEq

/-- The topic of a call. -/
def Call.topic : Call → Topic
  | .publish e => e.topic
  | .subscribe topic => topic
  | .receive topic _ => topic

/-- The event that a call publishes on a topic. -/
def Call.published? (topic : Topic) : Call → Option Event
  | .publish e => if e.topic = topic then some e else none
  | _ => none

/-- What a call is to the receiver of a topic with a number. -/
def Call.turn? (topic : Topic) (number : Nat) : Call → Option (Turn Event)
  | .publish e => if e.topic = topic then some (.sent e) else none
  | .subscribe _ => none
  | .receive other n => if other = topic ∧ n = number then some .read else none

theorem Call.published?_eq (topic : Topic) (number : Nat) (call : Call) :
    call.published? topic = (call.turn? topic number).bind Turn.value? := by
  cases call with
  | publish e => simp only [published?, turn?]; split <;> rfl
  | subscribe other => rfl
  | receive other n => simp only [published?, turn?]; split <;> rfl

/-- What a receiver of a topic read. -/
structure Heard where
  topic : Topic
  number : Nat
  reading : Reading Event

/-- A bus with all its receivers, and what they read so far. -/
structure Shared where
  bus : Bus
  receivers : Topic → List Receiver
  heard : List Heard

namespace Shared

/-- A bus without receivers. -/
def ofCapacity (capacity : Nat) : Shared := ⟨.ofCapacity capacity, fun _ => [], []⟩

/-- Other receivers of a topic. -/
def withReceivers (s : Shared) (topic : Topic) (receivers : List Receiver) : Shared :=
  { s with receivers := fun other => if other = topic then receivers else s.receivers other }

/-- A receiver of a topic reads. -/
def read (s : Shared) (topic : Topic) (number : Nat) (r : Receiver) : Shared :=
  { s.withReceivers topic ((s.receivers topic).set number (s.bus.receive r).2) with
    heard := s.heard ++ [⟨topic, number, (s.bus.receive r).1⟩] }

/-- One call. Only a receiver that has subscribed can read. -/
def step (s : Shared) : Call → Shared
  | .publish e => { s with bus := s.bus.publish e }
  | .subscribe topic => s.withReceivers topic (s.receivers topic ++ [s.bus.subscribe topic])
  | .receive topic number => match (s.receivers topic)[number]? with
    | some r => s.read topic number r
    | none => s

/-- Calls one after the other. -/
def run (s : Shared) (calls : List Call) : Shared := calls.foldl step s

/-- What the receiver of a topic with a number read so far. -/
def readings (s : Shared) (topic : Topic) (number : Nat) : List (Reading Event) :=
  s.heard.filterMap fun h => if h.topic = topic ∧ h.number = number then some h.reading else none

variable {s u : Shared} {topic : Topic} {number position : Nat} {call : Call}
  {calls before after : List Call} {history : List Event} {turns : List (Turn Event)}

theorem run_append : s.run (before ++ after) = (s.run before).run after := List.foldl_append

theorem step_receive_some {r : Receiver} (hr : (s.receivers topic)[number]? = some r) :
    s.step (.receive topic number) = s.read topic number r := by
  simp only [step, hr]

theorem step_receive_none (hr : (s.receivers topic)[number]? = none) :
    s.step (.receive topic number) = s := by
  simp only [step, hr]

theorem withReceivers_own {receivers : List Receiver} :
    (s.withReceivers topic receivers).receivers topic = receivers := if_pos rfl

theorem withReceivers_other {other : Topic} {receivers : List Receiver} (hother : other ≠ topic) :
    (s.withReceivers other receivers).receivers topic = s.receivers topic :=
  if_neg (Ne.symm hother)

/-! ## One topic without the other -/

/-- Two buses do not differ in what concerns a topic. -/
structure SameTopic (topic : Topic) (s u : Shared) : Prop where
  channel : s.bus.channel topic = u.bus.channel topic
  receivers : s.receivers topic = u.receivers topic
  own : ∀ r ∈ s.receivers topic, r.topic = topic
  heard : s.heard.filter (·.topic = topic) = u.heard.filter (·.topic = topic)

theorem SameTopic.readings_eq (h : SameTopic topic s u) (number : Nat) :
    s.readings topic number = u.readings topic number := by
  have hfilter (s : Shared) : s.readings topic number = (s.heard.filter (·.topic = topic)).filterMap
      fun h => if h.topic = topic ∧ h.number = number then some h.reading else none := by
    rw [readings, List.filterMap_filter]
    refine List.filterMap_congr fun h _ => ?_
    by_cases htopic : h.topic = topic <;> simp [htopic]
  rw [hfilter s, hfilter u, h.heard]

/-- A call on the other topic changes nothing. -/
theorem SameTopic.step_other (h : SameTopic topic s u) (hother : call.topic ≠ topic) :
    SameTopic topic (s.step call) u := by
  cases call with
  | publish e =>
    have hchannel : (s.bus.publish e).channel topic = s.bus.channel topic :=
      (channel_publish ..).trans (if_neg hother)
    exact ⟨hchannel.trans h.channel, h.receivers, h.own, h.heard⟩
  | subscribe other =>
    have hreceivers : (s.step (.subscribe other)).receivers topic = s.receivers topic :=
      withReceivers_other hother
    exact ⟨h.channel, hreceivers.trans h.receivers, hreceivers ▸ h.own, h.heard⟩
  | receive other number =>
    have hother : other ≠ topic := hother
    cases hr : (s.receivers other)[number]? with
    | none => rwa [step_receive_none hr]
    | some r =>
      have hreceivers : (s.read other number r).receivers topic = s.receivers topic :=
        withReceivers_other hother
      rw [step_receive_some hr]
      refine ⟨h.channel, hreceivers.trans h.receivers, hreceivers ▸ h.own, ?_⟩
      simpa [read, List.filter_append, hother] using h.heard

/-- A call on the topic itself changes both buses alike. -/
theorem SameTopic.step_own (h : SameTopic topic s u) (hown : call.topic = topic) :
    SameTopic topic (s.step call) (u.step call) := by
  cases call with
  | publish e =>
    have hchannel (b : Bus) : (b.publish e).channel topic = (b.channel topic).send e :=
      (channel_publish ..).trans (if_pos hown)
    refine ⟨?_, h.receivers, h.own, h.heard⟩
    show (s.bus.publish e).channel topic = (u.bus.publish e).channel topic
    rw [hchannel, hchannel, h.channel]
  | subscribe other =>
    obtain rfl : other = topic := hown
    have hreceivers (s : Shared) : (s.step (.subscribe other)).receivers other
        = s.receivers other ++ [⟨other, (s.bus.channel other).subscribe⟩] := withReceivers_own
    refine ⟨h.channel, ?_, ?_, h.heard⟩
    · rw [hreceivers, hreceivers, h.receivers, h.channel]
    · rw [hreceivers]
      simpa [or_imp, forall_and] using h.own
  | receive other number =>
    obtain rfl : other = topic := hown
    cases hr : (s.receivers other)[number]? with
    | none =>
      rwa [step_receive_none hr, step_receive_none (h.receivers ▸ hr)]
    | some r =>
      obtain ⟨topic, position⟩ := r
      obtain rfl : topic = other := h.own _ (List.mem_of_getElem? hr)
      have hreceive : s.bus.receive ⟨topic, position⟩ = u.bus.receive ⟨topic, position⟩ := by
        rw [receive_eq, receive_eq, h.channel]
      rw [step_receive_some hr, step_receive_some (h.receivers ▸ hr)]
      refine ⟨h.channel, ?_, ?_, ?_⟩
      · rw [read, read, withReceivers_own, withReceivers_own, h.receivers, hreceive]
      · rw [read, withReceivers_own]
        intro r hmem
        obtain hmem | rfl := List.mem_or_eq_of_mem_set hmem
        · exact h.own r hmem
        · rfl
      · simp [read, List.filter_append, h.heard, hreceive]

/-- What concerns a topic is the work of the calls on it. -/
theorem SameTopic.run_filter (h : SameTopic topic s u) (calls : List Call) :
    SameTopic topic (s.run calls) (u.run (calls.filter (·.topic = topic))) := by
  induction calls generalizing s u with
  | nil => exact h
  | cons call calls ih =>
    by_cases hown : call.topic = topic
    · rw [List.filter_cons_of_pos (by simpa using hown)]
      exact ih (h.step_own hown)
    · rw [List.filter_cons_of_neg (by simpa using hown)]
      exact ih (h.step_other hown)

/-! ## One receiver -/

/-- A call only sends what it publishes. -/
theorem channel_step : (s.step call).bus.channel topic =
    (call.published? topic).elim (s.bus.channel topic) (s.bus.channel topic).send := by
  cases call with
  | publish e =>
    show (s.bus.publish e).channel topic = _
    rw [channel_publish, Call.published?]
    split <;> rfl
  | subscribe other => rfl
  | receive other n =>
    cases hr : (s.receivers other)[n]? with
    | none => rw [step_receive_none hr]; rfl
    | some r => rw [step_receive_some hr]; rfl

theorem capacity_step :
    ((s.step call).bus.channel topic).capacity = (s.bus.channel topic).capacity := by
  rw [channel_step]
  cases call.published? topic <;> rfl

theorem carries_step (h : (s.bus.channel topic).Carries history) :
    ((s.step call).bus.channel topic).Carries (history ++ (call.published? topic).toList) := by
  rw [channel_step]
  cases call.published? topic with
  | none => simpa using h
  | some e => exact h.send e

theorem readings_read {other : Topic} {n : Nat} {r : Receiver} :
    (s.read other n r).readings topic number = s.readings topic number ++
      if other = topic ∧ n = number then [(s.bus.receive r).1] else [] := by
  rw [readings, read, List.filterMap_append]
  split <;> simp_all [readings]

/-- A receiver of a topic at work: its position in all that was published on the topic, and what it
has heard since it subscribed. -/
structure Follows (s : Shared) (topic : Topic) (number : Nat) (history : List Event)
    (turns : List (Turn Event)) (position : Nat) : Prop where
  carries : (s.bus.channel topic).Carries history
  receiver : (s.receivers topic)[number]? = some ⟨topic, position⟩
  position_le : position ≤ history.length
  delivered : Delivered (s.bus.channel topic).capacity turns (s.readings topic number)
    (history.drop position)

/-- What concerns neither the channel nor the receiver changes nothing. -/
theorem Follows.congr (h : Follows s topic number history turns position)
    (hchannel : u.bus.channel topic = s.bus.channel topic)
    (hreceiver : (u.receivers topic)[number]? = (s.receivers topic)[number]?)
    (hreadings : u.readings topic number = s.readings topic number) :
    Follows u topic number history turns position where
  carries := hchannel ▸ h.carries
  receiver := hreceiver.trans h.receiver
  position_le := h.position_le
  delivered := by rw [hchannel, hreadings]; exact h.delivered

theorem Follows.published (h : Follows s topic number history turns position) {e : Event}
    (he : e.topic = topic) :
    Follows (s.step (.publish e)) topic number (history ++ [e]) (turns ++ [.sent e]) position := by
  have hchannel : (s.step (.publish e)).bus.channel topic = (s.bus.channel topic).send e :=
    (channel_publish ..).trans (if_pos he)
  refine ⟨hchannel ▸ h.carries.send e, h.receiver, ?_, ?_⟩
  · rw [List.length_append]
    exact Nat.le_add_right_of_le h.position_le
  · rw [hchannel, List.drop_append_of_le_length h.position_le]
    exact h.delivered.sent e

theorem Follows.received (h : Follows s topic number history turns position) :
    ∃ next, Follows (s.step (.receive topic number)) topic number history (turns ++ [.read]) next := by
  obtain ⟨hnext, hdelivered⟩ := h.delivered.receive h.carries h.position_le
  rw [step_receive_some h.receiver]
  refine ⟨_, h.carries, ?_, hnext, ?_⟩
  · rw [read, withReceivers_own]
    exact List.getElem?_set_self (List.getElem?_eq_some_iff.1 h.receiver).1
  · rw [readings_read, if_pos ⟨rfl, rfl⟩]
    exact hdelivered

/-- Other calls are none of a receiver's business. -/
theorem Follows.other (h : Follows s topic number history turns position)
    (hcall : call.turn? topic number = none) :
    Follows (s.step call) topic number history turns position := by
  cases call with
  | publish e =>
    have he : e.topic ≠ topic := by simpa [Call.turn?] using hcall
    exact h.congr ((channel_publish ..).trans (if_neg he)) rfl rfl
  | subscribe other =>
    refine h.congr rfl ?_ rfl
    by_cases hother : other = topic
    · subst hother
      rw [Shared.step, withReceivers_own]
      exact List.getElem?_append_left (List.getElem?_eq_some_iff.1 h.receiver).1
    · rw [Shared.step, withReceivers_other hother]
  | receive other n =>
    have hn : ¬(other = topic ∧ n = number) := by simpa [Call.turn?] using hcall
    cases hr : (s.receivers other)[n]? with
    | none => rwa [step_receive_none hr]
    | some r =>
      rw [step_receive_some hr]
      refine h.congr rfl ?_ (by rw [readings_read, if_neg hn, List.append_nil])
      by_cases hother : other = topic
      · subst hother
        rw [read, withReceivers_own]
        exact List.getElem?_set_ne fun heq => hn ⟨rfl, heq⟩
      · rw [read, withReceivers_other hother]

/-- Each call is at most one turn of a receiver. -/
theorem Follows.step (h : Follows s topic number history turns position) (call : Call) :
    ∃ next, Follows (s.step call) topic number (history ++ (call.published? topic).toList)
      (turns ++ (call.turn? topic number).toList) next := by
  rw [call.published?_eq topic number]
  cases hturn : call.turn? topic number with
  | none => exact ⟨position, by simpa using h.other hturn⟩
  | some turn =>
    cases call with
    | publish e =>
      obtain ⟨he, rfl⟩ : e.topic = topic ∧ .sent e = turn := by simpa [Call.turn?] using hturn
      exact ⟨position, h.published he⟩
    | subscribe other => nomatch hturn
    | receive other n =>
      obtain ⟨⟨rfl, rfl⟩, rfl⟩ : (other = topic ∧ n = number) ∧ .read = turn := by
        simpa [Call.turn?] using hturn
      simpa [Turn.value?] using h.received

theorem Follows.run (h : Follows s topic number history turns position) (calls : List Call) :
    ∃ last, Follows (s.run calls) topic number (history ++ calls.filterMap (Call.published? topic))
      (turns ++ calls.filterMap (Call.turn? topic number)) last := by
  induction calls using List.reverseRecOn with
  | nil => exact ⟨position, by simpa using! h⟩
  | append_singleton calls call ih =>
    obtain ⟨next, hnext⟩ := ih
    obtain ⟨last, hlast⟩ := hnext.step call
    refine ⟨last, ?_⟩
    have hsingle {β : Type} (f : Call → Option β) : [call].filterMap f = (f call).toList := by
      cases hf : f call <;> simp [hf]
    rw [run_append, List.filterMap_append, List.filterMap_append, hsingle, hsingle,
      ← List.append_assoc, ← List.append_assoc]
    exact hlast

/-! ## All receivers -/

theorem capacity_run :
    ((s.run calls).bus.channel topic).capacity = (s.bus.channel topic).capacity := by
  induction calls generalizing s with
  | nil => rfl
  | cons call calls ih => exact ih.trans capacity_step

theorem length_receivers_step : ((s.step call).receivers topic).length =
    (s.receivers topic).length + [call].count (.subscribe topic) := by
  cases call with
  | publish e => rfl
  | subscribe other =>
    rw [List.count_singleton]
    by_cases hother : other = topic
    · subst hother
      rw [step, withReceivers_own, List.length_append, List.length_singleton, if_pos BEq.rfl]
    · rw [step, withReceivers_other hother, if_neg (by simpa using hother), Nat.add_zero]
  | receive other n =>
    show _ = (s.receivers topic).length
    cases hr : (s.receivers other)[n]? with
    | none => rw [step_receive_none hr]
    | some r =>
      rw [step_receive_some hr, read]
      by_cases hother : other = topic
      · subst hother
        rw [withReceivers_own, List.length_set]
      · rw [withReceivers_other hother]

theorem length_receivers_run : ((s.run calls).receivers topic).length =
    (s.receivers topic).length + calls.count (.subscribe topic) := by
  induction calls generalizing s with
  | nil => rfl
  | cons call calls ih =>
    rw [← List.singleton_append, List.count_append, ← Nat.add_assoc, ← length_receivers_step]
    exact ih

/-- What holds before a receiver subscribes: nothing was heard under its number. -/
structure Ready (s : Shared) (topic : Topic) (history : List Event) : Prop where
  carries : (s.bus.channel topic).Carries history
  unheard : ∀ number, (s.receivers topic).length ≤ number → s.readings topic number = []

theorem ready_ofCapacity (topic : Topic) (capacity : Nat) : Ready (.ofCapacity capacity) topic [] where
  carries := by cases topic <;> exact Channel.carries_ofCapacity capacity
  unheard _ _ := rfl

theorem Ready.step (h : Ready s topic history) (call : Call) :
    Ready (s.step call) topic (history ++ (call.published? topic).toList) := by
  refine ⟨carries_step h.carries, fun number hnumber => ?_⟩
  rw [length_receivers_step] at hnumber
  have hunheard := h.unheard number (Nat.le_of_add_right_le hnumber)
  cases call with
  | publish e => exact hunheard
  | subscribe other => exact hunheard
  | receive other n =>
    cases hr : (s.receivers other)[n]? with
    | none => rwa [step_receive_none hr]
    | some r =>
      rw [step_receive_some hr, readings_read, hunheard, List.nil_append, if_neg]
      rintro ⟨rfl, rfl⟩
      have hlt := (List.getElem?_eq_some_iff.1 hr).1
      omega

theorem Ready.run (h : Ready s topic history) (calls : List Call) :
    ∃ history', Ready (s.run calls) topic history' := by
  induction calls generalizing s history with
  | nil => exact ⟨history, h⟩
  | cons call calls ih => exact ih (h.step call)

theorem Ready.subscribe (h : Ready s topic history) :
    Follows (s.step (.subscribe topic)) topic (s.receivers topic).length history [] history.length where
  carries := h.carries
  receiver := by
    rw [Shared.step, withReceivers_own, List.getElem?_concat_length, ← h.carries.sent]
    rfl
  position_le := Nat.le_refl _
  delivered := by
    have hreadings : (s.step (.subscribe topic)).readings topic (s.receivers topic).length = [] :=
      h.unheard _ (Nat.le_refl _)
    rw [hreadings, List.drop_length]
    exact .subscribed

/-- What every receiver hears, turn by turn since it subscribed. -/
theorem exists_delivered (capacity : Nat) (topic : Topic) (before after : List Call) :
    let number := before.count (.subscribe topic)
    let s := (ofCapacity capacity).run (before ++ .subscribe topic :: after)
    ∃ unread, Delivered capacity.nextPowerOfTwo (after.filterMap (Call.turn? topic number))
      (s.readings topic number) unread := by
  intro number s
  obtain ⟨history, hready⟩ := (ready_ofCapacity topic capacity).run before
  obtain ⟨position, hfollows⟩ := hready.subscribe.run after
  have hnumber : (((ofCapacity capacity).run before).receivers topic).length = number :=
    length_receivers_run.trans (Nat.zero_add _)
  have hcapacity : (s.bus.channel topic).capacity = capacity.nextPowerOfTwo :=
    capacity_run.trans (by cases topic <;> rfl)
  change Follows (((ofCapacity capacity).run before).run (.subscribe topic :: after)) .. at hfollows
  rw [← run_append, hnumber] at hfollows
  exact ⟨_, hcapacity ▸ hfollows.delivered⟩

end Shared

/-! ## The bus -/

/-- What is promised of all the receivers of a bus. -/
structure Promise (capacity : Nat) : Prop where
  /-- What is heard on a topic depends on nothing but the calls on it. -/
  isolated (topic : Topic) (calls others : List Call)
    (h : calls.filter (·.topic = topic) = others.filter (·.topic = topic)) (number : Nat) :
    ((Shared.ofCapacity capacity).run calls).readings topic number =
      ((Shared.ofCapacity capacity).run others).readings topic number
  /-- Each read of a receiver gives the oldest event that it has not read, or tells it that there is
  none, or how many of them are lost to leave as many as the bus keeps. -/
  delivered (topic : Topic) (before after : List Call) :
    let number := before.count (.subscribe topic)
    let s := (Shared.ofCapacity capacity).run (before ++ .subscribe topic :: after)
    ∃ unread parts,
      Delivered capacity.nextPowerOfTwo (after.filterMap (Call.turn? topic number))
        (s.readings topic number) unread ∧
      List.Forall₂ Covers (s.readings topic number) parts ∧
      after.filterMap (Call.published? topic) = parts.flatten ++ unread

theorem topics_exact (capacity : Nat) : Promise capacity where
  isolated topic calls others h number := by
    have hstart : Shared.SameTopic topic (.ofCapacity capacity) (.ofCapacity capacity) :=
      ⟨rfl, rfl, nofun, rfl⟩
    rw [(hstart.run_filter calls).readings_eq, h, ← (hstart.run_filter others).readings_eq]
  delivered topic before after := by
    intro number s
    obtain ⟨unread, hdelivered⟩ := Shared.exists_delivered capacity topic before after
    obtain ⟨parts, hparts, hsent⟩ := hdelivered.exists_covers
    refine ⟨unread, parts, hdelivered, hparts, ?_⟩
    rw [← hsent, List.filterMap_filterMap]
    exact List.filterMap_congr fun call _ => call.published?_eq topic number

end Bus

end Deeds
