import Deeds.Proofs.Engine.Change

/-!
# Sound engines

`Engine.Sound` says what holds of every engine between its inputs: each number is one live deed's, a
pending deed has an actor as soon as it is being verified, a tracked deed has one always, and the
slots are exactly the actors of live deeds.

* `Sound.current?_eq_some_iff` : what an actor is at;
* `sound_ofCatalog` : an engine without deeds is sound;
* `Sound.of_update` : so is one after a change of one deed, if that deed is in order.
-/

namespace Deeds

/-- What an association list with different keys finds. -/
theorem lookup_eq_some_iff_mem {α β : Type} [BEq α] [LawfulBEq α] {l : List (α × β)}
    (hn : (l.map Prod.fst).Nodup) {a : α} {b : β} : l.lookup a = some b ↔ (a, b) ∈ l := by
  rw [List.lookup_eq_some_iff]
  constructor
  · rintro ⟨l₁, l₂, rfl, -⟩
    exact List.mem_append_right _ List.mem_cons_self
  · intro h
    obtain ⟨l₁, l₂, rfl⟩ := List.append_of_mem h
    refine ⟨l₁, l₂, rfl, fun q hq => ?_⟩
    rw [List.map_append, List.nodup_append] at hn
    have hne := hn.2.2 q.1 (List.mem_map_of_mem hq) a (by simp)
    simpa [bne_iff_ne] using hne.symm

namespace Deed

/-- A deed as the pending invocations have it: it waits for an actor, or has one and is checked, and
it never completed. -/
def IsStarting (d : Deed) : Prop :=
  ((d.phase = .resolving ∧ d.actor = none) ∨ (d.phase = .verifying ∧ d.actor.isSome)) ∧
    d.completions = 0

/-- A deed as the tracker has it: it progresses, or is checked between two cycles. -/
def IsRunning (d : Deed) : Prop :=
  (d.phase = .pending ∨ (d.phase = .reverifying ∧ d.mode = .repeatable)) ∧ d.actor.isSome

end Deed

namespace Engine

/-- What holds of every engine between its inputs. -/
structure Sound (e : Engine) : Prop where
  nodup : e.ids.Nodup
  id_lt : ∀ d ∈ e.deeds, d.id.val < e.nextId.val
  starting : ∀ i ∈ e.pending, i.deed.IsStarting
  running : ∀ d ∈ e.tracker.deeds, d.IsRunning
  template : ∀ d ∈ e.deeds, e.catalog.get? d.name = some d.template
  slots_nodup : (e.slots.map Prod.fst).Nodup
  mem_slots : ∀ a id, (a, id) ∈ e.slots ↔ ∃ d ∈ e.deeds, d.id = id ∧ d.actor = some a

variable {e e' : Engine} {id : DeedId} {p : Option Invocation} {t : Option Deed}
  {i : Invocation} {d : Deed} {a : CharacterId}

theorem sound_ofCatalog (catalog : Catalog) : (ofCatalog catalog).Sound where
  nodup := List.nodup_nil
  id_lt _ h := nomatch h
  starting _ h := nomatch h
  running _ h := nomatch h
  template _ h := nomatch h
  slots_nodup := List.nodup_nil
  mem_slots _ _ := by simp [ofCatalog, deeds, Tracker.empty, Tracker.deeds]

namespace Sound

theorem current?_eq_some_iff (hs : e.Sound) :
    e.current? a = some id ↔ ∃ d ∈ e.deeds, d.id = id ∧ d.actor = some a := by
  rw [current?, lookup_eq_some_iff_mem hs.slots_nodup, hs.mem_slots]

theorem deed_mem (hi : i ∈ e.pending) : i.deed ∈ e.deeds := mem_deeds.2 (.inl ⟨i, hi, rfl⟩)

theorem tracked_mem (hd : d ∈ e.tracker.deeds) : d ∈ e.deeds := mem_deeds.2 (.inr hd)

theorem mem_pendingIds (hi : i ∈ e.pending) : i.deed.id ∈ e.pendingIds :=
  Engine.mem_pendingIds.2 ⟨i, hi, rfl⟩

/-- A number is not both a pending deed's and a tracked one's. -/
theorem id_ne (hs : e.Sound) (hi : i ∈ e.pending) (hd : d ∈ e.tracker.deeds) :
    i.deed.id ≠ d.id := fun h =>
  not_mem_order_of_pending hs.nodup (mem_pendingIds hi) (Tracker.mem_order.2 ⟨d, hd, h.symm⟩)

/-- Numbers from the next one on are no live deed's. -/
theorem not_mem_ids (hs : e.Sound) (h : e.nextId.val ≤ id.val) : id ∉ e.ids := by
  rw [mem_ids]
  rintro ⟨d, hd, rfl⟩
  exact absurd (hs.id_lt d hd) (by omega)

theorem actor_of_verifying (hs : e.Sound) (hi : i ∈ e.pending) (h : i.deed.phase = .verifying) :
    ∃ actor, i.deed.actor = some actor := by
  rcases (hs.starting i hi).1 with h' | h'
  · rw [h] at h'; cases h'.1
  · exact Option.isSome_iff_exists.1 h'.2

theorem actor_of_resolving (hs : e.Sound) (hi : i ∈ e.pending) (h : i.deed.phase = .resolving) :
    i.deed.actor = none := by
  rcases (hs.starting i hi).1 with h' | h'
  · exact h'.2
  · rw [h] at h'; cases h'.1

/-- The slots of a number are those of its live deed. -/
theorem mem_slots_iff (hs : e.Sound) (hd : d ∈ e.deeds) :
    (a, d.id) ∈ e.slots ↔ d.actor = some a := by
  rw [hs.mem_slots]
  constructor
  · rintro ⟨x, hx, hid, ha⟩
    rwa [deed_unique hs.nodup hx hd hid] at ha
  · exact fun ha => ⟨d, hd, rfl, ha⟩

/-- Two live deeds have different actors. -/
theorem actor_unique (hs : e.Sound) {d₁ d₂ : Deed} (h₁ : d₁ ∈ e.deeds) (h₂ : d₂ ∈ e.deeds)
    (ha₁ : d₁.actor = some a) (ha₂ : d₂.actor = some a) : d₁ = d₂ := by
  have hc₁ : e.current? a = some d₁.id := hs.current?_eq_some_iff.2 ⟨d₁, h₁, rfl, ha₁⟩
  have hc₂ : e.current? a = some d₂.id := hs.current?_eq_some_iff.2 ⟨d₂, h₂, rfl, ha₂⟩
  rw [hc₁] at hc₂
  exact deed_unique hs.nodup h₁ h₂ (Option.some.inj hc₂)

/-! ## After a change of one deed -/

/-- The live deeds after a change of one deed. -/
theorem mem_deeds_rewrites (h : Rewrites e id p t e') :
    d ∈ e'.deeds ↔
      (d ∈ e.deeds ∧ d.id ≠ id) ∨ (∃ i, p = some i ∧ i.deed = d) ∨ t = some d := by
  simp only [mem_deeds, h.mem_pending, h.mem_tracked]
  constructor
  · rintro (⟨i, hi | hi, rfl⟩ | hd | hd)
    · exact .inl ⟨.inl ⟨i, hi.1, rfl⟩, hi.2⟩
    · exact .inr (.inl ⟨i, hi, rfl⟩)
    · exact .inl ⟨.inr hd.1, hd.2⟩
    · exact .inr (.inr hd)
  · rintro (⟨⟨i, hi, rfl⟩ | hd, hne⟩ | ⟨i, hi, rfl⟩ | hd)
    · exact .inl ⟨i, .inl ⟨hi, hne⟩, rfl⟩
    · exact .inr (.inl ⟨hd, hne⟩)
    · exact .inl ⟨i, .inr hi, rfl⟩
    · exact .inr (.inr hd)

/-- A changed deed is in order: its number, its template and its slot are its own. -/
structure Fits (e' : Engine) (id : DeedId) (d : Deed) : Prop where
  id_eq : d.id = id
  id_lt : id.val < e'.nextId.val
  template : e'.catalog.get? d.name = some d.template
  mem_slots : ∀ a, (a, id) ∈ e'.slots ↔ d.actor = some a

/-- A change of a deed after which it is in order, or gone together with its slot. -/
structure Update (e : Engine) (id : DeedId) (p : Option Invocation) (t : Option Deed)
    (e' : Engine) : Prop extends Rewrites e id p t e' where
  starting : ∀ i, p = some i → i.deed.IsStarting ∧ Fits e' id i.deed
  running : ∀ d, t = some d → d.IsRunning ∧ Fits e' id d
  gone : p = none → t = none → ∀ a, (a, id) ∉ e'.slots
  slots_nodup : (e'.slots.map Prod.fst).Nodup

/-- A deed keeps its slot when only its progress changes. -/
theorem Fits.of_deed (hs : e.Sound) (hd : d ∈ e.deeds) (h : Rewrites e d.id p t e')
    (hslots : e'.slots = e.slots) {d' : Deed} (hid : d'.id = d.id)
    (htemplate : d'.template = d.template) (hactor : d'.actor = d.actor) : Fits e' d.id d' where
  id_eq := hid
  id_lt := Nat.lt_of_lt_of_le (hs.id_lt d hd) h.nextId
  template := by
    rw [h.catalog, Deed.name, htemplate]
    exact hs.template d hd
  mem_slots a := by rw [hslots, hactor, hs.mem_slots_iff hd]

/-- A released deed has no slot. -/
theorem not_mem_slots_release (hs : e.Sound) (hd : d ∈ e.deeds) (hslots : e'.slots = e.slots)
    {d' : Deed} (hid : d'.id = d.id) (hactor : d'.actor = d.actor) (a : CharacterId) :
    (a, d.id) ∉ (e'.release d').slots := by
  rw [mem_slots_release, hslots, hs.mem_slots_iff hd, hid, hactor]
  rintro ⟨ha, hne⟩
  exact hne ⟨ha, rfl⟩

theorem slots_release_nodup (hs : e.Sound) (hslots : e'.slots = e.slots) (d : Deed) :
    ((e'.release d).slots.map Prod.fst).Nodup := by
  refine hs.slots_nodup.sublist (List.Sublist.map _ ?_)
  rw [← hslots]
  exact slots_release_sublist

/-- What keeps all deeds keeps soundness. -/
theorem of_sameDeeds (hs : e.Sound) (h : SameDeeds e e') : e'.Sound where
  nodup := by rw [← map_id_deeds, h.deeds_eq, map_id_deeds]; exact hs.nodup
  id_lt d hd := by rw [h.nextId]; exact hs.id_lt d (h.deeds_eq ▸ hd)
  starting i hi := hs.starting i (h.pending ▸ hi)
  running d hd := hs.running d (h.tracked ▸ hd)
  template d hd := by rw [h.catalog]; exact hs.template d (h.deeds_eq ▸ hd)
  slots_nodup := by rw [h.slots]; exact hs.slots_nodup
  mem_slots a id := by rw [h.slots, h.deeds_eq]; exact hs.mem_slots a id

/-- A deed after a change is another one than the changed deed, or in order. -/
theorem Update.deed_cases (h : Update e id p t e') (hd : d ∈ e'.deeds) :
    (d ∈ e.deeds ∧ d.id ≠ id) ∨ Fits e' id d := by
  rcases (mem_deeds_rewrites h.toRewrites).1 hd with hd | ⟨i, hi, rfl⟩ | hd
  · exact .inl hd
  · exact .inr (h.starting i hi).2
  · exact .inr (h.running d hd).2

/-- The slots of the changed deed. -/
theorem Update.mem_slots_self (h : Update e id p t e') :
    (a, id) ∈ e'.slots ↔ ∃ d ∈ e'.deeds, d.id = id ∧ d.actor = some a := by
  constructor
  · intro hmem
    rcases p with _ | i
    · rcases t with _ | d
      · exact absurd hmem (h.gone rfl rfl a)
      · have hd := (h.running d rfl).2
        exact ⟨d, (mem_deeds_rewrites h.toRewrites).2 (.inr (.inr rfl)), hd.id_eq,
          (hd.mem_slots a).1 hmem⟩
    · have hi := (h.starting i rfl).2
      exact ⟨i.deed, (mem_deeds_rewrites h.toRewrites).2 (.inr (.inl ⟨i, rfl, rfl⟩)), hi.id_eq,
        (hi.mem_slots a).1 hmem⟩
  · rintro ⟨d, hd, hid, ha⟩
    rcases h.deed_cases hd with hd | hd
    · exact absurd hid hd.2
    · exact (hd.mem_slots a).2 ha

/-- The slots of the other deeds. -/
theorem Update.mem_slots_other (hs : e.Sound) (h : Update e id p t e') {j : DeedId} (hj : j ≠ id) :
    (a, j) ∈ e'.slots ↔ ∃ d ∈ e'.deeds, d.id = j ∧ d.actor = some a := by
  rw [h.mem_slots a j hj, hs.mem_slots]
  constructor
  · rintro ⟨d, hd, rfl, ha⟩
    exact ⟨d, (mem_deeds_rewrites h.toRewrites).2 (.inl ⟨hd, hj⟩), rfl, ha⟩
  · rintro ⟨d, hd, rfl, ha⟩
    rcases h.deed_cases hd with hd | hd
    · exact ⟨d, hd.1, rfl, ha⟩
    · exact absurd hd.id_eq hj

/-- A change of one deed that leaves it in order keeps soundness. -/
theorem of_update (hs : e.Sound) (h : Update e id p t e') : e'.Sound where
  nodup := h.nodup
  id_lt d hd := by
    rcases h.deed_cases hd with hd | hd
    · have := hs.id_lt d hd.1
      have := h.nextId
      omega
    · rw [hd.id_eq]
      exact hd.id_lt
  starting i hi := by
    rcases (h.mem_pending i).1 hi with hi | hi
    · exact hs.starting i hi.1
    · exact (h.starting i hi).1
  running d hd := by
    rcases (h.mem_tracked d).1 hd with hd | hd
    · exact hs.running d hd.1
    · exact (h.running d hd).1
  template d hd := by
    rcases h.deed_cases hd with hd | hd
    · rw [h.catalog]
      exact hs.template d hd.1
    · exact hd.template
  slots_nodup := h.slots_nodup
  mem_slots a j := by
    by_cases hj : j = id
    · subst hj
      exact h.mem_slots_self
    · exact h.mem_slots_other hs hj

end Sound

end Engine

end Deeds
