import Deeds.Engine.Step
import Mathlib.Data.List.Nodup
import Mathlib.Tactic.Tauto

/-!
# Live deeds

The pending deeds and the tracked ones, and how they are found by number.

* `Tracker.mem_deeds_remove`, `Tracker.mem_deeds_update`, `Tracker.mem_deeds_register` : the tracked
  deeds after each change of the tracker;
* `Engine.pending?_eq_some_iff`, `Engine.tracked_eq_some_iff` : what is found by number, when each
  number is one deed's;
* `Engine.mem_slots_release` : what a release takes;
* `Engine.SameDeeds` : what changes no deed and no slot.
-/

namespace Deeds

/-- What a search by a key finds, when each key is one entry's. -/
theorem find?_key_eq_some_iff {α κ : Type} [DecidableEq κ] {key : α → κ} {l : List α}
    (hn : (l.map key).Nodup) {k : κ} {x : α} :
    l.find? (key · = k) = some x ↔ x ∈ l ∧ key x = k := by
  constructor
  · intro h
    exact ⟨List.mem_of_find?_eq_some h, by simpa using List.find?_some h⟩
  · rintro ⟨hx, rfl⟩
    cases h : l.find? (key · = key x) with
    | none =>
      have := List.find?_eq_none.1 h x hx
      simp at this
    | some y =>
      have hy : key y = key x := by simpa using List.find?_some h
      rw [List.inj_on_of_nodup_map hn (List.mem_of_find?_eq_some h) hx hy]

/-! ## The tracker -/

namespace Tracker

variable {t : Tracker} {d x : Deed} {id : DeedId}

theorem mem_deeds_remove : x ∈ (t.remove id).deeds ↔ x ∈ t.deeds ∧ x.id ≠ id := by
  simp only [deeds, remove, List.mem_append, List.mem_filter, bne_iff_ne, ne_eq]
  tauto

theorem order_remove : (t.remove id).order = t.order.filter (· != id) := by
  simp only [order, deeds, remove, List.map_append, List.filter_append, List.filter_map]
  rfl

theorem mem_deeds_update :
    x ∈ (t.update d).deeds ↔ (x ∈ t.deeds ∧ x.id ≠ d.id) ∨ (x = d ∧ d.id ∈ t.order) := by
  have replace : ∀ l : List Deed, x ∈ l.map (fun old => if old.id = d.id then d else old) ↔
      (x ∈ l ∧ x.id ≠ d.id) ∨ (x = d ∧ d.id ∈ l.map Deed.id) := by
    intro l
    simp only [List.mem_map]
    constructor
    · rintro ⟨old, hold, hx⟩
      split at hx
      · exact .inr ⟨hx.symm, old, hold, ‹_›⟩
      · subst hx
        exact .inl ⟨hold, ‹_›⟩
    · rintro (⟨hx, hne⟩ | ⟨rfl, old, hold, hid⟩)
      · exact ⟨x, hx, if_neg hne⟩
      · exact ⟨old, hold, if_pos hid⟩
  simp only [deeds, update, order, List.map_append, List.mem_append, replace]
  tauto

theorem order_update : (t.update d).order = t.order := by
  have replace : ∀ l : List Deed,
      (l.map (fun old => if old.id = d.id then d else old)).map Deed.id = l.map Deed.id := by
    intro l
    rw [List.map_map]
    apply List.map_congr_left
    intro old _
    simp only [Function.comp_apply]
    split <;> simp_all
  simp only [order, deeds, update, List.map_append, replace]

theorem mem_deeds_register (hm : d.mode ≠ .immediate) :
    x ∈ (t.register d).deeds ↔ x ∈ t.deeds ∨ x = d := by
  unfold register
  cases h : d.mode with
  | immediate => exact absurd h hm
  | indicator => simp only [deeds, List.mem_append, List.mem_singleton]; tauto
  | repeatable => simp only [deeds, List.mem_append, List.mem_singleton]; tauto

theorem order_register_perm (hm : d.mode ≠ .immediate) :
    (t.register d).order.Perm (d.id :: t.order) := by
  unfold register
  cases h : d.mode with
  | immediate => exact absurd h hm
  | indicator =>
    simp only [order, deeds, List.map_append, List.map_cons, List.append_assoc,
      List.singleton_append]
    exact List.perm_middle
  | repeatable =>
    simp only [order, deeds, List.map_append, List.map_cons, List.map_nil, ← List.append_assoc]
    exact List.perm_append_singleton _ _

theorem mem_order : id ∈ t.order ↔ ∃ d ∈ t.deeds, d.id = id := by
  simp only [order, List.mem_map]

/-- What is found is tracked. -/
theorem mem_of_find? (h : t.find? id = some d) : d ∈ t.deeds ∧ d.id = id :=
  ⟨List.mem_of_find?_eq_some h, by simpa using List.find?_some h⟩

theorem find?_eq_none_iff : t.find? id = none ↔ id ∉ t.order := by
  simp [find?, List.find?_eq_none, mem_order]

end Tracker

namespace Engine

/-! ## Live deeds -/

/-- Every live deed: the pending ones, then the tracked ones. -/
def deeds (e : Engine) : List Deed := e.pending.map Invocation.deed ++ e.tracker.deeds

/-- The numbers of the pending deeds. -/
def pendingIds (e : Engine) : List DeedId := e.pending.map (·.deed.id)

/-- The numbers of all live deeds. -/
def ids (e : Engine) : List DeedId := e.pendingIds ++ e.tracker.order

variable {e e' : Engine} {i : Invocation} {d : Deed} {id : DeedId}

theorem mem_deeds : d ∈ e.deeds ↔ (∃ i ∈ e.pending, i.deed = d) ∨ d ∈ e.tracker.deeds := by
  simp only [deeds, List.mem_append, List.mem_map]

theorem mem_pendingIds : id ∈ e.pendingIds ↔ ∃ i ∈ e.pending, i.deed.id = id := by
  simp only [pendingIds, List.mem_map]

theorem map_id_deeds : e.deeds.map Deed.id = e.ids := by
  simp only [deeds, ids, pendingIds, Tracker.order, List.map_append, List.map_map]
  rfl

theorem mem_ids : id ∈ e.ids ↔ ∃ d ∈ e.deeds, d.id = id := by
  rw [← map_id_deeds, List.mem_map]

/-- What is found is pending. -/
theorem mem_of_pending? (h : e.pending? id = some i) : i ∈ e.pending ∧ i.deed.id = id :=
  ⟨List.mem_of_find?_eq_some h, by simpa using List.find?_some h⟩

theorem pending?_eq_none_iff : e.pending? id = none ↔ id ∉ e.pendingIds := by
  simp [pending?, List.find?_eq_none, mem_pendingIds]

/-! ### Each number is one deed's -/

section Unique

variable (hn : e.ids.Nodup)
include hn

theorem nodup_pendingIds : e.pendingIds.Nodup := (List.nodup_append.1 hn).1

theorem nodup_order : e.tracker.order.Nodup := (List.nodup_append.1 hn).2.1

theorem not_mem_order_of_pending (h : id ∈ e.pendingIds) : id ∉ e.tracker.order :=
  fun h' => (List.nodup_append.1 hn).2.2 id h id h' rfl

theorem deed_unique {d₁ d₂ : Deed} (h₁ : d₁ ∈ e.deeds) (h₂ : d₂ ∈ e.deeds) (h : d₁.id = d₂.id) :
    d₁ = d₂ := by
  rw [← map_id_deeds] at hn
  exact List.inj_on_of_nodup_map hn h₁ h₂ h

theorem pending_unique {i₁ i₂ : Invocation} (h₁ : i₁ ∈ e.pending) (h₂ : i₂ ∈ e.pending)
    (h : i₁.deed.id = i₂.deed.id) : i₁ = i₂ :=
  List.inj_on_of_nodup_map (nodup_pendingIds hn) h₁ h₂ h

theorem pending?_eq_some_iff : e.pending? id = some i ↔ i ∈ e.pending ∧ i.deed.id = id :=
  find?_key_eq_some_iff (nodup_pendingIds hn)

theorem tracked_eq_some_iff : e.tracker.find? id = some d ↔ d ∈ e.tracker.deeds ∧ d.id = id :=
  find?_key_eq_some_iff (nodup_order hn)

end Unique

/-! ## What changes no deed -/

@[simp] theorem release_catalog : (e.release d).catalog = e.catalog := by
  unfold release; split <;> rfl

@[simp] theorem release_nextId : (e.release d).nextId = e.nextId := by
  unfold release; split <;> rfl

@[simp] theorem release_pending : (e.release d).pending = e.pending := by
  unfold release; split <;> rfl

@[simp] theorem release_tracker : (e.release d).tracker = e.tracker := by
  unfold release; split <;> rfl

/-- A release takes the slot of one deed and its actor. -/
theorem mem_slots_release {a : CharacterId} :
    (a, id) ∈ (e.release d).slots ↔ (a, id) ∈ e.slots ∧ ¬ (d.actor = some a ∧ id = d.id) := by
  unfold release
  split
  · rename_i actor ha
    simp only [List.mem_filter, bne_iff_ne, ne_eq, Prod.mk.injEq, ha, Option.some.injEq,
      eq_comm (a := actor)]
  · rename_i ha
    simp [ha]

theorem slots_release_sublist : (e.release d).slots.Sublist e.slots := by
  unfold release
  split
  · exact List.filter_sublist
  · exact List.Sublist.refl _

/-- Two engines with the same deeds and slots; only the subscription may differ. -/
structure SameDeeds (e e' : Engine) : Prop where
  catalog : e'.catalog = e.catalog
  nextId : e'.nextId = e.nextId
  pending : e'.pending = e.pending
  indicator : e'.tracker.indicator = e.tracker.indicator
  repeatable : e'.tracker.repeatable = e.tracker.repeatable
  slots : e'.slots = e.slots

theorem SameDeeds.refl (e : Engine) : SameDeeds e e := ⟨rfl, rfl, rfl, rfl, rfl, rfl⟩

theorem SameDeeds.tracked (h : SameDeeds e e') : e'.tracker.deeds = e.tracker.deeds := by
  rw [Tracker.deeds, Tracker.deeds, h.indicator, h.repeatable]

theorem SameDeeds.deeds_eq (h : SameDeeds e e') : e'.deeds = e.deeds := by
  rw [deeds, deeds, h.pending, h.tracked]

theorem sameDeeds_subscribe : SameDeeds e e.subscribe.1 := by
  unfold subscribe
  split
  · exact .refl e
  · exact ⟨rfl, rfl, rfl, rfl, rfl, rfl⟩

theorem sameDeeds_unsubscribe : SameDeeds e e.unsubscribe.1 := by
  unfold unsubscribe
  split
  · exact ⟨rfl, rfl, rfl, rfl, rfl, rfl⟩
  · exact .refl e

theorem sameDeeds_unsubscribeIfIdle : SameDeeds e e.unsubscribeIfIdle.1 := by
  unfold unsubscribeIfIdle
  split
  · exact sameDeeds_unsubscribe
  · exact .refl e

end Engine

end Deeds
