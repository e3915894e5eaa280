import Deeds.Proofs.Engine.Live

/-!
# Changes of one deed

The engine changes one deed at a time. `Rewrites e id p t e'` says that `e'` knows about all other
deeds what `e` knew, and about the deed `id` the pending invocation `p` and the tracked deed `t`.

* `Rewrites.enter`, `Rewrites.dropPending`, `Rewrites.updatePending` : the pending invocations;
* `Rewrites.register`, `Rewrites.updateTracked`, `Rewrites.dropTracked` : the tracker;
* `Rewrites.congr`, `Rewrites.withSlots` : what changes no deed.
-/

namespace Deeds.Engine

/-- The change of a single deed, which is now pending as `p` and tracked as `t`. -/
structure Rewrites (e : Engine) (id : DeedId) (p : Option Invocation) (t : Option Deed)
    (e' : Engine) : Prop where
  catalog : e'.catalog = e.catalog
  nextId : e.nextId.val ≤ e'.nextId.val
  mem_pending : ∀ i, i ∈ e'.pending ↔ (i ∈ e.pending ∧ i.deed.id ≠ id) ∨ p = some i
  mem_tracked : ∀ d, d ∈ e'.tracker.deeds ↔ (d ∈ e.tracker.deeds ∧ d.id ≠ id) ∨ t = some d
  mem_slots : ∀ a j, j ≠ id → ((a, j) ∈ e'.slots ↔ (a, j) ∈ e.slots)
  nodup : e'.ids.Nodup

namespace Rewrites

variable {e e' e'' : Engine} {id : DeedId} {p : Option Invocation} {t : Option Deed}
  {i : Invocation} {d d' : Deed}

/-! ## Changes that change no deed -/

/-- A subscription may change with a deed. -/
theorem congr (h : Rewrites e id p t e') (hs : SameDeeds e' e'') : Rewrites e id p t e'' where
  catalog := hs.catalog.trans h.catalog
  nextId := by rw [hs.nextId]; exact h.nextId
  mem_pending i := by rw [hs.pending]; exact h.mem_pending i
  mem_tracked d := by rw [hs.tracked]; exact h.mem_tracked d
  mem_slots a j hj := by rw [hs.slots]; exact h.mem_slots a j hj
  nodup := by rw [← map_id_deeds, hs.deeds_eq, map_id_deeds]; exact h.nodup

/-- The slots of the deed may change with it. -/
theorem withSlots (h : Rewrites e id p t e') {slots : List (CharacterId × DeedId)}
    (hs : ∀ a j, j ≠ id → ((a, j) ∈ slots ↔ (a, j) ∈ e'.slots)) :
    Rewrites e id p t { e' with slots } where
  catalog := h.catalog
  nextId := h.nextId
  mem_pending := h.mem_pending
  mem_tracked := h.mem_tracked
  mem_slots a j hj := (hs a j hj).trans (h.mem_slots a j hj)
  nodup := h.nodup

theorem release (h : Rewrites e d.id p t e') : Rewrites e d.id p t (e'.release d) where
  catalog := by rw [release_catalog]; exact h.catalog
  nextId := by rw [release_nextId]; exact h.nextId
  mem_pending i := by rw [release_pending]; exact h.mem_pending i
  mem_tracked d := by rw [release_tracker]; exact h.mem_tracked d
  mem_slots a j hj := by
    rw [mem_slots_release, h.mem_slots a j hj]
    exact and_iff_left fun hd => hj hd.2
  nodup := by
    rw [ids, pendingIds, release_pending, release_tracker]
    exact h.nodup

/-! ## The pending invocations -/

theorem enter (hn : e.ids.Nodup) (hnew : i.deed.id ∉ e.ids) {next : DeedId}
    (hlt : e.nextId.val ≤ next.val) :
    Rewrites e i.deed.id (some i) none
      { e with nextId := next, pending := e.pending ++ [i] } where
  catalog := rfl
  nextId := hlt
  mem_pending j := by
    have : j ∈ e.pending → j.deed.id ≠ i.deed.id := fun hj h =>
      hnew (List.mem_append_left _ (mem_pendingIds.2 ⟨j, hj, h⟩))
    simp only [List.mem_append, List.mem_singleton, Option.some.injEq, eq_comm (a := i)]
    tauto
  mem_tracked d := by
    have : d ∈ e.tracker.deeds → d.id ≠ i.deed.id := fun hd h =>
      hnew (List.mem_append_right _ (Tracker.mem_order.2 ⟨d, hd, h⟩))
    simp only [reduceCtorEq, or_false]
    tauto
  mem_slots _ _ _ := Iff.rfl
  nodup := by
    have hp : (e.pendingIds ++ [i.deed.id] ++ e.tracker.order).Perm (i.deed.id :: e.ids) := by
      rw [List.append_assoc]
      exact List.perm_middle
    simp only [ids, pendingIds, List.map_append, List.map_cons, List.map_nil] at hp ⊢
    exact hp.nodup_iff.2 (List.nodup_cons.2 ⟨hnew, hn⟩)

theorem dropPending (hn : e.ids.Nodup) (h : id ∈ e.pendingIds) :
    Rewrites e id none none (e.dropPending id) where
  catalog := rfl
  nextId := Nat.le_refl _
  mem_pending j := by
    simp only [Engine.dropPending, List.mem_filter, bne_iff_ne, ne_eq, reduceCtorEq, or_false]
  mem_tracked d := by
    have : d ∈ e.tracker.deeds → d.id ≠ id := fun hd hid =>
      not_mem_order_of_pending hn h (Tracker.mem_order.2 ⟨d, hd, hid⟩)
    simp only [Engine.dropPending, reduceCtorEq, or_false]
    tauto
  mem_slots _ _ _ := Iff.rfl
  nodup := by
    refine List.Nodup.sublist ?_ hn
    exact (List.filter_sublist.map _).append (List.Sublist.refl _)

theorem updatePending (hn : e.ids.Nodup) (hi : i ∈ e.pending) (hd : d.id = i.deed.id) :
    Rewrites e d.id (some { i with deed := d }) none (e.updatePending d) where
  catalog := rfl
  nextId := Nat.le_refl _
  mem_pending j := by
    simp only [Engine.updatePending, List.mem_map, Option.some.injEq]
    constructor
    · rintro ⟨k, hk, hj⟩
      split at hj
      · rename_i hid
        rw [pending_unique hn hk hi (hid.trans hd)] at hj
        exact .inr hj
      · subst hj
        exact .inl ⟨hk, ‹_›⟩
    · rintro (⟨hj, hne⟩ | rfl)
      · exact ⟨j, hj, if_neg hne⟩
      · exact ⟨i, hi, if_pos hd.symm⟩
  mem_tracked x := by
    have : x ∈ e.tracker.deeds → x.id ≠ d.id := fun hx hid =>
      not_mem_order_of_pending hn (mem_pendingIds.2 ⟨i, hi, hd.symm⟩)
        (Tracker.mem_order.2 ⟨x, hx, hid⟩)
    simp only [Engine.updatePending, reduceCtorEq, or_false]
    tauto
  mem_slots _ _ _ := Iff.rfl
  nodup := by
    have : (e.updatePending d).ids = e.ids := by
      simp only [ids, pendingIds, Engine.updatePending, List.map_map]
      congr 1
      apply List.map_congr_left
      intro j _
      simp only [Function.comp_apply]
      split <;> simp_all
    rw [this]
    exact hn

/-! ## The tracker -/

/-- A deed that is nowhere else goes to the tracker. -/
theorem register (h : Rewrites e d.id none none e') (hm : d.mode ≠ .immediate) :
    Rewrites e d.id none (some d) { e' with tracker := e'.tracker.register d } where
  catalog := h.catalog
  nextId := h.nextId
  mem_pending := h.mem_pending
  mem_tracked x := by
    rw [Tracker.mem_deeds_register hm, h.mem_tracked]
    simp only [reduceCtorEq, or_false, Option.some.injEq, eq_comm (a := d)]
  mem_slots := h.mem_slots
  nodup := by
    have hnew : d.id ∉ e'.ids := by
      rw [mem_ids]
      rintro ⟨x, hx, hid⟩
      rcases mem_deeds.1 hx with ⟨j, hj, rfl⟩ | hx
      · rcases (h.mem_pending j).1 hj with hj | hj
        · exact hj.2 hid
        · cases hj
      · rcases (h.mem_tracked x).1 hx with hx | hx
        · exact hx.2 hid
        · cases hx
    have hp : (e'.pendingIds ++ (e'.tracker.register d).order).Perm (d.id :: e'.ids) :=
      ((Tracker.order_register_perm hm).append_left _).trans List.perm_middle
    exact hp.nodup_iff.2 (List.nodup_cons.2 ⟨hnew, h.nodup⟩)

private theorem not_pending (hn : e.ids.Nodup) (hd : d ∈ e.tracker.deeds) :
    i ∈ e.pending → i.deed.id ≠ d.id := fun hi hid =>
  not_mem_order_of_pending hn (mem_pendingIds.2 ⟨i, hi, hid⟩) (Tracker.mem_order.2 ⟨d, hd, rfl⟩)

theorem updateTracked (hn : e.ids.Nodup) (hd : d ∈ e.tracker.deeds) (hid : d'.id = d.id) :
    Rewrites e d'.id none (some d') (e.updateTracked d') where
  catalog := rfl
  nextId := Nat.le_refl _
  mem_pending j := by
    have := not_pending (i := j) hn hd
    simp only [Engine.updateTracked, hid, reduceCtorEq, or_false]
    tauto
  mem_tracked x := by
    have : d'.id ∈ e.tracker.order := Tracker.mem_order.2 ⟨d, hd, hid.symm⟩
    simp only [Engine.updateTracked, Tracker.mem_deeds_update, this, and_true, Option.some.injEq,
      eq_comm (a := d')]
  mem_slots _ _ _ := Iff.rfl
  nodup := by
    rw [Engine.updateTracked, ids, Tracker.order_update]
    exact hn

theorem dropTracked (hn : e.ids.Nodup) (hd : d ∈ e.tracker.deeds) :
    Rewrites e d.id none none (e.dropTracked d) := by
  have hremove : Rewrites e d.id none none { e with tracker := e.tracker.remove d.id } := by
    refine ⟨rfl, Nat.le_refl _, fun j => ?_, fun x => ?_, fun _ _ _ => Iff.rfl, ?_⟩
    · have := not_pending (i := j) hn hd
      simp only [reduceCtorEq, or_false]
      tauto
    · simp only [Tracker.mem_deeds_remove, reduceCtorEq, or_false]
    · rw [ids, Tracker.order_remove]
      exact hn.sublist ((List.Sublist.refl _).append List.filter_sublist)
  exact hremove.release

/-! ## Other deeds -/

/-- The other deeds are pending as before. -/
theorem pending_iff (h : Rewrites e id p t e') (hp : ∀ i, p = some i → i.deed.id = id)
    (hne : i.deed.id ≠ id) : i ∈ e'.pending ↔ i ∈ e.pending := by
  rw [h.mem_pending]
  constructor
  · rintro (hi | hi)
    · exact hi.1
    · exact absurd (hp i hi) hne
  · exact fun hi => .inl ⟨hi, hne⟩

/-- The other deeds are tracked as before. -/
theorem tracked_iff (h : Rewrites e id p t e') (ht : ∀ d, t = some d → d.id = id)
    (hne : d.id ≠ id) : d ∈ e'.tracker.deeds ↔ d ∈ e.tracker.deeds := by
  rw [h.mem_tracked]
  constructor
  · rintro (hd | hd)
    · exact hd.1
    · exact absurd (ht d hd) hne
  · exact fun hd => .inl ⟨hd, hne⟩

end Rewrites

end Deeds.Engine
