import Deeds.Proofs.System.Sound

/-!
# An actor is at one deed

* `System.slots_exclusive` : after any moves the slots are exactly the actors of live deeds, and two
  live deeds have different actors.
-/

namespace Deeds

namespace Engine

variable {e : Engine} {a : CharacterId} {id : DeedId}

/-- The live deeds with an actor: the pending ones that are being verified, and the tracked ones. -/
theorem Sound.bound_iff (hs : e.Sound) :
    (∃ d ∈ e.deeds, d.id = id ∧ d.actor = some a) ↔
      (∃ i ∈ e.pending, i.deed.id = id ∧ i.deed.phase = .verifying ∧ i.deed.actor = some a) ∨
        ∃ d ∈ e.tracker.deeds, d.id = id ∧ d.actor = some a := by
  constructor
  · rintro ⟨d, hd, hid, ha⟩
    rcases mem_deeds.1 hd with ⟨i, hi, rfl⟩ | hd
    · rcases (hs.starting i hi).1 with ⟨-, hnone⟩ | ⟨hphase, -⟩
      · rw [hnone] at ha
        cases ha
      · exact .inl ⟨i, hi, hid, hphase, ha⟩
    · exact .inr ⟨d, hd, hid, ha⟩
  · rintro (⟨i, hi, hid, -, ha⟩ | ⟨d, hd, hid, ha⟩)
    · exact ⟨i.deed, deed_mem hi, hid, ha⟩
    · exact ⟨d, tracked_mem hd, hid, ha⟩

end Engine

namespace System

/-- After any moves, in any order, an actor is at a deed if and only if the deed is live and the
actor is bound to it; two live deeds have different actors; every slot is an actor's only one and
belongs to a live deed; and every live deed with an actor owns that actor's slot. -/
theorem slots_exclusive (catalog : Catalog) (world : World) (clock : Clock) (bus : Bus)
    (moves : List Move) :
    let e := ((ofParts catalog world clock bus).run moves).1.engine
    (∀ a id, e.current? a = some id ↔
      (∃ i ∈ e.pending, i.deed.id = id ∧ i.deed.phase = .verifying ∧ i.deed.actor = some a) ∨
        ∃ d ∈ e.tracker.deeds, d.id = id ∧ d.actor = some a) ∧
    (∀ d₁ ∈ e.deeds, ∀ d₂ ∈ e.deeds, ∀ a, d₁.actor = some a → d₂.actor = some a → d₁ = d₂) ∧
    e.ids.Nodup ∧
    (e.slots.map Prod.fst).Nodup ∧
    (∀ a id, (a, id) ∈ e.slots → ∃ d ∈ e.deeds, d.id = id ∧ d.actor = some a) ∧
    ∀ d ∈ e.deeds, ∀ a, d.actor = some a → e.current? a = some d.id := by
  intro e
  have hs : e.Sound := (run_sound (sound_ofParts catalog world clock bus) moves).sound
  refine ⟨fun a id => ?_, fun d₁ h₁ d₂ h₂ a ha₁ ha₂ => ?_, hs.nodup, hs.slots_nodup,
    fun a id h => (hs.mem_slots a id).1 h, fun d hd a ha => ?_⟩
  · rw [hs.current?_eq_some_iff, hs.bound_iff]
  · exact hs.actor_unique h₁ h₂ ha₁ ha₂
  · exact hs.current?_eq_some_iff.2 ⟨d, hd, rfl, ha⟩

end System

end Deeds
