import Deeds.Proofs.Line.Grammar
import Deeds.Proofs.Validation

/-!
# Sets of tags

A set holds what was offered to it, less the tags that conflict with one which joined before. Tags
that were refused leave no trace, and whether some tags make a set depends on nothing but the tags.

* `TagSet.ofOffers`, `TagSet.accepted` : the set after some offers, and the offers that it took;
* `TagSet.Pushes` : what a push does; `TagSet.push_eq_iff` : it does just that;
* `TagSet.ofList_eq_ok_iff` : the lists that make a set, and the set;
* `TagSet.ofList_accepted` : a set is made by the tags that it took;
* `TagSet.offers_exact` : all of this, for every sequence of offers.
-/

namespace Deeds

/-! ## Lists without repeats -/

section EraseDups

variable {α : Type} [DecidableEq α] {l : List α} {a : α}

theorem eraseDups_concat (l : List α) (a : α) :
    (l ++ [a]).eraseDups = if a ∈ l then l.eraseDups else l.eraseDups ++ [a] := by
  rw [List.eraseDups_append]
  split
  next h => simp [List.removeAll, h]
  next h => simp [List.removeAll, h, List.eraseDups_cons]

theorem nodup_eraseDups (l : List α) : l.eraseDups.Nodup := by
  induction l using List.reverseRecOn with
  | nil => exact .nil
  | append_singleton l a ih =>
    rw [eraseDups_concat]
    split
    · exact ih
    next h =>
      rw [← List.concat_eq_append]
      exact ih.concat (by rwa [List.mem_eraseDups])

theorem eraseDups_of_nodup (h : l.Nodup) : l.eraseDups = l := by
  induction l using List.reverseRecOn with
  | nil => rfl
  | append_singleton l a ih =>
    obtain ⟨hl, -, hdisjoint⟩ := List.nodup_append.1 h
    have ha : a ∉ l := fun hmem => hdisjoint a hmem a (List.mem_singleton_self a) rfl
    rw [eraseDups_concat, if_neg ha, ih hl]

end EraseDups

variable {tags : List Tag} {s t : Tag}

/-- Tags are compatible by pairs, wherever they stand and however often. -/
theorem compatible_iff : Compatible tags ↔ ∀ s ∈ tags, ∀ t ∈ tags, s.conflicts t = false :=
  ⟨fun h _ hs _ ht => h.conflicts_eq hs ht, fun h =>
    List.pairwise_of_forall_mem_list h⟩

theorem not_compatible_iff :
    Tag.compatible tags t = false ↔ ∃ s ∈ tags, s.conflicts t = true := by
  simp [Tag.compatible]

/-- The first tag that conflicts with a candidate. -/
structure FirstConflict (tags : List Tag) (candidate existing : Tag) : Prop where
  conflicts : existing.conflicts candidate = true
  first : ∃ before after, tags = before ++ existing :: after ∧
    ∀ s ∈ before, s.conflicts candidate = false

theorem find?_conflicts_eq_some_iff :
    tags.find? (·.conflicts t) = some s ↔ FirstConflict tags t s := by
  rw [List.find?_eq_some_iff_append]
  constructor
  · rintro ⟨hs, before, after, rfl, hbefore⟩
    exact ⟨hs, before, after, rfl, fun u hu => by simpa using hbefore u hu⟩
  · rintro ⟨hs, before, after, rfl, hbefore⟩
    exact ⟨hs, before, after, rfl, fun u hu => by simpa using hbefore u hu⟩

theorem FirstConflict.not_compatible (h : FirstConflict tags t s) :
    Tag.compatible tags t = false := by
  obtain ⟨hs, before, after, rfl, -⟩ := h
  exact not_compatible_iff.2 ⟨s, by simp, hs⟩

namespace TagSet

variable {s : TagSet} {t : Tag} {ts : List Tag} {r : Except TagError (TagSet × Bool)}

/-- What a push does: a tag that is in the set changes nothing, one that conflicts with none of the
set joins at the end, and any other is refused for the first conflict. -/
inductive Pushes (s : TagSet) (t : Tag) : Except TagError (TagSet × Bool) → Prop
  | known (h : t ∈ s.toList) : Pushes s t (.ok (s, false))
  | joined (h : t ∉ s.toList) (hc : Tag.compatible s.toList t = true) :
      Pushes s t (.ok (⟨s.toList ++ [t]⟩, true))
  | refused {existing : Tag} (h : t ∉ s.toList) (hfirst : FirstConflict s.toList t existing) :
      Pushes s t (.error ⟨existing, t⟩)

theorem pushes_push (s : TagSet) (t : Tag) : Pushes s t (s.push t) := by
  unfold push
  split
  next h => exact .known (by simpa [contains] using h)
  next h =>
    have ht : t ∉ s.toList := by simpa [contains] using h
    split
    next existing hfind =>
      exact .refused ht (find?_conflicts_eq_some_iff.1 hfind)
    next hfind =>
      exact .joined ht (by simpa [Tag.compatible] using hfind)

theorem Pushes.push_eq (h : Pushes s t r) : s.push t = r := by
  cases h with
  | known h => rw [push, if_pos (by simpa [contains] using h)]
  | joined h hc =>
    have hnone : s.toList.find? (·.conflicts t) = none := by simpa [Tag.compatible] using hc
    rw [push, if_neg (by simpa [contains] using h), hnone]
  | refused h hfirst =>
    rw [push, if_neg (by simpa [contains] using h), find?_conflicts_eq_some_iff.2 hfirst]

theorem push_eq_iff : s.push t = r ↔ Pushes s t r :=
  ⟨fun h => h ▸ pushes_push s t, Pushes.push_eq⟩

theorem exists_push_error_iff : (∃ e, s.push t = .error e) ↔
    t ∉ s.toList ∧ Tag.compatible s.toList t = false := by
  simp only [push_eq_iff]
  constructor
  · rintro ⟨e, hpush⟩
    cases hpush with
    | refused h hfirst => exact ⟨h, hfirst.not_compatible⟩
  · rintro ⟨ht, hc⟩
    have hsome : (s.toList.find? (·.conflicts t)).isSome := by
      simpa using not_compatible_iff.1 hc
    obtain ⟨existing, hfind⟩ := Option.isSome_iff_exists.1 hsome
    exact ⟨_, .refused ht (find?_conflicts_eq_some_iff.1 hfind)⟩

/-! ## Sets of given tags -/

theorem ofList_concat (ts : List Tag) (t : Tag) :
    ofList (ts ++ [t]) = ofList ts >>= fun s => (·.1) <$> s.push t := by
  unfold ofList
  rw [List.foldlM_append]
  simp only [List.foldlM_cons, List.foldlM_nil, bind_pure]

/-- What a push makes of a set, if it is not refused. -/
theorem exists_push_iff {s' : TagSet} : (·.1) <$> s.push t = .ok s' ↔
    ∃ isNew, s.push t = .ok (s', isNew) := by
  cases h : s.push t with
  | error e => simp
  | ok x =>
    obtain ⟨s₁, isNew⟩ := x
    simp [Functor.map, Except.map]

/-- Compatible tags make a set, and no others do; it has them in their order, without later repeats.
-/
theorem ofList_eq_ok_iff {ts : List Tag} {s : TagSet} :
    ofList ts = .ok s ↔ Compatible ts ∧ s = ⟨ts.eraseDups⟩ := by
  induction ts using List.reverseRecOn generalizing s with
  | nil =>
    constructor
    · rintro ⟨⟩
      exact ⟨.nil, rfl⟩
    · rintro ⟨-, rfl⟩
      rfl
  | append_singleton ts t ih =>
    rw [ofList_concat, Line.bind_eq_ok_iff, compatible_concat_iff, eraseDups_concat]
    simp only [ih, exists_push_iff, push_eq_iff]
    constructor
    · rintro ⟨s, ⟨hc, rfl⟩, isNew, hpush⟩
      cases hpush with
      | known h =>
        rw [List.mem_eraseDups] at h
        rw [if_pos h]
        exact ⟨⟨hc, fun s hs => hc.conflicts_eq hs h⟩, rfl⟩
      | joined h hnew =>
        rw [List.mem_eraseDups] at h
        rw [if_neg h]
        exact ⟨⟨hc, by simpa [Tag.compatible] using hnew⟩, rfl⟩
    · rintro ⟨⟨hc, ht⟩, rfl⟩
      refine ⟨_, ⟨hc, rfl⟩, ?_⟩
      split
      next h => exact ⟨false, .known (List.mem_eraseDups.2 h)⟩
      next h =>
        exact ⟨true, .joined (by rwa [List.mem_eraseDups]) (by simpa [Tag.compatible] using ht)⟩

/-! ## Sets after offers -/

/-- The set after some tags were offered one by one to an empty set. -/
def ofOffers (offers : List Tag) : TagSet := offers.foldl offer empty

/-- The offers that a set takes, those that are in already among them. -/
def accepted (s : TagSet) : List Tag → List Tag
  | [] => []
  | t :: rest => match s.push t with
    | .ok (s', _) => t :: s'.accepted rest
    | .error _ => s.accepted rest

/-- Refused offers leave no trace: the others alone lead to the same set, and none is refused. -/
theorem foldlM_accepted (s : TagSet) (offers : List Tag) :
    (s.accepted offers).foldlM (fun s t => (·.1) <$> s.push t) s = .ok (offers.foldl offer s) := by
  induction offers generalizing s with
  | nil => rfl
  | cons t rest ih =>
    rw [accepted, List.foldl_cons, offer]
    cases h : s.push t with
    | error e => exact ih s
    | ok x =>
      dsimp only
      rw [List.foldlM_cons, h]
      exact ih x.1

theorem ofList_accepted (offers : List Tag) :
    ofList (accepted empty offers) = .ok (ofOffers offers) := foldlM_accepted empty offers

section Offers

variable (offers : List Tag)

theorem toList_ofOffers : (ofOffers offers).toList = (accepted empty offers).eraseDups := by
  rw [(ofList_eq_ok_iff.1 (ofList_accepted offers)).2]

theorem nodup_ofOffers : (ofOffers offers).toList.Nodup := by
  rw [toList_ofOffers]
  exact nodup_eraseDups _

theorem mem_ofOffers {t : Tag} : t ∈ (ofOffers offers).toList ↔ t ∈ accepted empty offers := by
  rw [toList_ofOffers, List.mem_eraseDups]

theorem compatible_ofOffers : Compatible (ofOffers offers).toList := by
  have htaken := (ofList_eq_ok_iff.1 (ofList_accepted offers)).1
  refine compatible_iff.2 fun s hs t ht => ?_
  rw [mem_ofOffers] at hs ht
  exact htaken.conflicts_eq hs ht

theorem executionMode_ofOffers_eq_some_iff {mode : ExecutionMode} :
    (ofOffers offers).executionMode = some mode ↔
      ∃ t ∈ accepted empty offers, t.executionMode = some mode := by
  unfold executionMode
  rw [(compatible_ofOffers offers).selectOne_executionMode.findSome?_eq_some_iff]
  simp only [mem_ofOffers]

theorem actorMode_ofOffers_eq_iff {mode : ActorMode} : (ofOffers offers).actorMode = mode ↔
    (∃ t ∈ accepted empty offers, t.actorMode = some mode) ∨
      mode = .personal ∧ ∀ t ∈ accepted empty offers, t.actorMode = none := by
  have hselect (mode : ActorMode) :
      (ofOffers offers).toList.findSome? Tag.actorMode = some mode ↔
        ∃ t ∈ accepted empty offers, t.actorMode = some mode := by
    rw [(compatible_ofOffers offers).selectOne_actorMode.findSome?_eq_some_iff]
    simp only [mem_ofOffers]
  unfold actorMode
  cases hfind : (ofOffers offers).toList.findSome? Tag.actorMode with
  | none =>
    have hnone : ∀ t ∈ accepted empty offers, t.actorMode = none := by
      simpa only [List.findSome?_eq_none_iff, mem_ofOffers] using hfind
    constructor
    · rintro rfl
      exact .inr ⟨rfl, hnone⟩
    · rintro (⟨t, ht, hmode⟩ | ⟨rfl, -⟩)
      · rw [hnone t ht] at hmode
        cases hmode
      · rfl
  | some selected =>
    obtain ⟨t, ht, hselected⟩ := (hselect selected).1 hfind
    constructor
    · rintro rfl
      exact .inl ⟨t, ht, hselected⟩
    · rintro (hmode | ⟨-, hnone⟩)
      · exact Option.some.inj (hfind.symm.trans ((hselect mode).2 hmode))
      · rw [hnone t ht] at hselected
        cases hselected

end Offers

theorem exists_ofList_iff {ts : List Tag} : (∃ s, ofList ts = .ok s) ↔ Compatible ts := by
  simp only [ofList_eq_ok_iff]
  exact ⟨fun ⟨_, h, _⟩ => h, fun h => ⟨_, h, rfl⟩⟩

/-- Whether some tags make a set depends on nothing but which tags there are. -/
theorem exists_ofList_congr {ts us : List Tag} (h : ∀ t, t ∈ us ↔ t ∈ ts) :
    (∃ s, ofList us = .ok s) ↔ ∃ s, ofList ts = .ok s := by
  simp only [exists_ofList_iff, compatible_iff, h]

/-- Tag sets are exact: for every sequence of offers, and for every list of tags,
* the set holds the tags that it took in the order in which it first took them, no tag twice, no two
  in conflict, so at most one of each kind of modes;
* a tag is taken if it conflicts with none that is in, and is refused for the earliest conflict
  otherwise, which changes nothing;
* the modes are those that a tag which it took selects; without one for it the character acts;
* a list of tags makes a set exactly if it is compatible, which depends on its members alone. The set
  is the list without later repeats, and the tags of a set make that set. -/
theorem offers_exact (offers ts : List Tag) :
    ((ofOffers offers).toList = (accepted empty offers).eraseDups ∧
      (ofOffers offers).toList.Nodup ∧ Compatible (ofOffers offers).toList ∧
      SelectOne (ofOffers offers).toList Tag.executionMode ∧
      SelectOne (ofOffers offers).toList Tag.actorMode) ∧
    (∀ t, (∀ r, (ofOffers offers).push t = r ↔ Pushes (ofOffers offers) t r) ∧
      ((∃ e, (ofOffers offers).push t = .error e) ↔
        t ∉ (ofOffers offers).toList ∧ Tag.compatible (ofOffers offers).toList t = false) ∧
      ∀ e, (ofOffers offers).push t = .error e → ofOffers (offers ++ [t]) = ofOffers offers) ∧
    (∀ mode, (ofOffers offers).executionMode = some mode ↔
      ∃ t ∈ accepted empty offers, t.executionMode = some mode) ∧
    (∀ mode, (ofOffers offers).actorMode = mode ↔
      (∃ t ∈ accepted empty offers, t.actorMode = some mode) ∨
        mode = .personal ∧ ∀ t ∈ accepted empty offers, t.actorMode = none) ∧
    (∀ s, ofList ts = .ok s ↔ Compatible ts ∧ s = ⟨ts.eraseDups⟩) ∧
    (∀ us, (∀ t, t ∈ us ↔ t ∈ ts) → ((∃ s, ofList us = .ok s) ↔ ∃ s, ofList ts = .ok s)) ∧
    ofList (ofOffers offers).toList = .ok (ofOffers offers) := by
  have hc := compatible_ofOffers offers
  have hnodup := nodup_ofOffers offers
  refine ⟨⟨toList_ofOffers offers, hnodup, hc, hc.selectOne_executionMode, hc.selectOne_actorMode⟩,
    fun t => ⟨fun r => push_eq_iff, exists_push_error_iff, fun e he => ?_⟩,
    fun mode => executionMode_ofOffers_eq_some_iff offers,
    fun mode => actorMode_ofOffers_eq_iff offers, fun s => ofList_eq_ok_iff,
    fun us hus => exists_ofList_congr hus, ofList_eq_ok_iff.2 ⟨hc, ?_⟩⟩
  · rw [ofOffers, List.foldl_concat, offer, ← ofOffers, he]
  · rw [eraseDups_of_nodup hnodup]

example : ofOffers [.indicator, .illegal, .repeatable, .illegal, .organization] =
    ⟨[.indicator, .illegal, .organization]⟩ := by cbv

end TagSet

end Deeds
