import Deeds.Proofs.System.Reader

/-!
# Hours in order

The engine takes the hours of the clock in their order, each once at most, and none from before it
began to take them.

* `System.Ordered` : what was reported so far is in order, and the reader is past it;
  `System.ordered_run` : so it is after any moves;
* `System.processed_of_beyond` : hours behind the reader are never taken;
* `System.Fate` : what becomes of an hour that the engine has a place for; `System.fate_run` : one of
  these things does;
* `System.hours_in_order` : the hours of any run.
-/

namespace Deeds.System

variable {s : System} {c₀ : Clock} {m : Move} {said : List Output} {n q place : Nat} {hour : Hour}

/-! ## In order, and once at most -/

/-- The hours that were reported are in order, and the reader is past them. -/
structure Ordered (c₀ : Clock) (s : System) (said : List Output) : Prop where
  sorted : (processedHours said).Pairwise (·.val < ·.val)
  past : ∀ h ∈ processedHours said, h.val ≤ s.clock.now.val
  behind : ∀ q, s.ticks = some q → ∀ h ∈ processedHours said, h.val < (c₀.hourAt q).val
  progress : ∀ id, (progressHours id said).Sublist (processedHours said)

theorem now_le_step (ho : s.OnTime c₀) (m : Move) :
    s.clock.now.val ≤ (s.step m).1.clock.now.val := by
  have hsent := s.sent_le_step m
  have hnow := ho.clock.now
  have hnow' := (onTime_step ho m).clock.now
  omega

theorem hourAt_le_now (ho : s.OnTime c₀) (hle : c₀.ticks.sent ≤ q) (hlt : q < s.clock.ticks.sent) :
    (c₀.hourAt q).val ≤ s.clock.now.val := by
  have hnow := ho.clock.now
  simp only [Clock.hourAt]
  omega

theorem now_lt_hourAt (ho : s.OnTime c₀) :
    s.clock.now.val < (c₀.hourAt s.clock.ticks.sent).val := by
  rw [← ho.clock.next_eq]
  exact Nat.lt_succ_self _

/-- A move reports no hour but the next one that the reader has not yet read. -/
theorem Ordered.step (hs : s.Sound) (ho : s.OnTime c₀) (h : s.Ordered c₀ said) (m : Move) :
    (s.step m).1.Ordered c₀ (said ++ (s.step m).2) := by
  obtain ⟨hprocessed, hprogress⟩ := step_hours hs m
  have hall : processedHours (said ++ (s.step m).2) =
      processedHours said ++ (s.hour? m).toList := by
    rw [processedHours_append, hprocessed]
  have hpast : ∀ h ∈ processedHours said ++ (s.hour? m).toList,
      h.val ≤ (s.step m).1.clock.now.val := by
    intro x hx
    refine Nat.le_trans ?_ (now_le_step ho m)
    rcases List.mem_append.1 hx with hx | hx
    · exact h.past x hx
    · obtain ⟨p, hp, hlt, rfl⟩ := ho.hour_eq (Option.mem_toList.1 hx)
      exact hourAt_le_now ho (ho.place p hp).1 hlt
  refine ⟨?_, ?_, fun q hq => ?_, fun id => ?_⟩
  · rw [hall]
    refine List.pairwise_append.2 ⟨h.sorted, ?_, fun x hx y hy => ?_⟩
    · cases s.hour? m with
      | none => exact .nil
      | some hour => exact List.pairwise_singleton _ hour
    · obtain ⟨p, hp, -, rfl⟩ := ho.hour_eq (Option.mem_toList.1 hy)
      exact h.behind p hp x hx
  · rw [hall]
    exact hpast
  · rw [hall]
    rcases s.ticks_step_cases m with heq | heq | heq
    · obtain ⟨p, hp, hle, hpq, -, hread⟩ := ho.readOn (heq.symm.trans hq)
      intro x hx
      rcases List.mem_append.1 hx with hx | hx
      · rcases Nat.lt_or_eq_of_le hpq with hlt | rfl
        · exact Nat.lt_trans (h.behind p hp x hx) (Clock.hourAt_lt hle hlt)
        · exact h.behind p hp x hx
      · obtain ⟨rfl, hlt⟩ := hread x (Option.mem_toList.1 hx)
        exact Clock.hourAt_lt hle hlt
    · rw [heq] at hq
      cases hq
    · obtain rfl := Option.some.inj (heq.symm.trans hq)
      exact fun x hx => Nat.lt_of_le_of_lt (hpast x hx) (now_lt_hourAt (onTime_step ho m))
  · rw [progressHours_append, hall]
    exact (h.progress id).append (hprogress id)

/-- What holds after any moves of the reader, and of what was reported. -/
theorem ordered_run (hs : s.Sound) (ho : s.OnTime c₀) (h : s.Ordered c₀ said)
    (moves : List Move) : (s.run moves).1.OnTime c₀ ∧
      (s.run moves).1.Ordered c₀ (said ++ (s.run moves).2) := by
  induction moves generalizing s said with
  | nil => exact ⟨ho, (List.append_nil said).symm ▸ h⟩
  | cons m rest ih =>
    obtain ⟨ho', h'⟩ := ih ((makes_step hs m).sound hs) (onTime_step ho m) (h.step hs ho m)
    rw [List.append_assoc] at h'
    exact ⟨ho', h'⟩

/-- Hours behind the reader, and behind all that will be sent, are not reported any more. -/
theorem processed_of_beyond (hs : s.Sound) (ho : s.OnTime c₀) (hsent : n ≤ s.clock.ticks.sent)
    (hbeyond : ∀ q, s.ticks = some q → n ≤ q) (hle : c₀.ticks.sent ≤ n) (moves : List Move) :
    ∀ h ∈ processedHours (s.run moves).2, (c₀.hourAt n).val ≤ h.val := by
  -- the reader only moves on, and a new one begins behind all that was sent
  induction moves generalizing s with
  | nil => exact fun _ h => nomatch h
  | cons m rest ih =>
    have hsent' : n ≤ (s.step m).1.clock.ticks.sent := Nat.le_trans hsent (s.sent_le_step m)
    have hbeyond' : ∀ q, (s.step m).1.ticks = some q → n ≤ q := by
      intro q hq
      rcases s.ticks_step_cases m with heq | heq | heq
      · obtain ⟨p, hp, -, hpq, -⟩ := ho.readOn (heq.symm.trans hq)
        exact Nat.le_trans (hbeyond p hp) hpq
      · rw [heq] at hq
        cases hq
      · obtain rfl := Option.some.inj (heq.symm.trans hq)
        exact hsent'
    have hrest := ih ((makes_step hs m).sound hs) (onTime_step ho m) hsent' hbeyond'
    have hall : processedHours (s.run (m :: rest)).2 =
        (s.hour? m).toList ++ processedHours ((s.step m).1.run rest).2 := by
      rw [← (step_hours hs m).1]
      exact processedHours_append ..
    rw [hall]
    refine List.forall_mem_append.2 ⟨fun x hx => ?_, hrest⟩
    obtain ⟨p, hp, -, rfl⟩ := ho.hour_eq (Option.mem_toList.1 hx)
    have hnp := hbeyond p hp
    simp only [Clock.hourAt]
    omega

/-! ## What becomes of an hour -/

/-- What becomes of an hour at a place of the channel, while some moves are made. As long as the
place from which the engine read when the hour was sent is not given up, the hour stays unread, or it
is taken and reported, or it is skipped because more hours are unread than the channel keeps; or that
place is given up before the reader gets to the hour. -/
inductive Fate (place : Nat) (hour : Hour) : System → List Move → Prop
  | unread {s : System} {q : Nat} (hq : s.ticks = some q) (hle : q ≤ place) :
      Fate place hour s []
  | processed {s : System} {m : Move} {rest : List Move}
      (h : hour ∈ processedHours (s.step m).2) : Fate place hour s (m :: rest)
  | skipped {s : System} {q missed next : Nat} {rest : List Move} (hq : s.ticks = some q)
      (hle : q ≤ place) (hlag : s.clock.ticks.receive q = (.lagged missed, next))
      (hlt : place < next) (hmany : s.clock.ticks.capacity < s.clock.ticks.sent - q) :
      Fate place hour s (.takeTick :: rest)
  | dropped {s : System} {q : Nat} {m : Move} {rest : List Move} (hq : s.readOn m = some q)
      (hle : q ≤ place) (hdrop : .unsubscribe ∈ (s.step m).2) : Fate place hour s (m :: rest)
  | later {s : System} {q : Nat} {m : Move} {rest : List Move} (hq : s.readOn m = some q)
      (hle : q ≤ place) (hkeep : .unsubscribe ∉ (s.step m).2)
      (h : Fate place hour (s.step m).1 rest) : Fate place hour s (m :: rest)

/-- Without an end of the hours the reader stays where it has read to. -/
theorem ticks_of_kept (hs : s.Sound) (hsub : s.ticks.isSome = s.engine.tracker.subscribed)
    (hq : s.ticks = some q) (hkeep : .unsubscribe ∉ (s.step m).2) :
    (s.step m).1.ticks = s.readOn m := by
  have hturns := Engine.turns_of_chain hs.sound ((makes_step hs m).chain hs)
  have halternates := hturns.alternates
  rw [← hsub, hq] at halternates
  have hnone : turns (s.step m).2 = [] := by
    cases hlist : turns (s.step m).2 with
    | nil => rfl
    | cons b rest =>
      rw [hlist] at halternates
      obtain ⟨rfl, -⟩ := halternates
      have hmem : false ∈ turns (s.step m).2 := by simp [hlist]
      obtain ⟨o, ho, hturn⟩ := List.mem_filterMap.1 hmem
      cases o with
      | unsubscribe => exact absurd ho hkeep
      | _ => cases hturn
  have hnosub : .subscribe ∉ (s.step m).2 := fun hmem => by
    have hturn : true ∈ turns (s.step m).2 := List.mem_filterMap.2 ⟨_, hmem, rfl⟩
    rw [hnone] at hturn
    cases hturn
  obtain ⟨t, ht, hticks, -⟩ := s.step_eq_performAll m
  rw [ht, ticks_performAll hnosub hkeep, hticks]

/-- One of these things becomes of every hour that the engine has a place for. -/
theorem fate_run (hs : s.Sound) (ho : s.OnTime c₀)
    (hsub : s.ticks.isSome = s.engine.tracker.subscribed) (hq : s.ticks = some q)
    (hle : q ≤ place) (moves : List Move) : Fate place (c₀.hourAt place) s moves := by
  induction moves generalizing s q with
  | nil => exact .unread hq hle
  | cons m rest ih =>
    -- how far the reader gets in this move
    have hread : Fate place (c₀.hourAt place) s (m :: rest) ∨
        ∃ q', s.readOn m = some q' ∧ q' ≤ place := by
      rcases readOn_cases ho m with ⟨-, heq⟩ | ⟨p, rfl, hp, -, hold, hlag, heq⟩ |
        ⟨p, rfl, hp, hhour, hlt, heq⟩
      · exact .inr ⟨q, heq.trans hq, hle⟩
      · obtain rfl := Option.some.inj (hq.symm.trans hp)
        rcases Nat.lt_or_ge place s.clock.ticks.oldest with hplace | hplace
        · exact .inl (.skipped hq hle hlag hplace (Channel.capacity_lt hold))
        · exact .inr ⟨_, heq, hplace⟩
      · obtain rfl := Option.some.inj (hq.symm.trans hp)
        rcases Nat.lt_or_eq_of_le hle with hplace | rfl
        · exact .inr ⟨_, heq, hplace⟩
        · refine .inl (.processed ?_)
          rw [(step_hours hs _).1, hhour]
          exact List.mem_singleton_self _
    rcases hread with hfate | ⟨q', hq', hle'⟩
    · exact hfate
    · by_cases hdrop : .unsubscribe ∈ (s.step m).2
      · exact .dropped hq' hle' hdrop
      · refine .later hq' hle' hdrop (ih ((makes_step hs m).sound hs) (onTime_step ho m)
          (isSome_ticks_step hs hsub m) ?_ hle')
        rw [ticks_of_kept hs hsub hq hdrop, hq']

/-! ## Runs -/

/-- A notice of missed hours moves the reader on, and does nothing else. -/
theorem step_of_lagged {missed next : Nat} (hq : s.ticks = some q)
    (hlag : s.clock.ticks.receive q = (.lagged missed, next)) :
    s.step .takeTick = ({ s with ticks := some next }, []) := by
  have hread : s.readClock = ({ s with ticks := some next }, none) := by
    unfold readClock
    rw [hq]
    dsimp only
    rw [hlag]
  show s.takeTick = _
  unfold takeTick
  rw [hread]
  rfl

/-- In every run, whatever the clock keeps and however its hours come between the other moves:
* the hours that are reported as over come in their order, and no hour comes twice;
* so do the hours in which a deed makes progress;
* an hour that the clock sends while the engine takes no hours is never reported;
* an hour that it sends while the engine takes hours is at last reported, or still unread, or it was
  skipped because more hours were unread than the clock keeps, or the engine took no more hours
  before it got there;
* when the engine begins to take hours, it takes none that the clock sent before;
* a notice of missed hours changes nothing but the place of the reader. -/
theorem hours_in_order (catalog : Catalog) (world : World) (clock : Clock) (bus : Bus)
    (moves : List Move) :
    let start := ofParts catalog world clock bus
    let outputs := (start.run moves).2
    (processedHours outputs).Pairwise (·.val < ·.val) ∧
    (∀ id, (progressHours id outputs).Pairwise (·.val < ·.val)) ∧
    (∀ before after, moves = before ++ .advanceClock :: after →
      let s := (start.run before).1
      s.clockIsOpen →
        (s.ticks = none → s.clock.now.next ∉ processedHours outputs) ∧
        (s.ticks.isSome →
          Fate s.clock.ticks.sent s.clock.now.next (s.step .advanceClock).1 after)) ∧
    (∀ before after, moves = before ++ after →
      let s := (start.run before).1
      (s.ticks = none → ∀ h ∈ processedHours (s.run after).2, s.clock.now.val < h.val) ∧
      (∀ q missed next, s.ticks = some q → s.clock.ticks.receive q = (.lagged missed, next) →
        s.step .takeTick = ({ s with ticks := some next }, []))) := by
  intro start outputs
  have hsound : start.Sound := sound_ofParts catalog world clock bus
  have hontime : start.OnTime clock := onTime_refl catalog world clock bus
  have hordered : start.Ordered clock [] :=
    ⟨.nil, fun _ h => (nomatch h), fun _ h => (nomatch h), fun _ => .slnil⟩
  have hrun (before : List Move) := ordered_run hsound hontime hordered before
  have hbeyond (before after : List Move) (hnone : (start.run before).1.ticks = none) :
      ∀ h ∈ processedHours ((start.run before).1.run after).2,
        (start.run before).1.clock.now.val < h.val := by
    intro x hx
    have ho := (hrun before).1
    refine Nat.lt_of_lt_of_le (now_lt_hourAt ho) ?_
    exact processed_of_beyond (run_sound hsound before) ho (Nat.le_refl _)
      (fun q hq => by rw [hnone] at hq; cases hq) ho.clock.sent_le after x hx
  have hall := (hrun moves).2
  rw [List.nil_append] at hall
  refine ⟨hall.sorted, fun id => hall.sorted.sublist (hall.progress id), ?_, ?_⟩
  · rintro before after rfl s hopen
    obtain ⟨ho, hbefore⟩ := hrun before
    rw [List.nil_append] at hbefore
    have hadvance : (s.step .advanceClock).1 = { s with clock := s.clock.advance } := if_pos hopen
    refine ⟨fun hnone hmem => ?_, fun hheld => ?_⟩
    · have hsplit : outputs = (start.run before).2 ++ (s.run (.advanceClock :: after)).2 := by
        show (start.run (before ++ .advanceClock :: after)).2 = _
        rw [run_append]
      rw [hsplit, processedHours_append] at hmem
      rcases List.mem_append.1 hmem with hmem | hmem
      · exact absurd (hbefore.past _ hmem) (Nat.not_le.2 (Nat.lt_succ_self _))
      · have hlater := hbeyond (before ++ [.advanceClock]) after
        rw [run_concat] at hlater
        have hlt := hlater (by rw [hadvance]; exact hnone) s.clock.now.next hmem
        rw [hadvance] at hlt
        exact Nat.lt_irrefl _ hlt
    · obtain ⟨q, hq⟩ := Option.isSome_iff_exists.1 hheld
      rw [ho.clock.next_eq]
      have hin : s.InStep := inStep_run hsound ⟨rfl, fun _ => rfl⟩ before
      have hsteps : s.Sound := run_sound hsound before
      refine fate_run (q := q) ((makes_step hsteps _).sound hsteps) (onTime_step ho _)
        (isSome_ticks_step hsteps hin.ticks _) ?_ (ho.place q hq).2 after
      rw [hadvance]
      exact hq
  · rintro before after rfl s
    exact ⟨hbeyond before after, fun q missed next => step_of_lagged⟩

end Deeds.System
