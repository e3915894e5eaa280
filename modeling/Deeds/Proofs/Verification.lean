import Deeds.Proofs.System.Marks

/-!
# Verification is a conjunction that stops early

A check that is answered to its end, by a store that may change from one read to the next.

* `Check.answered` : what a check reads, and what it comes to;
* `HoldsAt` : a requirement holds of what is there when its turn comes;
* `Check.answered_holding`, `Check.answered_failing` : what a single condition does;
* `Deed.verification_exact` : the verdict, the marks and the reads of a whole check.
-/

namespace Deeds

/-! ## Requirements -/

namespace Requirement

/-- The resource of which a balance is required. -/
def resource? : Requirement → Option Resource
  | .atLeast r _ => some r
  | .targetType _ => none

/-- What a requirement says of a target and of the balances. -/
def Holds (target : Target) (balance : Resource → Int64) : Requirement → Prop
  | .atLeast r required => required ≤ balance r
  | .targetType name => name = target.typeName

end Requirement

/-- The resources that some requirements look at, one for each requirement of a balance. -/
def balances (rs : List Requirement) : List Resource := rs.filterMap Requirement.resource?

/-- The requirement at a position holds, if those before it were read for one after the other, from
the read of the given number on. -/
def HoldsAt (target : Target) (store : Nat → Resource → Int64) (k : Nat) (rs : List Requirement)
    (i : Nat) : Prop :=
  ∀ r, rs[i]? = some r → r.Holds target (store (k + (balances (rs.take i)).length))

section Positions

variable {target : Target} {store : Nat → Resource → Int64} {k i : Nat} {r : Requirement}
  {rs : List Requirement}

theorem balances_cons (r : Requirement) (rs : List Requirement) :
    balances (r :: rs) = balances [r] ++ balances rs := by
  rw [← List.singleton_append, balances, List.filterMap_append]
  rfl

@[simp] theorem holdsAt_zero : HoldsAt target store k (r :: rs) 0 ↔ r.Holds target (store k) := by
  simp [HoldsAt, balances]

@[simp] theorem holdsAt_succ : HoldsAt target store k (r :: rs) (i + 1) ↔
    HoldsAt target store (k + (balances [r]).length) rs i := by
  unfold HoldsAt
  rw [List.getElem?_cons_succ, List.take_succ_cons, balances_cons, List.length_append,
    Nat.add_assoc]

end Positions

/-! ## A check to its end -/

namespace Check

variable {target : Target} {store : Nat → Resource → Int64} {k : Nat} {check : Check}
  {r : Resource} {met rest : List Condition} {c : Condition}

theorem remaining_proceed_le : (proceed target met rest).remaining ≤ rest.length := by
  induction rest generalizing met with
  | nil => exact Nat.le_refl _
  | cons c rest ih =>
    unfold proceed
    split
    · exact Nat.le_refl _
    · dsimp only
      split
      · exact Nat.le_succ_of_le ih
      · exact Nat.zero_le _

/-- With every balance that is supplied, there is one less to ask for. -/
theorem remaining_supply_lt (h : check.awaits = some r) (amount : Int64) :
    (check.supply target amount).remaining < check.remaining := by
  cases check with
  | finished => cases h
  | awaiting met next resource rest =>
    unfold supply
    dsimp only
    split
    · exact Nat.lt_succ_of_le remaining_proceed_le
    · exact Nat.succ_pos _

/-- What a check reads, in order, and what it comes to, with a store that answers each read anew;
the first read has the given number. -/
def answered (target : Target) (store : Nat → Resource → Int64) (k : Nat) (check : Check) :
    List Resource × Check :=
  match _hawaits : check.awaits with
  | none => ([], check)
  | some r =>
    let (reads, last) := answered target store (k + 1) (check.supply target (store k r))
    (r :: reads, last)
termination_by check.remaining
decreasing_by exact remaining_supply_lt _hawaits _

theorem answered_of_awaits (h : check.awaits = some r) : answered target store k check =
    (r :: (answered target store (k + 1) (check.supply target (store k r))).1,
      (answered target store (k + 1) (check.supply target (store k r))).2) := by
  rw [answered]
  split
  next hnone => cases hnone.symm.trans h
  next hsome => cases hsome.symm.trans h; rfl

theorem answered_finished (target : Target) (store : Nat → Resource → Int64) (k : Nat)
    (verdict : Verdict) : answered target store k (.finished verdict) = ([], .finished verdict) := by
  rw [answered]
  rfl

/-- A condition that holds is marked, and the check goes on behind it. -/
theorem answered_holding (h : c.requirement.Holds target (store k)) :
    answered target store k (proceed target met (c :: rest)) =
      (balances [c.requirement] ++ (answered target store (k + (balances [c.requirement]).length)
        (proceed target (met ++ [⟨c.requirement, true⟩]) rest)).1,
      (answered target store (k + (balances [c.requirement]).length)
        (proceed target (met ++ [⟨c.requirement, true⟩]) rest)).2) := by
  obtain ⟨requirement, isMet⟩ := c
  cases requirement with
  | atLeast r required =>
    have hsupply : (awaiting met ⟨.atLeast r required, isMet⟩ r rest).supply target (store k r) =
        proceed target (met ++ [⟨.atLeast r required, true⟩]) rest := by
      have hpass : required ≤ store k r := h
      simp [supply, Condition.record, Requirement.isSatisfiedBy, hpass]
    rw [proceed, answered_of_awaits rfl, hsupply]
    rfl
  | targetType name =>
    have hpass : (name == target.typeName) = true := beq_iff_eq.2 h
    simp only [proceed, Condition.record, Requirement.isSatisfiedBy, hpass]
    rfl

/-- A condition that does not hold ends the check, and nothing behind it is looked at. -/
theorem answered_failing (h : ¬c.requirement.Holds target (store k)) :
    answered target store k (proceed target met (c :: rest)) =
      (balances [c.requirement], .finished ⟨met ++ ⟨c.requirement, false⟩ :: rest, false⟩) := by
  obtain ⟨requirement, isMet⟩ := c
  cases requirement with
  | atLeast r required =>
    have hsupply : (awaiting met ⟨.atLeast r required, isMet⟩ r rest).supply target (store k r) =
        .finished ⟨met ++ ⟨.atLeast r required, false⟩ :: rest, false⟩ := by
      have hfail : ¬required ≤ store k r := h
      simp [supply, Condition.record, Requirement.isSatisfiedBy, hfail]
    rw [proceed, answered_of_awaits rfl, hsupply, answered_finished]
    rfl
  | targetType name =>
    have hfail : (name == target.typeName) = false := beq_eq_false_iff_ne.2 h
    simp only [proceed, Condition.record, Requirement.isSatisfiedBy, hfail]
    exact answered_finished ..

/-- A check of unmarked conditions stops at the first one that does not hold: those before it are
marked, and what was read is what they and it look at. -/
theorem answered_proceed (target : Target) (store : Nat → Resource → Int64) (k : Nat)
    (met : List Condition) (rs : List Requirement) :
    ∃ j ≤ rs.length, (∀ i < j, HoldsAt target store k rs i) ∧
      (j < rs.length → ¬HoldsAt target store k rs j) ∧
      answered target store k (proceed target met (rs.map .ofRequirement)) =
        (balances (rs.take (j + 1)),
          .finished ⟨met ++ rs.mapIdx fun i r => ⟨r, decide (i < j)⟩, decide (j = rs.length)⟩) := by
  induction rs generalizing k met with
  | nil =>
    refine ⟨0, Nat.le_refl _, fun _ h => absurd h (Nat.not_lt_zero _), fun h => absurd h (by simp),
      ?_⟩
    rw [List.map_nil, proceed, answered_finished]
    simp [balances]
  | cons r rs ih =>
    by_cases hr : r.Holds target (store k)
    · obtain ⟨j, hj, hbefore, hat, hrun⟩ :=
        ih (k + (balances [r]).length) (met ++ [⟨r, true⟩])
      refine ⟨j + 1, Nat.succ_le_succ hj, fun i hi => ?_, fun hlt => ?_, ?_⟩
      · cases i with
        | zero => exact holdsAt_zero.2 hr
        | succ i => exact holdsAt_succ.2 (hbefore i (Nat.lt_of_succ_lt_succ hi))
      · exact mt holdsAt_succ.1 (hat (Nat.lt_of_succ_lt_succ hlt))
      · rw [List.map_cons, answered_holding (c := .ofRequirement r) hr]
        simp only [Condition.ofRequirement] at hrun ⊢
        rw [hrun, List.take_succ_cons, balances_cons r (rs.take (j + 1))]
        simp [List.mapIdx_cons]
    · refine ⟨0, Nat.zero_le _, fun _ h => absurd h (Nat.not_lt_zero _),
        fun _ => mt holdsAt_zero.1 hr, ?_⟩
      rw [List.map_cons, answered_failing (c := .ofRequirement r) hr]
      have hunmarked : rs.map Condition.ofRequirement = rs.mapIdx fun _ r => ⟨r, false⟩ :=
        List.ext_getElem? fun i => by
          rw [List.getElem?_map, List.getElem?_mapIdx]
          rfl
      simp [Condition.ofRequirement, List.mapIdx_cons, hunmarked]

/-- A store that does not change can be asked for every balance anew. -/
theorem supplyFrom_eq_answered (target : Target) (balance : Resource → Int64) {n : Nat}
    (h : check.remaining ≤ n) :
    supplyFrom target balance n check = (answered target (fun _ => balance) k check).2 := by
  induction n generalizing check k with
  | zero =>
    cases check with
    | finished => rw [answered_finished]; rfl
    | awaiting => cases h
  | succ n ih =>
    rw [supplyFrom]
    cases check with
    | finished => rw [answered_finished]; rfl
    | awaiting met next resource rest =>
      rw [answered_of_awaits rfl]
      exact ih (Nat.le_of_lt_succ (Nat.lt_of_lt_of_le (remaining_supply_lt rfl _) h))

end Check

/-! ## Whole checks -/

/-- With a store that does not change, what was read before makes no difference. -/
theorem forall_holdsAt_iff {target : Target} {balance : Resource → Int64} {rs : List Requirement} :
    (∀ i < rs.length, HoldsAt target (fun _ => balance) 0 rs i) ↔
      ∀ r ∈ rs, r.Holds target balance := by
  constructor
  · intro h r hr
    obtain ⟨i, hi⟩ := List.mem_iff_getElem?.1 hr
    exact h i (List.getElem?_eq_some_iff.1 hi).1 r hi
  · intro h i _ r hr
    exact h r (List.mem_of_getElem? hr)

/-- All requirements hold exactly if the first that does not is none of them. -/
theorem eq_length_iff {target : Target} {store : Nat → Resource → Int64} {rs : List Requirement}
    {j : Nat} (hj : j ≤ rs.length) (hbefore : ∀ i < j, HoldsAt target store 0 rs i)
    (hat : j < rs.length → ¬HoldsAt target store 0 rs j) :
    j = rs.length ↔ ∀ i < rs.length, HoldsAt target store 0 rs i := by
  constructor
  · rintro rfl
    exact hbefore
  · intro hall
    by_contra hne
    have hlt : j < rs.length := Nat.lt_of_le_of_ne hj hne
    exact hat hlt (hall j hlt)

namespace Deed

theorem freshConditions_eq (d : Deed) :
    d.freshConditions = (requirements d.conditions).map .ofRequirement := by
  rw [freshConditions, requirements, List.map_map]
  rfl

/-- The check of a deed to its end. -/
theorem answered_freshConditions (d : Deed) (target : Target) (store : Nat → Resource → Int64) :
    let rs := requirements d.conditions
    ∃ j ≤ rs.length, (∀ i < j, HoldsAt target store 0 rs i) ∧
      (j < rs.length → ¬HoldsAt target store 0 rs j) ∧
      Check.answered target store 0 (.begin target d.freshConditions) =
        (balances (rs.take (j + 1)),
          .finished ⟨rs.mapIdx fun i r => ⟨r, decide (i < j)⟩, decide (j = rs.length)⟩) := by
  rw [freshConditions_eq]
  exact Check.answered_proceed target store 0 [] _

/-- With a store that does not change, a check to its end is `verify`. -/
theorem verify_eq (d : Deed) (target : Target) (balance : Resource → Int64) :
    verify target balance d.freshConditions =
      (Check.answered target (fun _ => balance) 0 (.begin target d.freshConditions)).2 :=
  Check.supplyFrom_eq_answered target balance Check.remaining_proceed_le

/-- Verification is a conjunction that stops early, whatever marks the conditions had, and whatever
the store answers to each read:
* it comes to a verdict on the same requirements in the same order;
* the verdict is met exactly if every requirement holds of what is observed for it: the balance of
  its own resource when its turn comes, or the type name of the target;
* if it is met, then every condition is marked, and each required balance was read once, in order;
* otherwise exactly the conditions before the first one that does not hold are marked, and the
  balances that these and it require were read once each, in order, and nothing else;
* without conditions it is met, and nothing is read;
* with a store that does not change, it is met exactly if all requirements hold of that store. -/
theorem verification_exact (d : Deed) (target : Target) (store : Nat → Resource → Int64) :
    let rs := requirements d.conditions
    let run := Check.answered target store 0 (.begin target d.freshConditions)
    (∃ verdict, run.2 = .finished verdict ∧ requirements verdict.conditions = rs ∧
      (verdict.isMet = true ↔ ∀ i < rs.length, HoldsAt target store 0 rs i) ∧
      (verdict.isMet = true → AllMarked verdict.conditions ∧ run.1 = balances rs) ∧
      (verdict.isMet = false → ∃ j < rs.length, ¬HoldsAt target store 0 rs j ∧
        (∀ i < j, HoldsAt target store 0 rs i) ∧
        verdict.conditions = rs.mapIdx (fun i r => ⟨r, decide (i < j)⟩) ∧
        run.1 = balances (rs.take (j + 1)))) ∧
    (d.conditions = [] → run = ([], .finished ⟨[], true⟩)) ∧
    ∀ balance, ∃ verdict, verify target balance d.freshConditions = .finished verdict ∧
      (verdict.isMet = true ↔ ∀ r ∈ rs, r.Holds target balance) := by
  intro rs run
  refine ⟨?_, fun hnil => ?_, fun balance => ?_⟩
  · obtain ⟨j, hj, hbefore, hat, hrun⟩ := d.answered_freshConditions target store
    have hrun : run = _ := hrun
    refine ⟨_, congrArg Prod.snd hrun, ?_, ?_, fun hmet => ?_, fun hmet => ?_⟩
    · refine List.ext_getElem? fun i => ?_
      rw [requirements, List.getElem?_map, List.getElem?_mapIdx, Option.map_map]
      exact congrFun Option.map_id _
    · exact decide_eq_true_iff.trans (eq_length_iff hj hbefore hat)
    · obtain rfl := of_decide_eq_true hmet
      refine ⟨fun c hc => ?_, ?_⟩
      · obtain ⟨i, hi, rfl⟩ := List.mem_mapIdx.1 hc
        exact decide_eq_true hi
      · rw [hrun, List.take_of_length_le (Nat.le_succ _)]
    · have hlt : j < rs.length := Nat.lt_of_le_of_ne hj (of_decide_eq_false hmet)
      exact ⟨j, hlt, hat hlt, hbefore, rfl, congrArg Prod.fst hrun⟩
  · have hfresh : d.freshConditions = [] := by rw [freshConditions, hnil, List.map_nil]
    exact (congrArg (fun cs => Check.answered target store 0 (.begin target cs)) hfresh).trans
      (Check.answered_finished ..)
  · obtain ⟨j, hj, hbefore, hat, hrun⟩ := d.answered_freshConditions target fun _ => balance
    refine ⟨_, (d.verify_eq target balance).trans (congrArg Prod.snd hrun), ?_⟩
    exact decide_eq_true_iff.trans ((eq_length_iff hj hbefore hat).trans forall_holdsAt_iff)

end Deed

end Deeds
