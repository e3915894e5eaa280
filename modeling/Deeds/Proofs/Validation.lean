import Deeds.Template
import Mathlib.Data.List.Induction
import Mathlib.Data.List.Nodup
import Mathlib.Data.List.Pairwise

/-!
# Validation is exact

Which definitions become templates, and what is reported about the others.

* `Definition.Valid` : a definition as it should be;
* `acceptedTags` : the tags that stand, read from the first line to the last;
* `Definition.faults` : everything that is wrong with a definition, in order, at most one fault for
  each line;
* `Template.readTags_eq`, `Template.readLines_eq_faults` : the readers report these faults;
* `Definition.faults_eq_nil_iff` : nothing is wrong with valid definitions alone;
* `Template.ofDefinition_exact` : a definition becomes a template if it is valid, and its faults are
  reported otherwise.
-/

namespace Deeds

/-- Above zero: not-a-number is not. -/
def Binary32.IsPositive : Binary32 → Prop
  | .nan => False
  | .infinity negative => negative = false
  | .finite negative size => negative = false ∧ 0 < size.units

instance : DecidablePred Binary32.IsPositive
  | .nan => inferInstanceAs (Decidable False)
  | .infinity negative => inferInstanceAs (Decidable (negative = false))
  | .finite negative size => inferInstanceAs (Decidable (negative = false ∧ 0 < size.units))

theorem Binary32.lt_zero_iff {x : Binary32} : Binary32.lt .zero x = true ↔ x.IsPositive := by
  cases x with
  | nan => simp [lt, le, zero, IsPositive]
  | infinity negative => cases negative <;> simp [lt, le, zero, IsPositive]
  | finite negative size =>
    cases negative <;>
      simp [lt, le, zero, IsPositive, signedUnits, Magnitude.zero, Nat.pos_iff_ne_zero]

/-! ## What is valid -/

/-- Some values are what some lines are read as, one for each. -/
def Reads {α : Type} (read : String → Except Line.LineError α) (lines : List String)
    (values : List α) : Prop :=
  lines.map read = values.map .ok

/-- Every line can be read. -/
def Readable {α : Type} (read : String → Except Line.LineError α) (lines : List String) : Prop :=
  ∀ line ∈ lines, ∃ value, read line = .ok value

/-- No two of some tags conflict. -/
def Compatible (tags : List Tag) : Prop := tags.Pairwise fun s t => s.conflicts t = false

/-- A definition as it should be: it has a name, all lines can be read, its tags are compatible, and
one of them says how it runs; for a tracked action the indicator is positive. -/
structure Definition.Valid (d : Definition) : Prop where
  named : Text.trim d.name ≠ ""
  tagged : ∃ tags, Reads Line.readTag d.types tags ∧ Compatible tags ∧
    ∃ mode, (∃ t ∈ tags, t.executionMode = some mode) ∧
      (mode.isTracked → d.progressIndicator.IsPositive)
  conditions : Readable Line.readCondition d.conditions
  effects : Readable Line.readEffect d.effects
  costs : Readable Line.readEffect d.costs

/-! ## What is reported -/

/-- A tag joins those before it, unless it is among them or conflicts with one of them. -/
def accept (tags : List Tag) (line : String) : List Tag :=
  match Line.readTag line with
  | .error _ => tags
  | .ok t => if t ∈ tags ∨ ∃ s ∈ tags, s.conflicts t then tags else tags ++ [t]

/-- The tags that some lines add, from the first line to the last. -/
def acceptedTags (lines : List String) : List Tag := lines.foldl accept []

/-- The fault of a line, if it cannot be read. -/
def malformed? {α : Type} (field : Definition.Field) (read : String → Except Line.LineError α)
    (index : Nat) (line : String) : Option Fault :=
  match read line with
  | .error cause => some (.malformed field index line cause)
  | .ok _ => none

/-- The fault of a line that should name a tag: it cannot be read, or the tag conflicts with those
which the lines before it added; the earliest of these is reported. -/
def tagFault? (lines : List String) (index : Nat) (line : String) : Option Fault :=
  match Line.readTag line with
  | .error cause => some (.malformed .types index line cause)
  | .ok t => ((acceptedTags (lines.take index)).find? (·.conflicts t)).map fun s =>
    .incompatible ⟨s, t⟩

/-- The faults of some lines, each with the place of its line. -/
def located (field : Definition.Field) (fault? : Nat → String → Option Fault)
    (lines : List String) : List ((Definition.Field × Nat) × Fault) :=
  lines.zipIdx.filterMap fun (line, index) => (fault? index line).map ((field, index), ·)

namespace Definition

variable (d : Definition)

/-- The faults of the name. -/
def nameFaults : List Fault := if Text.trim d.name = "" then [.emptyName] else []

/-- The faults of the lines, each with the place of its line. -/
def lineFaults : List ((Field × Nat) × Fault) :=
  located .types (tagFault? d.types) d.types
    ++ located .conditions (malformed? .conditions Line.readCondition) d.conditions
    ++ located .effects (malformed? .effects Line.readEffect) d.effects
    ++ located .costs (malformed? .costs Line.readEffect) d.costs

/-- The faults of the way the action runs, as the accepted tags say it. -/
def modeFaults : List Fault :=
  match (acceptedTags d.types).findSome? Tag.executionMode with
  | none => [.undefinedMode]
  | some mode =>
    if mode.isTracked ∧ ¬d.progressIndicator.IsPositive then
      [.invalidProgression mode d.progressIndicator]
    else []

/-- Everything that is wrong with a definition. -/
def faults : List Fault := d.nameFaults ++ d.lineFaults.map Prod.snd ++ d.modeFaults

end Definition

/-! ## Accepted tags -/

section Accepted

variable {tags : List Tag} {lines : List String} {line : String} {t : Tag}

theorem Tag.conflicts_self (t : Tag) : t.conflicts t = false := by
  simp [Tag.conflicts]

theorem Compatible.conflicts_eq (h : Compatible tags) {s : Tag} (hs : s ∈ tags) (ht : t ∈ tags) :
    s.conflicts t = false := by
  have : Std.Symm fun s t : Tag => s.conflicts t = false :=
    ⟨fun s t hst => by rwa [Tag.conflicts_comm]⟩
  exact List.Pairwise.forall_of_forall (fun t _ => t.conflicts_self) h hs ht

theorem acceptedTags_concat (lines : List String) (line : String) :
    acceptedTags (lines ++ [line]) = accept (acceptedTags lines) line :=
  List.foldl_concat ..

theorem accept_of_error {cause : Line.LineError} (h : Line.readTag line = .error cause) :
    accept tags line = tags := by
  rw [accept, h]

theorem accept_of_ok (h : Line.readTag line = .ok t) : accept tags line =
    if t ∈ tags ∨ ∃ s ∈ tags, s.conflicts t then tags else tags ++ [t] := by
  rw [accept, h]

theorem find?_conflicts_eq_none_iff :
    tags.find? (·.conflicts t) = none ↔ ∀ s ∈ tags, s.conflicts t = false := by
  simp

theorem Compatible.concat (h : Compatible tags) (ht : ∀ s ∈ tags, s.conflicts t = false) :
    Compatible (tags ++ [t]) := by
  refine List.pairwise_append.2 ⟨h, List.pairwise_singleton .., fun s hs x hx => ?_⟩
  rw [List.mem_singleton.1 hx]
  exact ht s hs

theorem Compatible.accept (h : Compatible tags) (line : String) :
    Compatible (accept tags line) := by
  cases hline : Line.readTag line with
  | error => rwa [accept_of_error hline]
  | ok t =>
    rw [accept_of_ok hline]
    split
    · exact h
    next hnot => exact h.concat (by simpa using (not_or.1 hnot).2)

theorem compatible_acceptedTags (lines : List String) : Compatible (acceptedTags lines) := by
  induction lines using List.reverseRecOn with
  | nil => exact .nil
  | append_singleton lines line ih =>
    rw [acceptedTags_concat]
    exact ih.accept line

end Accepted

/-! ## The readers report these faults -/

namespace Template

section Lines

variable {α : Type} {field : Definition.Field} {read : String → Except Line.LineError α}
  {index : Nat} {lines : List String}

theorem readLines_eq_faults : (readLines field read index lines).1 =
    (lines.zipIdx index).filterMap fun (line, i) => malformed? field read i line := by
  induction lines generalizing index with
  | nil => rfl
  | cons line rest ih =>
    rw [List.zipIdx_cons, List.filterMap_cons]
    unfold readLines malformed?
    dsimp only
    cases read line with
    | error cause => exact congrArg _ ih
    | ok value => exact ih

theorem reads_readLines (h : Readable read lines) :
    Reads read lines (readLines field read index lines).2 := by
  induction lines generalizing index with
  | nil => rfl
  | cons line rest ih =>
    obtain ⟨⟨value, hvalue⟩, hrest⟩ := List.forall_mem_cons.1 h
    unfold readLines
    dsimp only
    rw [hvalue]
    exact congrArg₂ List.cons hvalue (ih hrest)

end Lines

/-- A tag is added to compatible ones, unless one of them conflicts with it. -/
theorem push_eq {tags : List Tag} {t : Tag} {line : String} (hc : Compatible tags)
    (hline : Line.readTag line = .ok t) : TagSet.push ⟨tags⟩ t =
      match tags.find? (·.conflicts t) with
      | some s => .error ⟨s, t⟩
      | none => .ok (⟨accept tags line⟩, !tags.contains t) := by
  rw [accept_of_ok hline]
  unfold TagSet.push TagSet.contains
  by_cases ht : t ∈ tags
  · have hnone : tags.find? (·.conflicts t) = none :=
      find?_conflicts_eq_none_iff.2 fun s hs => hc.conflicts_eq hs ht
    simp [ht, hnone]
  · cases hfind : tags.find? (·.conflicts t) with
    | some s => simp [ht]
    | none => simpa [ht] using find?_conflicts_eq_none_iff.1 hfind

theorem tagFault?_of_error {lines : List String} {index : Nat} {line : String}
    {cause : Line.LineError} (h : Line.readTag line = .error cause) :
    tagFault? lines index line = some (.malformed .types index line cause) := by
  rw [tagFault?, h]

theorem tagFault?_of_ok {lines : List String} {index : Nat} {line : String} {t : Tag}
    (h : Line.readTag line = .ok t) : tagFault? lines index line =
      ((acceptedTags (lines.take index)).find? (·.conflicts t)).map fun s =>
        .incompatible ⟨s, t⟩ := by
  rw [tagFault?, h]

/-- Reading the lines behind some others goes on with the tags that those added. -/
theorem readTags_eq (before lines : List String) :
    readTags ⟨acceptedTags before⟩ before.length lines =
      ((lines.zipIdx before.length).filterMap fun (line, i) => tagFault? (before ++ lines) i line,
        ⟨acceptedTags (before ++ lines)⟩) := by
  induction lines generalizing before with
  | nil => rw [List.append_nil]; rfl
  | cons line rest ih =>
    have hrest := ih (before ++ [line])
    rw [List.length_append, List.length_singleton, List.append_assoc, List.singleton_append,
      acceptedTags_concat] at hrest
    rw [List.zipIdx_cons, List.filterMap_cons, readTags]
    dsimp only
    cases hline : Line.readTag line with
    | error cause =>
      rw [accept_of_error hline] at hrest
      rw [tagFault?_of_error hline]
      dsimp only
      rw [hrest]
    | ok t =>
      rw [tagFault?_of_ok hline, List.take_left]
      dsimp only
      rw [push_eq (compatible_acceptedTags before) hline]
      cases hfind : (acceptedTags before).find? (·.conflicts t) with
      | some s =>
        have hconflict : s.conflicts t := List.find?_some (p := fun s : Tag => s.conflicts t) hfind
        have haccept : accept (acceptedTags before) line = acceptedTags before := by
          rw [accept_of_ok hline, if_pos (.inr ⟨s, List.mem_of_find?_eq_some hfind, hconflict⟩)]
        rw [haccept] at hrest
        dsimp only
        rw [hrest]
        rfl
      | none => exact hrest

end Template

/-! ## Nothing is wrong with valid definitions alone -/

section NoFault

variable {α : Type} {field : Definition.Field} {fault? : Nat → String → Option Fault}
  {read : String → Except Line.LineError α} {lines : List String} {line : String} {tags : List Tag}
  {s t : Tag} {mode : ExecutionMode} {index : Nat}

theorem located_eq_nil_iff : located field fault? lines = [] ↔
    ∀ index line, lines[index]? = some line → fault? index line = none := by
  unfold located
  simp only [List.filterMap_eq_nil_iff, Prod.forall, List.mem_zipIdx_iff_getElem?,
    Option.map_eq_none_iff]
  exact forall_comm

theorem located_malformed_eq_nil_iff :
    located field (malformed? field read) lines = [] ↔ Readable read lines := by
  have hnone (index : Nat) (line : String) :
      malformed? field read index line = none ↔ ∃ value, read line = .ok value := by
    unfold malformed?
    cases read line <;> simp
  simp only [located_eq_nil_iff, hnone]
  refine ⟨fun h line hline => ?_, fun h index line hline => h line (List.mem_of_getElem? hline)⟩
  obtain ⟨index, hindex⟩ := List.mem_iff_getElem?.1 hline
  exact h index line hindex

/-- What a line adds that names a tag without a conflict. -/
theorem mem_accept (hline : Line.readTag line = .ok t) (ht : ∀ s ∈ tags, s.conflicts t = false) :
    s ∈ accept tags line ↔ s ∈ tags ∨ s = t := by
  rw [accept_of_ok hline]
  split
  next h =>
    have hmem : t ∈ tags := h.resolve_right (by simpa using ht)
    exact ⟨.inl, fun hs => hs.elim id (· ▸ hmem)⟩
  · simp

theorem reads_concat_iff : Reads Line.readTag (lines ++ [line]) tags ↔
    ∃ before t, tags = before ++ [t] ∧ Reads Line.readTag lines before ∧
      Line.readTag line = .ok t := by
  unfold Reads
  constructor
  · intro h
    rw [List.map_append, eq_comm, List.map_eq_append_iff] at h
    obtain ⟨before, last, rfl, hbefore, hlast⟩ := h
    obtain ⟨t, rfl, ht⟩ := List.map_eq_singleton_iff.1 hlast
    exact ⟨before, t, rfl, hbefore.symm, ht.symm⟩
  · rintro ⟨before, t, rfl, hbefore, ht⟩
    rw [List.map_append, List.map_append, hbefore, List.map_singleton, ht, List.map_singleton]

theorem compatible_concat_iff : Compatible (tags ++ [t]) ↔
    Compatible tags ∧ ∀ s ∈ tags, s.conflicts t = false := by
  refine ⟨fun h => ?_, fun h => h.1.concat h.2⟩
  obtain ⟨htags, -, hlast⟩ := List.pairwise_append.1 h
  exact ⟨htags, fun s hs => hlast s hs t (List.mem_singleton_self t)⟩

/-- Lines that name compatible tags add these tags. -/
theorem mem_acceptedTags (hr : Reads Line.readTag lines tags) (hc : Compatible tags) :
    t ∈ acceptedTags lines ↔ t ∈ tags := by
  -- from the last line, which is judged by the tags that all lines before it added
  induction lines using List.reverseRecOn generalizing tags t with
  | nil =>
    obtain rfl : tags = [] := List.map_eq_nil_iff.1 hr.symm
    rfl
  | append_singleton lines line ih =>
    obtain ⟨before, last, rfl, hbefore, hline⟩ := reads_concat_iff.1 hr
    obtain ⟨hc, hlast⟩ := compatible_concat_iff.1 hc
    have hmem (s : Tag) : s ∈ acceptedTags lines ↔ s ∈ before := ih hbefore hc
    rw [acceptedTags_concat, mem_accept hline fun s hs => hlast s ((hmem s).1 hs), hmem]
    simp

theorem tagFault?_concat_of_lt (hlt : index < lines.length) (last : String) :
    tagFault? (lines ++ [last]) index line = tagFault? lines index line := by
  unfold tagFault?
  rw [List.take_append_of_le_length (Nat.le_of_lt hlt)]

/-- The last line has no fault if it names a tag that conflicts with none of those before. -/
theorem tagFault?_last_eq_none_iff : tagFault? (lines ++ [line]) lines.length line = none ↔
    ∃ t, Line.readTag line = .ok t ∧ ∀ s ∈ acceptedTags lines, s.conflicts t = false := by
  cases hline : Line.readTag line with
  | error => simp [Template.tagFault?_of_error hline]
  | ok t =>
    rw [Template.tagFault?_of_ok hline, List.take_left, Option.map_eq_none_iff,
      find?_conflicts_eq_none_iff]
    simp

theorem located_tagFault_eq_nil_iff : located .types (tagFault? lines) lines = [] ↔
    ∃ tags, Reads Line.readTag lines tags ∧ Compatible tags := by
  rw [located_eq_nil_iff]
  -- a further line changes no fault of those before, so only its own has to be looked at
  induction lines using List.reverseRecOn with
  | nil => exact ⟨fun _ => ⟨[], rfl, .nil⟩, fun _ _ _ h => nomatch h⟩
  | append_singleton lines last ih =>
    constructor
    · intro h
      obtain ⟨tags, hr, hc⟩ := ih.1 fun index line hline => by
        obtain ⟨hlt, -⟩ := List.getElem?_eq_some_iff.1 hline
        rw [← tagFault?_concat_of_lt hlt last]
        exact h index line (by rwa [List.getElem?_append_left hlt])
      obtain ⟨t, ht, hnot⟩ := tagFault?_last_eq_none_iff.1 (h lines.length last (by simp))
      refine ⟨tags ++ [t], reads_concat_iff.2 ⟨tags, t, rfl, hr, ht⟩, hc.concat fun s hs => ?_⟩
      exact hnot s ((mem_acceptedTags hr hc).2 hs)
    · rintro ⟨tags, hr, hc⟩ index line hline
      obtain ⟨before, t, rfl, hr, ht⟩ := reads_concat_iff.1 hr
      obtain ⟨hc, hnot⟩ := compatible_concat_iff.1 hc
      rcases Nat.lt_or_ge index lines.length with hlt | hge
      · rw [List.getElem?_append_left hlt] at hline
        rw [tagFault?_concat_of_lt hlt]
        exact ih.2 ⟨before, hr, hc⟩ index line hline
      · rw [List.getElem?_append_right hge, List.getElem?_singleton] at hline
        split at hline
        next hzero =>
          cases hline
          obtain rfl : index = lines.length := by omega
          exact tagFault?_last_eq_none_iff.2
            ⟨t, ht, fun s hs => hnot s ((mem_acceptedTags hr hc).1 hs)⟩
        · cases hline

/-- Two of some tags that select a mode are one. -/
def SelectOne {β : Type} (tags : List Tag) (select : Tag → Option β) : Prop :=
  ∀ s ∈ tags, ∀ t ∈ tags, (select s).isSome → (select t).isSome → s = t

theorem Compatible.selectOne_executionMode (hc : Compatible tags) :
    SelectOne tags Tag.executionMode := by
  intro s hs t ht hsmode htmode
  by_contra hne
  have hnot := hc.conflicts_eq hs ht
  simp [Tag.conflicts, hne, hsmode, htmode] at hnot

theorem Compatible.selectOne_actorMode (hc : Compatible tags) : SelectOne tags Tag.actorMode := by
  intro s hs t ht hsmode htmode
  by_contra hne
  have hnot := hc.conflicts_eq hs ht
  simp [Tag.conflicts, hne, hsmode, htmode] at hnot

/-- Of tags that select one mode, the first that does says which. -/
theorem SelectOne.findSome?_eq_some_iff {β : Type} {select : Tag → Option β} {b : β}
    (h : SelectOne tags select) :
    tags.findSome? select = some b ↔ ∃ t ∈ tags, select t = some b := by
  refine ⟨List.exists_of_findSome?_eq_some, ?_⟩
  rintro ⟨t, ht, hb⟩
  have hsome : (select t).isSome := by rw [hb]; rfl
  obtain ⟨other, hother⟩ := Option.isSome_iff_exists.1
    (List.findSome?_isSome_iff.2 ⟨t, ht, hsome⟩)
  obtain ⟨s, hs, hsother⟩ := List.exists_of_findSome?_eq_some hother
  have hsame : s = t := h s hs t ht (by rw [hsother]; rfl) hsome
  rw [hother, ← hsother, hsame, hb]

/-- At most one execution mode is selected by compatible tags. -/
theorem findSome?_executionMode_eq_some_iff (hc : Compatible tags) :
    tags.findSome? Tag.executionMode = some mode ↔ ∃ t ∈ tags, t.executionMode = some mode :=
  hc.selectOne_executionMode.findSome?_eq_some_iff

end NoFault

namespace Definition

variable {d : Definition}

theorem modeFaults_eq_nil_iff : d.modeFaults = [] ↔
    ∃ mode, (∃ t ∈ acceptedTags d.types, t.executionMode = some mode) ∧
      (mode.isTracked → d.progressIndicator.IsPositive) := by
  simp only [← findSome?_executionMode_eq_some_iff (compatible_acceptedTags d.types)]
  unfold modeFaults
  cases (acceptedTags d.types).findSome? Tag.executionMode with
  | none => simp
  | some mode => simp

/-- Nothing is wrong with valid definitions, and something is with all others. -/
theorem faults_eq_nil_iff : d.faults = [] ↔ d.Valid := by
  unfold faults lineFaults
  simp only [List.append_eq_nil_iff, List.map_eq_nil_iff, located_tagFault_eq_nil_iff,
    located_malformed_eq_nil_iff, modeFaults_eq_nil_iff]
  have hnamed : d.nameFaults = [] ↔ Text.trim d.name ≠ "" := by simp [nameFaults]
  rw [hnamed]
  constructor
  · rintro ⟨⟨hname, ⟨⟨⟨tags, hr, hc⟩, hconditions⟩, heffects⟩, hcosts⟩, mode, ⟨t, ht, hmode⟩, hpos⟩
    exact ⟨hname, ⟨tags, hr, hc, mode, ⟨t, (mem_acceptedTags hr hc).1 ht, hmode⟩, hpos⟩,
      hconditions, heffects, hcosts⟩
  · rintro ⟨hname, ⟨tags, hr, hc, mode, ⟨t, ht, hmode⟩, hpos⟩, hconditions, heffects, hcosts⟩
    exact ⟨⟨hname, ⟨⟨⟨tags, hr, hc⟩, hconditions⟩, heffects⟩, hcosts⟩, mode,
      ⟨t, (mem_acceptedTags hr hc).2 ht, hmode⟩, hpos⟩

end Definition

/-! ## No line is reported twice -/

section Places

variable {field : Definition.Field} {fault? : Nat → String → Option Fault} {lines : List String}

theorem fst_of_mem_located {place : Definition.Field × Nat}
    (h : place ∈ (located field fault? lines).map Prod.fst) : place.1 = field := by
  obtain ⟨x, hx, rfl⟩ := List.mem_map.1 h
  obtain ⟨⟨line, index⟩, -, hfault⟩ := List.mem_filterMap.1 hx
  obtain ⟨fault, -, rfl⟩ := Option.map_eq_some_iff.1 hfault
  rfl

theorem nodup_located : ((located field fault? lines).map Prod.fst).Nodup := by
  have hsublist : ((located field fault? lines).map Prod.fst).Sublist
      (lines.zipIdx.map fun x => (field, x.2)) := by
    unfold located
    generalize lines.zipIdx = numbered
    induction numbered with
    | nil => exact .slnil
    | cons x rest ih =>
      rw [List.filterMap_cons, List.map_cons]
      dsimp only
      cases fault? x.2 x.1 with
      | none => exact .cons _ ih
      | some fault => exact .cons_cons _ ih
  refine hsublist.nodup ?_
  have hnumbers : (lines.zipIdx.map Prod.snd).Nodup := by
    rw [List.zipIdx_map_snd]
    exact List.nodup_range'
  rw [← Function.comp_def (Prod.mk field) Prod.snd, ← List.map_map]
  exact hnumbers.map fun _ _ heq => (Prod.mk.inj heq).2

theorem Definition.nodup_lineFaults (d : Definition) : (d.lineFaults.map Prod.fst).Nodup := by
  unfold lineFaults
  simp only [List.map_append, List.nodup_append', List.disjoint_append_left]
  have hdisjoint {f g : Field} {fault? fault'? : Nat → String → Option Fault}
      {lines lines' : List String} (hne : f ≠ g) :
      ((located f fault? lines).map Prod.fst).Disjoint
        ((located g fault'? lines').map Prod.fst) := fun place hf hg =>
    hne ((fst_of_mem_located hf).symm.trans (fst_of_mem_located hg))
  refine ⟨⟨⟨nodup_located, nodup_located, hdisjoint (by decide)⟩, nodup_located, ?_⟩,
    nodup_located, ?_⟩
  · exact ⟨hdisjoint (by decide), hdisjoint (by decide)⟩
  · exact ⟨⟨hdisjoint (by decide), hdisjoint (by decide)⟩, hdisjoint (by decide)⟩

end Places

/-! ## Definitions and templates -/

namespace Template

variable {d : Definition}

theorem map_snd_located (field : Definition.Field) (fault? : Nat → String → Option Fault)
    (lines : List String) : (located field fault? lines).map Prod.snd =
      lines.zipIdx.filterMap fun (line, index) => fault? index line := by
  unfold located
  rw [List.map_filterMap]
  congr 1
  funext ⟨line, index⟩
  simp [Function.comp_def]

theorem modeFaults_eq (d : Definition) :
    modeFaults d.progressIndicator ((acceptedTags d.types).findSome? Tag.executionMode) =
      d.modeFaults := by
  unfold modeFaults Definition.modeFaults
  cases (acceptedTags d.types).findSome? Tag.executionMode with
  | none => rfl
  | some mode => simp [← Binary32.lt_zero_iff]

/-- The faults that reading a definition comes across. -/
theorem faults_eq (d : Definition) : d.faults =
    (if (Text.trim d.name).isEmpty then [.emptyName] else [])
      ++ (readTags .empty 0 d.types).1
      ++ (readLines .conditions Line.readCondition 0 d.conditions).1
      ++ (readLines .effects Line.readEffect 0 d.effects).1
      ++ (readLines .costs Line.readEffect 0 d.costs).1
      ++ modeFaults d.progressIndicator (readTags .empty 0 d.types).2.executionMode := by
  have htags := readTags_eq [] d.types
  rw [List.length_nil, List.nil_append] at htags
  have hmode : (readTags .empty 0 d.types).2.executionMode =
      (acceptedTags d.types).findSome? Tag.executionMode := by
    exact congrArg (fun r => TagSet.executionMode r.2) htags
  have htagFaults : (readTags .empty 0 d.types).1 = _ := congrArg Prod.fst htags
  rw [hmode, modeFaults_eq, htagFaults, readLines_eq_faults, readLines_eq_faults,
    readLines_eq_faults]
  unfold Definition.faults Definition.nameFaults Definition.lineFaults
  simp only [List.map_append, map_snd_located, String.isEmpty_iff, List.append_assoc]

theorem ofDefinition_of_faults (h : d.faults ≠ []) :
    ofDefinition d = .error (d.faults.map (LoadError.mk (Text.trim d.name))) := by
  unfold ofDefinition
  dsimp only
  rw [← faults_eq d]
  split
  · rfl
  · rw [if_neg (by simpa using h)]

theorem ofDefinition_of_nil (h : d.faults = []) : ∃ t, ofDefinition d = .ok t ∧
    t.conditions = (readLines .conditions Line.readCondition 0 d.conditions).2 ∧
    t.effects = (readLines .effects Line.readEffect 0 d.effects).2 ∧
    t.costs = (readLines .costs Line.readEffect 0 d.costs).2 := by
  unfold ofDefinition
  dsimp only
  rw [← faults_eq d]
  split
  next hmode =>
    have hmodeFaults : modeFaults d.progressIndicator
        (readTags .empty 0 d.types).2.executionMode = [] :=
      (List.append_eq_nil_iff.1 ((faults_eq d).symm.trans h)).2
    rw [hmode] at hmodeFaults
    cases hmodeFaults
  · rw [if_pos (by rw [h]; rfl)]
    exact ⟨_, rfl, rfl, rfl, rfl⟩

/-- Validation is exact, and reports everything:
* a definition becomes a template exactly if it is valid;
* the template has the conditions, effects and costs of the lines, one for each and in their order;
* otherwise all faults of the definition are reported, each under the trimmed name: that of the name,
  those of the lines in their order, and that of the mode. There is at least one, and no line has
  two. -/
theorem ofDefinition_exact (d : Definition) :
    ((∃ t, ofDefinition d = .ok t) ↔ d.Valid) ∧
    (∀ t, ofDefinition d = .ok t → Reads Line.readCondition d.conditions t.conditions ∧
      Reads Line.readEffect d.effects t.effects ∧ Reads Line.readEffect d.costs t.costs) ∧
    (∀ errors, ofDefinition d = .error errors →
      errors = d.faults.map (LoadError.mk (Text.trim d.name)) ∧ errors ≠ []) ∧
    (d.lineFaults.map Prod.fst).Nodup := by
  by_cases hfaults : d.faults = []
  · have hvalid := Definition.faults_eq_nil_iff.1 hfaults
    obtain ⟨t, ht, hconditions, heffects, hcosts⟩ := ofDefinition_of_nil hfaults
    refine ⟨⟨fun _ => hvalid, fun _ => ⟨t, ht⟩⟩, fun t' ht' => ?_, fun errors herrors => ?_,
      d.nodup_lineFaults⟩
    · obtain rfl : t = t' := Except.ok.inj (ht.symm.trans ht')
      rw [hconditions, heffects, hcosts]
      exact ⟨reads_readLines hvalid.conditions, reads_readLines hvalid.effects,
        reads_readLines hvalid.costs⟩
    · rw [ht] at herrors
      cases herrors
  · have herror := ofDefinition_of_faults hfaults
    refine ⟨⟨fun ⟨t, ht⟩ => ?_, fun hvalid => ?_⟩, fun t ht => ?_, fun errors herrors => ?_,
      d.nodup_lineFaults⟩
    · rw [herror] at ht
      cases ht
    · exact absurd (Definition.faults_eq_nil_iff.2 hvalid) hfaults
    · rw [herror] at ht
      cases ht
    · obtain rfl := Except.error.inj (herror.symm.trans herrors)
      exact ⟨rfl, by simpa using hfaults⟩

example : ofDefinition {} = .error [⟨"", .emptyName⟩, ⟨"", .undefinedMode⟩] := by cbv

end Template

end Deeds
