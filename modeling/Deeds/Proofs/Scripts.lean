import Deeds.Simulator.Run
import Mathlib.Data.List.TakeWhile

/-!
# What scripts say

A script is read as what it says: entries between commas, a name and a type of location each, with
blanks around both. Pieces that say nothing are skipped, and do not count.

* `Text.pieces_eq_splitOn`, `Text.breakAt?_eq_some_iff`, `Text.trimChars_padded` : splitting a text,
  and trimming a part of it;
* `PlannedAction.Says`, `PlannedAction.IsSkipped` : what a piece says, and that it says nothing;
* `PlannedAction.Writes` : pieces that write entries down;
* `PlannedAction.parseScript_exact` : what a script is read as, what is read back, and where its
  actions take place.
-/

namespace Deeds

namespace Text

variable {separator : Char} {cs w left right before after : List Char}

/-! ## Splitting -/

theorem pieces_eq_splitOn (separator : Char) (cs : List Char) :
    pieces separator cs = cs.splitOn separator := by
  induction cs with
  | nil => rfl
  | cons c cs ih =>
    rw [pieces, List.splitOn_cons_eq_if_modifyHead, ih]
    by_cases h : c = separator
    · simp [h]
    · obtain ⟨p, ps, hps⟩ := List.exists_cons_of_ne_nil (List.splitOn_ne_nil separator cs)
      simp [h, hps]

/-- No piece holds the separator. -/
theorem not_mem_of_mem_pieces (h : w ∈ pieces separator cs) : separator ∉ w := by
  induction cs generalizing w with
  | nil =>
    rw [List.mem_singleton.1 h]
    exact List.not_mem_nil
  | cons c cs ih =>
    rw [pieces] at h
    split at h
    · rcases List.mem_cons.1 h with rfl | h
      · exact List.not_mem_nil
      · exact ih h
    next hc =>
      split at h
      next p ps hps =>
        rw [hps] at ih
        rcases List.mem_cons.1 h with rfl | h
        · simpa [Ne.symm hc] using ih List.mem_cons_self
        · exact ih (List.mem_cons_of_mem p h)
      · simpa [List.mem_singleton.1 h] using Ne.symm hc

theorem bne_of_not_mem (h : separator ∉ cs) : ∀ c ∈ cs, (c != separator) = true := by
  intro c hc
  rw [bne_iff_ne]
  rintro rfl
  exact h hc

/-- What stands before and behind the first separator. -/
theorem breakAt?_eq_some_iff : breakAt? separator cs = some (before, after) ↔
    cs = before ++ separator :: after ∧ separator ∉ before := by
  unfold breakAt?
  constructor
  · intro h
    split at h
    next c rest hdrop =>
      cases h
      have hc : c = separator := by
        have hhead := List.head?_dropWhile_not (· != separator) cs
        rw [hdrop] at hhead
        simpa using hhead
      refine ⟨?_, fun hmem => by simpa using List.mem_takeWhile_imp hmem⟩
      have hsplit : cs.takeWhile (· != separator) ++ cs.dropWhile (· != separator) = cs :=
        List.takeWhile_append_dropWhile
      rwa [hdrop, hc, eq_comm] at hsplit
    · cases h
  · rintro ⟨rfl, hnot⟩
    rw [List.dropWhile_append_of_pos (bne_of_not_mem hnot),
      List.takeWhile_append_of_pos (bne_of_not_mem hnot)]
    simp

theorem breakAt?_eq_none_iff : breakAt? separator cs = none ↔ separator ∉ cs := by
  rw [Option.eq_none_iff_forall_ne_some]
  constructor
  · intro h hmem
    obtain ⟨before, after, rfl, hnot⟩ := List.eq_append_cons_of_mem hmem
    exact h (before, after) (breakAt?_eq_some_iff.2 ⟨rfl, hnot⟩)
  · rintro hnot ⟨before, after⟩ h
    exact hnot ((breakAt?_eq_some_iff.1 h).1 ▸ by simp)

/-! ## Trimming -/

/-- A text of blanks only. -/
def AllBlank (cs : List Char) : Prop := ∀ c ∈ cs, isBlank c

/-- A text neither begins nor ends with a blank. -/
structure IsTrimmed (cs : List Char) : Prop where
  head : ∀ c ∈ cs.head?, isBlank c = false
  last : ∀ c ∈ cs.getLast?, isBlank c = false

theorem dropWhile_blank (hleft : AllBlank left) (h : ∀ c ∈ cs.head?, isBlank c = false) :
    (left ++ cs).dropWhile isBlank = cs := by
  rw [List.dropWhile_append_of_pos hleft]
  cases cs with
  | nil => rfl
  | cons c cs => rw [List.dropWhile_cons_of_neg (by simp [h c rfl])]

theorem AllBlank.reverse (h : AllBlank cs) : AllBlank cs.reverse :=
  fun c hc => h c (List.mem_reverse.1 hc)

theorem allBlank_takeWhile (cs : List Char) : AllBlank (cs.takeWhile isBlank) :=
  fun _ => List.mem_takeWhile_imp

/-- Blanks take up all of a text or end at another character. -/
theorem head_dropWhile_blank (cs : List Char) : ∀ c ∈ (cs.dropWhile isBlank).head?,
    isBlank c = false := by
  intro c hc
  have hhead := List.head?_dropWhile_not isBlank cs
  rw [hc] at hhead
  exact hhead

/-- Trimming takes away what stands around a trimmed text. -/
theorem trimChars_padded (hleft : AllBlank left) (hright : AllBlank right) (hw : IsTrimmed w) :
    trimChars (left ++ (w ++ right)) = w := by
  unfold trimChars
  cases w with
  | nil =>
    have hall : ∀ c ∈ left ++ ([] ++ right), isBlank c := by
      simpa [or_imp, forall_and] using ⟨hleft, hright⟩
    rw [List.dropWhile_eq_nil_iff.2 hall]
    rfl
  | cons c w =>
    have hhead : ∀ x ∈ (c :: w ++ right).head?, isBlank x = false := fun x hx => hw.head x hx
    have hlast : ∀ x ∈ (c :: w).reverse.head?, isBlank x = false := by
      rw [List.head?_reverse]
      exact hw.last
    rw [dropWhile_blank hleft hhead, List.reverse_append, dropWhile_blank hright.reverse hlast,
      List.reverse_reverse]

/-- What is trimmed away are blanks. -/
theorem exists_eq_padded (cs : List Char) : ∃ left right, AllBlank left ∧ AllBlank right ∧
    IsTrimmed (trimChars cs) ∧ cs = left ++ (trimChars cs ++ right) := by
  let rest := cs.dropWhile isBlank
  have hrest : trimChars cs ++ (rest.reverse.takeWhile isBlank).reverse = rest := by
    rw [trimChars, ← List.reverse_append, List.takeWhile_append_dropWhile, List.reverse_reverse]
  refine ⟨cs.takeWhile isBlank, (rest.reverse.takeWhile isBlank).reverse, allBlank_takeWhile cs,
    (allBlank_takeWhile _).reverse, ⟨fun c hc => ?_, fun c hc => ?_⟩, ?_⟩
  · refine head_dropWhile_blank cs c ?_
    show c ∈ rest.head?
    rw [← hrest, List.head?_append, hc]
    rfl
  · rw [trimChars, List.getLast?_reverse] at hc
    exact head_dropWhile_blank _ c hc
  · rw [hrest, List.takeWhile_append_dropWhile]

theorem trimChars_eq_nil_iff : trimChars cs = [] ↔ AllBlank cs := by
  constructor
  · intro h
    obtain ⟨left, right, hleft, hright, -, hcs⟩ := exists_eq_padded cs
    rw [hcs, h]
    simpa [AllBlank, or_imp, forall_and] using ⟨hleft, hright⟩
  · intro h
    have hpadded : trimChars (cs ++ ([] ++ [])) = [] := trimChars_padded h nofun ⟨nofun, nofun⟩
    simpa using hpadded

end Text

namespace PlannedAction

open Text (AllBlank IsTrimmed)

/-! ## Entries and pieces -/

/-- A part of an entry: something, without blanks around it and without a comma. -/
structure IsPart (s : String) : Prop where
  ne_empty : s ≠ ""
  trimmed : IsTrimmed s.toList
  no_comma : ',' ∉ s.toList

/-- An entry that a script can hold. -/
structure IsEntry (e : PlannedAction) : Prop where
  name : IsPart e.name
  locationType : IsPart e.locationType
  no_at : '@' ∉ e.name.toList

/-- A text with blanks around it. -/
def IsPadded (s : String) (cs : List Char) : Prop :=
  ∃ left right, AllBlank left ∧ AllBlank right ∧ cs = left ++ (s.toList ++ right)

/-- What a piece of a script says: a name and a type of location, or a name alone. -/
inductive Says : List Char → PlannedAction → Prop
  | placed {name locationType : String} {cs ds : List Char} (hname : IsPadded name cs)
      (htype : IsPadded locationType ds) : Says (cs ++ '@' :: ds) ⟨name, locationType⟩
  | bare {name : String} {cs : List Char} (hname : IsPadded name cs) : Says cs ⟨name, "Square"⟩

/-- A piece says nothing: what stands before its first `@` is blank, or all of it without one; or
what stands behind that is blank. -/
def IsSkipped (piece : List Char) : Prop :=
  AllBlank (piece.takeWhile (· != '@')) ∨
    ∃ before after, piece = before ++ '@' :: after ∧ '@' ∉ before ∧ AllBlank after

/-- Pieces that write entries down, with blank ones between them. -/
inductive Writes : List (List Char) → List PlannedAction → Prop
  | nil : Writes [] []
  | blank {piece : List Char} {ps : List (List Char)} {es : List PlannedAction}
      (hblank : AllBlank piece) (h : Writes ps es) : Writes (piece :: ps) es
  | entry {piece : List Char} {e : PlannedAction} {ps : List (List Char)}
      {es : List PlannedAction} (he : e.IsEntry) (hsaid : Says piece e) (h : Writes ps es) :
      Writes (piece :: ps) (e :: es)

variable {piece cs name locationType : List Char} {ps : List (List Char)} {e : PlannedAction}
  {es : List PlannedAction} {s : String} {script : String}

theorem not_mem_allBlank {c : Char} (hc : Text.isBlank c = false) (h : AllBlank cs) : c ∉ cs := by
  intro hmem
  rw [h c hmem] at hc
  cases hc

theorem mem_of_mem_trimChars {c : Char} (h : c ∈ Text.trimChars cs) : c ∈ cs := by
  obtain ⟨left, right, -, -, -, hcs⟩ := Text.exists_eq_padded cs
  rw [hcs]
  simp [h]

theorem isPart_square : IsPart "Square" where
  ne_empty := by decide
  trimmed := ⟨by rintro _ ⟨⟩; rfl, by rintro _ ⟨⟩; rfl⟩
  no_comma := by decide

/-- What is left of a text without commas is a part of an entry, and the text is that part with
blanks around it. -/
theorem isPart_trim (hcomma : ',' ∉ cs) (hne : Text.trimChars cs ≠ []) :
    IsPart (String.ofList (Text.trimChars cs)) ∧ IsPadded (String.ofList (Text.trimChars cs)) cs := by
  obtain ⟨left, right, hleft, hright, htrimmed, hcs⟩ := Text.exists_eq_padded cs
  refine ⟨⟨by simpa using hne, by rwa [String.toList_ofList], fun hmem => ?_⟩, left, right, hleft,
    hright, by rwa [String.toList_ofList]⟩
  rw [String.toList_ofList] at hmem
  exact hcomma (mem_of_mem_trimChars hmem)

theorem trimChars_of_isPadded (hs : IsPart s) (h : IsPadded s cs) : Text.trimChars cs = s.toList := by
  obtain ⟨left, right, hleft, hright, rfl⟩ := h
  exact Text.trimChars_padded hleft hright hs.trimmed

/-- Blanks add no mark to a text. -/
theorem not_mem_of_isPadded {c : Char} (hc : Text.isBlank c = false) (h : IsPadded s cs)
    (hs : c ∉ s.toList) : c ∉ cs := by
  obtain ⟨left, right, hleft, hright, rfl⟩ := h
  simp [not_mem_allBlank hc hleft, not_mem_allBlank hc hright, hs]

theorem ofParts_eq_some_iff : ofParts name locationType = some e ↔
    name ≠ [] ∧ locationType ≠ [] ∧ ⟨String.ofList name, String.ofList locationType⟩ = e := by
  unfold ofParts
  split
  next h =>
    rw [Bool.or_eq_true, List.isEmpty_iff, List.isEmpty_iff] at h
    exact ⟨fun hnone => (nomatch hnone), fun ⟨hname, htype, _⟩ => absurd h (by simp [hname, htype])⟩
  next h =>
    rw [Bool.or_eq_true, List.isEmpty_iff, List.isEmpty_iff, not_or] at h
    rw [Option.some.injEq]
    exact ⟨fun he => ⟨h.1, h.2, he⟩, fun h => h.2.2⟩

theorem ofParts_eq_none_iff : ofParts name locationType = none ↔ name = [] ∨ locationType = [] := by
  unfold ofParts
  split <;> simp_all

/-- A piece is read as the entry that it says. -/
theorem ofPiece_eq_some_iff (hcomma : ',' ∉ piece) :
    ofPiece piece = some e ↔ e.IsEntry ∧ Says piece e := by
  unfold ofPiece
  constructor
  · intro h
    split at h
    next before after hbreak =>
      obtain ⟨rfl, hat⟩ := Text.breakAt?_eq_some_iff.1 hbreak
      obtain ⟨hname, htype, rfl⟩ := ofParts_eq_some_iff.1 h
      simp only [List.mem_append, List.mem_cons, not_or] at hcomma
      obtain ⟨hpart, hpadded⟩ := isPart_trim hcomma.1 hname
      obtain ⟨hpart', hpadded'⟩ := isPart_trim hcomma.2.2 htype
      refine ⟨⟨hpart, hpart', fun hmem => hat ?_⟩, .placed hpadded hpadded'⟩
      exact mem_of_mem_trimChars (by simpa using hmem)
    next hbreak =>
      have hat := Text.breakAt?_eq_none_iff.1 hbreak
      obtain ⟨hname, -, rfl⟩ := ofParts_eq_some_iff.1 h
      obtain ⟨hpart, hpadded⟩ := isPart_trim hcomma hname
      refine ⟨⟨hpart, isPart_square, fun hmem => hat ?_⟩, .bare hpadded⟩
      exact mem_of_mem_trimChars (by simpa using hmem)
  · rintro ⟨⟨hname, htype, hat⟩, hsaid⟩
    cases hsaid with
    | placed hpadded hpadded' =>
      rw [Text.breakAt?_eq_some_iff.2 ⟨rfl, not_mem_of_isPadded rfl hpadded hat⟩]
      refine ofParts_eq_some_iff.2 ?_
      rw [trimChars_of_isPadded hname hpadded, trimChars_of_isPadded htype hpadded']
      exact ⟨by simpa using hname.ne_empty, by simpa using htype.ne_empty, by simp⟩
    | bare hpadded =>
      rw [Text.breakAt?_eq_none_iff.2 (not_mem_of_isPadded rfl hpadded hat)]
      refine ofParts_eq_some_iff.2 ?_
      rw [trimChars_of_isPadded hname hpadded]
      exact ⟨by simpa using hname.ne_empty, by decide, by simp [defaultLocationType]⟩

theorem ofPiece_eq_none_iff : ofPiece piece = none ↔ IsSkipped piece := by
  unfold ofPiece IsSkipped
  split
  next before after hbreak =>
    obtain ⟨rfl, hat⟩ := Text.breakAt?_eq_some_iff.1 hbreak
    rw [ofParts_eq_none_iff, Text.trimChars_eq_nil_iff, Text.trimChars_eq_nil_iff,
      List.takeWhile_append_of_pos (Text.bne_of_not_mem hat), List.takeWhile_cons_of_neg (by simp),
      List.append_nil]
    refine or_congr_right ⟨fun h => ⟨before, after, rfl, hat, h⟩, ?_⟩
    rintro ⟨before', after', heq, hat', h⟩
    have hbreak' := Text.breakAt?_eq_some_iff.2 ⟨heq, hat'⟩
    rw [hbreak] at hbreak'
    cases hbreak'
    exact h
  next hbreak =>
    have hat := Text.breakAt?_eq_none_iff.1 hbreak
    have htake : piece.takeWhile (· != '@') = piece :=
      List.takeWhile_eq_self_iff.2 (Text.bne_of_not_mem hat)
    rw [ofParts_eq_none_iff, Text.trimChars_eq_nil_iff, htake]
    constructor
    · rintro (h | h)
      · exact .inl h
      · cases h
    · rintro (h | ⟨before, after, rfl, -⟩)
      · exact .inl h
      · simp at hat

/-! ## Scripts -/

/-- Pieces with commas between them. -/
def join (ps : List (List Char)) : List Char := [','].intercalate ps

theorem pieces_join (hne : ps ≠ []) (hcomma : ∀ p ∈ ps, ',' ∉ p) :
    Text.pieces ',' (join ps) = ps := by
  rw [Text.pieces_eq_splitOn]
  exact List.splitOn_intercalate ',' hcomma hne

theorem Says.not_mem_comma (he : e.IsEntry) (h : Says piece e) : ',' ∉ piece := by
  cases h with
  | placed hname htype =>
    have hbefore := not_mem_of_isPadded rfl hname he.name.no_comma
    have hafter := not_mem_of_isPadded rfl htype he.locationType.no_comma
    simp [hbefore, hafter]
  | bare hname => exact not_mem_of_isPadded rfl hname he.name.no_comma

theorem Writes.not_mem_comma (h : Writes ps es) : ∀ p ∈ ps, ',' ∉ p := by
  induction h with
  | nil => simp
  | blank hblank _ ih => exact List.forall_mem_cons.2 ⟨not_mem_allBlank rfl hblank, ih⟩
  | entry he hsaid _ ih => exact List.forall_mem_cons.2 ⟨hsaid.not_mem_comma he, ih⟩

theorem Writes.filterMap_eq (h : Writes ps es) : ps.filterMap ofPiece = es := by
  induction h with
  | nil => rfl
  | blank hblank _ ih =>
    have hskip : IsSkipped _ := .inl fun c hc => hblank c (List.takeWhile_subset _ hc)
    rw [List.filterMap_cons_none (ofPiece_eq_none_iff.2 hskip), ih]
  | entry he hsaid _ ih =>
    rw [List.filterMap_cons_some ((ofPiece_eq_some_iff (hsaid.not_mem_comma he)).2 ⟨he, hsaid⟩), ih]

/-- What is written down in pieces is read back. -/
theorem Writes.parseScript_eq (h : Writes ps es) (hscript : script.toList = join ps) :
    parseScript script = es := by
  unfold parseScript
  rw [hscript]
  cases ps with
  | nil =>
    cases h
    rfl
  | cons p ps => rw [pieces_join (List.cons_ne_nil p ps) h.not_mem_comma, h.filterMap_eq]

/-! ## Places -/

/-- Actions that stand at different positions of a script take place at different places, as long as
there are numbers for them. -/
theorem target_inj {p q : PlannedAction} {i j : Nat} (hi : i + 1 < UInt32.size)
    (hj : j + 1 < UInt32.size) (h : p.target i = q.target j) : i = j := by
  have hnumber : min (i + 1) (UInt32.size - 1) = min (j + 1) (UInt32.size - 1) :=
    LocationId.mk.inj (TargetRef.location.inj (Target.mk.inj h).1)
  omega

theorem play_eq_foldl (index : Nat) (s : Session) : Simulator.play index es s
    = (es.zipIdx index).foldl (fun s p => s.invoke (.ofName p.1.name (p.1.target p.2))) s := by
  induction es generalizing index s with
  | nil => rfl
  | cons e es ih => rw [Simulator.play, ih, List.zipIdx_cons, List.foldl_cons]

/-- What a script is read as. -/
structure ReadsAs (script : String) (es : List PlannedAction) : Prop where
  /-- Entries hold a name and a type, both without blanks around them and without commas, and the
  name without `@`. -/
  entries : ∀ e ∈ es, e.IsEntry
  /-- They are what the pieces between the commas say, in their order; the pieces that are skipped
  say nothing. -/
  pieces : ∃ ps, ps ≠ [] ∧ (∀ p ∈ ps, ',' ∉ p) ∧ script.toList = join ps ∧
    es = ps.filterMap ofPiece ∧
    ∀ p ∈ ps, (ofPiece p = none ↔ IsSkipped p) ∧ ∀ e, ofPiece p = some e ↔ e.IsEntry ∧ Says p e
  /-- What is written down is read back. -/
  written : ∀ ps wanted, Writes ps wanted → script.toList = join ps → es = wanted
  /-- The actions are invoked in this order, each at the place of its number among the entries. -/
  invoked : ∀ s, Simulator.play 0 es s
    = es.zipIdx.foldl (fun s p => s.invoke (.ofName p.1.name (p.1.target p.2))) s
  target_eq : ∀ i (e : PlannedAction), es[i]? = some e →
    e.target i = .location ⟨min (i + 1) (UInt32.size - 1)⟩ e.locationType
  /-- The places differ, as long as there are numbers for them. -/
  target_ne : es.length < UInt32.size → ∀ i j (e f : PlannedAction), es[i]? = some e →
    es[j]? = some f → i ≠ j → e.target i ≠ f.target j

/-- A script is read as the entries that its pieces say, and these are all that is written down in
it. -/
theorem parseScript_exact (script : String) : ReadsAs script (parseScript script) := by
  have hcomma : ∀ p ∈ Text.pieces ',' script.toList, ',' ∉ p :=
    fun p => Text.not_mem_of_mem_pieces
  have hjoin : script.toList = join (Text.pieces ',' script.toList) := by
    rw [join, Text.pieces_eq_splitOn, List.intercalate_splitOn]
  have hne : Text.pieces ',' script.toList ≠ [] := by
    rw [Text.pieces_eq_splitOn]
    exact List.splitOn_ne_nil ',' script.toList
  refine ⟨fun e he => ?_, ⟨_, hne, hcomma, hjoin, rfl, fun p hp =>
    ⟨ofPiece_eq_none_iff, fun e => ofPiece_eq_some_iff (hcomma p hp)⟩⟩,
    fun ps wanted hwrites hscript => hwrites.parseScript_eq hscript,
    fun s => play_eq_foldl 0 s, fun i e _ => rfl, fun hlength i j e f he hf hij heq => hij ?_⟩
  · obtain ⟨p, hp, he⟩ := List.mem_filterMap.1 he
    exact ((ofPiece_eq_some_iff (hcomma p hp)).1 he).1
  · obtain ⟨hi, -⟩ := List.getElem?_eq_some_iff.1 he
    obtain ⟨hj, -⟩ := List.getElem?_eq_some_iff.1 hf
    exact target_inj (by omega) (by omega) heq

example : parseScript " Bribe@ Palace,, @Docks,Collect Dues @a@b,Study" =
    [⟨"Bribe", "Palace"⟩, ⟨"Collect Dues", "a@b"⟩, ⟨"Study", "Square"⟩] := by cbv

end PlannedAction

end Deeds
