import Deeds.Line.Read
import Deeds.Proofs.Line.Lexicon
import Mathlib.Data.List.Chain
import Mathlib.Data.String.Basic

/-!
# The spacing of lines

A line is its tokens with blanks around them. Splitting it loses the blanks and nothing else, and no
reader of lines sees how wide they are, or whether there are any between an operator and a word.

* `Spaced` : a line is some tokens, set apart where two of the same class meet;
* `cuts` : where one pass over a line opens and closes tokens, in bytes;
* `spaced_iff` : the lines that are split into some tokens;
* `tokenize_exact` : what the tokens of a line are, and what depends on them alone.
-/

namespace Deeds.Line

variable {c : Char} {cs w last gap : List Char} {t : Token} {ts : List Token} {operator : Bool}
  {laid : List (List Char × Token)} {line : String}

/-! ## Classes -/

/-- The class of a character that belongs to a token: whether it is one of operators. -/
def classOf? (c : Char) : Option Bool :=
  if Text.isBlank c then none else some (isOperatorChar c)

/-- The class of a token. -/
def Token.isOperator : Token → Bool
  | .word _ => false
  | .operator _ => true

/-- A token of a class. -/
def Token.ofClass (operator : Bool) (text : String) : Token :=
  if operator then .operator text else .word text

theorem Token.ofClass_isOperator (t : Token) : Token.ofClass t.isOperator t.text = t := by
  cases t <;> rfl

theorem classOf?_eq_none_iff : classOf? c = none ↔ Text.isBlank c := by
  simp [classOf?]

theorem classOf?_eq_word_iff : classOf? c = some false ↔ isWordChar c := by
  simp [classOf?, isWordChar]

theorem classOf?_eq_operator_iff : classOf? c = some true ↔ isOperatorChar c := by
  refine ⟨fun h => ?_, fun h => ?_⟩
  · unfold classOf? at h
    split at h
    · cases h
    · exact Option.some.inj h
  · simp [classOf?, isBlank_of_isOperatorChar h, h]

/-- A token is a run of characters of its class, of at least one. -/
theorem Token.isWellFormed_iff :
    t.IsWellFormed ↔ t.text.toList ≠ [] ∧ ∀ c ∈ t.text.toList, classOf? c = some t.isOperator := by
  cases t <;>
    simp [Token.IsWellFormed, Token.text, Token.isOperator, classOf?_eq_word_iff,
      classOf?_eq_operator_iff]

/-- A text does not begin with a character of the class. -/
def EndsRun (operator : Bool) (cs : List Char) : Prop := ∀ c ∈ cs.head?, classOf? c ≠ some operator

theorem endsRun_blank (hc : Text.isBlank c) : EndsRun operator (c :: cs) := by
  rintro _ ⟨⟩
  simp [classOf?_eq_none_iff.2 hc]

theorem endsRun_word_iff : EndsRun false cs ↔ StopsAt isWordChar cs :=
  forall₂_congr fun _ _ => (not_congr classOf?_eq_word_iff).trans Bool.eq_false_iff.symm

theorem endsRun_operator_iff : EndsRun true cs ↔ StopsAt isOperatorChar cs :=
  forall₂_congr fun _ _ => (not_congr classOf?_eq_operator_iff).trans Bool.eq_false_iff.symm

/-- A run of characters of one class is a token, if it goes on as long as they do. -/
theorem tokens_run (hne : w ≠ []) (hw : ∀ c ∈ w, classOf? c = some operator)
    (hend : EndsRun operator cs) :
    tokens (w ++ cs) = Token.ofClass operator (String.ofList w) :: tokens cs := by
  cases operator with
  | false =>
    exact tokens_word hne (fun c hc => classOf?_eq_word_iff.1 (hw c hc)) (endsRun_word_iff.1 hend)
  | true =>
    exact tokens_operator hne (fun c hc => classOf?_eq_operator_iff.1 (hw c hc))
      (endsRun_operator_iff.1 hend)

theorem tokens_blanks (hgap : ∀ c ∈ gap, Text.isBlank c) : tokens (gap ++ cs) = tokens cs := by
  induction gap with
  | nil => rfl
  | cons c gap ih =>
    obtain ⟨hc, hgap⟩ := List.forall_mem_cons.1 hgap
    rw [List.cons_append, tokens_blank hc, ih hgap]

/-! ## Spacing -/

/-- The texts of tokens, each behind the gap it is paired with, and a gap at the end. -/
def layOut (laid : List (List Char × Token)) (last : List Char) : List Char :=
  laid.flatMap (fun p => p.1 ++ p.2.text.toList) ++ last

/-- Gaps hold blanks, and between two tokens of the same class at least one. -/
structure Separates (laid : List (List Char × Token)) (last : List Char) : Prop where
  blank : ∀ p ∈ laid, ∀ c ∈ p.1, Text.isBlank c
  blank_last : ∀ c ∈ last, Text.isBlank c
  apart : laid.IsChain fun p q => p.2.isOperator = q.2.isOperator → q.1 ≠ []

/-- A text is some tokens with gaps around them. -/
def Spaced (cs : List Char) (ts : List Token) : Prop :=
  ∃ laid last, laid.map Prod.snd = ts ∧ Separates laid last ∧ cs = layOut laid last

theorem layOut_cons : layOut ((gap, t) :: laid) last = gap ++ (t.text.toList ++ layOut laid last) := by
  simp [layOut]

theorem Separates.tail {p : List Char × Token} (h : Separates (p :: laid) last) :
    Separates laid last :=
  ⟨fun q hq => h.blank q (List.mem_cons_of_mem p hq), h.blank_last, h.apart.of_cons⟩

/-- Behind a token stands a blank or a token of the other class, if anything. -/
theorem Separates.endsRun (h : Separates ((gap, t) :: laid) last)
    (hwell : ∀ p ∈ laid, p.2.IsWellFormed) : EndsRun t.isOperator (layOut laid last) := by
  cases laid with
  | nil =>
    cases last with
    | nil => exact fun c hc => nomatch hc
    | cons c last => exact endsRun_blank (h.blank_last c List.mem_cons_self)
  | cons q laid =>
    obtain ⟨gap', t'⟩ := q
    rw [layOut_cons]
    cases gap' with
    | cons c gap' => exact endsRun_blank (h.tail.blank _ List.mem_cons_self c List.mem_cons_self)
    | nil =>
      have hclass : t.isOperator ≠ t'.isOperator := fun heq => h.apart.rel heq rfl
      obtain ⟨hne, hall⟩ := Token.isWellFormed_iff.1 (hwell _ List.mem_cons_self)
      obtain ⟨c, w, hw⟩ := List.exists_cons_of_ne_nil hne
      rw [hw] at hall ⊢
      rintro _ ⟨⟩ hc
      exact hclass (Option.some.inj (hc.symm.trans (hall c List.mem_cons_self)))

/-- Tokens that are laid out are read again. -/
theorem tokens_layOut (h : Separates laid last) (hwell : ∀ p ∈ laid, p.2.IsWellFormed) :
    tokens (layOut laid last) = laid.map Prod.snd := by
  induction laid with
  | nil =>
    have hlast : tokens (last ++ []) = tokens [] := tokens_blanks h.blank_last
    rw [List.append_nil] at hlast
    exact hlast.trans (by rw [tokens]; rfl)
  | cons p laid ih =>
    obtain ⟨gap, t⟩ := p
    obtain ⟨ht, hwell⟩ := List.forall_mem_cons.1 hwell
    obtain ⟨hne, hall⟩ := Token.isWellFormed_iff.1 ht
    rw [layOut_cons, tokens_blanks (h.blank _ List.mem_cons_self),
      tokens_run hne hall (h.endsRun hwell), String.ofList_toList, Token.ofClass_isOperator,
      ih h.tail hwell, List.map_cons]

/-- A layout loses no character but blanks. -/
theorem filter_layOut (h : Separates laid last) (hwell : ∀ p ∈ laid, p.2.IsWellFormed) :
    (layOut laid last).filter (fun c => !Text.isBlank c)
      = laid.flatMap fun p => p.2.text.toList := by
  have hblank {gap : List Char} (hgap : ∀ c ∈ gap, Text.isBlank c) :
      gap.filter (fun c => !Text.isBlank c) = [] :=
    List.filter_eq_nil_iff.2 fun c hc => by simp [hgap c hc]
  induction laid with
  | nil => exact hblank h.blank_last
  | cons p laid ih =>
    obtain ⟨gap, t⟩ := p
    obtain ⟨ht, hwell⟩ := List.forall_mem_cons.1 hwell
    have htext : t.text.toList.filter (fun c => !Text.isBlank c) = t.text.toList := by
      refine List.filter_eq_self.2 fun c hc => ?_
      have hclass := (Token.isWellFormed_iff.1 ht).2 c hc
      by_contra hnot
      rw [classOf?_eq_none_iff.2 (by simpa using hnot)] at hclass
      cases hclass
    rw [layOut_cons, List.filter_append, List.filter_append, htext, ih h.tail hwell,
      hblank (h.blank _ List.mem_cons_self), List.nil_append, List.flatMap_cons]

theorem spaced_nil : Spaced [] [] := ⟨[], [], rfl, ⟨by simp, by simp, .nil⟩, rfl⟩

/-- A blank may be put in front. -/
theorem Spaced.blank (h : Spaced cs ts) (hc : Text.isBlank c) : Spaced (c :: cs) ts := by
  obtain ⟨laid, last, rfl, hsep, rfl⟩ := h
  cases laid with
  | nil =>
    exact ⟨[], c :: last, rfl,
      ⟨by simp, List.forall_mem_cons.2 ⟨hc, hsep.blank_last⟩, .nil⟩, rfl⟩
  | cons p laid =>
    obtain ⟨gap, t⟩ := p
    obtain ⟨hgap, hblank⟩ := List.forall_mem_cons.1 hsep.blank
    refine ⟨(c :: gap, t) :: laid, last, rfl, ⟨?_, hsep.blank_last, ?_⟩, by simp [layOut_cons]⟩
    · exact List.forall_mem_cons.2 ⟨List.forall_mem_cons.2 ⟨hc, hgap⟩, hblank⟩
    · -- the gap in front of the first token is between no two tokens
      exact List.isChain_cons.2 (List.isChain_cons.1 hsep.apart)

/-- A token may be put in front of what ends its run. -/
theorem Spaced.token (h : Spaced cs ts) (hts : ∀ t ∈ ts, t.IsWellFormed)
    (hend : EndsRun t.isOperator cs) : Spaced (t.text.toList ++ cs) (t :: ts) := by
  obtain ⟨laid, last, rfl, hsep, rfl⟩ := h
  refine ⟨([], t) :: laid, last, rfl,
    ⟨List.forall_mem_cons.2 ⟨by simp, hsep.blank⟩, hsep.blank_last, ?_⟩, by simp [layOut_cons]⟩
  cases laid with
  | nil => exact .singleton _
  | cons q laid =>
    obtain ⟨gap, t'⟩ := q
    refine .cons_cons (fun hclass hgap => ?_) hsep.apart
    obtain ⟨hne, hall⟩ := Token.isWellFormed_iff.1 (hts t' List.mem_cons_self)
    obtain ⟨c, w, hw⟩ := List.exists_cons_of_ne_nil hne
    have hgap : gap = [] := hgap
    have hc : classOf? c = some t'.isOperator := hall c (by rw [hw]; exact List.mem_cons_self)
    rw [layOut_cons, hgap, hw] at hend
    exact hend c rfl (hc.trans (congrArg some hclass.symm))

theorem Spells.spaced (h : Spells cs ts) : Spaced cs ts := by
  induction h with
  | nil => exact spaced_nil
  | blank hc _ ih => exact ih.blank hc
  | @word w cs ts _ _ hend h ih =>
    have hw := ih.token (t := .word (String.ofList w)) (fun t => h.isWellFormed)
      (endsRun_word_iff.2 hend)
    rwa [Token.text, String.toList_ofList] at hw
  | @operator w cs ts _ _ hend h ih =>
    have hw := ih.token (t := .operator (String.ofList w)) (fun t => h.isWellFormed)
      (endsRun_operator_iff.2 hend)
    rwa [Token.text, String.toList_ofList] at hw

/-- The texts that are split into some tokens are these tokens with gaps around them. -/
theorem spaced_iff (hts : ∀ t ∈ ts, t.IsWellFormed) : Spaced cs ts ↔ tokens cs = ts := by
  constructor
  · rintro ⟨laid, last, rfl, hsep, rfl⟩
    exact tokens_layOut hsep fun p hp => hts _ (List.mem_map_of_mem hp)
  · rintro rfl
    exact (spells_tokens cs).spaced

/-! ## One pass over a line -/

/-- A run of characters of one class: where in a line it begins and ends, in bytes. -/
structure Cut where
  start : String.Pos.Raw
  stop : String.Pos.Raw
  isOperator : Bool

/-- The slice of a line that a cut takes, as a token. -/
def Cut.token (line : String) (cut : Cut) : Token :=
  .ofClass cut.isOperator (String.Pos.Raw.extract line cut.start cut.stop)

/-- The runs of what stands from a place on. A run may be open there: then its beginning and its
class are known. It is closed by a character of another class, or the end. -/
def cutsFrom (here : String.Pos.Raw) : Option (String.Pos.Raw × Bool) → List Char → List Cut
  | none, [] => []
  | some (start, operator), [] => [⟨start, here, operator⟩]
  | none, c :: cs => cutsFrom (here + c) ((classOf? c).map (here, ·)) cs
  | some (start, operator), c :: cs =>
    if classOf? c = some operator then cutsFrom (here + c) (some (start, operator)) cs
    else ⟨start, here, operator⟩ :: cutsFrom (here + c) ((classOf? c).map (here, ·)) cs

/-- The runs of a line. -/
def cuts (line : String) : List Cut := cutsFrom 0 none line.toList

/-- What stands in a line from a place on. -/
def StandsAt (line : String) (p : String.Pos.Raw) (cs : List Char) : Prop :=
  ∃ before, line.toList = before ++ cs ∧ p = ⟨String.utf8Len before⟩

variable {p q here : String.Pos.Raw} {pending : Option (String.Pos.Raw × Bool)}

theorem standsAt_zero (line : String) : StandsAt line 0 line.toList := ⟨[], rfl, rfl⟩

theorem StandsAt.next (h : StandsAt line p (c :: cs)) : StandsAt line (p + c) cs := by
  obtain ⟨before, hline, rfl⟩ := h
  refine ⟨before ++ [c], by simp [hline], String.Pos.Raw.ext ?_⟩
  simp [String.Pos.Raw.byteIdx_add_char]

/-- A place where a rest of the line stands is between two characters. -/
theorem StandsAt.isValid (h : StandsAt line p cs) : p.IsValid line := by
  obtain ⟨before, hline, rfl⟩ := h
  refine String.Pos.Raw.isValid_iff_exists_append.2
    ⟨String.ofList before, String.ofList cs, ?_, (String.rawEndPos_ofList before).symm⟩
  rw [← String.ofList_append, ← hline, String.ofList_toList]

theorem StandsAt.extract (hp : StandsAt line p (w ++ cs)) (hq : StandsAt line q cs) :
    String.Pos.Raw.extract line p q = String.ofList w := by
  obtain ⟨before, hline, rfl⟩ := hp
  obtain ⟨before', hline', rfl⟩ := hq
  have hbefore : before' = before ++ w := by
    rw [hline, ← List.append_assoc] at hline'
    exact (List.append_cancel_right hline').symm
  rw [← String.ofList_toList (s := line), hline, ← List.append_assoc, hbefore,
    String.utf8Len_append]
  exact String.extract_of_valid before w cs

/-- A text whose rest is still to be read: nothing of it is read yet, or a part of a run. -/
inductive Open (line : String) (rest : List Char) :
    Option (String.Pos.Raw × Bool) → List Char → Prop
  | closed : Open line rest none rest
  | run {start : String.Pos.Raw} {operator : Bool} {w : List Char} (hne : w ≠ [])
      (hw : ∀ c ∈ w, classOf? c = some operator) (hstart : StandsAt line start (w ++ rest)) :
      Open line rest (some (start, operator)) (w ++ rest)

/-- A character opens a run of its class, or none if it is blank. -/
theorem StandsAt.exists_open (h : StandsAt line here (c :: cs)) :
    ∃ text, Open line cs ((classOf? c).map (here, ·)) text ∧ tokens text = tokens (c :: cs) := by
  cases hclass : classOf? c with
  | none => exact ⟨cs, .closed, (tokens_blank (classOf?_eq_none_iff.1 hclass)).symm⟩
  | some operator => exact ⟨[c] ++ cs, .run (by simp) (by simpa using hclass) h, rfl⟩

/-- Both ends of a cut are between characters. -/
def Cut.IsValid (line : String) (cut : Cut) : Prop :=
  cut.start.IsValid line ∧ cut.stop.IsValid line

/-- One pass finds the tokens, whatever is open where it begins. -/
theorem cutsFrom_spec {text : List Char} (h : StandsAt line here cs)
    (hopen : Open line cs pending text) :
    (cutsFrom here pending cs).map (Cut.token line) = tokens text ∧
      ∀ cut ∈ cutsFrom here pending cs, cut.IsValid line := by
  -- the characters that are left; a run that is open stays in front of them until it is closed
  induction cs generalizing here pending text with
  | nil =>
    cases hopen with
    | closed => exact ⟨by rw [tokens]; rfl, by simp [cutsFrom]⟩
    | @run start operator w hne hw hstart =>
      refine ⟨?_, by simpa [cutsFrom] using ⟨hstart.isValid, h.isValid⟩⟩
      rw [tokens_run hne hw (by simp [EndsRun]), tokens]
      simp [cutsFrom, Cut.token, hstart.extract h]
  | cons c cs ih =>
    obtain ⟨next, hnext, htokens⟩ := h.exists_open
    obtain ⟨hmap, hvalid⟩ := ih h.next hnext
    cases hopen with
    | closed => exact ⟨hmap.trans htokens, hvalid⟩
    | @run start operator w hne hw hstart =>
      by_cases hclass : classOf? c = some operator
      · have hrun : Open line cs (some (start, operator)) ((w ++ [c]) ++ cs) :=
          .run (by simp) (by simpa [or_imp, forall_and] using ⟨hw, hclass⟩) (by simpa using hstart)
        rw [cutsFrom, if_pos hclass, List.append_cons w c cs]
        exact ih h.next hrun
      · have hend : EndsRun operator (c :: cs) := by
          rintro _ ⟨⟩
          exact hclass
        rw [cutsFrom, if_neg hclass]
        refine ⟨?_, List.forall_mem_cons.2 ⟨⟨hstart.isValid, h.isValid⟩, hvalid⟩⟩
        rw [List.map_cons, hmap, htokens, tokens_run hne hw hend, Cut.token, hstart.extract h]

/-! ## The tokens of a line -/

/-- What a line is split into, and what depends on the tokens alone. -/
structure Tokenizes (line : String) (ts : List Token) : Prop where
  /-- The line is the texts of the tokens, but for its blanks. -/
  lossless : ts.flatMap (fun t => t.text.toList) = line.toList.filter fun c => !Text.isBlank c
  /-- Each token is a run of at least one character, all of its own class. -/
  runs : ∀ t ∈ ts, t.IsWellFormed
  /-- Two neighbours of the same class stand apart in the line. -/
  apart : Spaced line.toList ts
  /-- The tokens are what one pass over the line cuts out of it, always between characters. -/
  slices : ts = (cuts line).map (Cut.token line) ∧ ∀ cut ∈ cuts line, cut.IsValid line
  /-- The lines with these tokens are these tokens with any gaps that keep them apart. -/
  spacing : ∀ other, Spaced other.toList ts ↔ tokenize other = ts
  /-- No reader tells them from each other, by what it reads or by its errors. -/
  readers : ∀ other, Spaced other.toList ts → readCondition other = readCondition line ∧
    readEffect other = readEffect line ∧ readTag other = readTag line

/-- Splitting a line loses its blanks and nothing else; its tokens are as long as they can be; and
whatever else the blanks were, the tokens and all that is read from them would be the same. -/
theorem tokenize_exact (line : String) : Tokenizes line (tokenize line) := by
  have hruns : ∀ t ∈ tokenize line, t.IsWellFormed := fun t => (spells_tokens _).isWellFormed
  have hspacing (other : String) : Spaced other.toList (tokenize line) ↔
      tokenize other = tokenize line := spaced_iff hruns
  have hspaced : Spaced line.toList (tokenize line) := (hspacing line).2 rfl
  have hclosed : Open line line.toList none line.toList := .closed
  obtain ⟨hcuts, hvalid⟩ := cutsFrom_spec (standsAt_zero line) hclosed
  refine ⟨?_, hruns, hspaced, ⟨hcuts.symm, hvalid⟩, hspacing, fun other hother => ?_⟩
  · obtain ⟨laid, last, hlaid, hsep, hline⟩ := hspaced
    rw [hline, filter_layOut hsep fun p hp => hruns _ (hlaid ▸ List.mem_map_of_mem hp), ← hlaid,
      List.flatMap_map]
  · have htokens := (hspacing other).1 hother
    unfold readCondition readEffect readTag
    rw [htokens]
    exact ⟨rfl, rfl, rfl⟩

end Deeds.Line
