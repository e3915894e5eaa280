import Deeds.Content.ActionFile
import Deeds.Proofs.Ron.Numerals
import Deeds.Proofs.Ron.Writing
import Mathlib.Data.List.Forall2

/-!
# Definitions survive being written

A definition is written as a record with its fields in any order; fields that have their defaults may
be left out. However that is done, and whatever stands between the tokens, it is read back as it was.

* `ActionFile.Key`, `ActionFile.States` : the fields of a definition, and what it says in them;
* `ActionFile.Entries`, `ActionFile.IsRecord` : fields that say all of a definition, and a record of
  them; `ActionFile.IsRecord.definition?_eq` : it is read as the definition;
* `ActionFile.Writes` : a text that writes definitions;
* `ActionFile.exists_writes` : there is such a text;
* `ActionFile.read_writes` : any such text is read as these definitions.
-/

namespace Deeds

namespace Definition

/-- Some lines of a definition. -/
def lines (d : Definition) : Field → List String
  | .types => d.types
  | .conditions => d.conditions
  | .effects => d.effects
  | .costs => d.costs

/-- Progress is not measured: the indicator is zero, and no gain is fixed. -/
structure IsPlain (d : Definition) : Prop where
  progressIndicator : d.progressIndicator = .zero
  fixedProgression : d.fixedProgression = none

end Definition

namespace ActionFile

open Ron (Value Token Numeral Zeros Written Writable Spells)

/-! ## Fields -/

/-- The fields of a definition. -/
inductive Key where
  | name
  | description
  | duration
  | targetNumber
  | progressIndicator
  | fixedProgression
  | lines (field : Definition.Field)
  deriving DecidableEq

/-- The name of a field. -/
def Key.text : Key → String
  | .name => "name"
  | .description => "description"
  | .duration => "duration"
  | .targetNumber => "target_number"
  | .progressIndicator => "progress_indicator"
  | .fixedProgression => "fixed_progression"
  | .lines field => field.name

/-- All fields. -/
def Key.all : List Key :=
  [.name, .description, .duration, .targetNumber, .progressIndicator, .fixedProgression,
    .lines .types, .lines .conditions, .lines .effects, .lines .costs]

/-- What a definition says in a field. Measured progress has no values here. -/
inductive States (d : Definition) : Key → Value → Prop
  | name : States d .name (.text d.name)
  | description : States d .description (.text d.description)
  | duration {w : String} (h : Numeral w.toList d.duration.toNat) : States d .duration (.number w)
  | targetNumber {w : String} (h : Numeral w.toList d.targetNumber.toNat) :
      States d .targetNumber (.number w)
  | progressIndicator {w : String} (hzero : d.progressIndicator = .zero) (h : Zeros w.toList) :
      States d .progressIndicator (.number w)
  | fixedProgression (hnone : d.fixedProgression = none) : States d .fixedProgression (.word "None")
  | lines (field : Definition.Field) : States d (.lines field) (.list ((d.lines field).map .text))

/-- The default of a field is what a definition says in it. The name has no default. -/
def IsDefault (d : Definition) : Key → Prop
  | .name => False
  | .description => d.description = ""
  | .duration => d.duration = 0
  | .targetNumber => d.targetNumber = 1
  | .progressIndicator => d.progressIndicator = .zero
  | .fixedProgression => d.fixedProgression = none
  | .lines field => d.lines field = []

/-- The fields of a record that writes a definition, in any order. -/
structure Entries (d : Definition) (entries : List (Key × Value)) : Prop where
  nodup : (entries.map Prod.fst).Nodup
  stated : ∀ e ∈ entries, States d e.1 e.2
  omitted : ∀ key, key ∉ entries.map Prod.fst → IsDefault d key

/-- A record with these fields. -/
def fieldsOf (entries : List (Key × Value)) : List (String × Value) :=
  entries.map fun e => (e.1.text, e.2)

/-- A record that writes a definition. -/
inductive IsRecord (d : Definition) : Value → Prop
  | mk {name : Option String} {entries : List (Key × Value)} (hname : ∀ n ∈ name, n = "ActionDefinition")
      (h : Entries d entries) : IsRecord d (.record name (fieldsOf entries))

/-- A text that writes definitions. -/
inductive Writes (ds : List Definition) (text : String) : Prop
  | mk {name : Option String} {vs : List Value} {ts : List Token} (hname : ∀ n ∈ name, n = "ActionFile")
      (hrecords : List.Forall₂ IsRecord ds vs)
      (hwritten : Written Ron.nestingLimit (.record name [("actions", .list vs)]) ts)
      (hspells : Spells text.toList ts) : Writes ds text

/-! ## Reading -/

variable {d : Definition} {ds : List Definition} {key : Key} {v : Value} {vs : List Value}
  {entries : List (Key × Value)}

theorem Key.mem_all (key : Key) : key ∈ Key.all := by
  cases key with
  | lines field => cases field <;> decide
  | _ => decide

theorem Key.text_injective {a b : Key} (h : a.text = b.text) : a = b := by
  have hall : ∀ a ∈ Key.all, ∀ b ∈ Key.all, a.text = b.text → a = b := by decide
  exact hall a a.mem_all b b.mem_all h

theorem filter_fieldsOf (entries : List (Key × Value)) (key : Key) :
    (fieldsOf entries).filter (·.1 == key.text) = fieldsOf (entries.filter (·.1 = key)) := by
  rw [fieldsOf, List.filter_map]
  refine congrArg _ (List.filter_congr fun e _ => ?_)
  rw [Function.comp_apply, Bool.eq_iff_iff, beq_iff_eq, decide_eq_true_eq]
  exact ⟨Key.text_injective, congrArg Key.text⟩

theorem filter_eq_nil (h : key ∉ entries.map Prod.fst) : entries.filter (·.1 = key) = [] := by
  refine List.filter_eq_nil_iff.2 fun e he hkey => h ?_
  exact List.mem_map.2 ⟨e, he, of_decide_eq_true hkey⟩

theorem unique?_of_notMem (h : key ∉ entries.map Prod.fst) :
    unique? (fieldsOf entries) key.text = some none := by
  rw [unique?, filter_fieldsOf, filter_eq_nil h]
  rfl

theorem unique?_of_mem (hnodup : (entries.map Prod.fst).Nodup) (h : (key, v) ∈ entries) :
    unique? (fieldsOf entries) key.text = some (some v) := by
  have hfilter : entries.filter (·.1 = key) = [(key, v)] := by
    induction entries with
    | nil => cases h
    | cons e entries ih =>
      obtain ⟨hfresh, hnodup⟩ := List.nodup_cons.1 hnodup
      obtain rfl | h := List.mem_cons.1 h
      · rw [List.filter_cons_of_pos (by simp), filter_eq_nil hfresh]
      · have hne : e.1 ≠ key := by
          rintro rfl
          exact hfresh (List.mem_map.2 ⟨_, h, rfl⟩)
        rw [List.filter_cons_of_neg (by simpa using hne), ih hnodup h]
  rw [unique?, filter_fieldsOf, hfilter]
  rfl

section Fields

variable {α : Type} {a default : α} {decode : Value → Option α}

/-- A field is found where it stands, and has its default where it does not. -/
theorem Entries.fieldOr_eq (h : Entries d entries) (key : Key)
    (hstates : ∀ v, States d key v → decode v = some a)
    (hdefault : IsDefault d key → default = a) :
    fieldOr (fieldsOf entries) key.text default decode = some a := by
  by_cases hkey : key ∈ entries.map Prod.fst
  · obtain ⟨⟨_, v⟩, hmem, rfl⟩ := List.mem_map.1 hkey
    rw [fieldOr, unique?_of_mem h.nodup hmem]
    exact hstates v (h.stated _ hmem)
  · rw [fieldOr, unique?_of_notMem hkey]
    exact congrArg some (hdefault (h.omitted key hkey))

/-- A field without a default is there. -/
theorem Entries.required_eq (h : Entries d entries) (key : Key)
    (hstates : ∀ v, States d key v → decode v = some a)
    (hdefault : ¬IsDefault d key) : required (fieldsOf entries) key.text decode = some a := by
  have hkey : key ∈ entries.map Prod.fst := Classical.byContradiction fun hkey =>
    hdefault (h.omitted key hkey)
  obtain ⟨⟨_, v⟩, hmem, rfl⟩ := List.mem_map.1 hkey
  rw [required, unique?_of_mem h.nodup hmem]
  exact hstates v (h.stated _ hmem)

end Fields

theorem lines?_eq (lines : List String) : lines? (.list (lines.map .text)) = some lines := by
  rw [lines?]
  induction lines with
  | nil => rfl
  | cons line lines ih => simp [ih, text?]

theorem fields?_eq {name : Option String} {expected : String} {fields : List (String × Value)}
    (hname : ∀ n ∈ name, n = expected) : fields? [] expected (.record name fields) = some fields := by
  cases name with
  | none => rfl
  | some n => exact if_pos (hname n rfl)

/-- A record is read as the definition that it writes. -/
theorem IsRecord.definition?_eq (h : IsRecord d v) : definition? [] v = some d := by
  obtain @⟨name, entries, hname, h⟩ := h
  have hname' : required (fieldsOf entries) "name" text? = some d.name :=
    h.required_eq .name (fun _ hstates => by cases hstates; rfl) id
  have hdescription : fieldOr (fieldsOf entries) "description" "" text? = some d.description :=
    h.fieldOr_eq .description (fun _ hstates => by cases hstates; rfl) Eq.symm
  have hduration : fieldOr (fieldsOf entries) "duration" 0 natural32? = some d.duration :=
    h.fieldOr_eq .duration (fun _ hstates => by
      cases hstates with | duration h => exact h.natural32?_eq) Eq.symm
  have htarget : fieldOr (fieldsOf entries) "target_number" 1 natural32? = some d.targetNumber :=
    h.fieldOr_eq .targetNumber (fun _ hstates => by
      cases hstates with | targetNumber h => exact h.natural32?_eq) Eq.symm
  have hindicator : fieldOr (fieldsOf entries) "progress_indicator" .zero binary32? =
      some d.progressIndicator :=
    h.fieldOr_eq .progressIndicator (fun _ hstates => by
      cases hstates with | progressIndicator hzero h => exact hzero ▸ h.binary32?_eq) Eq.symm
  have hfixed : fieldOr (fieldsOf entries) "fixed_progression" none (optional32? []) =
      some d.fixedProgression :=
    h.fieldOr_eq .fixedProgression (fun _ hstates => by
      cases hstates with | fixedProgression hnone => exact hnone ▸ rfl) Eq.symm
  have hlines (field : Definition.Field) :
      fieldOr (fieldsOf entries) field.name [] lines? = some (d.lines field) :=
    h.fieldOr_eq (.lines field) (fun _ hstates => by
      cases hstates; exact lines?_eq _) Eq.symm
  have htypes : fieldOr (fieldsOf entries) "types" [] lines? = some d.types := hlines .types
  have hconditions : fieldOr (fieldsOf entries) "conditions" [] lines? = some d.conditions :=
    hlines .conditions
  have heffects : fieldOr (fieldsOf entries) "effects" [] lines? = some d.effects := hlines .effects
  have hcosts : fieldOr (fieldsOf entries) "costs" [] lines? = some d.costs := hlines .costs
  simp only [definition?, fields?_eq hname, hname', hdescription, hduration, htarget, hindicator,
    hfixed, htypes, hconditions, heffects, hcosts, Option.bind_eq_bind, Option.bind_some]

theorem mapM_definition? (h : List.Forall₂ IsRecord ds vs) : vs.mapM (definition? []) = some ds := by
  induction h with
  | nil => rfl
  | cons hd _ ih => simp [hd.definition?_eq, ih]

theorem ofDocument_eq {name : Option String} (hname : ∀ n ∈ name, n = "ActionFile")
    (h : List.Forall₂ IsRecord ds vs) :
    ofDocument ⟨[], .record name [("actions", .list vs)]⟩ = some ds := by
  have hunique : unique? [("actions", .list vs)] "actions" = some (some (.list vs)) := rfl
  simp [ofDocument, fields?_eq hname, required, hunique, mapM_definition? h]

theorem Writes.read_eq {text : String} (h : Writes ds text) : read text = some ds := by
  obtain ⟨hname, hrecords, hwritten, hspells⟩ := h
  rw [read, Ron.Document.read_eq hspells hwritten]
  exact ofDocument_eq hname hrecords

/-! ## Writing -/

theorem Key.isWord (key : Key) : Ron.IsWord key.text.toList := by
  cases key with
  | lines field => cases field <;> exact Ron.isWord_cons rfl rfl (by decide)
  | _ => exact Ron.isWord_cons rfl rfl (by decide)

theorem exists_states (h : d.IsPlain) (key : Key) (n : Nat) :
    ∃ v, States d key v ∧ Writable (n + 2) v := by
  have htext (s : String) {n : Nat} : Writable n (.text s) := (Ron.Atom.text s).writable trivial
  have hnumber (v : UInt32) : ∃ w, Numeral w.toList v.toNat ∧ Writable (n + 2) (.number w) := by
    obtain ⟨w, hw, hnumeric⟩ := Ron.exists_numeral v.toNat
    exact ⟨w, hw, (Ron.Atom.number hw.isNumber).writable hnumeric⟩
  cases key with
  | name => exact ⟨_, .name, htext _⟩
  | description => exact ⟨_, .description, htext _⟩
  | duration =>
    obtain ⟨w, hw, hwritable⟩ := hnumber d.duration
    exact ⟨_, .duration hw, hwritable⟩
  | targetNumber =>
    obtain ⟨w, hw, hwritable⟩ := hnumber d.targetNumber
    exact ⟨_, .targetNumber hw, hwritable⟩
  | progressIndicator =>
    have hzeros : Zeros "0".toList := .whole 0
    exact ⟨_, .progressIndicator h.progressIndicator hzeros, (Ron.Atom.number hzeros.isNumber).writable
      ⟨'0', [], rfl, rfl, nofun⟩⟩
  | fixedProgression =>
    exact ⟨_, .fixedProgression h.fixedProgression, (Ron.Atom.word rfl).writable
      (Ron.isWord_cons rfl rfl (by decide))⟩
  | lines field =>
    refine ⟨_, .lines field, Ron.writable_list fun v hv => ?_⟩
    obtain ⟨line, -, rfl⟩ := List.mem_map.1 hv
    exact htext line

/-- A definition without measured progress is written by a record with all fields. -/
theorem exists_isRecord (h : d.IsPlain) (n : Nat) : ∃ v, IsRecord d v ∧ Writable (n + 4) v := by
  choose valueOf hstates hwritable using fun key => exists_states h key n
  let entries := Key.all.map fun key => (key, valueOf key)
  have hkeys : entries.map Prod.fst = Key.all := by
    rw [List.map_map]
    exact List.map_id _
  have hentries : Entries d entries := by
    refine ⟨hkeys ▸ by decide, ?_, fun key hkey => absurd key.mem_all (hkeys ▸ hkey)⟩
    rintro _ he
    obtain ⟨key, -, rfl⟩ := List.mem_map.1 he
    exact hstates key
  refine ⟨.record none (fieldsOf entries), .mk nofun hentries, Ron.writable_record nofun ?_⟩
  intro f hf
  obtain ⟨e, he, rfl⟩ := List.mem_map.1 hf
  obtain ⟨key, -, rfl⟩ := List.mem_map.1 he
  exact ⟨key.isWord, hwritable key⟩

theorem exists_isRecords (h : ∀ d ∈ ds, d.IsPlain) (n : Nat) :
    ∃ vs, List.Forall₂ IsRecord ds vs ∧ ∀ v ∈ vs, Writable (n + 4) v := by
  induction ds with
  | nil => exact ⟨[], .nil, nofun⟩
  | cons d ds ih =>
    obtain ⟨hd, hds⟩ := List.forall_mem_cons.1 h
    obtain ⟨v, hv, hwritable⟩ := exists_isRecord hd n
    obtain ⟨vs, hvs, hwritables⟩ := ih hds
    exact ⟨v :: vs, .cons hv hvs, List.forall_mem_cons.2 ⟨hwritable, hwritables⟩⟩

/-- Definitions without measured progress can be written. -/
theorem exists_writes (h : ∀ d ∈ ds, d.IsPlain) : ∃ text, Writes ds text := by
  obtain ⟨vs, hrecords, hvs⟩ := exists_isRecords h 120
  have hactions : Ron.IsWord "actions".toList := Ron.isWord_cons rfl rfl (by decide)
  have hname : ∀ n ∈ (none : Option String), n = "ActionFile" := nofun
  have hdocument : Writable Ron.nestingLimit (.record none [("actions", .list vs)]) := by
    refine Ron.writable_record nofun fun f hf => ?_
    obtain rfl := List.mem_singleton.1 hf
    exact ⟨hactions, Ron.writable_list hvs⟩
  obtain ⟨ts, hwritten, hspellable⟩ := hdocument
  obtain ⟨cs, hspells⟩ := Ron.exists_spells hspellable
  rw [← String.toList_ofList (l := cs)] at hspells
  exact ⟨String.ofList cs, .mk hname hrecords hwritten hspells⟩

/-! ## Survival -/

/-- Definitions without measured progress can be written, and however that is done they are read back
as they were, in the same order. -/
theorem read_writes (ds : List Definition) (h : ∀ d ∈ ds, d.IsPlain) :
    (∃ text, Writes ds text) ∧ ∀ text, Writes ds text → read text = some ds :=
  ⟨exists_writes h, fun _ hwrites => hwrites.read_eq⟩

/-- A definition with a name and a line that need no escapes. -/
def dues : Definition := { name := "é", duration := 7, costs := ["A"] }

/-- A text with comments and escapes, and a comma behind every last item. -/
def duesText : String :=
  "(actions:[/*/**/*/(costs:[\"\\u\x7b41\x7d\",],\nname :\"\\xc3\\xa9\",duration:0_7,),],)// end"

/-- The fields of that text. -/
def duesEntries : List (Key × Value) :=
  [(.lines .costs, .list [.text "A"]), (.name, .text "é"), (.duration, .number "0_7")]

/-- The tokens of that text. -/
def duesTokens : List Token :=
  [.mark .openParen, .word "actions", .mark .colon, .mark .openBracket, .mark .openParen,
    .word "costs", .mark .colon, .mark .openBracket, .text "A", .mark .comma, .mark .closeBracket,
    .mark .comma, .word "name", .mark .colon, .text "é", .mark .comma, .word "duration", .mark .colon,
    .number "0_7", .mark .comma, .mark .closeParen, .mark .comma, .mark .closeBracket, .mark .comma,
    .mark .closeParen]

theorem spells_duesText : Spells duesText.toList duesTokens := by
  have hactions : Ron.IsWord "actions".toList := Ron.isWord_cons rfl rfl (by decide)
  have hcode : Ron.WritesIn 16 ['4', '1'] 'A'.toNat :=
    Ron.writesIn_pair rfl rfl rfl (by decide) (by decide)
  have hline : Ron.Quotes "\\u\x7b41\x7d".toList ['A'] :=
    .escape (.codePoint (c := 'A') (by decide) (by decide) hcode) .nil
  have hfirst : Ron.WritesIn 16 ['c', '3'] (0xc3 : UInt8).toNat :=
    Ron.writesIn_pair rfl rfl rfl (by decide) (by decide)
  have hsecond : Ron.WritesIn 16 ['a', '9'] (0xa9 : UInt8).toNat :=
    Ron.writesIn_pair rfl rfl rfl (by decide) (by decide)
  have hname : Ron.Quotes "\\xc3\\xa9".toList ['é'] :=
    .escape (.bytes (c := 'é') (.cons hfirst (.last hsecond))) .nil
  have hseven : Ron.IsNumeric "0_7".toList := ⟨_, _, rfl, rfl, List.all_eq_true.1 rfl⟩
  have hend : Spells ",duration:0_7,),],)// end".toList
      [.mark .comma, .word "duration", .mark .colon, .number "0_7", .mark .comma, .mark .closeParen,
        .mark .comma, .mark .closeBracket, .mark .comma, .mark .closeParen] :=
    .mark .comma <| .word Key.duration.isWord (Ron.stopsAt_cons rfl) <| .mark .colon <|
      .number hseven (Ron.stopsAt_cons rfl) <| .mark .comma <| .mark .closeParen <| .mark .comma <|
      .mark .closeBracket <| .mark .comma <| .mark .closeParen <| .lastComment (by decide)
  exact .mark .openParen <| .word hactions (Ron.stopsAt_cons rfl) <| .mark .colon <|
    .mark .openBracket <| .blockComment (.nested .close .close) <| .mark .openParen <|
    .word (Key.lines .costs).isWord (Ron.stopsAt_cons rfl) <| .mark .colon <| .mark .openBracket <|
    .text hline <| .mark .comma <| .mark .closeBracket <| .mark .comma <| .blank rfl <|
    .word Key.name.isWord (Ron.stopsAt_cons rfl) <| .blank rfl <| .mark .colon <| .text hname hend

theorem writes_duesText : Writes [dues] duesText := by
  have hdigits : Ron.WritesIn 10 ['0', '7'] 7 := Ron.writesIn_pair rfl rfl rfl (by decide) (by decide)
  have hseven : Numeral "0_7".toList 7 := .bare (.decimal ⟨⟨_, _, rfl, by decide⟩, hdigits⟩)
  have hnumber : Ron.isNumber "0_7" := Numeral.isNumber (v := 7) hseven
  have hentries : Entries dues duesEntries := by
    refine ⟨by decide, ?_, fun key hkey => ?_⟩
    · simp only [duesEntries, List.forall_mem_cons]
      exact ⟨.lines .costs, .name, .duration hseven, nofun⟩
    · cases key with
      | lines field => cases field <;> first | rfl | exact absurd hkey (by decide)
      | _ => first | rfl | exact absurd hkey (by decide)
  have hname (expected : String) : ∀ n ∈ (none : Option String), n = expected := nofun
  have hrecord : Written 124 (.record none (fieldsOf duesEntries)) _ :=
    .record (by decide) (.cons (.mk (.list (.cons (.atom (.text "A")) .nil))) <|
      .cons (.mk (.atom (.text "é"))) <| .cons (.mk (.atom (.number hnumber))) .nil)
  have hlist : Written 126 (.list [.record none (fieldsOf duesEntries)]) _ := .list (.cons hrecord .nil)
  have hdocument :
      Written 128 (.record none [("actions", .list [.record none (fieldsOf duesEntries)])]) duesTokens :=
    .record (by decide) (.cons (.mk hlist) .nil)
  exact .mk (hname _) (.cons (.mk (hname _) hentries) .nil) hdocument spells_duesText

/-- A text with comments and escapes writes a definition, and is read as it. -/
theorem read_duesText : (∀ d ∈ [dues], d.IsPlain) ∧ Writes [dues] duesText ∧
    read duesText = some [dues] := by
  have hplain : ∀ d ∈ [dues], d.IsPlain := List.forall_mem_singleton.2 ⟨rfl, rfl⟩
  exact ⟨hplain, writes_duesText, (read_writes [dues] hplain).2 duesText writes_duesText⟩

end ActionFile

end Deeds
