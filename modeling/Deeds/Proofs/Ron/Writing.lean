import Deeds.Ron.Value
import Deeds.Proofs.Ron.Spelling

/-!
# Writing values of the object notation

The tokens that write a value: texts, numbers and names, lists and records, with a comma between two
items and perhaps another one behind the last.

* `Separated` : tokens of items with commas between them;
* `Written` : tokens of a value that is nested only so deep;
* `Written.reads` : they are read as the value, whatever follows;
* `Document.read_eq` : a text that spells them is a document of the value.
-/

namespace Deeds.Ron

variable {α : Type} {Item : Value → List Token → Prop} {as : List α} {v : Value}
  {vs : List Value} {t : Token} {ts : List Token} {n : Nat} {b : Bool}

/-! ## Values -/

/-- Items with a comma behind each of them, or behind each but the last. -/
inductive Separated {α : Type} (Item : α → List Token → Prop) : List α → List Token → Prop
  | nil : Separated Item [] []
  | last {a : α} {ts : List Token} (h : Item a ts) : Separated Item [a] ts
  | cons {a : α} {as : List α} {ts rest : List Token} (h : Item a ts) (hrest : Separated Item as rest) :
      Separated Item (a :: as) (ts ++ .mark .comma :: rest)

/-- A field is a name, a colon and a value. -/
inductive Field (Item : Value → List Token → Prop) : String × Value → List Token → Prop
  | mk {key : String} {v : Value} {ts : List Token} (h : Item v ts) :
      Field Item (key, v) (.word key :: .mark .colon :: ts)

/-- A value without parts is one token. -/
inductive Atom : Value → List Token → Prop
  | text (content : String) : Atom (.text content) [.text content]
  | number {written : String} (h : isNumber written) : Atom (.number written) [.number written]
  | word {name : String} (h : isReserved name) : Atom (.word name) [.word name]

/-- A value whose parts are written as items: a list in brackets, or a record in parentheses, perhaps
with its name in front. -/
inductive Compound (Item : Value → List Token → Prop) : Value → List Token → Prop
  | atom {v : Value} {ts : List Token} (h : Atom v ts) : Compound Item v ts
  | list {vs : List Value} {ts : List Token} (h : Separated Item vs ts) :
      Compound Item (.list vs) (.mark .openBracket :: (ts ++ [.mark .closeBracket]))
  | record {fields : List (String × Value)} {ts : List Token} (hne : fields ≠ [])
      (h : Separated (Field Item) fields ts) :
      Compound Item (.record none fields) (.mark .openParen :: (ts ++ [.mark .closeParen]))
  | namedRecord {name : String} {fields : List (String × Value)} {ts : List Token}
      (hname : valueNames.contains name = false) (hne : fields ≠ [])
      (h : Separated (Field Item) fields ts) :
      Compound Item (.record (some name) fields)
        (.word name :: .mark .openParen :: (ts ++ [.mark .closeParen]))

/-- A value that is nested only so deep. Brackets use up one level, and each part another. -/
def Written : Nat → Value → List Token → Prop
  | 0 => Atom
  | 1 => Compound fun _ _ => False
  | n + 2 => Compound (Written n)

/-! ## Reading what is written -/

/-- The first token of an item: no mark but an opening one. -/
def Begins (ts : List Token) : Prop :=
  ∃ t rest, ts = t :: rest ∧ ∀ m, t = .mark m → m = .openParen ∨ m = .openBracket

/-- Tokens are read as an item, whatever follows. -/
structure Reads (item : Reader α) (a : α) (ts : List Token) : Prop where
  begins : Begins ts
  read : ∀ rest, item (ts ++ rest) = some (a, rest)

section Items

variable {Item : α → List Token → Prop} {item : Reader α} {close : Mark}

/-- The mark that ends some items does not begin one. -/
theorem Begins.exists_cons (h : Begins ts) (hclose : close ≠ .openParen ∧ close ≠ .openBracket) :
    ∃ t rest, ts = t :: rest ∧ t ≠ .mark close := by
  obtain ⟨t, rest, rfl, ht⟩ := h
  refine ⟨t, rest, rfl, ?_⟩
  rintro rfl
  exact (ht close rfl).elim hclose.1 hclose.2

theorem sepBy_eq (hclose : close ≠ .openParen ∧ close ≠ .openBracket) (hcomma : close ≠ .comma)
    (hitem : ∀ a ts, Item a ts → Reads item a ts) (h : Separated Item as ts) (hn : ts.length < n)
    (rest : List Token) : sepBy close item n (ts ++ .mark close :: rest) = some (as, rest) := by
  induction h generalizing n with
  | nil =>
    obtain ⟨n, rfl⟩ := Nat.exists_eq_add_one.2 hn
    simp [sepBy]
  | @last a ts h =>
    obtain ⟨t, more, rfl, ht⟩ := (hitem a ts h).begins.exists_cons hclose
    obtain ⟨n, rfl⟩ := Nat.exists_eq_add_one.2 (Nat.zero_lt_of_lt hn)
    have hread := (hitem a _ h).read (.mark close :: rest)
    rw [List.cons_append] at hread ⊢
    rw [sepBy, if_neg ht, hread]
    simp [hcomma]
  | @cons a as ts more h _ ih =>
    obtain ⟨t, ts, rfl, ht⟩ := (hitem a ts h).begins.exists_cons hclose
    obtain ⟨n, rfl⟩ := Nat.exists_eq_add_one.2 (Nat.zero_lt_of_lt hn)
    have hread := (hitem a _ h).read (.mark .comma :: (more ++ .mark close :: rest))
    rw [List.append_assoc, List.cons_append, List.cons_append]
    rw [List.cons_append] at hread
    have hmore : more.length < n := by grind
    rw [sepBy, if_neg ht, hread]
    simp [ih hmore]

/-- Items are read up to the closing mark. -/
theorem items_eq (hclose : close ≠ .openParen ∧ close ≠ .openBracket) (hcomma : close ≠ .comma)
    (hitem : ∀ a ts, Item a ts → Reads item a ts) (h : Separated Item as ts) (rest : List Token) :
    items close item (ts ++ .mark close :: rest) = some (as, rest) :=
  sepBy_eq hclose hcomma hitem h (by simp) rest

end Items

variable {item inner : Reader Value}

theorem Atom.reads (h : Atom v ts) : Reads atom v ts := by
  cases h with
  | text content => exact ⟨⟨_, _, rfl, nofun⟩, fun _ => rfl⟩
  | number h => exact ⟨⟨_, _, rfl, nofun⟩, fun _ => if_pos h⟩
  | @word name h =>
    have hsome : name ≠ "Some" := by rintro rfl; cases h
    exact ⟨⟨_, _, rfl, nofun⟩, fun _ => if_neg hsome⟩

theorem Field.reads (hitem : ∀ v ts, Item v ts → Reads item v ts) {entry : String × Value}
    (h : Field Item entry ts) : Reads (field item) entry ts := by
  obtain ⟨h⟩ := h
  refine ⟨⟨_, _, rfl, nofun⟩, fun rest => ?_⟩
  rw [List.cons_append, List.cons_append, field, (hitem _ _ h).read]
  rfl

/-- What begins with a field is a record. -/
theorem group_eq {name : Option String} {fields : List (String × Value)} (hne : fields ≠ [])
    (hitem : ∀ v ts, Item v ts → Reads item v ts) (h : Separated (Field Item) fields ts)
    (rest : List Token) :
    group name item (ts ++ .mark .closeParen :: rest) = some (.record name fields, rest) := by
  have hclose : Mark.closeParen ≠ .openParen ∧ Mark.closeParen ≠ .openBracket := by decide
  have hitems := items_eq hclose (by decide) (fun _ _ => Field.reads hitem) h rest
  obtain ⟨key, more, rfl⟩ : ∃ key more, ts = .word key :: .mark .colon :: more := by
    cases h with
    | nil => exact absurd rfl hne
    | last h => obtain ⟨h⟩ := h; exact ⟨_, _, rfl⟩
    | cons h _ => obtain ⟨h⟩ := h; exact ⟨_, _, rfl⟩
  rw [List.cons_append, List.cons_append] at hitems ⊢
  rw [group, hitems]
  rfl

theorem Atom.compound_eq (h : Atom v ts) (rest : List Token) :
    compound b item inner (ts ++ rest) = some (v, rest) := by
  cases h with
  | text content => rfl
  | number h => exact if_pos h
  | @word name h =>
    have hsome : name ≠ "Some" := by rintro rfl; cases h
    show compound b item inner (.word name :: rest) = _
    unfold compound
    split
    next heq => cases heq; exact absurd rfl hsome
    next heq => cases heq; exact if_pos h
    next heq => cases heq
    next heq => cases heq
    next heq => cases heq
    next => exact if_neg hsome

theorem Compound.reads (hitem : ∀ v ts, Item v ts → Reads item v ts) (h : Compound Item v ts) :
    Reads (compound b item inner) v ts := by
  cases h with
  | atom h => exact ⟨h.reads.begins, h.compound_eq⟩
  | @list vs ts h =>
    refine ⟨⟨_, _, rfl, by rintro _ ⟨⟩; simp⟩, fun rest => ?_⟩
    have hclose : Mark.closeBracket ≠ .openParen ∧ Mark.closeBracket ≠ .openBracket := by decide
    rw [List.cons_append, List.append_assoc]
    show (items .closeBracket item (ts ++ .mark .closeBracket :: rest)).map _ = _
    rw [items_eq hclose (by decide) hitem h]
    rfl
  | @record fields ts hne h =>
    refine ⟨⟨_, _, rfl, by rintro _ ⟨⟩; simp⟩, fun rest => ?_⟩
    rw [List.cons_append, List.append_assoc]
    exact group_eq hne hitem h rest
  | @namedRecord name fields ts hname hne h =>
    refine ⟨⟨_, _, rfl, nofun⟩, fun rest => ?_⟩
    have hsome : name ≠ "Some" := by rintro rfl; cases hname
    have hreserved : ¬isReserved name := by simpa [isReserved] using fun _ => hname
    rw [List.cons_append, List.cons_append, List.append_assoc, compound_name hsome,
      if_neg hreserved]
    exact group_eq hne hitem h rest

/-- A value is read from the tokens that write it. -/
theorem Written.reads :
    ∀ {n : Nat} {v : Value} {ts : List Token}, Written n v ts → Reads (value b n) v ts
  | 0, _, _, h => Atom.reads h
  | 1, _, _, h => Compound.reads nofun h
  | _ + 2, _, _, h => Compound.reads (fun _ _ => Written.reads) h

/-- A text that spells the tokens of a value is a document of it. -/
theorem Document.read_eq {text : String} (hspells : Spells text.toList ts)
    (h : Written nestingLimit v ts) : Document.read text = some ⟨[], v⟩ := by
  have hreads : Reads (Ron.value false nestingLimit) v ts := h.reads
  have hattributes : attributes ts.length ts = some ([], ts) := by
    obtain ⟨t, rest, rfl, ht⟩ := hreads.begins
    have hhash : t ≠ .mark .hash := fun heq => by simpa using ht .hash heq
    rw [List.length_cons, attributes, attribute?]
    rintro ts ⟨⟩
    exact hhash rfl
  have hvalue := hreads.read []
  rw [List.append_nil] at hvalue
  simp [Document.read, hspells.tokenize_eq, hattributes, hvalue]

/-! ## Values that can be written -/

/-- Tokens that can be spelled. -/
def Spellable (ts : List Token) : Prop := ∀ t ∈ ts, t.IsWellFormed

/-- A value that can be written with tokens that can be spelled. -/
def Writable (n : Nat) (v : Value) : Prop := ∃ ts, Written n v ts ∧ Spellable ts

theorem spellable_append {rest : List Token} (hts : Spellable ts) (hrest : Spellable rest) :
    Spellable (ts ++ rest) := List.forall_mem_append.2 ⟨hts, hrest⟩

theorem spellable_cons (ht : t.IsWellFormed) (hts : Spellable ts) : Spellable (t :: ts) :=
  List.forall_mem_cons.2 ⟨ht, hts⟩

theorem exists_separated {Item : α → List Token → Prop}
    (h : ∀ a ∈ as, ∃ ts, Item a ts ∧ Spellable ts) : ∃ ts, Separated Item as ts ∧ Spellable ts := by
  induction as with
  | nil => exact ⟨[], .nil, nofun⟩
  | cons a as ih =>
    obtain ⟨⟨ts, hts, hspell⟩, has⟩ := List.forall_mem_cons.1 h
    obtain ⟨rest, hrest, hspells⟩ := ih has
    exact ⟨_, .cons hts hrest, spellable_append hspell (spellable_cons trivial hspells)⟩

theorem Atom.writable (h : Atom v [t]) (ht : t.IsWellFormed) : Writable n v := by
  refine ⟨[t], ?_, spellable_cons ht nofun⟩
  match n with
  | 0 => exact h
  | 1 => exact .atom h
  | n + 2 => exact .atom h

theorem writable_list (h : ∀ v ∈ vs, Writable n v) : Writable (n + 2) (.list vs) := by
  obtain ⟨ts, hts, hspell⟩ := exists_separated h
  exact ⟨_, .list hts, spellable_cons trivial (spellable_append hspell (spellable_cons trivial nofun))⟩

theorem writable_record {fields : List (String × Value)} (hne : fields ≠ [])
    (h : ∀ f ∈ fields, IsWord f.1.toList ∧ Writable n f.2) : Writable (n + 2) (.record none fields) := by
  have hfields : ∀ f ∈ fields, ∃ ts, Field (Written n) f ts ∧ Spellable ts := by
    rintro ⟨key, v⟩ hf
    obtain ⟨hkey, ts, hts, hspell⟩ := h _ hf
    exact ⟨_, .mk hts, spellable_cons hkey (spellable_cons trivial hspell)⟩
  obtain ⟨ts, hts, hspell⟩ := exists_separated hfields
  exact ⟨_, .record hne hts,
    spellable_cons trivial (spellable_append hspell (spellable_cons trivial nofun))⟩

end Deeds.Ron
