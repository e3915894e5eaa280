import Deeds.Ron.Token
import Deeds.Proofs.Line.Lexicon

/-!
# Spelling of the object notation

What texts are made of, said without the reader: the tokens that a text spells, whatever stands
between them, and the escapes by which any character can be written.

* `WritesIn` : digits write a number in a base;
* `Escapes`, `Quotes` : characters between two quotes, as they are or escaped;
* `Comment` : block comments, which nest;
* `Spells` : a text spells tokens; `Spells.tokenize_eq` : these are the ones that are read;
* `exists_spells` : all well-formed tokens make a text.
-/

namespace Deeds.Ron

open Text (hexDigit? hexValue? charOf? isIdentifierStart isIdentifierPart)
open Line (StopsAt takeWhile_run dropWhile_run)

/-! ## Digits -/

/-- Digits of either case write a number in a base up to sixteen. -/
inductive WritesIn (base : Nat) : List Char → Nat → Prop
  | nil : WritesIn base [] 0
  | digit {cs : List Char} {n d : Nat} {c : Char} (h : WritesIn base cs n)
      (hc : hexDigit? c = some d) (hd : d < base) : WritesIn base (cs ++ [c]) (base * n + d)

variable {base n d : Nat} {c : Char} {cs rest digits comment content : List Char}
  {ts : List Token} {t : Token}

theorem writesIn_pair {a b : Char} {e : Nat} (ha : hexDigit? a = some d) (hb : hexDigit? b = some e)
    (hn : base * d + e = n) (hd : d < base) (he : e < base) : WritesIn base [a, b] n := by
  have h := (WritesIn.nil.digit ha hd).digit hb he
  rwa [Nat.mul_zero, Nat.zero_add, hn] at h

theorem WritesIn.hexValue?_eq (h : WritesIn 16 cs n) : hexValue? cs = some n := by
  induction h with
  | nil => rfl
  | digit _ hc _ ih =>
    rw [hexValue?] at ih ⊢
    rw [List.foldlM_append, ih]
    simp [hc]

theorem WritesIn.exists_digit (h : WritesIn base cs n) :
    ∀ c ∈ cs, ∃ d, hexDigit? c = some d ∧ d < base := by
  induction h with
  | nil => exact nofun
  | digit _ hc hd ih =>
    simp only [List.mem_append, List.mem_singleton]
    rintro a (ha | rfl)
    · exact ih a ha
    · exact ⟨_, hc, hd⟩

/-! ## Quotations -/

/-- The characters that have a letter of their own behind a backslash. -/
def letterOf : List (Char × Char) :=
  [('\'', '\''), ('"', '"'), ('\\', '\\'), ('n', '\n'), ('r', '\r'), ('t', '\t'), ('0', '\x00')]

/-- Bytes as pairs of digits, each behind a backslash and an x; the first backslash is left out. -/
inductive WritesBytes : List Char → List UInt8 → Prop
  | last {a b : Char} {byte : UInt8} (h : WritesIn 16 [a, b] byte.toNat) :
      WritesBytes ['x', a, b] [byte]
  | cons {a b : Char} {byte : UInt8} {cs : List Char} {bytes : List UInt8}
      (h : WritesIn 16 [a, b] byte.toNat) (hbytes : WritesBytes cs bytes) :
      WritesBytes ('x' :: a :: b :: '\\' :: cs) (byte :: bytes)

/-- What stands behind a backslash for a character: a letter, its code point with at most six digits,
or the bytes of its encoding. -/
inductive Escapes : List Char → Char → Prop
  | letter {a c : Char} (h : (a, c) ∈ letterOf) : Escapes [a] c
  | codePoint {digits : List Char} {c : Char} (hne : digits ≠ []) (hlength : digits.length ≤ 6)
      (h : WritesIn 16 digits c.toNat) : Escapes ('u' :: '{' :: (digits ++ ['}'])) c
  | bytes {cs : List Char} {c : Char} (h : WritesBytes cs (String.utf8EncodeChar c)) : Escapes cs c

/-- What stands between two quotes for some characters. All but the quote and the backslash may stand
for themselves. -/
inductive Quotes : List Char → List Char → Prop
  | nil : Quotes [] []
  | plain {c : Char} {cs content : List Char} (hquote : c ≠ '"') (hslash : c ≠ '\\')
      (h : Quotes cs content) : Quotes (c :: cs) (c :: content)
  | escape {e cs content : List Char} {c : Char} (he : Escapes e c) (h : Quotes cs content) :
      Quotes ('\\' :: (e ++ cs)) (c :: content)

theorem WritesBytes.escapedBytes_eq {bytes : List UInt8} (h : WritesBytes cs bytes) (rest : List Char) :
    ∃ digits, cs = 'x' :: digits ∧
      escapedBytes bytes.length (digits ++ rest) = some (bytes, rest) := by
  induction h with
  | @last a b byte h =>
    refine ⟨[a, b], rfl, ?_⟩
    simp [escapedBytes, h.hexValue?_eq]
  | @cons a b byte cs bytes h hbytes ih =>
    obtain ⟨digits, rfl, ih⟩ := ih
    refine ⟨a :: b :: '\\' :: 'x' :: digits, rfl, ?_⟩
    obtain ⟨n, hn⟩ : ∃ n, bytes.length = n + 1 := by
      cases hbytes <;> exact ⟨_, rfl⟩
    rw [List.length_cons, hn]
    rw [hn] at ih
    simp [escapedBytes, h.hexValue?_eq, ih]

theorem WritesBytes.hexValue?_head {byte : UInt8} {bytes : List UInt8}
    (h : WritesBytes ('x' :: digits) (byte :: bytes)) (rest : List Char) :
    hexValue? ((digits ++ rest).take 2) = some byte.toNat := by
  cases h with
  | last h => exact h.hexValue?_eq
  | cons h _ => exact h.hexValue?_eq

/-- The first byte of a character tells how many there are. -/
theorem encodedLength_head {byte : UInt8} {bytes : List UInt8}
    (h : String.utf8EncodeChar c = byte :: bytes) :
    encodedLength byte.toNat = (byte :: bytes).length := by
  have hc : c.val.toNat ≤ 0x10ffff := by
    have hvalid : c.val.toNat.isValidChar := c.valid
    unfold Nat.isValidChar at hvalid
    omega
  -- the four forms have first bytes in ranges of their own, which do not meet
  unfold String.utf8EncodeChar at h
  dsimp only at h
  split at h
  · obtain ⟨rfl, rfl⟩ := List.cons.inj h
    rw [UInt8.toNat_ofNat', encodedLength, if_pos (by omega)]
    rfl
  split at h
  · obtain ⟨rfl, rfl⟩ := List.cons.inj h
    rw [UInt8.toNat_ofNat', encodedLength, if_neg (by omega), if_pos (by omega)]
    rfl
  split at h
  · obtain ⟨rfl, rfl⟩ := List.cons.inj h
    rw [UInt8.toNat_ofNat', encodedLength, if_neg (by omega), if_neg (by omega), if_pos (by omega)]
    rfl
  · obtain ⟨rfl, rfl⟩ := List.cons.inj h
    rw [UInt8.toNat_ofNat', encodedLength, if_neg (by omega), if_neg (by omega), if_neg (by omega)]
    rfl

theorem fromUTF8?_utf8EncodeChar (c : Char) :
    String.fromUTF8? (ByteArray.mk (String.utf8EncodeChar c).toArray) = some (String.singleton c) := by
  have hbytes : ByteArray.mk (String.utf8EncodeChar c).toArray = (String.singleton c).toByteArray := by
    rw [String.toByteArray_singleton, List.utf8Encode_singleton]
    exact ByteArray.ext List.data_toByteArray.symm
  rw [hbytes, String.fromUTF8?, dif_pos (String.singleton c).isValidUTF8]
  rfl

/-- The digits of a code point end at the closing brace. -/
theorem codePoint?_eq (hne : digits ≠ []) (hlength : digits.length ≤ 6)
    (h : WritesIn 16 digits c.toNat) (rest : List Char) :
    codePoint? (digits ++ '}' :: rest) = some (c, rest) := by
  have hnot : ∀ a ∈ digits, (a != '}') = true := by
    intro a ha
    rw [bne_iff_ne]
    rintro rfl
    obtain ⟨d, hd, _⟩ := h.exists_digit _ ha
    cases hd
  have hstop : StopsAt (· != '}') (('}' :: rest).take (6 - digits.length)) := by
    cases 6 - digits.length with
    | zero => exact nofun
    | succ n => rintro a ⟨⟩; rfl
  have htake : ((digits ++ '}' :: rest).take 6).takeWhile (· != '}') = digits := by
    rw [List.take_append, List.take_of_length_le hlength, takeWhile_run hnot hstop]
  have hchar : charOf? c.toNat = some c := by
    rw [charOf?, if_pos (show c.toNat.isValidChar from c.valid), Char.ofNat_toNat]
  obtain ⟨a, more, rfl⟩ := List.exists_cons_of_ne_nil hne
  unfold codePoint?
  simp only [htake, List.drop_left, h.hexValue?_eq, hchar, Option.bind_eq_bind, Option.bind_some]

/-- An escape is read as the character that it stands for. -/
theorem Escapes.escape?_eq (h : Escapes cs c) (rest : List Char) :
    escape? .characters (cs ++ rest) = some (c, rest) := by
  cases h with
  | letter h =>
    simp only [letterOf, List.mem_cons, Prod.mk.injEq, List.not_mem_nil, or_false] at h
    rcases h with ⟨rfl, rfl⟩ | ⟨rfl, rfl⟩ | ⟨rfl, rfl⟩ | ⟨rfl, rfl⟩ | ⟨rfl, rfl⟩ | ⟨rfl, rfl⟩ |
      ⟨rfl, rfl⟩ <;> rfl
  | @codePoint digits _ hne hlength h =>
    have hread := codePoint?_eq hne hlength h rest
    simpa [escape?] using hread
  | bytes h =>
    obtain ⟨digits, rfl, hread⟩ := h.escapedBytes_eq rest
    obtain ⟨byte, bytes, hencode⟩ := List.exists_cons_of_ne_nil (String.utf8EncodeChar_ne_nil (c := c))
    have hdecode := fromUTF8?_utf8EncodeChar c
    rw [hencode] at h hread hdecode
    show escapedChar? (digits ++ rest) = some (c, rest)
    simp only [escapedChar?, h.hexValue?_head rest, encodedLength_head hencode, hread, hdecode,
      Option.bind_eq_bind, Option.bind_some, Option.map_some, String.toList_singleton]

theorem quoted_plain {kind : Content} (hquote : c ≠ '"') (hslash : c ≠ '\\') :
    quoted kind (n + 1) (c :: cs) =
      (quoted kind n cs).map fun (content, rest) => (c :: content, rest) := by
  rw [quoted]
  · cases quoted kind n cs <;> rfl
  · exact fun h => hquote h
  · exact fun h => hslash h

theorem quoted_escape {kind : Content} (he : escape? kind cs = some (c, rest)) :
    quoted kind (n + 1) ('\\' :: cs) =
      (quoted kind n rest).map fun (content, rest) => (c :: content, rest) := by
  rw [quoted, he, Option.bind_eq_bind, Option.bind_some]
  dsimp only
  cases quoted kind n rest <;> rfl

/-- A quotation is read up to its closing quote. -/
theorem Quotes.quoted_eq (h : Quotes cs content) (hn : cs.length < n) (rest : List Char) :
    quoted .characters n (cs ++ '"' :: rest) = some (content, rest) := by
  induction h generalizing n with
  | nil =>
    obtain ⟨n, rfl⟩ := Nat.exists_eq_add_one.2 hn
    rfl
  | plain hquote hslash h ih =>
    obtain ⟨n, rfl⟩ := Nat.exists_eq_add_one.2 (Nat.zero_lt_of_lt hn)
    rw [List.cons_append, quoted_plain hquote hslash, ih (Nat.lt_of_succ_lt_succ hn)]
    rfl
  | @escape e cs content c he h ih =>
    obtain ⟨n, rfl⟩ := Nat.exists_eq_add_one.2 (Nat.zero_lt_of_lt hn)
    rw [List.cons_append, List.append_assoc, quoted_escape (he.escape?_eq _), ih (by grind)]
    rfl

/-! ## Between tokens -/

/-- A block comment behind its opening mark, up to its closing mark. Comments nest. -/
inductive Comment : List Char → Prop
  | close : Comment ['*', '/']
  | nested {inner rest : List Char} (hinner : Comment inner) (h : Comment rest) :
      Comment ('/' :: '*' :: (inner ++ rest))
  | char {c : Char} {cs : List Char} (hopen : (c :: cs).take 2 ≠ ['/', '*'])
      (hclose : (c :: cs).take 2 ≠ ['*', '/']) (h : Comment cs) : Comment (c :: cs)

/-- Where the reader is behind a block comment that stands in so many further ones. -/
def Gap.behind : Nat → Gap
  | 0 => .outside
  | n + 1 => .blockComment n

theorem skipGap_char {b : Char} (hopen : [c, b] ≠ ['/', '*']) (hclose : [c, b] ≠ ['*', '/']) :
    skipGap (.blockComment n) (c :: b :: cs) = skipGap (.blockComment n) (b :: cs) := by
  cases n <;> rw [skipGap] <;> grind

theorem Comment.skipGap_eq (h : Comment comment) (n : Nat) (rest : List Char) :
    skipGap (.blockComment n) (comment ++ rest) = skipGap (.behind n) rest := by
  induction h generalizing n rest with
  | close => cases n <;> rfl
  | @nested inner more _ _ ihinner ih =>
    rw [List.cons_append, List.cons_append, skipGap, List.append_assoc, ihinner]
    exact ih n rest
  | @char c cs hopen hclose h ih =>
    obtain ⟨b, cs, rfl⟩ : ∃ b more, cs = b :: more := by cases h <;> exact ⟨_, _, rfl⟩
    exact (skipGap_char hopen hclose).trans (ih n rest)

/-- Neither a blank nor the beginning of a comment. -/
def IsSolid (c : Char) : Prop := isBlank c = false ∧ c ≠ '/'

theorem IsSolid.skipGap_eq (h : IsSolid c) : skipGap .outside (c :: cs) = some (c :: cs) := by
  rw [skipGap, if_neg (by simp [h.1])]
  · exact fun _ hc => absurd hc h.2
  · exact fun _ hc => absurd hc h.2

theorem skipGap_lineComment (h : '\n' ∉ comment) :
    skipGap .lineComment (comment ++ '\n' :: rest) = skipGap .outside rest := by
  induction comment with
  | nil => rfl
  | cons c comment ih =>
    obtain ⟨hc, hcomment⟩ : '\n' ≠ c ∧ '\n' ∉ comment := by simpa using h
    rw [List.cons_append, skipGap, ih hcomment]
    exact fun h => hc h.symm

theorem skipGap_lastComment (h : '\n' ∉ comment) : skipGap .lineComment comment = some [] := by
  induction comment with
  | nil => rfl
  | cons c comment ih =>
    obtain ⟨hc, hcomment⟩ : '\n' ≠ c ∧ '\n' ∉ comment := by simpa using h
    rw [skipGap, ih hcomment]
    exact fun h => hc h.symm

/-! ## Tokens -/

/-- The character of a mark. -/
def Mark.char : Mark → Char
  | .openParen => '('
  | .closeParen => ')'
  | .openBracket => '['
  | .closeBracket => ']'
  | .openBrace => '{'
  | .closeBrace => '}'
  | .colon => ':'
  | .comma => ','
  | .hash => '#'
  | .bang => '!'

/-- The words that begin a raw text or a row of bytes when a quote follows. -/
def quotationPrefixes : List (List Char) := [['r'], ['b'], ['b', 'r']]

/-- The characters of a word. -/
def IsWord (w : List Char) : Prop :=
  (∃ c cs, w = c :: cs ∧ isIdentifierStart c ∧ ∀ c ∈ cs, isIdentifierPart c) ∧ w ∉ quotationPrefixes

/-- The characters of a number. -/
def IsNumeric (w : List Char) : Prop :=
  ∃ c cs, w = c :: cs ∧ isNumberStart c ∧ ∀ c ∈ cs, isNamePart c

/-- The tokens that a text spells: words, numbers, marks and quoted texts, with blanks and comments
between them. A word, and likewise a number, goes on as long as its characters do. -/
inductive Spells : List Char → List Token → Prop
  | nil : Spells [] []
  /-- A comment at the end of the text. -/
  | lastComment {comment : List Char} (hcomment : '\n' ∉ comment) : Spells ('/' :: '/' :: comment) []
  | blank {c : Char} {cs : List Char} {ts : List Token} (hc : isBlank c) (h : Spells cs ts) :
      Spells (c :: cs) ts
  | lineComment {comment cs : List Char} {ts : List Token} (hcomment : '\n' ∉ comment)
      (h : Spells cs ts) : Spells ('/' :: '/' :: (comment ++ '\n' :: cs)) ts
  | blockComment {comment cs : List Char} {ts : List Token} (hcomment : Comment comment)
      (h : Spells cs ts) : Spells ('/' :: '*' :: (comment ++ cs)) ts
  | mark {cs : List Char} {ts : List Token} (m : Mark) (h : Spells cs ts) :
      Spells (m.char :: cs) (.mark m :: ts)
  | word {w cs : List Char} {ts : List Token} (hw : IsWord w) (hend : StopsAt isIdentifierPart cs)
      (h : Spells cs ts) : Spells (w ++ cs) (.word (String.ofList w) :: ts)
  | number {w cs : List Char} {ts : List Token} (hw : IsNumeric w) (hend : StopsAt isNamePart cs)
      (h : Spells cs ts) : Spells (w ++ cs) (.number (String.ofList w) :: ts)
  | text {quote content cs : List Char} {ts : List Token} (hquote : Quotes quote content)
      (h : Spells cs ts) :
      Spells ('"' :: (quote ++ '"' :: cs)) (.text (String.ofList content) :: ts)

theorem isWord_cons (hc : isIdentifierStart c) (hcs : cs.all isIdentifierPart)
    (hquotes : c :: cs ∉ quotationPrefixes) : IsWord (c :: cs) :=
  ⟨⟨c, cs, rfl, hc, List.all_eq_true.1 hcs⟩, hquotes⟩

theorem stopsAt_cons {p : Char → Bool} (h : p c = false) : StopsAt p (c :: cs) := by
  rintro c ⟨⟩
  exact h

theorem isSolid_char (m : Mark) : IsSolid m.char := by
  cases m <;> exact ⟨rfl, by decide⟩

/-- The blanks, one by one. -/
def blanks : List Char :=
  [' ', '\t', '\n', '\r', '\x0b', '\x0c', '\u0085', '\u200e', '\u200f', '\u2028', '\u2029']

theorem isSolid_of {p : Char → Bool} (hp : ('/' :: blanks).any p = false) (h : p c) : IsSolid c := by
  have hc : c ∉ '/' :: blanks := fun hmem => List.any_eq_false.1 hp c hmem h
  exact ⟨Bool.eq_false_iff.2 fun hblank => hc (.tail _ (List.contains_iff_mem.1 hblank)),
    fun hslash => hc (hslash ▸ .head _)⟩

theorem inRanges_eq_any (ranges : Array (Nat × Nat)) (n : Nat) : Text.inRanges ranges n =
    ranges.toList.any fun (first, last) => first ≤ n && n ≤ last := Array.any_toList.symm

theorem isSolid_of_isIdentifierStart (h : isIdentifierStart c) : IsSolid c := by
  refine isSolid_of (p := isIdentifierStart) ?_ h
  -- lists are looked through faster than arrays
  simp only [blanks, List.any_cons, List.any_nil, isIdentifierStart, inRanges_eq_any]
  decide +kernel

theorem isSolid_of_isNumberStart (h : isNumberStart c) : IsSolid c := isSolid_of rfl h

theorem token?_mark (m : Mark) : token? (m.char :: cs) = some (.mark m, cs) := by
  cases m <;> rfl

/-- A word does not begin a quotation. -/
theorem token?_eq_plain? {w : List Char} (hc : c ≠ '"' ∧ c ≠ '\'')
    (hw : ∀ a ∈ w, isIdentifierPart a) (hquotes : c :: w ∉ quotationPrefixes) :
    token? (c :: (w ++ cs)) = plain? c (w ++ cs) := by
  have hquote : isIdentifierPart '"' = false ∧ isIdentifierPart '\'' = false ∧
      isIdentifierPart '#' = false := by decide
  simp only [quotationPrefixes, List.mem_cons, List.not_mem_nil, or_false] at hquotes
  -- a quotation begins within three characters
  rcases w with _ | ⟨a, _ | ⟨b, w⟩⟩ <;> rw [token?] <;> grind

theorem token?_word {w : List Char} (hw : IsWord w) (hend : StopsAt isIdentifierPart cs) :
    token? (w ++ cs) = some (.word (String.ofList w), cs) := by
  obtain ⟨⟨c, w, rfl, hc, hw⟩, hquotes⟩ := hw
  have hquote : c ≠ '"' ∧ c ≠ '\'' := by
    constructor <;>
    · rintro rfl
      revert hc
      decide
  have hall : ∀ a ∈ c :: w, isIdentifierPart a :=
    List.forall_mem_cons.2 ⟨Text.isIdentifierPart_of_start hc, hw⟩
  rw [List.cons_append, token?_eq_plain? hquote hw hquotes, plain?, if_pos hc, run,
    ← List.cons_append, takeWhile_run hall hend, dropWhile_run hall hend]

theorem isNamePart_of_isNumberStart (h : isNumberStart c) : isNamePart c := by
  grind [isNamePart, isNumberStart, Text.isIdentifierPart]

theorem toNat_of_isAlpha (h : c.isAlpha) :
    65 ≤ c.toNat ∧ c.toNat ≤ 90 ∨ 97 ≤ c.toNat ∧ c.toNat ≤ 122 := by
  rcases Bool.or_eq_true_iff.1 h with hupper | hlower
  · exact .inl (of_decide_eq_true hupper)
  · exact .inr ((Bool.and_eq_true_iff.1 hlower).imp of_decide_eq_true of_decide_eq_true)

theorem not_isIdentifierStart (h : isNumberStart c) : isIdentifierStart c = false := by
  simp only [isNumberStart, Bool.or_eq_true, decide_eq_true_eq] at h
  rcases h with ((h | rfl) | rfl) | rfl
  · have hdigit : 48 ≤ c.toNat ∧ c.toNat ≤ 57 := Char.isDigit_iff_toNat.1 h
    have hunderscore : c ≠ '_' := by rintro rfl; cases h
    have hletter : c.isAlpha = false :=
      Bool.eq_false_iff.2 fun hc => by have := toNat_of_isAlpha hc; omega
    have hascii : ¬ 128 ≤ c.toNat := by omega
    simp only [isIdentifierStart, hletter, hunderscore, hascii, decide_false, Bool.false_and,
      Bool.or_false]
  all_goals decide

theorem token?_number {w : List Char} (hw : IsNumeric w) (hend : StopsAt isNamePart cs) :
    token? (w ++ cs) = some (.number (String.ofList w), cs) := by
  obtain ⟨c, w, rfl, hc, hw⟩ := hw
  have hall : ∀ a ∈ c :: w, isNamePart a :=
    List.forall_mem_cons.2 ⟨isNamePart_of_isNumberStart hc, hw⟩
  have hplain : c ∉ ['"', '\'', 'r', 'b'] := by
    simp only [List.mem_cons, List.not_mem_nil, or_false]
    rintro (rfl | rfl | rfl | rfl) <;> cases hc
  rw [List.cons_append, token?_plain hplain, plain?, if_neg (by simp [not_isIdentifierStart hc]),
    if_pos hc, run, ← List.cons_append, takeWhile_run hall hend, dropWhile_run hall hend]

theorem token?_text {quote : List Char} (hquote : Quotes quote content) :
    token? ('"' :: (quote ++ '"' :: cs)) = some (.text (String.ofList content), cs) := by
  show textToken (quoted .characters _ (quote ++ '"' :: cs)) = _
  rw [hquote.quoted_eq (by grind)]
  rfl

theorem tokens_cons (hc : IsSolid c) (ht : token? (c :: cs) = some (t, rest))
    (h : tokens n rest = some ts) : tokens (n + 1) (c :: cs) = some (t :: ts) := by
  rw [tokens, hc.skipGap_eq]
  simp [ht, h]

theorem Spells.tokens_eq (h : Spells cs ts) (hn : cs.length ≤ n) : tokens n cs = some ts := by
  induction h generalizing n with
  | nil => cases n <;> rfl
  | @lastComment comment hcomment =>
    have hskip : skipGap .outside ('/' :: '/' :: comment) = skipGap .outside [] :=
      skipGap_lastComment hcomment
    rw [tokens_congr hskip]
    cases n <;> rfl
  | blank hc _ ih =>
    rw [tokens_congr (skipGap_blank hc)]
    exact ih (Nat.le_of_succ_le hn)
  | @lineComment comment cs ts hcomment _ ih =>
    have hskip : skipGap .outside ('/' :: '/' :: (comment ++ '\n' :: cs)) = skipGap .outside cs :=
      skipGap_lineComment hcomment
    rw [tokens_congr hskip]
    exact ih (by grind)
  | @blockComment comment cs ts hcomment _ ih =>
    have hskip : skipGap .outside ('/' :: '*' :: (comment ++ cs)) = skipGap .outside cs :=
      hcomment.skipGap_eq 0 cs
    rw [tokens_congr hskip]
    exact ih (by grind)
  | mark m _ ih =>
    obtain ⟨n, rfl⟩ := Nat.exists_eq_add_one.2 (Nat.zero_lt_of_lt hn)
    exact tokens_cons (isSolid_char m) (token?_mark m) (ih (Nat.le_of_succ_le_succ hn))
  | word hw hend _ ih =>
    have ht := token?_word hw hend
    obtain ⟨⟨c, w, rfl, hc, _⟩, _⟩ := hw
    obtain ⟨n, rfl⟩ := Nat.exists_eq_add_one.2 (Nat.zero_lt_of_lt hn)
    exact tokens_cons (isSolid_of_isIdentifierStart hc) ht (ih (by grind))
  | number hw hend _ ih =>
    have ht := token?_number hw hend
    obtain ⟨c, w, rfl, hc, _⟩ := hw
    obtain ⟨n, rfl⟩ := Nat.exists_eq_add_one.2 (Nat.zero_lt_of_lt hn)
    exact tokens_cons (isSolid_of_isNumberStart hc) ht (ih (by grind))
  | text hquote _ ih =>
    obtain ⟨n, rfl⟩ := Nat.exists_eq_add_one.2 (Nat.zero_lt_of_lt hn)
    exact tokens_cons ⟨rfl, by decide⟩ (token?_text hquote) (ih (by grind))

/-- A text that spells tokens is read as these. -/
theorem Spells.tokenize_eq {text : String} (h : Spells text.toList ts) : tokenize text = some ts :=
  h.tokens_eq (Nat.le_of_eq text.length_toList)

/-! ## Texts for tokens -/

/-- A token that can be spelled. -/
def Token.IsWellFormed : Token → Prop
  | .mark _ => True
  | .word name => IsWord name.toList
  | .number written => IsNumeric written.toList
  | .text _ => True
  | .literal => False

/-- Any characters can be quoted. -/
theorem exists_quotes (content : List Char) : ∃ cs, Quotes cs content := by
  induction content with
  | nil => exact ⟨[], .nil⟩
  | cons c content ih =>
    obtain ⟨cs, h⟩ := ih
    by_cases hc : c = '"' ∨ c = '\\'
    · have he : Escapes [c] c := .letter (by rcases hc with rfl | rfl <;> decide)
      exact ⟨_, .escape he h⟩
    · obtain ⟨hquote, hslash⟩ := not_or.1 hc
      exact ⟨_, .plain hquote hslash h⟩

/-- Well-formed tokens can be spelled, with a blank behind each of them. -/
theorem exists_spells (h : ∀ t ∈ ts, t.IsWellFormed) : ∃ cs, Spells cs ts := by
  induction ts with
  | nil => exact ⟨[], .nil⟩
  | cons t ts ih =>
    obtain ⟨ht, hts⟩ := List.forall_mem_cons.1 h
    obtain ⟨cs, hcs⟩ := ih hts
    have hrest : Spells (' ' :: cs) ts := .blank rfl hcs
    cases t with
    | mark m => exact ⟨_, .mark m hrest⟩
    | word name =>
      have hspells := Spells.word ht (stopsAt_cons rfl) hrest
      exact ⟨_, String.ofList_toList ▸ hspells⟩
    | number written =>
      have hspells := Spells.number ht (stopsAt_cons rfl) hrest
      exact ⟨_, String.ofList_toList ▸ hspells⟩
    | text content =>
      obtain ⟨quote, hquote⟩ := exists_quotes content.toList
      have hspells := Spells.text hquote hrest
      exact ⟨_, String.ofList_toList ▸ hspells⟩
    | literal => exact ht.elim

end Deeds.Ron
