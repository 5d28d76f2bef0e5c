import ArithTree.Proofs.Runs
import ArithTree.Proofs.Spelling
import ArithTree.Token.Scan
import Mathlib.Data.List.Chain

/-!
# Trees and their sources

A source text spells pieces (`Spells`) if it consists of one word for each of
them, with blanks around the words and at least one between two integers. An
integer is spelled by any decimal numeral of it, zeros in front included, every
other piece by its character, and a text literal or a negative integer by nothing
at all.

The two stages are put together over lexemes. `Lexeme.pieces?` is what a lexeme
contributes to a tree, `Scan.exists_tokens_iff` says that a scan finds the pieces
of its lexemes, and `spells_iff` that these are the pieces that the text spells.
Both halves of the latter follow the cuts of the text: a gap may be empty where a
mark stands, but a run of digits swallows every digit behind it.

`Block.ofSource_language` is the outcome: the texts that are read as a tree are
those that spell it.
-/

namespace ArithTree

/-! ### What spells a piece -/

/-- **The spellings of a piece.** -/
inductive Piece.Spelling : Piece → List Char → Prop where
  | opening : Spelling .opening ['(']
  | closing : Spelling .closing [')']
  | operator (o : Operator) : Spelling (.operator o) [o.symbol]
  /-- A decimal numeral of the integer, with any number of zeros in front. -/
  | integer {n : Int64} {value : Nat} (zeros : Nat) (h : n.toInt = value) :
      Spelling (.literal (.integer n)) (numeral zeros value)

/-- A blank: a space, a line feed or a carriage return. -/
def isBlank (c : Char) : Bool :=
  c == ' ' || c == '\n' || c == '\r'

theorem isBlank_iff {c : Char} : isBlank c ↔ c = ' ' ∨ c = '\n' ∨ c = '\r' := by
  simp [isBlank, or_assoc]

theorem not_isDigit_of_isBlank {c : Char} (hc : isBlank c) : ¬ c.isDigit := by
  obtain rfl | rfl | rfl := isBlank_iff.mp hc
  all_goals decide

/-- **A word of a source text**: a spelling of a piece and the blanks behind it. -/
structure Word where
  piece : Piece
  text : List Char
  gap : List Char
  spelling : piece.Spelling text
  blank : ∀ c ∈ gap, isBlank c

/-- The characters of a word and of the gap behind it. -/
def Word.chars (w : Word) : List Char := w.text ++ w.gap

def Piece.IsInteger : Piece → Prop
  | .literal (.integer _) => True
  | _ => False

/-- Between two integers there is a gap. -/
def Word.Apart (v w : Word) : Prop :=
  v.piece.IsInteger → w.piece.IsInteger → v.gap ≠ []

/-- **The pieces that a text spells**: blanks, and then words for the pieces, in
their order and apart where they have to be. -/
def Spells (cs : List Char) (xs : List Piece) : Prop :=
  ∃ (lead : List Char) (words : List Word), (∀ c ∈ lead, isBlank c) ∧
    words.map Word.piece = xs ∧ words.IsChain Word.Apart ∧
    cs = lead ++ words.flatMap Word.chars

/-- Integers that a source can spell: those that are not negative. -/
def Literal.IsNatural : Literal → Prop
  | .integer n => 0 ≤ n
  | .text _ => False

namespace Piece

variable {x : Piece} {text : List Char} {c : Char}

theorem Spelling.ne_nil (h : x.Spelling text) : text ≠ [] := by
  cases h with
  | opening | closing | operator => exact List.cons_ne_nil _ _
  | integer zeros h => exact numeral_ne_nil zeros _

theorem Spelling.isNatural {value : Literal} (h : (literal value).Spelling text) :
    value.IsNatural := by
  cases h with
  | integer zeros h => exact Int64.le_iff_toInt_le.mpr (by simp [h])

/-- A piece that is not an integer is spelled by one character, and not a digit. -/
theorem Spelling.exists_mark (h : x.Spelling text) (hx : ¬ x.IsInteger) :
    ∃ c, text = [c] ∧ ¬ c.isDigit := by
  cases h with
  | opening | closing => exact ⟨_, rfl, by decide⟩
  | operator o => exact ⟨_, rfl, by cases o <;> decide⟩
  | integer => exact absurd trivial hx

theorem Spelling.not_all_isBlank (h : x.Spelling text) : ¬ text.all isBlank := by
  cases h with
  | opening | closing => decide
  | operator o => cases o <;> decide
  | integer zeros h =>
    intro hblank
    obtain ⟨d, hd⟩ := List.exists_mem_of_ne_nil _ (numeral_ne_nil zeros _)
    exact not_isDigit_of_isBlank (List.all_eq_true.mp hblank d hd) (isDigit_of_mem_numeral hd)

theorem Spelling.isDigit (h : x.Spelling text) (hx : x.IsInteger) : ∀ d ∈ text, d.isDigit := by
  cases h with
  | opening | closing | operator => exact hx.elim
  | integer zeros h => exact fun d hd => isDigit_of_mem_numeral hd

end Piece

/-! ### What a lexeme contributes -/

namespace Lexeme

variable {ds : List Char} {c : Char} {xs ys : List Piece}

/-- The pieces that a lexeme stands for: none for a blank, one for a token. -/
def pieces? (lexeme : Lexeme) : Option (List Piece) :=
  match lexeme.reading with
  | .blank => some []
  | .token kind value => (Token.piece? ⟨kind, .start, value⟩).map fun x => [x]
  | .refused _ => none

/-- The pieces that lexemes stand for, if all of them can be read. -/
def allPieces? : List Lexeme → Option (List Piece)
  | [] => some []
  | lexeme :: lexemes => do
    let xs ← lexeme.pieces?
    let ys ← allPieces? lexemes
    return xs ++ ys

theorem allPieces?_cons_eq_some {lexeme : Lexeme} {lexemes : List Lexeme} :
    allPieces? (lexeme :: lexemes) = some ys ↔
      ∃ xs zs, lexeme.pieces? = some xs ∧ allPieces? lexemes = some zs ∧ ys = xs ++ zs := by
  rw [allPieces?]
  cases lexeme.pieces? <;> cases allPieces? lexemes <;> simp [eq_comm]

/-- What a character by itself can be. -/
theorem readMark_cases (c : Char) :
    (isBlank c ∧ readMark c = .blank) ∨
    (∃ o : Operator, c = o.symbol ∧ readMark c = .token .operator (some (.symbol c))) ∨
    (c = '(' ∧ readMark c = .token .leftParen none) ∨
    (c = ')' ∧ readMark c = .token .rightParen none) ∨
    ∃ cause, readMark c = .refused cause := by
  unfold readMark
  split
  · next h => exact .inl ⟨by simpa [isBlank, Text.isLineBreak, or_assoc] using h, rfl⟩
  split
  · next h =>
    obtain ⟨o, ho⟩ := Option.isSome_iff_exists.mp h
    exact .inr (.inl ⟨o, Operator.ofSymbol?_eq_some_iff.mp ho, rfl⟩)
  split
  · next h => exact .inr (.inr (.inl ⟨h, rfl⟩))
  split
  · next h => exact .inr (.inr (.inr (.inl ⟨h, rfl⟩)))
  -- what is left is refused, for one of four causes
  refine .inr (.inr (.inr (.inr ?_)))
  split
  · exact ⟨_, rfl⟩
  split
  · exact ⟨_, rfl⟩
  split
  · exact ⟨_, rfl⟩
  · exact ⟨_, rfl⟩

/-- **A mark** is a blank or spells a piece. -/
theorem pieces?_mark_eq_some_iff (hc : ¬ c.isDigit) :
    (mark c).pieces? = some xs ↔
      isBlank c ∧ xs = [] ∨ ∃ x : Piece, x.Spelling [c] ∧ xs = [x] := by
  constructor
  · intro h
    obtain ⟨hb, hr⟩ | ⟨o, rfl, hr⟩ | ⟨rfl, hr⟩ | ⟨rfl, hr⟩ | ⟨cause, hr⟩ := readMark_cases c
    · simp only [pieces?, reading, hr, Option.some.injEq] at h
      exact .inl ⟨hb, h.symm⟩
    · simp only [pieces?, reading, hr, Token.piece?, Operator.ofSymbol?_symbol, Option.map_some,
        Option.some.injEq] at h
      exact .inr ⟨_, .operator o, h.symm⟩
    · simp only [pieces?, reading, hr, Token.piece?, Option.map_some, Option.some.injEq] at h
      exact .inr ⟨_, .opening, h.symm⟩
    · simp only [pieces?, reading, hr, Token.piece?, Option.map_some, Option.some.injEq] at h
      exact .inr ⟨_, .closing, h.symm⟩
    · simp [pieces?, reading, hr] at h
  · rintro (⟨hb, rfl⟩ | ⟨x, hx, rfl⟩)
    · obtain rfl | rfl | rfl := isBlank_iff.mp hb
      all_goals rfl
    · generalize htext : [c] = text at hx
      cases hx with
      | opening | closing =>
        cases htext
        rfl
      | operator o =>
        cases htext
        cases o <;> rfl
      | integer zeros h =>
        -- a numeral of one character is a digit
        have hmem := htext ▸ List.mem_singleton_self c
        exact absurd (isDigit_of_mem_numeral hmem) hc

theorem reading_number (hbound : Nat.ofDigitChars 10 ds 0 < integerBound) :
    (number ds).reading
      = .token .integer (some (.integer (Int64.ofNat (Nat.ofDigitChars 10 ds 0)))) :=
  if_pos hbound

/-- **A run of digits** spells an integer, unless it is out of range. -/
theorem pieces?_number_eq_some_iff (hne : ds ≠ []) (hds : ∀ d ∈ ds, d.isDigit) :
    (number ds).pieces? = some xs ↔
      ∃ n : Int64, (Piece.literal (.integer n)).Spelling ds ∧ xs = [.literal (.integer n)] := by
  constructor
  · intro h
    obtain ⟨zeros, hzeros⟩ := exists_eq_numeral hne hds
    by_cases hbound : Nat.ofDigitChars 10 ds 0 < integerBound
    · rw [pieces?, reading_number hbound] at h
      refine ⟨_, ?_, (Option.some.inj h).symm⟩
      have hspelling := Piece.Spelling.integer zeros (Int64.toInt_ofNat_of_lt hbound)
      rwa [← hzeros] at hspelling
    · simp [pieces?, reading, readNumber, if_neg hbound] at h
  · rintro ⟨n, hn, rfl⟩
    cases hn with
    | @integer _ value zeros h =>
      have hbound : value < integerBound := by
        have hlt := n.toInt_lt
        unfold integerBound
        omega
      have hn : Int64.ofNat value = n :=
        Int64.toInt_inj.mp ((Int64.toInt_ofNat_of_lt hbound).trans h.symm)
      have hvalue := ofDigitChars_numeral zeros value
      rw [pieces?, reading_number (hvalue.symm ▸ hbound), hvalue, hn]
      rfl

end Lexeme

/-! ### What a scan finds -/

namespace Scan

theorem result_cons_eq_ok_iff {scan : Scan} {t : Token} {tokens : List Token} :
    result ⟨t :: scan.tokens, scan.fault⟩ = .ok tokens ↔
      ∃ rest, scan.result = .ok rest ∧ tokens = t :: rest := by
  unfold result
  cases scan.fault <;> simp [eq_comm]

/-- **A scan finds the pieces of its lexemes**, wherever it starts. -/
theorem exists_tokens_iff (place : Position) (lexemes : List Lexeme) {xs : List Piece} :
    (∃ tokens, (ofLexemes place lexemes).result = .ok tokens ∧ Token.erase tokens = some xs) ↔
      Lexeme.allPieces? lexemes = some xs := by
  induction lexemes generalizing place xs with
  | nil => simp [ofLexemes, result, Lexeme.allPieces?]
  | cons lexeme lexemes ih =>
    rw [Lexeme.allPieces?_cons_eq_some]
    cases hr : lexeme.reading with
    | blank =>
      simp only [ofLexemes, hr, ih, Lexeme.pieces?]
      simp
    | token kind value =>
      -- the piece of the token does not depend on the place that it gets
      simp only [ofLexemes, hr, result_cons_eq_ok_iff, Lexeme.pieces?, Option.map_eq_some_iff]
      constructor
      · rintro ⟨-, ⟨rest, hrest, rfl⟩, herase⟩
        obtain ⟨x, zs, hx, hzs, rfl⟩ := Token.erase_cons_eq_some.mp herase
        exact ⟨[x], zs, ⟨x, hx, rfl⟩, (ih _).mp ⟨rest, hrest, hzs⟩, rfl⟩
      · rintro ⟨-, zs, ⟨x, hx, rfl⟩, hzs, rfl⟩
        obtain ⟨rest, hrest, herase⟩ := (ih _).mpr hzs
        exact ⟨_, ⟨rest, hrest, rfl⟩, Token.erase_cons_eq_some.mpr ⟨x, zs, hx, herase, rfl⟩⟩
    | refused cause => simp [ofLexemes, hr, result, Lexeme.pieces?]

end Scan

/-! ### What a text spells -/

namespace Spells

variable {cs text : List Char} {c : Char} {x : Piece} {xs : List Piece}

theorem nil : Spells [] [] :=
  ⟨[], [], by simp, rfl, .nil, rfl⟩

theorem blank (hc : isBlank c) (h : Spells cs xs) : Spells (c :: cs) xs := by
  obtain ⟨lead, words, hlead, hpieces, hchain, rfl⟩ := h
  exact ⟨c :: lead, words, List.forall_mem_cons.mpr ⟨hc, hlead⟩, hpieces, hchain, rfl⟩

/-- One more word in front. Behind an integer the text must not go on with a
digit, so that there is a gap if the next word is an integer, too. -/
theorem word (hx : x.Spelling text) (hend : x.IsInteger → Lexeme.StartsNoDigit cs)
    (h : Spells cs xs) : Spells (text ++ cs) (x :: xs) := by
  obtain ⟨lead, words, hlead, rfl, hchain, rfl⟩ := h
  -- the blanks that led the text become the gap of the new word
  refine ⟨[], ⟨x, text, lead, hx, hlead⟩ :: words, by simp, rfl, ?_, by simp [Word.chars]⟩
  cases words with
  | nil => exact .singleton _
  | cons w words =>
    -- two integers without a gap: the text would go on with a digit of the second
    refine List.isChain_cons_cons.mpr ⟨fun hxint hwint hgap => ?_, hchain⟩
    obtain rfl : lead = [] := hgap
    obtain ⟨d, ds, hd⟩ := List.exists_cons_of_ne_nil w.spelling.ne_nil
    have hstart : ¬ d.isDigit := by
      have hstart := hend hxint
      simpa [Word.chars, hd, Lexeme.startsNoDigit_cons] using hstart
    exact hstart (w.spelling.isDigit hwint d (hd ▸ List.mem_cons_self))

theorem isNatural (h : Spells cs xs) {value : Literal} (hvalue : .literal value ∈ xs) :
    value.IsNatural := by
  obtain ⟨lead, words, -, rfl, -, -⟩ := h
  obtain ⟨w, -, hw⟩ := List.mem_map.mp hvalue
  have hspelling := w.spelling
  rw [hw] at hspelling
  exact hspelling.isNatural

end Spells

namespace Lexeme

variable {cs gap : List Char} {xs : List Piece}

theorem allPieces?_ofChars_blanks (hgap : ∀ c ∈ gap, isBlank c)
    (h : allPieces? (ofChars cs) = some xs) : allPieces? (ofChars (gap ++ cs)) = some xs := by
  induction gap with
  | nil => exact h
  | cons c gap ih =>
    rw [List.forall_mem_cons] at hgap
    have hc := not_isDigit_of_isBlank hgap.1
    rw [List.cons_append, ofChars_mark hc, allPieces?_cons_eq_some]
    exact ⟨[], xs, (pieces?_mark_eq_some_iff hc).mpr (.inl ⟨hgap.1, rfl⟩), ih hgap.2, rfl⟩

/-- **One word is cut off and read**, if its digits end with it. -/
theorem allPieces?_ofChars_word {text : List Char} {x : Piece} (hx : x.Spelling text)
    (hend : x.IsInteger → StartsNoDigit cs) (h : allPieces? (ofChars cs) = some xs) :
    allPieces? (ofChars (text ++ cs)) = some (x :: xs) := by
  by_cases hint : x.IsInteger
  · have hds := hx.isDigit hint
    rw [ofChars_digits hx.ne_nil hds (hend hint), allPieces?_cons_eq_some]
    refine ⟨[x], xs, (pieces?_number_eq_some_iff hx.ne_nil hds).mpr ?_, h, rfl⟩
    match x, hint with
    | .literal (.integer n), _ => exact ⟨n, hx, rfl⟩
  · obtain ⟨c, rfl, hc⟩ := hx.exists_mark hint
    rw [List.singleton_append, ofChars_mark hc, allPieces?_cons_eq_some]
    exact ⟨[x], xs, (pieces?_mark_eq_some_iff hc).mpr (.inr ⟨x, hx, rfl⟩), h, rfl⟩

theorem allPieces?_ofChars_words {words : List Word} (hchain : words.IsChain Word.Apart) :
    allPieces? (ofChars (words.flatMap Word.chars)) = some (words.map Word.piece) := by
  induction words with
  | nil => rfl
  | cons w words ih =>
    rw [List.flatMap_cons, Word.chars, List.append_assoc]
    refine allPieces?_ofChars_word w.spelling (fun hint => ?_)
      (allPieces?_ofChars_blanks w.blank (ih hchain.tail))
    -- a run of digits has to end with its word
    cases hgap : w.gap with
    | cons c gap =>
      have hc := w.blank c (hgap ▸ List.mem_cons_self)
      exact startsNoDigit_cons.mpr (not_isDigit_of_isBlank hc)
    | nil =>
      -- without a gap the next word is a mark, or there is none
      cases words with
      | nil => exact startsNoDigit_nil
      | cons v words =>
        have hv : ¬ v.piece.IsInteger := fun hv =>
          (List.isChain_cons_cons.mp hchain).1 hint hv hgap
        obtain ⟨c, htext, hc⟩ := v.spelling.exists_mark hv
        rw [List.flatMap_cons, Word.chars, htext]
        exact startsNoDigit_cons.mpr hc

end Lexeme

/-- **The pieces of a text's lexemes are the pieces that it spells.** -/
theorem spells_iff {cs : List Char} {xs : List Piece} :
    Spells cs xs ↔ Lexeme.allPieces? (Lexeme.ofChars cs) = some xs := by
  constructor
  · rintro ⟨lead, words, hlead, rfl, hchain, rfl⟩
    exact Lexeme.allPieces?_ofChars_blanks hlead (Lexeme.allPieces?_ofChars_words hchain)
  intro h
  -- back, every cut of the text is a blank or a word
  induction cs using Lexeme.text_induction generalizing xs with
  | nil =>
    obtain rfl := Option.some.inj h
    exact .nil
  | mark c cs hc ih =>
    rw [Lexeme.ofChars_mark hc] at h
    obtain ⟨ys, zs, hys, hzs, rfl⟩ := Lexeme.allPieces?_cons_eq_some.mp h
    obtain ⟨hb, rfl⟩ | ⟨x, hx, rfl⟩ := (Lexeme.pieces?_mark_eq_some_iff hc).mp hys
    · exact (ih hzs).blank hb
    · -- a mark is no integer, so anything may follow it
      refine Spells.word hx (fun hint => ?_) (ih hzs)
      exact absurd (hx.isDigit hint c List.mem_cons_self) hc
  | number ds cs hne hds hcs ih =>
    rw [Lexeme.ofChars_digits hne hds hcs] at h
    obtain ⟨ys, zs, hys, hzs, rfl⟩ := Lexeme.allPieces?_cons_eq_some.mp h
    obtain ⟨n, hn, rfl⟩ := (Lexeme.pieces?_number_eq_some_iff hne hds).mp hys
    exact Spells.word hn (fun _ => hcs) (ih hzs)

/-! ### Blanks and zeros aside -/

/-- The shortest spelling of a piece, if it has one. -/
def Piece.plain : Piece → List Char
  | .opening => ['(']
  | .closing => [')']
  | .operator o => [o.symbol]
  | .literal (.integer n) => Nat.toDigits 10 n.toInt.toNat
  | .literal (.text _) => []

/-- A text without the zeros that it begins with. -/
def trimZeros (cs : List Char) : List Char := cs.dropWhile (· == '0')

/-- **What is left of a text without blanks and leading zeros**: its lexemes, less
the blank ones, and less the zeros that they begin with. -/
def bare (cs : List Char) : List (List Char) :=
  (((Lexeme.ofChars cs).map Lexeme.chars).filter fun text => ¬ text.all isBlank).map trimZeros

theorem bare_of_ofChars {cs rest : List Char} {lexeme : Lexeme}
    (h : Lexeme.ofChars cs = lexeme :: Lexeme.ofChars rest) :
    bare cs = if lexeme.chars.all isBlank then bare rest
      else trimZeros lexeme.chars :: bare rest := by
  unfold bare
  rw [h, List.map_cons, List.filter_cons]
  split <;> simp_all

namespace Piece

variable {x : Piece} {text : List Char}

/-- Spellings of one piece differ by leading zeros at most. -/
theorem Spelling.trimZeros_eq (h : x.Spelling text) : trimZeros text = trimZeros x.plain := by
  cases h with
  | opening | closing | operator => rfl
  | integer zeros h => rw [trimZeros, dropWhile_numeral, plain, h, Int.toNat_natCast, trimZeros]

theorem spelling_plain (hx : ∀ value, x = .literal value → value.IsNatural) :
    x.Spelling x.plain := by
  match x, hx with
  | .opening, _ => exact .opening
  | .closing, _ => exact .closing
  | .operator o, _ => exact .operator o
  | .literal (.integer n), hx =>
    have hn : (0 : Int64) ≤ n := hx _ rfl
    have hvalue : n.toInt = n.toInt.toNat := by
      rw [Int64.le_iff_toInt_le, Int64.toInt_zero] at hn
      omega
    exact .integer 0 hvalue
  | .literal (.text _), hx => exact (hx _ rfl).elim

end Piece

/-- Natural literals suffice for a text: every piece plainly, with a blank behind
it. -/
theorem exists_spells {xs : List Piece} (hxs : ∀ value, .literal value ∈ xs → value.IsNatural) :
    ∃ cs, Spells cs xs := by
  induction xs with
  | nil => exact ⟨[], .nil⟩
  | cons x xs ih =>
    obtain ⟨cs, hcs⟩ := ih fun value hvalue => hxs value (List.mem_cons_of_mem _ hvalue)
    have hx := Piece.spelling_plain fun value hvalue => hxs value (hvalue ▸ List.mem_cons_self)
    -- one blank keeps the piece apart from whatever follows
    refine ⟨x.plain ++ ' ' :: cs, Spells.word hx (fun _ => ?_) (hcs.blank (by decide))⟩
    exact Lexeme.startsNoDigit_cons.mpr (by decide)

/-- **Blanks and leading zeros aside, the pieces determine the text.** -/
theorem Spells.bare_eq {cs : List Char} {xs : List Piece} (h : Spells cs xs) :
    bare cs = xs.map fun x => trimZeros x.plain := by
  rw [spells_iff] at h
  induction cs using Lexeme.text_induction generalizing xs with
  | nil =>
    obtain rfl := Option.some.inj h
    rfl
  | mark c cs hc ih =>
    have hcut : Lexeme.ofChars (c :: cs) = .mark c :: Lexeme.ofChars cs := Lexeme.ofChars_mark hc
    rw [hcut] at h
    obtain ⟨ys, zs, hys, hzs, rfl⟩ := Lexeme.allPieces?_cons_eq_some.mp h
    rw [bare_of_ofChars hcut, ih hzs, Lexeme.chars]
    obtain ⟨hb, rfl⟩ | ⟨x, hx, rfl⟩ := (Lexeme.pieces?_mark_eq_some_iff hc).mp hys
    · rw [if_pos (by simpa using hb)]
      rfl
    · -- a mark has no zeros to lose, and neither has the plain spelling of its piece
      rw [if_neg hx.not_all_isBlank, hx.trimZeros_eq]
      rfl
  | number ds cs hne hds hcs ih =>
    have hcut := Lexeme.ofChars_digits hne hds hcs
    rw [hcut] at h
    obtain ⟨ys, zs, hys, hzs, rfl⟩ := Lexeme.allPieces?_cons_eq_some.mp h
    obtain ⟨n, hn, rfl⟩ := (Lexeme.pieces?_number_eq_some_iff hne hds).mp hys
    rw [bare_of_ofChars hcut, ih hzs, Lexeme.chars, if_neg hn.not_all_isBlank, hn.trimZeros_eq]
    rfl

/-! ### The trees of source texts -/

namespace Block

variable {source : String} {block : Block}

theorem over_isNatural_iff :
    block.Over Literal.IsNatural ↔
      block.BlockFree ∧ ∀ value, .literal value ∈ block.pieces → value.IsNatural :=
  Node.allOver_iff_pieces block.children

theorem ofSource_eq_ok_iff :
    ofSource source = .ok block ↔
      ∃ tokens, tokenize source = .ok tokens ∧ ofTokens tokens = .ok block := by
  unfold ofSource
  cases tokenize source <;> simp [bind, Except.bind]

/-- **A text is read as the tree that it spells.** -/
theorem ofSource_eq_ok_iff_spells :
    ofSource source = .ok block ↔
      block.Over Literal.IsNatural ∧ Spells source.toList block.pieces := by
  rw [ofSource_eq_ok_iff, over_isNatural_iff]
  constructor
  · rintro ⟨tokens, htokens, h⟩
    -- the tokens spell the tree, the text spells the tokens
    obtain ⟨hfree, herase⟩ := spelled_of_ofTokens h
    have hspells : Spells source.toList block.pieces :=
      spells_iff.mpr ((Scan.exists_tokens_iff .start _).mp ⟨tokens, htokens, herase⟩)
    exact ⟨⟨hfree, fun value hvalue => hspells.isNatural hvalue⟩, hspells⟩
  · rintro ⟨⟨hfree, -⟩, hspells⟩
    obtain ⟨tokens, htokens, herase⟩ :=
      (Scan.exists_tokens_iff .start _).mpr (spells_iff.mp hspells)
    exact ⟨tokens, htokens, ofTokens_of_spelled hfree herase⟩

/-- **The sources of trees.** A text is read as a tree exactly when the tree is
free of nested blocks, text literals and negative integers and the text spells it.
Every such tree has a source, and two sources of one tree differ in blanks and
leading zeros only. -/
theorem ofSource_language :
    (∀ source block, ofSource source = .ok block ↔
      block.Over Literal.IsNatural ∧ Spells source.toList block.pieces) ∧
    (∀ block : Block, block.Over Literal.IsNatural → ∃ source, ofSource source = .ok block) ∧
    ∀ source source' block, ofSource source = .ok block → ofSource source' = .ok block →
      bare source.toList = bare source'.toList := by
  refine ⟨fun source block => ofSource_eq_ok_iff_spells, ?_, ?_⟩
  · intro block hover
    obtain ⟨cs, hcs⟩ := exists_spells (over_isNatural_iff.mp hover).2
    refine ⟨String.ofList cs, ofSource_eq_ok_iff_spells.mpr ⟨hover, ?_⟩⟩
    rwa [String.toList_ofList]
  · intro source source' block h h'
    -- both are what the tree leaves of them
    rw [(ofSource_eq_ok_iff_spells.mp h).2.bare_eq, (ofSource_eq_ok_iff_spells.mp h').2.bare_eq]

/-- The same tree with other gaps and more zeros. -/
theorem ofSource_language_gaps_and_zeros :
    ofSource "(01 2 +3)" = .ok ⟨[.group [.integer 1, .binary (.integer 2) .add (.integer 3)]]⟩ ∧
      bare "(01 2 +3)".toList = bare " ( 1\r2+ 003)\n".toList := by
  have h : ofSource "(01 2 +3)"
      = .ok ⟨[.group [.integer 1, .binary (.integer 2) .add (.integer 3)]]⟩ :=
    ofSource_eq_ok_iff.mpr ⟨_, rfl, ofTokens_eq_ok_iff_run.mpr rfl⟩
  have h' : ofSource " ( 1\r2+ 003)\n"
      = .ok ⟨[.group [.integer 1, .binary (.integer 2) .add (.integer 3)]]⟩ :=
    ofSource_eq_ok_iff.mpr ⟨_, rfl, ofTokens_eq_ok_iff_run.mpr rfl⟩
  exact ⟨h, ofSource_language.2.2 _ _ _ h h'⟩

end Block

end ArithTree
