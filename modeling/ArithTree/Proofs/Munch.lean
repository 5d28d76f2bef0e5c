import ArithTree.Proofs.Scans
import ArithTree.Proofs.Sources
import Mathlib.Algebra.Group.Nat.Defs

/-!
# Longest runs and leftmost faults

What a source text is as tokens can be said without scanning it. In the text stand
longest runs of digits and characters that are no digits (`Lexeme.At`).

* `Lexeme.Denotes` — the token that a lexeme stands for: the integer of a run in
  base ten, an operator, a parenthesis. Blanks stand for nothing.
* `Lexeme.Faulty` — the cause for which a lexeme is refused: a run whose value does
  not fit an integer, and every character that is neither a blank nor a token.
* `Legible` — the texts without a fault, by their characters and their runs alone.

`tokenize_maximal_munch` says that these are the tokens of a text, in the order in
which their lexemes start and with nothing besides, and that a text that is not
legible fails with the fault that starts leftmost. `Lexeme.reading_eq_token_iff` and
`Lexeme.reading_eq_refused_iff` tie the two tables to what a scan makes of a lexeme.
-/

namespace ArithTree

/-! ### What lexemes stand for -/

/-- A character that is legible by itself: a blank, an operator or a
parenthesis. -/
def IsMark (c : Char) : Prop :=
  isBlank c ∨ (∃ o : Operator, c = o.symbol) ∨ c = '(' ∨ c = ')'

/-- The characters that are kept for later. -/
def IsReserved (c : Char) : Prop :=
  (c.isAlpha ∨ c = '_') ∨ (c = '\x27' ∨ c = '"') ∨ c ∈ ['\x7b', '\x7d', '[', ']']

namespace Lexeme

/-- **The token that a lexeme stands for.** -/
inductive Denotes : Lexeme → Token.Kind → Option Token.Value → Prop
  /-- A run of digits is the integer with its value in base ten. -/
  | integer {ds : List Char} {n : Int64} (h : n.toInt = Nat.ofDigitChars 10 ds 0) :
      Denotes (.number ds) .integer (some (.integer n))
  | operator (o : Operator) : Denotes (.mark o.symbol) .operator (some (.symbol o.symbol))
  | opening : Denotes (.mark '(') .leftParen none
  | closing : Denotes (.mark ')') .rightParen none

/-- **The cause for which a lexeme is refused.** -/
inductive Faulty : Lexeme → Cause → Prop
  | outOfRange {ds : List Char} (h : 2 ^ 63 - 1 < Nat.ofDigitChars 10 ds 0) :
      Faulty (.number ds) (.malformed (.integerOutOfRange (String.ofList ds)))
  | identifier {c : Char} (h : c.isAlpha ∨ c = '_') :
      Faulty (.mark c) (.unimplemented .identifier)
  | stringLiteral {c : Char} (h : c = '\x27' ∨ c = '"') :
      Faulty (.mark c) (.unimplemented .stringLiteral)
  | bracket {c : Char} (h : c ∈ ['\x7b', '\x7d', '[', ']']) :
      Faulty (.mark c) (.unimplemented .bracket)
  /-- Any other character. -/
  | unrecognized {c : Char} (h : ¬ (c.isDigit ∨ IsMark c ∨ IsReserved c)) :
      Faulty (.mark c) (.malformed (.unrecognizedCharacter c))

end Lexeme

/-- **The texts without a fault**: all characters are digits or legible by
themselves, and the value of every longest run of digits fits an integer. -/
structure Legible (cs : List Char) : Prop where
  chars : ∀ c ∈ cs, c.isDigit ∨ IsMark c
  runs : ∀ front ds back, cs = front ++ (ds ++ back) → Lexeme.IsRun front ds back →
    Nat.ofDigitChars 10 ds 0 ≤ 2 ^ 63 - 1

/-! ### The tables and the reading of a lexeme -/

namespace Lexeme

variable {front back cs ds : List Char} {c : Char} {x : Lexeme} {cause : Cause}
  {kind : Token.Kind} {value : Option Token.Value}

theorem lt_integerBound_iff {n : Nat} : n < integerBound ↔ n ≤ 2 ^ 63 - 1 := by
  unfold integerBound
  omega

/-- A character that is not legible by itself is refused, for one of four causes. -/
theorem readMark_of_not_isMark (hc : ¬ IsMark c) :
    readMark c = if c.isAlpha ∨ c = '_' then .refused (.unimplemented .identifier)
      else if c = '\x27' ∨ c = '"' then .refused (.unimplemented .stringLiteral)
      else if c = '\x7b' ∨ c = '\x7d' ∨ c = '[' ∨ c = ']' then
        .refused (.unimplemented .bracket)
      else .refused (.malformed (.unrecognizedCharacter c)) := by
  simp only [IsMark, not_or, not_exists] at hc
  obtain ⟨hblank, hoperator, hopening, hclosing⟩ := hc
  have hbreak : ¬ (c = ' ' ∨ Text.isLineBreak c) := by
    simpa [isBlank, Text.isLineBreak, or_assoc] using hblank
  have hsymbol : ¬ (Operator.ofSymbol? c).isSome := by
    intro h
    obtain ⟨o, ho⟩ := Option.isSome_iff_exists.mp h
    exact hoperator o (Operator.ofSymbol?_eq_some_iff.mp ho)
  rw [readMark, if_neg hbreak, if_neg hsymbol, if_neg hopening, if_neg hclosing]

theorem readMark_ne_refused (hc : IsMark c) : readMark c ≠ .refused cause := by
  obtain hblank | ⟨o, rfl⟩ | rfl | rfl := hc
  · obtain rfl | rfl | rfl := isBlank_iff.mp hblank
    all_goals exact nofun
  · cases o <;> exact nofun
  · exact nofun
  · exact nofun

theorem not_isMark_of_isReserved (hc : IsReserved c) : ¬ IsMark c := by
  rintro (hblank | ⟨o, rfl⟩ | rfl | rfl)
  · obtain rfl | rfl | rfl := isBlank_iff.mp hblank
    all_goals revert hc; simp [IsReserved]
  · cases o <;> revert hc <;> simp [IsReserved, Operator.symbol]
  · revert hc; simp [IsReserved]
  · revert hc; simp [IsReserved]

theorem Faulty.not_isMark (h : Faulty (.mark c) cause) : ¬ IsMark c := by
  cases h with
  | identifier h => exact not_isMark_of_isReserved (.inl h)
  | stringLiteral h => exact not_isMark_of_isReserved (.inr (.inl h))
  | bracket h => exact not_isMark_of_isReserved (.inr (.inr h))
  | unrecognized h => exact fun hmark => h (.inr (.inl hmark))

theorem readMark_eq_refused_iff (hc : ¬ c.isDigit) :
    readMark c = .refused cause ↔ Faulty (.mark c) cause := by
  constructor
  · intro h
    have hmark : ¬ IsMark c := fun hmark => readMark_ne_refused hmark h
    rw [readMark_of_not_isMark hmark] at h
    split at h
    · next halpha => cases h; exact .identifier halpha
    split at h
    · next hquote => cases h; exact .stringLiteral hquote
    split at h
    · next hbracket => cases h; exact .bracket (by simpa using hbracket)
    · next halpha hquote hbracket =>
      cases h
      -- all that is known was asked for
      refine .unrecognized ?_
      rintro (hdigit | h | h | h | h)
      · exact hc hdigit
      · exact hmark h
      · exact halpha h
      · exact hquote h
      · exact hbracket (by simpa using h)
  · -- of the questions that are asked first, none applies
    intro h
    rw [readMark_of_not_isMark h.not_isMark]
    cases h with
    | identifier h => rw [if_pos h]
    | stringLiteral h =>
      obtain rfl | rfl := h
      all_goals rfl
    | bracket h =>
      simp only [List.mem_cons, List.not_mem_nil, or_false] at h
      obtain rfl | rfl | rfl | rfl := h
      all_goals rfl
    | unrecognized h =>
      simp only [IsReserved, List.mem_cons, List.not_mem_nil, or_false, not_or] at h
      obtain ⟨-, -, halpha, hquote, hbracket⟩ := h
      rw [if_neg (not_or.mpr halpha), if_neg (not_or.mpr hquote),
        if_neg (by simpa only [not_or] using hbracket)]

theorem readMark_eq_token_iff :
    readMark c = .token kind value ↔ Denotes (.mark c) kind value := by
  constructor
  · intro h
    obtain ⟨-, hr⟩ | ⟨o, rfl, hr⟩ | ⟨rfl, hr⟩ | ⟨rfl, hr⟩ | ⟨cause, hr⟩ := readMark_cases c
    all_goals rw [hr] at h; cases h
    · exact .operator o
    · exact .opening
    · exact .closing
  · intro h
    generalize hx : Lexeme.mark c = x at h
    cases h with
    | integer => cases hx
    | operator o => cases hx; cases o <;> rfl
    | opening | closing => cases hx; rfl

theorem readNumber_eq_token_iff :
    readNumber ds = .token kind value ↔ Denotes (.number ds) kind value := by
  constructor
  · intro h
    by_cases hbound : Nat.ofDigitChars 10 ds 0 < integerBound
    · rw [readNumber, if_pos hbound] at h
      cases h
      exact .integer (Int64.toInt_ofNat_of_lt hbound)
    · rw [readNumber, if_neg hbound] at h
      cases h
  · intro h
    cases h with
    | @integer _ n h =>
      have hlt := n.toInt_lt
      have hbound : Nat.ofDigitChars 10 ds 0 < integerBound := by
        unfold integerBound
        omega
      have hn : Int64.ofNat (Nat.ofDigitChars 10 ds 0) = n :=
        Int64.toInt_inj.mp ((Int64.toInt_ofNat_of_lt hbound).trans h.symm)
      rw [readNumber, if_pos hbound, hn]

theorem readNumber_eq_refused_iff :
    readNumber ds = .refused cause ↔ Faulty (.number ds) cause := by
  constructor
  · intro h
    by_cases hbound : Nat.ofDigitChars 10 ds 0 < integerBound
    · rw [readNumber, if_pos hbound] at h
      cases h
    · rw [readNumber, if_neg hbound] at h
      cases h
      exact .outOfRange (Nat.lt_of_not_le fun hle => hbound (lt_integerBound_iff.mpr hle))
  · intro h
    cases h with
    | outOfRange h =>
      have hbound : ¬ Nat.ofDigitChars 10 ds 0 < integerBound := fun hbound =>
        absurd (lt_integerBound_iff.mp hbound) (Nat.not_le_of_lt h)
      rw [readNumber, if_neg hbound]

/-- **The token of a lexeme** is the one that it stands for. -/
theorem reading_eq_token_iff :
    x.reading = .token kind value ↔ x.Denotes kind value := by
  cases x with
  | number ds => exact readNumber_eq_token_iff
  | mark c => exact readMark_eq_token_iff

/-- **The fault of a lexeme** that stands in a text. -/
theorem At.reading_eq_refused_iff {i : Nat} (hx : At cs i x) :
    x.reading = .refused cause ↔ x.Faulty cause := by
  obtain ⟨front, back, -, -, hx⟩ := hx
  cases hx with
  | number h => exact readNumber_eq_refused_iff
  | mark hc => exact readMark_eq_refused_iff hc

/-! ### Legible texts -/

/-- A character that is no digit stands in a text as a lexeme. -/
theorem exists_at_mark (hmem : c ∈ cs) (hc : ¬ c.isDigit) : ∃ i, At cs i (.mark c) := by
  obtain ⟨front, back, rfl⟩ := List.append_of_mem hmem
  exact ⟨front.length, front, back, rfl, rfl, .mark hc⟩

/-- Every character that is not legible has a cause. -/
theorem exists_faulty (hc : ¬ c.isDigit) (hmark : ¬ IsMark c) :
    ∃ cause, Faulty (.mark c) cause := by
  obtain ⟨h, -⟩ | ⟨o, h, -⟩ | ⟨h, -⟩ | ⟨h, -⟩ | ⟨cause, hr⟩ := readMark_cases c
  · exact absurd (.inl h) hmark
  · exact absurd (.inr (.inl ⟨o, h⟩)) hmark
  · exact absurd (.inr (.inr (.inl h))) hmark
  · exact absurd (.inr (.inr (.inr h))) hmark
  · exact ⟨cause, (readMark_eq_refused_iff hc).mp hr⟩

/-- **Legible texts are those without a faulty lexeme.** -/
theorem legible_iff : Legible cs ↔ ∀ i x cause, At cs i x → ¬ x.Faulty cause := by
  constructor
  · rintro ⟨hchars, hruns⟩ i x cause ⟨front, back, rfl, -, hx⟩ hfault
    cases hx with
    | number hrun =>
      cases hfault with
      | outOfRange h => exact absurd (hruns front _ back rfl hrun) (Nat.not_le_of_lt h)
    | @mark c back hc =>
      have hmem : c ∈ front ++ (chars (.mark c) ++ back) := by simp [chars]
      exact hfault.not_isMark ((hchars c hmem).resolve_left hc)
  · -- a character or a run that breaks the rules is a lexeme with a fault
    intro h
    refine ⟨fun c hmem => ?_, ?_⟩
    · by_cases hc : c.isDigit
      · exact .inl hc
      by_cases hmark : IsMark c
      · exact .inr hmark
      obtain ⟨i, hi⟩ := exists_at_mark hmem hc
      obtain ⟨cause, hcause⟩ := exists_faulty hc hmark
      exact absurd hcause (h i _ cause hi)
    · rintro front ds back rfl hrun
      have hat : At (front ++ (ds ++ back)) front.length (.number ds) :=
        ⟨front, back, rfl, rfl, .number hrun⟩
      exact Nat.le_of_not_lt fun hlt => h _ _ _ hat (.outOfRange hlt)

end Lexeme

/-! ### The tokens and the fault of a text -/

open Lexeme (At anchorAt)

variable {source : String} {tokens : List Token} {cause : Cause}

theorem exists_tokenize_iff : (∃ tokens, tokenize source = .ok tokens) ↔ Legible source.toList := by
  have hfault : (∃ tokens, tokenize source = .ok tokens) ↔ (Scan.ofSource source).fault = none := by
    simp [tokenize, Scan.result_eq_ok_iff]
  rw [hfault, Scan.ofSource, Scan.fault_eq_none_iff, Lexeme.legible_iff]
  constructor
  · exact fun h i x cause hx hf => h i x cause hx (hx.reading_eq_refused_iff.mpr hf)
  · exact fun h i x cause hx hr => h i x cause hx (hx.reading_eq_refused_iff.mp hr)

theorem exists_starts_of_tokenize (h : tokenize source = .ok tokens) :
    ∃ starts : List Nat, starts.Pairwise (· < ·) ∧
      (∀ i, i ∈ starts ↔ ∃ x kind value, At source.toList i x ∧ x.Denotes kind value) ∧
      List.Forall₂ (fun i t => ∃ x, At source.toList i x ∧ x.Denotes t.kind t.value)
        starts tokens := by
  obtain ⟨hfault, rfl⟩ := Scan.result_eq_ok_iff.mp h
  obtain ⟨starts, hstarts, hfound⟩ := Scan.exists_starts hfault
  refine ⟨starts, hstarts.sorted, fun i => ?_, hfound.imp ?_⟩
  · simp only [hstarts.mem_iff, Lexeme.reading_eq_token_iff, exists_and_left]
  · rintro i t ⟨x, hx, hreading, -⟩
    exact ⟨x, hx, Lexeme.reading_eq_token_iff.mp hreading⟩

/-- Every token of a text stands for a lexeme of it, and has the place of the lexeme. -/
theorem exists_denotes_of_mem {t : Token} (h : tokenize source = .ok tokens) (ht : t ∈ tokens) :
    ∃ i x, At source.toList i x ∧ x.Denotes t.kind t.value ∧
      t.position = anchorAt .start source.toList i x := by
  obtain ⟨hfault, rfl⟩ := Scan.result_eq_ok_iff.mp h
  obtain ⟨i, x, hx, hreading, hposition⟩ := Scan.exists_foundAt hfault ht
  exact ⟨i, x, hx, Lexeme.reading_eq_token_iff.mp hreading, hposition⟩

/-- A fault that starts leftmost is the one that the text fails with. -/
theorem exists_tokenize_eq_error_iff :
    (∃ place, tokenize source = .error ⟨cause, place⟩) ↔
      ∃ i x, At source.toList i x ∧ x.Faulty cause ∧
        ∀ j y cause', At source.toList j y → y.Faulty cause' → i ≤ j := by
  constructor
  · rintro ⟨place, h⟩
    obtain ⟨i, x, hx, hreading, -, hleft⟩ :=
      Scan.exists_of_fault (Scan.result_eq_error_iff.mp h)
    refine ⟨i, x, hx, hx.reading_eq_refused_iff.mp hreading, fun j y cause' hy hf => ?_⟩
    exact hleft j y cause' hy (hy.reading_eq_refused_iff.mpr hf)
  · rintro ⟨i, x, hx, hfaulty, hleft⟩
    have hreading : x.reading = .refused cause := hx.reading_eq_refused_iff.mpr hfaulty
    have hfirst : ∀ j y cause', At source.toList j y → y.reading = .refused cause' → i ≤ j := by
      intro j y cause' hy hr
      exact hleft j y cause' hy (hy.reading_eq_refused_iff.mp hr)
    exact ⟨_, Scan.result_eq_error_iff.mpr (Scan.fault_eq_some_of_first hx hreading hfirst)⟩

/-- **Maximal munch and leftmost faults.** A text becomes tokens exactly when it is
legible. The tokens are then those that its lexemes stand for: one for each longest
run of digits, each operator and each parenthesis, in the order in which these
start, and no others. A text that is not legible fails with the cause of its
leftmost fault. -/
theorem tokenize_maximal_munch (source : String) :
    ((∃ tokens, tokenize source = .ok tokens) ↔ Legible source.toList) ∧
    (∀ tokens, tokenize source = .ok tokens →
      ∃ starts : List Nat, starts.Pairwise (· < ·) ∧
        (∀ i, i ∈ starts ↔ ∃ x kind value, At source.toList i x ∧ x.Denotes kind value) ∧
        List.Forall₂ (fun i t => ∃ x, At source.toList i x ∧ x.Denotes t.kind t.value)
          starts tokens) ∧
    ∀ cause, (∃ place, tokenize source = .error ⟨cause, place⟩) ↔
      ∃ i x, At source.toList i x ∧ x.Faulty cause ∧
        ∀ j y cause', At source.toList j y → y.Faulty cause' → i ≤ j :=
  ⟨exists_tokenize_iff, fun _ h => exists_starts_of_tokenize h,
    fun _ => exists_tokenize_eq_error_iff⟩

/-- The largest integer with zeros in front of it, next to a parenthesis. -/
theorem tokenize_maximal_munch_largest_integer :
    ∃ tokens, tokenize "-(009223372036854775807" = .ok tokens ∧
      ∃ starts : List Nat, starts.Pairwise (· < ·) ∧
        (∀ i, i ∈ starts ↔ ∃ x kind value,
          At "-(009223372036854775807".toList i x ∧ x.Denotes kind value) ∧
        List.Forall₂ (fun i t => ∃ x, At "-(009223372036854775807".toList i x ∧
          x.Denotes t.kind t.value) starts tokens := by
  have h : tokenize "-(009223372036854775807" = .ok
      [⟨.operator, ⟨0, 0, 0⟩, some (.symbol '-')⟩, ⟨.leftParen, ⟨1, 0, 1⟩, none⟩,
        ⟨.integer, ⟨23, 0, 23⟩, some (.integer 9223372036854775807)⟩] := rfl
  exact ⟨_, h, (tokenize_maximal_munch _).2.1 _ h⟩

end ArithTree
