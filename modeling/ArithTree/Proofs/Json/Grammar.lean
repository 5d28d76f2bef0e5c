/-!
# The grammar of JSON

What is JSON, and what is not. It is the whole grammar, and it does not know of the
values that trees need, nor of how they are written: numbers may have a fraction and
an exponent, strings may spell any character by its code, and blanks may stand around
every value.

Every form of the grammar is a relation between two texts. `Value cs rest` says that
`cs` is a value in front of `rest`, so that a form made of others is a chain of them,
each beginning with what the one before leaves.

* `Grammar.Number`, `Grammar.Text` — the values with characters of their own.
* `Grammar.Value` — a value, from its first character to its last.
* `Grammar.Element` — a value with the blanks around it.
* `WellFormed` — the texts that are an element in front of nothing.

`Grammar.Element.suffix` and its siblings say that what a form leaves is the end of
the text.
-/

namespace ArithTree

namespace Json

namespace Grammar

/-! ### Blanks -/

/-- The characters that may stand between the parts of a value. -/
def isSpace (c : Char) : Bool :=
  c == ' ' || c == '\t' || c == '\n' || c == '\r'

theorem isSpace_iff {c : Char} : isSpace c ↔ c = ' ' ∨ c = '\t' ∨ c = '\n' ∨ c = '\r' := by
  simp [isSpace, or_assoc]

/-- A run of blanks, or nothing. -/
def IsGap (gap : List Char) : Prop :=
  ∀ c ∈ gap, isSpace c

def Spaces (cs rest : List Char) : Prop :=
  ∃ gap, IsGap gap ∧ cs = gap ++ rest

/-! ### Numbers -/

/-- A run of digits. -/
def Digits (cs rest : List Char) : Prop :=
  ∃ ds, ds ≠ [] ∧ (∀ d ∈ ds, d.isDigit) ∧ cs = ds ++ rest

/-- A run of digits without needless zeros in front. -/
inductive Whole : List Char → List Char → Prop
  | zero {rest : List Char} : Whole ('0' :: rest) rest
  | positive {cs rest : List Char} (hzero : cs.head? ≠ some '0') (h : Digits cs rest) :
      Whole cs rest

inductive Fraction : List Char → List Char → Prop
  | absent {rest : List Char} : Fraction rest rest
  | digits {cs rest : List Char} (h : Digits cs rest) : Fraction ('.' :: cs) rest

inductive Sign : List Char → List Char → Prop
  | absent {rest : List Char} : Sign rest rest
  | present {c : Char} {rest : List Char} (hc : c = '+' ∨ c = '-') : Sign (c :: rest) rest

inductive Exponent : List Char → List Char → Prop
  | absent {rest : List Char} : Exponent rest rest
  | digits {e : Char} {cs ds rest : List Char} (he : e = 'e' ∨ e = 'E') (hsign : Sign cs ds)
      (h : Digits ds rest) : Exponent (e :: cs) rest

inductive Number : List Char → List Char → Prop
  | nonnegative {cs ds es rest : List Char} (hwhole : Whole cs ds) (hfraction : Fraction ds es)
      (hexponent : Exponent es rest) : Number cs rest
  | negative {cs ds es rest : List Char} (hwhole : Whole cs ds) (hfraction : Fraction ds es)
      (hexponent : Exponent es rest) : Number ('-' :: cs) rest

/-! ### Strings -/

def IsHexDigit (c : Char) : Prop :=
  c.isDigit ∨ ('a'.toNat ≤ c.toNat ∧ c.toNat ≤ 'f'.toNat) ∨
    ('A'.toNat ≤ c.toNat ∧ c.toNat ≤ 'F'.toNat)

instance (c : Char) : Decidable (IsHexDigit c) :=
  inferInstanceAs (Decidable (_ ∨ _ ∨ _))

/-- One character of a string: itself, or what a backslash and a letter stand for, or
its code. -/
inductive Character : List Char → List Char → Prop
  | plain {c : Char} {rest : List Char} (hquote : c ≠ '"') (hslash : c ≠ '\\')
      (hcontrol : 0x20 ≤ c.toNat) : Character (c :: rest) rest
  | short {c : Char} {rest : List Char} (h : c ∈ ['"', '\\', '/', 'b', 'f', 'n', 'r', 't']) :
      Character ('\\' :: c :: rest) rest
  | code {a b c d : Char} {rest : List Char}
      (h : IsHexDigit a ∧ IsHexDigit b ∧ IsHexDigit c ∧ IsHexDigit d) :
      Character ('\\' :: 'u' :: a :: b :: c :: d :: rest) rest

inductive Characters : List Char → List Char → Prop
  | nil {rest : List Char} : Characters rest rest
  | cons {cs ds rest : List Char} (h : Character cs ds) (hs : Characters ds rest) :
      Characters cs rest

/-- A string with its quotes. -/
inductive Text : List Char → List Char → Prop
  | mk {cs rest : List Char} (h : Characters cs ('"' :: rest)) : Text ('"' :: cs) rest

/-! ### Values -/

mutual

inductive Value : List Char → List Char → Prop
  | null {rest : List Char} : Value ("null".toList ++ rest) rest
  | yes {rest : List Char} : Value ("true".toList ++ rest) rest
  | no {rest : List Char} : Value ("false".toList ++ rest) rest
  | number {cs rest : List Char} (h : Number cs rest) : Value cs rest
  | text {cs rest : List Char} (h : Text cs rest) : Value cs rest
  | emptyArray {cs rest : List Char} (h : Spaces cs (']' :: rest)) : Value ('[' :: cs) rest
  | array {cs rest : List Char} (h : Elements cs (']' :: rest)) : Value ('[' :: cs) rest
  | emptyObject {cs rest : List Char} (h : Spaces cs ('\x7d' :: rest)) :
      Value ('\x7b' :: cs) rest
  | object {cs rest : List Char} (h : Members cs ('\x7d' :: rest)) : Value ('\x7b' :: cs) rest

/-- A value and the blanks around it. -/
inductive Element : List Char → List Char → Prop
  | mk {cs ds es rest : List Char} (hbefore : Spaces cs ds) (h : Value ds es)
      (hafter : Spaces es rest) : Element cs rest

/-- The items of an array that is not empty, with commas between them. -/
inductive Elements : List Char → List Char → Prop
  | one {cs rest : List Char} (h : Element cs rest) : Elements cs rest
  | more {cs ds rest : List Char} (h : Element cs (',' :: ds)) (hs : Elements ds rest) :
      Elements cs rest

/-- A field of an object: a name, a colon and a value. -/
inductive Member : List Char → List Char → Prop
  | mk {cs ds es fs rest : List Char} (hbefore : Spaces cs ds) (hname : Text ds es)
      (hcolon : Spaces es (':' :: fs)) (h : Element fs rest) : Member cs rest

/-- The fields of an object that is not empty, with commas between them. -/
inductive Members : List Char → List Char → Prop
  | one {cs rest : List Char} (h : Member cs rest) : Members cs rest
  | more {cs ds rest : List Char} (h : Member cs (',' :: ds)) (hs : Members ds rest) :
      Members cs rest

end

/-! ### What a form leaves -/

variable {c : Char} {cs rest : List Char}

/-- A form and one character behind it leave less than the form alone. -/
theorem suffix_of_cons (h : c :: rest <:+ cs) : rest <:+ cs :=
  (List.suffix_cons c rest).trans h

theorem Spaces.suffix (h : Spaces cs rest) : rest <:+ cs := by
  obtain ⟨gap, -, rfl⟩ := h
  exact List.suffix_append gap rest

theorem Digits.suffix (h : Digits cs rest) : rest <:+ cs := by
  obtain ⟨ds, -, -, rfl⟩ := h
  exact List.suffix_append ds rest

theorem Whole.suffix (h : Whole cs rest) : rest <:+ cs := by
  cases h with
  | zero => exact List.suffix_cons '0' rest
  | positive _ h => exact h.suffix

theorem Fraction.suffix (h : Fraction cs rest) : rest <:+ cs := by
  cases h with
  | absent => exact List.suffix_rfl
  | digits h => exact h.suffix.trans (List.suffix_cons '.' _)

theorem Sign.suffix (h : Sign cs rest) : rest <:+ cs := by
  cases h with
  | absent => exact List.suffix_rfl
  | @present c => exact List.suffix_cons c rest

theorem Exponent.suffix (h : Exponent cs rest) : rest <:+ cs := by
  cases h with
  | absent => exact List.suffix_rfl
  | @digits e _ _ _ _ hsign h => exact (h.suffix.trans hsign.suffix).trans (List.suffix_cons e _)

theorem Number.suffix (h : Number cs rest) : rest <:+ cs := by
  cases h with
  | nonnegative hwhole hfraction hexponent =>
    exact (hexponent.suffix.trans hfraction.suffix).trans hwhole.suffix
  | negative hwhole hfraction hexponent =>
    exact ((hexponent.suffix.trans hfraction.suffix).trans hwhole.suffix).trans
      (List.suffix_cons '-' _)

theorem Character.length_lt (h : Character cs rest) : rest.length < cs.length := by
  cases h
  all_goals simp only [List.length_cons]; omega

theorem Character.suffix (h : Character cs rest) : rest <:+ cs := by
  cases h with
  | @plain c => exact List.suffix_cons c rest
  | @short c => exact List.suffix_append ['\\', c] rest
  | @code a b c d => exact List.suffix_append ['\\', 'u', a, b, c, d] rest

theorem Characters.suffix (h : Characters cs rest) : rest <:+ cs := by
  induction h with
  | nil => exact List.suffix_rfl
  | cons h _ ih => exact ih.trans h.suffix

theorem Text.suffix (h : Text cs rest) : rest <:+ cs := by
  cases h with
  | mk h => exact (suffix_of_cons h.suffix).trans (List.suffix_cons '"' _)

mutual

theorem Value.suffix {cs rest : List Char} : Value cs rest → rest <:+ cs
  | .null | .yes | .no => List.suffix_append _ _
  | .number h => h.suffix
  | .text h => h.suffix
  | .emptyArray h | .emptyObject h => (suffix_of_cons h.suffix).trans (List.suffix_cons _ _)
  | .array h => (suffix_of_cons h.suffix).trans (List.suffix_cons _ _)
  | .object h => (suffix_of_cons h.suffix).trans (List.suffix_cons _ _)

theorem Element.suffix {cs rest : List Char} : Element cs rest → rest <:+ cs
  | .mk hbefore h hafter => (hafter.suffix.trans h.suffix).trans hbefore.suffix

theorem Elements.suffix {cs rest : List Char} : Elements cs rest → rest <:+ cs
  | .one h => h.suffix
  | .more h hs => hs.suffix.trans (suffix_of_cons h.suffix)

theorem Member.suffix {cs rest : List Char} : Member cs rest → rest <:+ cs
  | .mk hbefore hname hcolon h =>
    (h.suffix.trans (suffix_of_cons hcolon.suffix)).trans (hname.suffix.trans hbefore.suffix)

theorem Members.suffix {cs rest : List Char} : Members cs rest → rest <:+ cs
  | .one h => h.suffix
  | .more h hs => hs.suffix.trans (suffix_of_cons h.suffix)

end

end Grammar

/-- **The texts that are JSON.** -/
def WellFormed (text : String) : Prop := Grammar.Element text.toList []

end Json

end ArithTree
