import ArithTree.Token.Lexeme

/-!
# Runs of digits

`Lexeme.ofChars` grows a run of digits from its right end. Read from the left it
takes every digit there is: digits in front of a text that does not begin with
one are a lexeme of their own (`Lexeme.ofChars_digits`). `Lexeme.text_induction`
is induction along these cuts.

A run of digits is read for its value in base ten. `numeral zeros n` is the
decimal numeral of `n` with some more zeros in front of it, and every run is the
numeral of its value (`exists_eq_numeral`).
-/

namespace ArithTree

namespace Lexeme

variable {ds cs : List Char}

/-! ### Where a run ends -/

def StartsNoDigit (cs : List Char) : Prop :=
  ∀ c ∈ cs.head?, ¬ c.isDigit

theorem startsNoDigit_nil : StartsNoDigit [] := by simp [StartsNoDigit]

theorem startsNoDigit_cons {c : Char} : StartsNoDigit (c :: cs) ↔ ¬ c.isDigit := by
  simp [StartsNoDigit]

theorem ofChars_mark {c : Char} (hc : ¬ c.isDigit) :
    ofChars (c :: cs) = .mark c :: ofChars cs := by
  rw [ofChars, if_neg hc]

/-- A digit in front of anything but a digit is a run of its own. -/
theorem consDigit_ofChars (hcs : StartsNoDigit cs) (d : Char) :
    consDigit d (ofChars cs) = .number [d] :: ofChars cs := by
  cases cs with
  | nil => rfl
  | cons c cs =>
    rw [ofChars_mark (startsNoDigit_cons.mp hcs)]
    rfl

/-- **Runs are longest runs.** Digits in front of a text that does not begin with
one are one lexeme. -/
theorem ofChars_digits (hne : ds ≠ []) (hds : ∀ d ∈ ds, d.isDigit) (hcs : StartsNoDigit cs) :
    ofChars (ds ++ cs) = .number ds :: ofChars cs := by
  induction ds with
  | nil => exact absurd rfl hne
  | cons d ds ih =>
    rw [List.forall_mem_cons] at hds
    rw [List.cons_append, ofChars, if_pos hds.1]
    cases ds with
    | nil => exact consDigit_ofChars hcs d
    | cons e ds =>
      rw [ih (List.cons_ne_nil e ds) hds.2]
      rfl

/-- **Induction along the cuts**: a text is empty, or a character that is no digit
in front of a text, or a longest run of digits in front of a text. -/
@[elab_as_elim]
theorem text_induction {motive : List Char → Prop} (nil : motive [])
    (mark : ∀ c cs, ¬ c.isDigit → motive cs → motive (c :: cs))
    (number : ∀ ds cs, ds ≠ [] → (∀ d ∈ ds, d.isDigit) → StartsNoDigit cs → motive cs →
      motive (ds ++ cs))
    (cs : List Char) : motive cs := by
  -- the digits met since the last cut are carried along until their run ends
  suffices h : ∀ ds : List Char, (∀ d ∈ ds, d.isDigit) → motive (ds ++ cs) from
    h [] (by simp)
  induction cs with
  | nil =>
    intro ds hds
    cases ds with
    | nil => exact nil
    | cons d ds => exact number (d :: ds) [] (List.cons_ne_nil d ds) hds startsNoDigit_nil nil
  | cons c cs ih =>
    intro ds hds
    by_cases hc : c.isDigit
    · -- one more digit of the run
      rw [List.append_cons]
      exact ih (ds ++ [c]) (by simpa [or_imp, forall_and] using ⟨hds, hc⟩)
    · -- the run ends here, if there was one
      have hcut : motive (c :: cs) := mark c cs hc (ih [] (by simp))
      cases ds with
      | nil => exact hcut
      | cons d ds =>
        exact number (d :: ds) (c :: cs) (List.cons_ne_nil d ds) hds
          (startsNoDigit_cons.mpr hc) hcut

end Lexeme

/-! ### Numerals -/

/-- The decimal numeral of `n`, with `zeros` more zeros in front of it. -/
def numeral (zeros n : Nat) : List Char :=
  List.replicate zeros '0' ++ Nat.toDigits 10 n

theorem numeral_ne_nil (zeros n : Nat) : numeral zeros n ≠ [] := by
  simp [numeral, Nat.toDigits_ne_nil]

theorem isDigit_of_mem_numeral {zeros n : Nat} {d : Char} (hd : d ∈ numeral zeros n) :
    d.isDigit := by
  obtain hd | hd := List.mem_append.mp hd
  · obtain ⟨-, rfl⟩ := List.mem_replicate.mp hd
    decide
  · exact Nat.isDigit_of_mem_toDigits (by decide) (by decide) hd

@[simp] theorem ofDigitChars_numeral (zeros n : Nat) :
    Nat.ofDigitChars 10 (numeral zeros n) 0 = n := by
  unfold numeral
  rw [Nat.ofDigitChars_append, Nat.ofDigitChars_replicate_zero, Nat.mul_zero,
    Nat.ofDigitChars_ten_toDigits]

/-- A numeral without its leading zeros does not depend on how many they were. -/
theorem dropWhile_numeral (zeros n : Nat) :
    (numeral zeros n).dropWhile (· == '0') = (Nat.toDigits 10 n).dropWhile (· == '0') := by
  unfold numeral
  rw [List.dropWhile_append_of_pos]
  intro c hc
  simp [List.eq_of_mem_replicate hc]

theorem exists_digitChar {c : Char} (hc : c.isDigit) : ∃ d < 10, c = Nat.digitChar d := by
  obtain ⟨hlow, hhigh⟩ := Char.isDigit_iff_toNat.mp hc
  simp only [Char.reduceToNat] at hlow hhigh
  refine ⟨c.toNat - 48, by omega, Char.toNat_inj.mp ?_⟩
  rw [Nat.toNat_digitChar_of_lt_ten (by omega)]
  omega

/-- Digits behind the numeral of a positive number make a longer numeral. -/
theorem toDigits_append_digits {ds : List Char} {n : Nat} (hn : 0 < n)
    (hds : ∀ d ∈ ds, d.isDigit) :
    Nat.toDigits 10 n ++ ds = Nat.toDigits 10 (Nat.ofDigitChars 10 ds n) := by
  induction ds generalizing n with
  | nil => simp
  | cons c ds ih =>
    rw [List.forall_mem_cons] at hds
    obtain ⟨d, hd, rfl⟩ := exists_digitChar hds.1
    -- the value so far is positive, so its numeral grows by one digit
    have hstep : Nat.toDigits 10 n ++ [Nat.digitChar d] = Nat.toDigits 10 (10 * n + d) := by
      rw [← Nat.toDigits_of_lt_base hd, Nat.toDigits_append_toDigits (by decide) hn hd]
    rw [List.append_cons, hstep, ih (by omega) hds.2,
      Nat.ofDigitChars_cons_digitChar_of_lt_ten hd]

/-- **Every run of digits is a numeral of its value.** -/
theorem exists_eq_numeral {ds : List Char} (hne : ds ≠ []) (hds : ∀ d ∈ ds, d.isDigit) :
    ∃ zeros, ds = numeral zeros (Nat.ofDigitChars 10 ds 0) := by
  induction ds with
  | nil => exact absurd rfl hne
  | cons c ds ih =>
    rw [List.forall_mem_cons] at hds
    obtain ⟨d, hd, rfl⟩ := exists_digitChar hds.1
    rw [Nat.ofDigitChars_cons_digitChar_of_lt_ten hd, Nat.mul_zero, Nat.zero_add]
    by_cases hzero : d = 0
    · -- a zero is the numeral itself where it is the last digit, else it leads
      subst hzero
      by_cases hlast : ds = []
      · exact ⟨0, hlast ▸ rfl⟩
      · obtain ⟨zeros, hzeros⟩ := ih hlast hds.2
        refine ⟨zeros + 1, ?_⟩
        rw [numeral, List.replicate_succ, List.cons_append, ← numeral, ← hzeros]
        rfl
    · -- any other digit starts the numeral
      refine ⟨0, ?_⟩
      rw [numeral, ← toDigits_append_digits (Nat.pos_of_ne_zero hzero) hds.2,
        Nat.toDigits_of_lt_base hd]
      rfl

end ArithTree
