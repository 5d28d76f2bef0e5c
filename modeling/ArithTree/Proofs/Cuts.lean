import ArithTree.Proofs.Runs

/-!
# Where lexemes stand

`Lexeme.ofChars` cuts a text into lexemes. This module says what the cuts are
without cutting: a lexeme stands between two parts of a text (`Lexeme.Between`) if
it is a character other than a digit, or a run of digits with no digit next to it.
`Lexeme.At` is the same by the index at which the lexeme starts.

* `Lexeme.ofChars_append` — a text may be cut in two wherever no run is torn.
* `Lexeme.at_iff` — the lexemes of a text are those that stand in it;
  `Lexeme.at_append_iff` — and those of two texts side by side stand in one of them.
* `Lexeme.cut_induction` — induction along the cuts, with one case for a lexeme of
  either kind in front of a text. `Lexeme.at_cut` says which lexemes stand in such
  a text, and `Lexeme.At.unique` that at most one starts at an index.
* `Lexeme.Starts` — where the lexemes of one sort start, from left to right.
-/

namespace ArithTree

namespace Lexeme

variable {front back cs ds : List Char} {x y : Lexeme} {i : Nat}

/-! ### Texts side by side -/

def EndsNoDigit (cs : List Char) : Prop :=
  ∀ c ∈ cs.getLast?, ¬ c.isDigit

theorem endsNoDigit_nil : EndsNoDigit [] := by simp [EndsNoDigit]

theorem EndsNoDigit.of_cons {c : Char} (h : EndsNoDigit (c :: cs)) : EndsNoDigit cs := by
  intro d hd
  refine h d ?_
  rw [List.getLast?_cons, Option.mem_def.mp hd]
  rfl

theorem EndsNoDigit.append (hback : EndsNoDigit back) (hfront : back = [] → EndsNoDigit front) :
    EndsNoDigit (front ++ back) := by
  intro d hd
  rw [List.getLast?_append] at hd
  cases back with
  | nil => exact hfront rfl d (by simpa using hd)
  | cons c back =>
    refine hback d ?_
    simpa [List.getLast?_cons] using hd

theorem ofChars_ne_nil (hne : cs ≠ []) : ofChars cs ≠ [] := by
  intro h
  have hflat := flatten_ofChars cs
  rw [h] at hflat
  exact hne hflat.symm

/-- A digit joins the first of the lexemes, or stands before it: either way the
lexemes after the first do not matter. -/
theorem consDigit_append {xs : List Lexeme} (hne : xs ≠ []) (d : Char) (ys : List Lexeme) :
    consDigit d (xs ++ ys) = consDigit d xs ++ ys := by
  cases xs with
  | nil => exact absurd rfl hne
  | cons x xs => cases x <;> rfl

/-- **Where no run is torn, a text may be cut in two.** -/
theorem ofChars_append (h : EndsNoDigit front ∨ StartsNoDigit back) :
    ofChars (front ++ back) = ofChars front ++ ofChars back := by
  induction front with
  | nil => rfl
  | cons c front ih =>
    have ih := ih (h.imp_left EndsNoDigit.of_cons)
    rw [List.cons_append, ofChars, ofChars, ih]
    by_cases hc : c.isDigit
    · rw [if_pos hc, if_pos hc]
      by_cases hfront : front = []
      · -- `c` is the last digit of the front, so no digit follows
        subst hfront
        have hback : StartsNoDigit back := by
          refine h.resolve_left fun hend => ?_
          exact hend c (by simp) hc
        exact consDigit_ofChars hback c
      · exact consDigit_append (ofChars_ne_nil hfront) c _
    · rw [if_neg hc, if_neg hc]
      rfl

/-! ### Lexemes in a text -/

/-- **A longest run of digits** between two parts of a text: no digit is next to
it. -/
structure IsRun (front ds back : List Char) : Prop where
  ne_nil : ds ≠ []
  digits : ∀ d ∈ ds, d.isDigit
  left : EndsNoDigit front
  right : StartsNoDigit back

/-- **A lexeme stands between two parts of a text.** -/
inductive Between (front : List Char) : Lexeme → List Char → Prop
  | number {ds back : List Char} (h : IsRun front ds back) : Between front (.number ds) back
  | mark {c : Char} {back : List Char} (hc : ¬ c.isDigit) : Between front (.mark c) back

/-- **A lexeme stands in a text at an index.** -/
def At (cs : List Char) (i : Nat) (x : Lexeme) : Prop :=
  ∃ front back, cs = front ++ (x.chars ++ back) ∧ front.length = i ∧ Between front x back

theorem Between.chars_ne_nil (h : Between front x back) : x.chars ≠ [] := by
  cases h with
  | number h => exact h.ne_nil
  | mark hc => exact List.cons_ne_nil _ _

/-- What stands in a text is cut out of it. -/
theorem Between.ofChars_eq (h : Between front x back) :
    ofChars (front ++ (x.chars ++ back)) = ofChars front ++ x :: ofChars back := by
  cases h with
  | number h =>
    rw [ofChars_append (.inl h.left), chars, ofChars_digits h.ne_nil h.digits h.right]
  | @mark c back hc =>
    rw [chars, List.singleton_append, ofChars_append (.inr (startsNoDigit_cons.mpr hc)),
      ofChars_mark hc]

/-- A lexeme at the start of a text may stand in front of another one: the text
behind a run does not start with a digit. -/
theorem Between.prepend (hy : Between [] y (front ++ (x.chars ++ back)))
    (hx : Between front x back) : Between (y.chars ++ front) x back := by
  cases hx with
  | mark hc => exact .mark hc
  | @number ds back h =>
    refine .number ⟨h.ne_nil, h.digits, h.left.append fun hfront => ?_, h.right⟩
    cases hy with
    | mark hc => simpa [EndsNoDigit, chars] using hc
    | number hrun =>
      -- two runs side by side
      obtain ⟨d, ds, rfl⟩ := List.exists_cons_of_ne_nil h.ne_nil
      have hstart := hrun.right
      rw [hfront] at hstart
      exact absurd (h.digits d List.mem_cons_self) (startsNoDigit_cons.mp hstart)

/-- **Induction along the cuts**: a text is empty, or a lexeme in front of a
text. -/
@[elab_as_elim]
theorem cut_induction {motive : List Char → Prop} (nil : motive [])
    (cut : ∀ x cs, Between [] x cs → motive cs → motive (x.chars ++ cs)) (cs : List Char) :
    motive cs := by
  induction cs using text_induction with
  | nil => exact nil
  | mark c cs hc ih => exact cut (.mark c) cs (.mark hc) ih
  | number ds cs hne hds hcs ih =>
    exact cut (.number ds) cs (.number ⟨hne, hds, endsNoDigit_nil, hcs⟩) ih

theorem ofChars_cut (h : Between [] x cs) : ofChars (x.chars ++ cs) = x :: ofChars cs :=
  h.ofChars_eq

/-- **The lexemes of a text are those that stand in it**, each where the lexemes
before it end. -/
theorem at_iff :
    At cs i x ↔ ∃ before after, ofChars cs = before ++ x :: after ∧
      (before.flatMap chars).length = i := by
  constructor
  · rintro ⟨front, back, rfl, rfl, h⟩
    exact ⟨ofChars front, ofChars back, h.ofChars_eq, by rw [flatten_ofChars]⟩
  · rintro ⟨before, after, hcs, rfl⟩
    induction cs using cut_induction generalizing before with
    | nil => simp [ofChars] at hcs
    | cut y cs hy ih =>
      rw [ofChars_cut hy] at hcs
      cases before with
      | nil =>
        obtain ⟨rfl, -⟩ := List.cons.inj hcs
        exact ⟨[], cs, rfl, rfl, hy⟩
      | cons z before =>
        obtain ⟨rfl, hrest⟩ := List.cons.inj hcs
        obtain ⟨front, back, rfl, hlen, hx⟩ := ih before hrest
        refine ⟨y.chars ++ front, back, (List.append_assoc ..).symm, ?_, hy.prepend hx⟩
        rw [List.length_append, hlen, List.flatMap_cons, List.length_append]

/-- **Side by side**: where no run is torn, a lexeme of two texts stands in one of them. -/
theorem at_append_iff (h : EndsNoDigit front ∨ StartsNoDigit back) :
    At (front ++ back) i x ↔ At front i x ∨ ∃ j, i = front.length + j ∧ At back j x := by
  simp only [at_iff, ofChars_append h]
  constructor
  · rintro ⟨before, after, hcs, rfl⟩
    obtain ⟨mid, rfl, hback⟩ | ⟨mid, hfront, hmid⟩ := List.append_eq_append_iff.mp hcs
    · refine .inr ⟨(mid.flatMap chars).length, ?_, mid, after, hback, rfl⟩
      rw [List.flatMap_append, List.length_append, flatten_ofChars]
    · cases mid with
      | nil =>
        -- the lexeme is the first one of the back
        rw [List.append_nil] at hfront
        refine .inr ⟨0, ?_, [], after, hmid.symm, rfl⟩
        rw [← hfront, flatten_ofChars, Nat.add_zero]
      | cons y mid =>
        obtain ⟨rfl, -⟩ := List.cons.inj hmid
        exact .inl ⟨before, mid, hfront, rfl⟩
  · rintro (⟨before, after, hfront, rfl⟩ | ⟨-, rfl, before, after, hback, rfl⟩)
    · exact ⟨before, after ++ ofChars back, by rw [hfront, List.append_assoc]; rfl, rfl⟩
    · refine ⟨ofChars front ++ before, after, by rw [hback, List.append_assoc], ?_⟩
      rw [List.flatMap_append, List.length_append, flatten_ofChars]

/-! ### One lexeme after the other -/

theorem not_at_nil : ¬ At [] i x := by
  rw [at_iff]
  simp [ofChars]

/-- **Behind one cut**: a lexeme of the text is the first one or stands behind
it. -/
theorem at_cut (hx : Between [] x cs) :
    At (x.chars ++ cs) i y ↔ i = 0 ∧ y = x ∨ ∃ j, i = x.chars.length + j ∧ At cs j y := by
  simp only [at_iff, ofChars_cut hx]
  constructor
  · rintro ⟨before, after, hcs, rfl⟩
    cases before with
    | nil => exact .inl ⟨rfl, (List.cons.inj hcs).1.symm⟩
    | cons z before =>
      obtain ⟨rfl, hrest⟩ := List.cons.inj hcs
      exact .inr ⟨_, by rw [List.flatMap_cons, List.length_append], before, after, hrest, rfl⟩
  · rintro (⟨rfl, rfl⟩ | ⟨-, rfl, before, after, hcs, rfl⟩)
    · exact ⟨[], ofChars cs, rfl, rfl⟩
    · exact ⟨x :: before, after, by rw [hcs, List.cons_append], by
        rw [List.flatMap_cons, List.length_append]⟩

/-- **At most one lexeme starts at an index.** -/
theorem At.unique (hx : At cs i x) (hy : At cs i y) : x = y := by
  induction cs using cut_induction generalizing i with
  | nil => exact absurd hx not_at_nil
  | cut z cs hz ih =>
    have hlen : 0 < z.chars.length := List.length_pos_iff.mpr hz.chars_ne_nil
    obtain ⟨rfl, rfl⟩ | ⟨j, rfl, hxj⟩ := (at_cut hz).mp hx
    · obtain ⟨-, rfl⟩ | ⟨j, hj, -⟩ := (at_cut hz).mp hy
      · rfl
      · omega
    · obtain ⟨hj, -⟩ | ⟨k, hk, hyk⟩ := (at_cut hz).mp hy
      · omega
      · obtain rfl : j = k := by omega
        exact ih hxj hyk

/-- **The starts of the lexemes of a text** that have a property, each once and in the
order of the text. -/
structure Starts (p : Lexeme → Prop) (cs : List Char) (starts : List Nat) : Prop where
  sorted : starts.Pairwise (· < ·)
  mem_iff : ∀ i, i ∈ starts ↔ ∃ x, At cs i x ∧ p x

namespace Starts

variable {p : Lexeme → Prop} {starts : List Nat}

theorem nil : Starts p [] [] :=
  ⟨.nil, by simp [not_at_nil]⟩

/-- A lexeme in front moves the starts behind it by its length. -/
theorem skip (h : Starts p cs starts) (hx : Between [] x cs) (hp : ¬ p x) :
    Starts p (x.chars ++ cs) (starts.map (x.chars.length + ·)) := by
  refine ⟨h.sorted.map _ fun i j hij => Nat.add_lt_add_left hij _, fun i => ?_⟩
  simp only [List.mem_map, h.mem_iff, at_cut hx]
  constructor
  · rintro ⟨j, ⟨y, hy, hpy⟩, rfl⟩
    exact ⟨y, .inr ⟨j, rfl, hy⟩, hpy⟩
  · rintro ⟨y, ⟨-, rfl⟩ | ⟨j, rfl, hy⟩, hpy⟩
    · exact absurd hpy hp
    · exact ⟨j, ⟨y, hy, hpy⟩, rfl⟩

/-- A lexeme in front that has the property starts before all others. -/
theorem cons (h : Starts p cs starts) (hx : Between [] x cs) (hp : p x) :
    Starts p (x.chars ++ cs) (0 :: starts.map (x.chars.length + ·)) := by
  have hlen : 0 < x.chars.length := List.length_pos_iff.mpr hx.chars_ne_nil
  refine ⟨List.pairwise_cons.mpr ⟨fun i hi => ?_, ?_⟩, fun i => ?_⟩
  · obtain ⟨j, -, rfl⟩ := List.mem_map.mp hi
    exact Nat.add_pos_left hlen j
  · exact h.sorted.map _ fun i j hij => Nat.add_lt_add_left hij _
  · simp only [List.mem_cons, List.mem_map, h.mem_iff, at_cut hx]
    constructor
    · rintro (rfl | ⟨j, ⟨y, hy, hpy⟩, rfl⟩)
      · exact ⟨x, .inl ⟨rfl, rfl⟩, hp⟩
      · exact ⟨y, .inr ⟨j, rfl, hy⟩, hpy⟩
    · rintro ⟨y, ⟨rfl, -⟩ | ⟨j, rfl, hy⟩, hpy⟩
      · exact .inl rfl
      · exact .inr ⟨j, ⟨y, hy, hpy⟩, rfl⟩

end Starts

end Lexeme

end ArithTree
