import ArithTree.Proofs.Json.Reader
import ArithTree.Proofs.Runs

/-!
# Written values are read back

`Json.write` puts the text of a value in front of a text that follows. `readValue`
takes the value off again and leaves that text, for every value and at every depth
(`Json.readValue_write`), and so the text of a value alone is read back as the value
(`Json.ofText?_write`). Nothing is asked of the layout but that it puts only blanks
between values (`Layout.Spaced`).

Three things could stand in the way, and each has a lemma of its own.

* A number has no end of its own. It is read back in front of a text that does not
  begin with a digit (`readNumber_toString`).
* A character can be written in three ways (`escape_cases`), and which one was taken
  shows in its first two characters (`readCharacter_escape`).
* An empty array is told from another by what stands behind the blanks. No value
  begins with a blank or a bracket that closes (`exists_write_eq_cons`).
-/

namespace ArithTree

namespace Json

open Grammar
open Lexeme (StartsNoDigit startsNoDigit_cons)

variable {rest : List Char}

/-! ### Numbers -/

theorem toList_toString_ofNat (n : Nat) :
    (toString (Int.ofNat n)).toList = Nat.toDigits 10 n := by
  simp [toString, Int.repr, Nat.repr]

theorem toList_toString_negSucc (n : Nat) :
    (toString (Int.negSucc n)).toList = '-' :: Nat.toDigits 10 (n + 1) := by
  simp [toString, Int.repr, Nat.repr]

/-- A numeral begins with a digit, which is a zero only in the numeral of zero. -/
theorem exists_toDigits_eq_cons (n : Nat) :
    ∃ d ds, Nat.toDigits 10 n = d :: ds ∧ d.isDigit ∧ (0 < n → d ≠ '0') := by
  induction n using Nat.strongRecOn with
  | ind n ih =>
    by_cases hlt : n < 10
    · have hdigits : Nat.toDigits 10 n = [Nat.digitChar n] := Nat.toDigits_of_lt_base hlt
      have hmem : Nat.digitChar n ∈ Nat.toDigits 10 n := by simp [hdigits]
      refine ⟨Nat.digitChar n, [], hdigits,
        Nat.isDigit_of_mem_toDigits (by decide) (by decide) hmem, ?_⟩
      intro hn hzero
      have hcode := congrArg Char.toNat hzero
      rw [Nat.toNat_digitChar_of_lt_ten hlt] at hcode
      simp only [Char.reduceToNat] at hcode
      omega
    · -- the first digit is the one of a tenth of the number
      obtain ⟨d, ds, hdigits, hd, hzero⟩ := ih (n / 10) (by omega)
      rw [Nat.toDigits_of_base_le (by decide) (Nat.le_of_not_lt hlt), hdigits]
      exact ⟨d, _, rfl, hd, fun _ => hzero (by omega)⟩

theorem exists_toString_eq_cons (n : Int) :
    ∃ c cs, (toString n).toList = c :: cs ∧ (c.isDigit ∨ c = '-') := by
  cases n with
  | ofNat n =>
    obtain ⟨d, ds, hcons, hd, -⟩ := exists_toDigits_eq_cons n
    exact ⟨d, ds, (toList_toString_ofNat n).trans hcons, .inl hd⟩
  | negSucc n => exact ⟨'-', _, toList_toString_negSucc n, .inr rfl⟩

section

variable {ds : List Char}

theorem takeWhile_digits (hds : ∀ d ∈ ds, d.isDigit) (hrest : StartsNoDigit rest) :
    (ds ++ rest).takeWhile Char.isDigit = ds := by
  rw [List.takeWhile_append_of_pos hds]
  cases rest with
  | nil => exact List.append_nil ds
  | cons c cs =>
    rw [List.takeWhile_cons_of_neg (startsNoDigit_cons.mp hrest), List.append_nil]

theorem dropWhile_digits (hds : ∀ d ∈ ds, d.isDigit) (hrest : StartsNoDigit rest) :
    (ds ++ rest).dropWhile Char.isDigit = rest := by
  rw [List.dropWhile_append_of_pos hds]
  cases rest with
  | nil => rfl
  | cons c cs => exact List.dropWhile_cons_of_neg (startsNoDigit_cons.mp hrest)

end

theorem readWhole_toDigits (n : Nat) (hrest : StartsNoDigit rest) :
    Gives (readWhole (Nat.toDigits 10 n ++ rest)) n rest := by
  obtain rfl | hn := Nat.eq_zero_or_pos n
  · exact gives_some rfl rfl
  have hdigits : ∀ d ∈ Nat.toDigits 10 n, d.isDigit := fun d hd =>
    Nat.isDigit_of_mem_toDigits (by decide) (by decide) hd
  have htake := takeWhile_digits hdigits hrest
  have hrun : (Nat.toDigits 10 n ++ rest).takeWhile Char.isDigit ≠ [] := by
    rw [htake]
    exact Nat.toDigits_ne_nil
  have hhead : (Nat.toDigits 10 n ++ rest).head? ≠ some '0' := by
    obtain ⟨d, ds, hcons, -, hzero⟩ := exists_toDigits_eq_cons n
    rw [hcons]
    exact fun h => hzero hn (Option.some.inj h)
  rw [readWhole, dif_pos ⟨hhead, hrun⟩]
  · refine gives_some ?_ (dropWhile_digits hdigits hrest)
    exact (congrArg (Nat.ofDigitChars 10 · 0) htake).trans Nat.ofDigitChars_ten_toDigits
  · intro cs hcs
    rw [hcs] at hhead
    exact hhead rfl

/-- **Numbers are read back** in front of whatever does not go on with a digit. -/
theorem readNumber_toString (n : Int) (hrest : StartsNoDigit rest) :
    Gives (readNumber ((toString n).toList ++ rest)) n rest := by
  cases n with
  | ofNat n =>
    obtain ⟨hwhole, hread⟩ := readWhole_toDigits n hrest
    rw [toList_toString_ofNat, readNumber, hread]
    · exact gives_some rfl rfl
    · intro cs hcs
      -- a numeral does not begin with a sign
      obtain ⟨d, ds, hcons, hd, -⟩ := exists_toDigits_eq_cons n
      rw [hcons] at hcs
      obtain rfl := (List.cons.inj hcs).1
      exact absurd hd (by decide)
  | negSucc n =>
    obtain ⟨hwhole, hread⟩ := readWhole_toDigits (n + 1) hrest
    rw [toList_toString_negSucc, List.cons_append, readNumber, hread]
    exact gives_some rfl rfl

/-! ### Strings -/

/-- **The three ways to write a character**: with a backslash and a letter, by its
code, or as itself. -/
theorem escape_cases (c : Char) :
    (∃ e ∈ ['"', '\\', '/', 'b', 'f', 'n', 'r', 't'], escape c = ['\\', e] ∧ unescape e = c) ∨
    (c.toNat < 0x20 ∧ escape c =
      ['\\', 'u', '0', '0', Nat.digitChar (c.toNat / 16), Nat.digitChar (c.toNat % 16)]) ∨
    ((c ≠ '"' ∧ c ≠ '\\' ∧ 0x20 ≤ c.toNat) ∧ escape c = [c]) := by
  unfold escape
  split
  · next h => exact .inl ⟨'"', by decide, rfl, h.symm⟩
  split
  · next h => exact .inl ⟨'\\', by decide, rfl, h.symm⟩
  split
  · next h => exact .inl ⟨'b', by decide, rfl, h.symm⟩
  split
  · next h => exact .inl ⟨'f', by decide, rfl, h.symm⟩
  split
  · next h => exact .inl ⟨'n', by decide, rfl, h.symm⟩
  split
  · next h => exact .inl ⟨'r', by decide, rfl, h.symm⟩
  split
  · next h => exact .inl ⟨'t', by decide, rfl, h.symm⟩
  split
  · next h => exact .inr (.inl ⟨h, rfl⟩)
  · next hquote hslash _ _ _ _ _ h =>
    exact .inr (.inr ⟨⟨hquote, hslash, Nat.le_of_not_lt h⟩, rfl⟩)

/-- The code of a control character is read as the character. -/
theorem ofCode?_control : ∀ n < 0x20,
    (IsHexDigit '0' ∧ IsHexDigit '0' ∧ IsHexDigit (Nat.digitChar (n / 16)) ∧
      IsHexDigit (Nat.digitChar (n % 16))) ∧
    ofCode? ['0', '0', Nat.digitChar (n / 16), Nat.digitChar (n % 16)] = some (Char.ofNat n) := by
  decide

theorem readCharacter_escape (c : Char) (rest : List Char) :
    Gives (readCharacter (escape c ++ rest)) c rest := by
  obtain ⟨e, he, hescape, rfl⟩ | ⟨hcontrol, hescape⟩ | ⟨hplain, hescape⟩ := escape_cases c
  · rw [hescape]
    simp only [List.mem_cons, List.not_mem_nil, or_false] at he
    obtain rfl | rfl | rfl | rfl | rfl | rfl | rfl | rfl := he
    all_goals exact gives_some rfl rfl
  · obtain ⟨hhex, hcode⟩ := ofCode?_control c.toNat hcontrol
    rw [Char.ofNat_toNat] at hcode
    rw [hescape]
    simp only [List.cons_append, List.nil_append]
    rw [readCharacter, dif_pos hhex, hcode]
    exact gives_some rfl rfl
  · rw [hescape, List.singleton_append, readCharacter, dif_pos hplain]
    · exact gives_some rfl rfl
    · intro a b d e cs hslash
      exact absurd hslash hplain.2.1
    · intro d cs hslash
      exact absurd hslash hplain.2.1

theorem readCharacters_flatMap_escape (cs rest : List Char) :
    Gives (readCharacters (cs.flatMap escape ++ '"' :: rest)) cs rest := by
  induction cs with
  | nil =>
    rw [List.flatMap_nil, List.nil_append, readCharacters]
    exact gives_some rfl rfl
  | cons c cs ih =>
    obtain ⟨hfirst, hread⟩ := readCharacter_escape c (cs.flatMap escape ++ '"' :: rest)
    obtain ⟨hothers, ih⟩ := ih
    rw [List.flatMap_cons, List.append_assoc, readCharacters, hread]
    · simp only [Option.bind_eq_bind, Option.bind_some]
      rw [ih]
      exact gives_some rfl rfl
    · intro cs' hquote
      -- no character is read from a quote
      have hnone : readCharacter ('"' :: cs') = none := rfl
      rw [← hquote, hread] at hnone
      cases hnone

/-- **Strings are read back**, whatever characters they have. -/
theorem readText_quote (s : String) (rest : List Char) :
    Gives (readText (quote s ++ rest)) s rest := by
  obtain ⟨hbody, hread⟩ := readCharacters_flatMap_escape s.toList rest
  have htext : quote s ++ rest = '"' :: (s.toList.flatMap escape ++ '"' :: rest) := by
    simp [quote]
  rw [htext, readText, hread]
  exact gives_some String.ofList_toList rfl

/-! ### Layouts -/

/-- A layout that puts nothing but blanks between values. -/
structure Layout.Spaced (layout : Layout) : Prop where
  gap : ∀ depth, IsGap (layout.gap depth)
  afterColon : IsGap layout.afterColon

theorem Layout.indented_spaced : Layout.indented.Spaced := by
  refine ⟨fun depth c hc => ?_, fun c hc => ?_⟩
  · obtain rfl | hc := List.mem_cons.mp hc
    · decide
    · rw [List.eq_of_mem_replicate hc]
      decide
  · rw [List.mem_singleton.mp hc]
    decide

/-! ### Values -/

variable {c : Char} {layout : Layout} {depth : Nat} {value : Json} {gap before after : List Char}

/-- The characters that a value can begin with. -/
def StartsValue (c : Char) : Prop :=
  c.isDigit ∨ c ∈ ['-', '"', '[', '\x7b']

/-- Blanks and brackets that close are not among them. -/
theorem StartsValue.ne (hc : StartsValue c) : ¬ isSpace c ∧ c ≠ ']' := by
  constructor
  · intro hspace
    obtain rfl | rfl | rfl | rfl := isSpace_iff.mp hspace
    all_goals revert hc; unfold StartsValue; decide
  · rintro rfl
    revert hc
    unfold StartsValue
    decide

theorem exists_write_eq_cons (layout : Layout) (depth : Nat) (value : Json) (rest : List Char) :
    ∃ c cs, value.write layout depth rest = c :: cs ∧ StartsValue c := by
  match value with
  | .number n =>
    obtain ⟨c, cs, hcons, hc⟩ := exists_toString_eq_cons n
    refine ⟨c, cs ++ rest, by rw [write, hcons, List.cons_append], ?_⟩
    obtain hc | rfl := hc
    · exact .inl hc
    · exact .inr (by decide)
  | .text s => exact ⟨'"', _, by rw [write, quote]; rfl, .inr (by decide)⟩
  | .array [] => exact ⟨'[', _, by rw [write], .inr (by decide)⟩
  | .array (item :: items) => exact ⟨'[', _, by rw [write]; rfl, .inr (by decide)⟩
  | .object [] => exact ⟨'\x7b', _, by rw [write], .inr (by decide)⟩
  | .object ((name, value) :: fields) => exact ⟨'\x7b', _, by rw [write]; rfl, .inr (by decide)⟩

/-! The fields of an object, in the order in which they are read. -/

theorem write_object_cons (layout : Layout) (depth : Nat) (name : String) (value : Json)
    (fields : List (String × Json)) (rest : List Char) :
    (object ((name, value) :: fields)).write layout depth rest =
      '\x7b' :: (layout.gap (depth + 1) ++ (quote name ++ ':' :: (layout.afterColon ++
        value.write layout (depth + 1)
          (writeFields layout (depth + 1) fields (layout.gap depth ++ '\x7d' :: rest))))) := by
  simp [write]

theorem writeFields_cons (layout : Layout) (depth : Nat) (name : String) (value : Json)
    (fields : List (String × Json)) (rest : List Char) :
    writeFields layout depth ((name, value) :: fields) rest =
      ',' :: (layout.gap depth ++ (quote name ++ ':' :: (layout.afterColon ++
        value.write layout depth (writeFields layout depth fields rest)))) := by
  simp [writeFields]

theorem startsNoDigit_gap (hgap : IsGap gap) (hc : ¬ c.isDigit) :
    StartsNoDigit (gap ++ c :: rest) := by
  cases gap with
  | nil => exact startsNoDigit_cons.mpr hc
  | cons d gap =>
    have hd : isSpace d := hgap d (List.mem_cons_self ..)
    rw [List.cons_append, startsNoDigit_cons]
    obtain rfl | rfl | rfl | rfl := isSpace_iff.mp hd
    all_goals decide

/-- The value is read back in front of whatever does not go on with a digit. -/
def ReadsBack (layout : Layout) (depth : Nat) (value : Json) : Prop :=
  ∀ rest, StartsNoDigit rest → Gives (readValue (value.write layout depth rest)) value rest

namespace ReadsBack

theorem element (hvalue : ReadsBack layout depth value) (hbefore : IsGap before)
    (hafter : IsGap after) (hc : ¬ isSpace c ∧ ¬ c.isDigit) :
    Gives (readElement (before ++ value.write layout depth (after ++ c :: rest))) value
      (c :: rest) := by
  have hread := hvalue (after ++ c :: rest) (startsNoDigit_gap hafter hc.2)
  obtain ⟨d, ds, hcons, hd⟩ := exists_write_eq_cons layout depth value (after ++ c :: rest)
  rw [hcons] at hread ⊢
  have helement := readElement_gap hbefore hd.ne.1 hread
  rwa [dropWhile_gap hafter hc.1] at helement

theorem member (hvalue : ReadsBack layout depth value) (hlayout : layout.Spaced)
    (hbefore : IsGap before) (hafter : IsGap after) (name : String)
    (hc : ¬ isSpace c ∧ ¬ c.isDigit) :
    Gives (readMember (before ++ (quote name ++ ':' :: (layout.afterColon ++
      value.write layout depth (after ++ c :: rest))))) (name, value) (c :: rest) :=
  readMember_gap hbefore (readText_quote name _) (hvalue.element hlayout.afterColon hafter hc)

end ReadsBack

mutual

/-- **Values are read back** in front of whatever does not go on with a digit. -/
theorem readValue_write (hlayout : layout.Spaced) (depth : Nat) (value : Json) :
    ReadsBack layout depth value := by
  intro rest hrest
  match value with
  | .number n =>
    have hread := readNumber_toString n hrest
    obtain ⟨c, cs, hcons, hc⟩ := exists_toString_eq_cons n
    rw [write]
    rw [hcons] at hread ⊢
    exact readValue_number hc hread
  | .text s =>
    rw [write]
    exact readValue_text (readText_quote s rest)
  | .array [] =>
    rw [write]
    exact readValue_emptyArray
  | .array (item :: items) =>
    have hgap := hlayout.gap (depth + 1)
    obtain ⟨c, cs, hcons, hc⟩ := exists_write_eq_cons layout (depth + 1) item
      (writeItems layout (depth + 1) items (layout.gap depth ++ ']' :: rest))
    rw [write, List.cons_append]
    refine readValue_array ?_ (readElements_write hlayout hgap (hlayout.gap depth) _ item items)
    -- what stands behind the blanks belongs to the first item
    rw [hcons]
    exact readMark_of_ne hgap hc.ne.1 hc.ne.2
  | .object [] =>
    rw [write]
    exact readValue_emptyObject
  | .object ((name, value) :: fields) =>
    have hgap := hlayout.gap (depth + 1)
    rw [write_object_cons]
    refine readValue_object ?_
      (readMembers_write hlayout hgap (hlayout.gap depth) _ name value fields)
    -- what stands behind the blanks is the quote of the first name
    exact readMark_of_ne hgap (by decide) (by decide)
termination_by sizeOf value

theorem readElements_write (hlayout : layout.Spaced) {before after rest : List Char}
    (hbefore : IsGap before) (hafter : IsGap after) (depth : Nat) (item : Json)
    (items : List Json) :
    Gives (readElements (before ++ item.write layout depth
      (writeItems layout depth items (after ++ ']' :: rest)))) (item :: items) rest := by
  have hitem := readValue_write hlayout depth item
  match items with
  | [] =>
    rw [writeItems]
    exact readElements_one (hitem.element hbefore hafter (by decide))
  | next :: items =>
    rw [writeItems, List.cons_append]
    exact readElements_more (hitem.element hbefore isGap_nil (by decide))
      (readElements_write hlayout (hlayout.gap depth) hafter depth next items)
termination_by sizeOf item + sizeOf items + 1

theorem readMembers_write (hlayout : layout.Spaced) {before after rest : List Char}
    (hbefore : IsGap before) (hafter : IsGap after) (depth : Nat) (name : String) (value : Json)
    (fields : List (String × Json)) :
    Gives (readMembers (before ++ (quote name ++ ':' :: (layout.afterColon ++
      value.write layout depth (writeFields layout depth fields (after ++ '\x7d' :: rest))))))
        ((name, value) :: fields) rest := by
  have hvalue := readValue_write hlayout depth value
  match fields with
  | [] =>
    rw [writeFields]
    exact readMembers_one (hvalue.member hlayout hbefore hafter name (by decide))
  | (next, other) :: fields =>
    rw [writeFields_cons]
    exact readMembers_more (hvalue.member hlayout hbefore isGap_nil name (by decide))
      (readMembers_write hlayout (hlayout.gap depth) hafter depth next other fields)
termination_by sizeOf value + sizeOf fields + 1

end

/-! ### Texts -/

/-- **The text of a value is read as the value**, in every layout that is spaced. -/
theorem ofText?_write (hlayout : layout.Spaced) (value : Json) :
    ofText? (String.ofList (value.write layout 0 [])) = some value := by
  have hread := readValue_write hlayout 0 value [] Lexeme.startsNoDigit_nil
  obtain ⟨c, cs, hcons, hc⟩ := exists_write_eq_cons layout 0 value []
  rw [hcons] at hread ⊢
  refine ofText?_eq_some ?_
  rw [String.toList_ofList]
  exact readElement_gap isGap_nil hc.ne.1 hread

@[simp] theorem ofText?_pretty (value : Json) : ofText? value.pretty = some value :=
  ofText?_write Layout.indented_spaced value

end Json

end ArithTree
