import ArithTree.Json.Basic
import ArithTree.Proofs.Json.Grammar

/-!
# Reading JSON

`Json.ofText?` reads a text back. There is one reader for each form of the grammar,
and every reader hands back what it left together with a proof that the text in
front of that has the form (`Json.Read`). So only JSON is ever accepted
(`Json.wellFormed_of_ofText?`), and the recursion ends because what a form leaves is
the end of the text.

All JSON that stands for a `Json` is read, wherever it has its blanks and however it
spells its characters. There is no value for a number with a fraction or an exponent,
for the words `null`, `true` and `false`, nor for a character that is spelled as two
surrogates: these are refused.
-/

namespace ArithTree

namespace Json

open Grammar

/-- **What a reader hands back**: a value, the text that is left after it, and what
is known of that text. -/
structure Read (α : Type) (Leaves : List Char → Prop) where
  value : α
  rest : List Char
  leaves : Leaves rest

/-- Takes one more character, which has to be `c`. -/
def Read.next? {α : Type} {Leaves : List Char → Prop} (c : Char) :
    Read α Leaves → Option (Read α fun rest => Leaves (c :: rest))
  | ⟨_, [], _⟩ => none
  | ⟨value, d :: rest, h⟩ => if hd : d = c then some ⟨value, rest, hd ▸ h⟩ else none

/-! ### Blanks -/

/-- Leaves out the blanks at the start. -/
def skipSpaces (cs : List Char) : Read Unit (Spaces cs) :=
  ⟨(), cs.dropWhile isSpace, cs.takeWhile isSpace, List.all_eq_true.mp List.all_takeWhile,
    List.takeWhile_append_dropWhile.symm⟩

/-- Reads the character `c`, which stands behind blanks. -/
def readMark (c : Char) (cs : List Char) : Option (Read Unit fun rest => Spaces cs (c :: rest)) :=
  (skipSpaces cs).next? c

/-! ### Numbers -/

def readWhole : (cs : List Char) → Option (Read Nat (Whole cs))
  | '0' :: rest => some ⟨0, rest, .zero⟩
  | cs =>
    let ds := cs.takeWhile Char.isDigit
    if h : cs.head? ≠ some '0' ∧ ds ≠ [] then
      some ⟨Nat.ofDigitChars 10 ds 0, cs.dropWhile Char.isDigit, .positive h.1
        ⟨ds, h.2, List.all_eq_true.mp List.all_takeWhile, List.takeWhile_append_dropWhile.symm⟩⟩
    else none

def readNumber : (cs : List Char) → Option (Read Int (Number cs))
  | '-' :: cs => do
    let n ← readWhole cs
    return ⟨-n.value, n.rest, .negative n.leaves .absent .absent⟩
  | cs => do
    let n ← readWhole cs
    return ⟨n.value, n.rest, .nonnegative n.leaves .absent .absent⟩

/-! ### Strings -/

/-- The character that a backslash and `c` stand for. -/
def unescape : Char → Char
  | 'b' => '\x08'
  | 'f' => '\x0c'
  | 'n' => '\n'
  | 'r' => '\r'
  | 't' => '\t'
  | c => c

/-- The value of a hexadecimal digit. -/
def hexValue (c : Char) : Nat :=
  if c.isDigit then c.toNat - '0'.toNat
  else if 'a'.toNat ≤ c.toNat then c.toNat - 'a'.toNat + 10
  else c.toNat - 'A'.toNat + 10

/-- The character whose code is spelled by hexadecimal digits. -/
def ofCode? (ds : List Char) : Option Char :=
  let n := ds.foldl (fun n d => 16 * n + hexValue d) 0
  if n.isValidChar then some (Char.ofNat n) else none

/-- Reads one character of a string. -/
def readCharacter : (cs : List Char) → Option (Read Char (Character cs))
  | '\\' :: 'u' :: a :: b :: c :: d :: rest =>
    if h : IsHexDigit a ∧ IsHexDigit b ∧ IsHexDigit c ∧ IsHexDigit d then do
      let value ← ofCode? [a, b, c, d]
      return ⟨value, rest, .code h⟩
    else none
  | '\\' :: c :: rest =>
    if h : c ∈ ['"', '\\', '/', 'b', 'f', 'n', 'r', 't'] then
      some ⟨unescape c, rest, .short h⟩
    else none
  | c :: rest =>
    if h : c ≠ '"' ∧ c ≠ '\\' ∧ 0x20 ≤ c.toNat then
      some ⟨c, rest, .plain h.1 h.2.1 h.2.2⟩
    else none
  | [] => none

/-- Reads the characters of a string and the quote behind them. -/
def readCharacters :
    (cs : List Char) → Option (Read (List Char) fun rest => Characters cs ('"' :: rest))
  | '"' :: rest => some ⟨[], rest, .nil⟩
  | cs => do
    let first ← readCharacter cs
    let others ← readCharacters first.rest
    return ⟨first.value :: others.value, others.rest, .cons first.leaves others.leaves⟩
termination_by cs => cs.length
decreasing_by exact first.leaves.length_lt

def readText : (cs : List Char) → Option (Read String (Text cs))
  | '"' :: cs => do
    let body ← readCharacters cs
    return ⟨String.ofList body.value, body.rest, .mk body.leaves⟩
  | _ => none

/-! ### Values

The readers of an element, of its value and of a list of elements call each other on
the same text. Three times the length leaves room for an order among them: a list comes
above its elements, and an element above its value. -/

mutual

/-- Reads a value. -/
def readValue : (cs : List Char) → Option (Read Json (Value cs))
  | '"' :: cs => do
    let s ← readText ('"' :: cs)
    return ⟨.text s.value, s.rest, .text s.leaves⟩
  | '[' :: cs =>
    match readMark ']' cs with
    | some ⟨_, rest, h⟩ => some ⟨.array [], rest, .emptyArray h⟩
    | none => do
      let items ← readElements cs
      return ⟨.array items.value, items.rest, .array items.leaves⟩
  | '\x7b' :: cs =>
    match readMark '\x7d' cs with
    | some ⟨_, rest, h⟩ => some ⟨.object [], rest, .emptyObject h⟩
    | none => do
      let fields ← readMembers cs
      return ⟨.object fields.value, fields.rest, .object fields.leaves⟩
  | cs => do
    let n ← readNumber cs
    return ⟨.number n.value, n.rest, .number n.leaves⟩
termination_by cs => 3 * cs.length

/-- Reads a value and the blanks around it. -/
def readElement (cs : List Char) : Option (Read Json (Element cs)) := do
  let ⟨_, start, hstart⟩ := skipSpaces cs
  let value ← readValue start
  let ⟨_, rest, hrest⟩ := skipSpaces value.rest
  return ⟨value.value, rest, .mk hstart value.leaves hrest⟩
termination_by 3 * cs.length + 1
decreasing_by
  have hskip := hstart.suffix.length_le
  omega

/-- Reads the items of an array and the bracket behind them. -/
def readElements (cs : List Char) :
    Option (Read (List Json) fun rest => Elements cs (']' :: rest)) := do
  let item ← readElement cs
  match item.next? ']' with
  | some last => return ⟨[last.value], last.rest, .one last.leaves⟩
  | none =>
    let comma ← item.next? ','
    let items ← readElements comma.rest
    return ⟨comma.value :: items.value, items.rest, .more comma.leaves items.leaves⟩
termination_by 3 * cs.length + 2
decreasing_by
  · omega
  · have hcomma := comma.leaves.suffix.length_le
    rw [List.length_cons] at hcomma
    omega

/-- Reads a field of an object. -/
def readMember (cs : List Char) : Option (Read (String × Json) (Member cs)) := do
  let ⟨_, start, hstart⟩ := skipSpaces cs
  let name ← readText start
  let colon ← readMark ':' name.rest
  let value ← readElement colon.rest
  return ⟨(name.value, value.value), value.rest,
    .mk hstart name.leaves colon.leaves value.leaves⟩
termination_by 3 * cs.length + 1
decreasing_by
  have hds := colon.leaves.suffix.length_le
  have hname := name.leaves.suffix.length_le
  have hskip := hstart.suffix.length_le
  rw [List.length_cons] at hds
  omega

/-- Reads the fields of an object and the brace behind them. -/
def readMembers (cs : List Char) :
    Option (Read (List (String × Json)) fun rest => Members cs ('\x7d' :: rest)) := do
  let field ← readMember cs
  match field.next? '\x7d' with
  | some last => return ⟨[last.value], last.rest, .one last.leaves⟩
  | none =>
    let comma ← field.next? ','
    let fields ← readMembers comma.rest
    return ⟨comma.value :: fields.value, fields.rest, .more comma.leaves fields.leaves⟩
termination_by 3 * cs.length + 2
decreasing_by
  · omega
  · have hcomma := comma.leaves.suffix.length_le
    rw [List.length_cons] at hcomma
    omega

end

/-! ### What the readers do

The readers follow the rules of the grammar, one rule at a time. -/

variable {α : Type} {Leaves : List Char → Prop} {c d : Char} {cs ds gap rest : List Char}

/-- The reader hands back the value and leaves the rest. -/
def Gives (result : Option (Read α Leaves)) (value : α) (rest : List Char) : Prop :=
  ∃ leaves, result = some ⟨value, rest, leaves⟩

theorem gives_some {read : Read α Leaves} {value : α} (hvalue : read.value = value)
    (hrest : read.rest = rest) : Gives (some read) value rest := by
  subst hvalue hrest
  exact ⟨read.leaves, rfl⟩

theorem isGap_nil : IsGap [] := nofun

theorem dropWhile_gap (hgap : IsGap gap) (hc : ¬ isSpace c) :
    (gap ++ c :: rest).dropWhile isSpace = c :: rest := by
  rw [List.dropWhile_append_of_pos hgap, List.dropWhile_cons_of_neg hc]

theorem next?_self {value : α} (h : Leaves (c :: rest)) :
    (⟨value, c :: rest, h⟩ : Read α Leaves).next? c = some ⟨value, rest, h⟩ :=
  dif_pos rfl

theorem next?_of_ne {value : α} (h : Leaves (d :: rest)) (hdc : d ≠ c) :
    (⟨value, d :: rest, h⟩ : Read α Leaves).next? c = none :=
  dif_neg hdc

theorem skipSpaces_gap (hgap : IsGap gap) (hc : ¬ isSpace c) (rest : List Char) :
    ∃ h, skipSpaces (gap ++ c :: rest) = ⟨(), c :: rest, h⟩ := by
  refine ⟨⟨gap, hgap, rfl⟩, ?_⟩
  unfold skipSpaces
  congr 1
  exact dropWhile_gap hgap hc

theorem readMark_self (hgap : IsGap gap) (hc : ¬ isSpace c) :
    Gives (readMark c (gap ++ c :: rest)) () rest := by
  obtain ⟨h, hskip⟩ := skipSpaces_gap hgap hc rest
  rw [readMark, hskip, next?_self]
  exact gives_some rfl rfl

theorem readMark_of_ne (hgap : IsGap gap) (hd : ¬ isSpace d) (hdc : d ≠ c) :
    readMark c (gap ++ d :: rest) = none := by
  obtain ⟨h, hskip⟩ := skipSpaces_gap hgap hd rest
  rw [readMark, hskip, next?_of_ne h hdc]

theorem readValue_number {n : Int} (hc : c.isDigit ∨ c = '-')
    (h : Gives (readNumber (c :: cs)) n rest) : Gives (readValue (c :: cs)) (.number n) rest := by
  obtain ⟨hn, hread⟩ := h
  rw [readValue, hread]
  · exact gives_some rfl rfl
  -- no other kind of value begins with a digit or a sign
  all_goals
    intro cs' hcs
    obtain rfl := (List.cons.inj hcs).1
    exact absurd hc (by decide)

theorem readValue_text {s : String} (h : Gives (readText ('"' :: cs)) s rest) :
    Gives (readValue ('"' :: cs)) (.text s) rest := by
  obtain ⟨hs, hread⟩ := h
  rw [readValue, hread]
  exact gives_some rfl rfl

theorem readValue_emptyArray : Gives (readValue ('[' :: ']' :: rest)) (.array []) rest := by
  obtain ⟨h, hmark⟩ : Gives (readMark ']' (']' :: rest)) () rest :=
    readMark_self isGap_nil (by decide)
  rw [readValue, hmark]
  exact gives_some rfl rfl

theorem readValue_array {items : List Json} (hmark : readMark ']' cs = none)
    (h : Gives (readElements cs) items rest) :
    Gives (readValue ('[' :: cs)) (.array items) rest := by
  obtain ⟨hitems, hread⟩ := h
  rw [readValue, hmark]
  dsimp only
  rw [hread]
  exact gives_some rfl rfl

theorem readValue_emptyObject :
    Gives (readValue ('\x7b' :: '\x7d' :: rest)) (.object []) rest := by
  obtain ⟨h, hmark⟩ : Gives (readMark '\x7d' ('\x7d' :: rest)) () rest :=
    readMark_self isGap_nil (by decide)
  rw [readValue, hmark]
  exact gives_some rfl rfl

theorem readValue_object {fields : List (String × Json)} (hmark : readMark '\x7d' cs = none)
    (h : Gives (readMembers cs) fields rest) :
    Gives (readValue ('\x7b' :: cs)) (.object fields) rest := by
  obtain ⟨hfields, hread⟩ := h
  rw [readValue, hmark]
  dsimp only
  rw [hread]
  exact gives_some rfl rfl

theorem readElement_gap {value : Json} (hgap : IsGap gap) (hc : ¬ isSpace c)
    (h : Gives (readValue (c :: cs)) value rest) :
    Gives (readElement (gap ++ c :: cs)) value (rest.dropWhile isSpace) := by
  obtain ⟨hvalue, hread⟩ := h
  obtain ⟨hstart, hskip⟩ := skipSpaces_gap hgap hc cs
  rw [readElement, hskip]
  dsimp only
  rw [hread]
  exact gives_some rfl rfl

theorem readElements_one {item : Json} (h : Gives (readElement cs) item (']' :: rest)) :
    Gives (readElements cs) [item] rest := by
  obtain ⟨hitem, hread⟩ := h
  rw [readElements, hread]
  exact gives_some rfl rfl

theorem readElements_more {item : Json} {items : List Json}
    (h : Gives (readElement cs) item (',' :: ds)) (hs : Gives (readElements ds) items rest) :
    Gives (readElements cs) (item :: items) rest := by
  obtain ⟨hitem, hread⟩ := h
  obtain ⟨hitems, hothers⟩ := hs
  rw [readElements, hread]
  simp only [Option.bind_eq_bind, Option.bind_some]
  rw [next?_of_ne hitem (by decide), next?_self hitem]
  simp only [Option.bind_some]
  rw [hothers]
  exact gives_some rfl rfl

theorem readMember_gap {name : String} {value : Json} (hgap : IsGap gap)
    (hname : Gives (readText ('"' :: cs)) name (':' :: ds))
    (h : Gives (readElement ds) value rest) :
    Gives (readMember (gap ++ '"' :: cs)) (name, value) rest := by
  obtain ⟨htext, hname⟩ := hname
  obtain ⟨hvalue, hread⟩ := h
  obtain ⟨hstart, hskip⟩ := skipSpaces_gap (c := '"') hgap (by decide) cs
  obtain ⟨hcolon, hmark⟩ : Gives (readMark ':' (':' :: ds)) () ds :=
    readMark_self isGap_nil (by decide)
  rw [readMember, hskip]
  dsimp only
  rw [hname]
  simp only [Option.bind_eq_bind, Option.bind_some]
  rw [hmark]
  simp only [Option.bind_some]
  rw [hread]
  exact gives_some rfl rfl

theorem readMembers_one {field : String × Json} (h : Gives (readMember cs) field ('\x7d' :: rest)) :
    Gives (readMembers cs) [field] rest := by
  obtain ⟨hfield, hread⟩ := h
  rw [readMembers, hread]
  exact gives_some rfl rfl

theorem readMembers_more {field : String × Json} {fields : List (String × Json)}
    (h : Gives (readMember cs) field (',' :: ds)) (hs : Gives (readMembers ds) fields rest) :
    Gives (readMembers cs) (field :: fields) rest := by
  obtain ⟨hfield, hread⟩ := h
  obtain ⟨hfields, hothers⟩ := hs
  rw [readMembers, hread]
  simp only [Option.bind_eq_bind, Option.bind_some]
  rw [next?_of_ne hfield (by decide), next?_self hfield]
  simp only [Option.bind_some]
  rw [hothers]
  exact gives_some rfl rfl

/-! ### Texts -/

/-- **The value of a text**, if the text is JSON and has one. -/
def ofText? (text : String) : Option Json := do
  match ← readElement text.toList with
  | ⟨value, [], _⟩ => return value
  | _ => none

/-- **Only JSON is accepted.** -/
theorem wellFormed_of_ofText? {text : String} {value : Json} (h : ofText? text = some value) :
    WellFormed text := by
  unfold ofText? at h
  obtain ⟨read, -, hread⟩ := Option.bind_eq_some_iff.mp h
  split at hread
  · next _ leaves => exact leaves
  · cases hread

theorem ofText?_eq_some {text : String} {value : Json}
    (h : Gives (readElement text.toList) value []) : ofText? text = some value := by
  obtain ⟨hvalue, hread⟩ := h
  rw [ofText?, hread]
  rfl

end Json

end ArithTree
