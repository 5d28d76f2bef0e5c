import ArithTree.Proofs.Json.Written
import ArithTree.Tree.Shown

/-!
# Indented and compact text

The same value is written with one item a line or without any blanks. This module says what
the two texts have to do with each other (`Block.json_indented`): the blanks and line breaks
between the parts of the indented text are the only difference, and each line break is
followed by four blanks for each bracket that is open and is not the next thing to be closed.

Blanks inside a string are not layout, and brackets inside a string open nothing, so the text
is read with a `Spot` at hand: how many brackets are open, and whether a string is. `Spot.step`
goes past one character. On the way

* `squeeze` deletes the blanks and line breaks outside of strings;
* `LaidOut` looks at every line break and at every list that is opened;
* `emptyLists` counts the lists that are closed at once.

None of the three looks further ahead than the first character that is no layout, so what
they say of a text in front of another one can be said part by part. `Parallel` says it of
all three at once. Characters, strings, numbers and brackets have a lemma each,
`Parallel.comp` puts texts in a row, and `parallel_write` follows the writer, which leaves
the spot of each value as it was.
-/

namespace ArithTree

namespace Json

/-! ### Reading along -/

/-- Where a character stands: outside of strings, inside of one, or there behind a
backslash. -/
inductive Side where
  | outside
  | inside
  | escaped
deriving DecidableEq

/-- A place in JSON text: the number of brackets that are open, and the side of it. -/
structure Spot where
  depth : Nat
  side : Side
deriving DecidableEq

namespace Spot

/-- Nothing is open. -/
def start : Spot := ⟨0, .outside⟩

/-- The spot behind the character `c`. A quote opens and closes a string, unless it stands
behind a backslash there; brackets count outside of strings alone. -/
def step (p : Spot) (c : Char) : Spot :=
  match p.side with
  | .outside =>
    if c = '"' then ⟨p.depth, .inside⟩
    else if c = '[' ∨ c = '\x7b' then ⟨p.depth + 1, .outside⟩
    else if c = ']' ∨ c = '\x7d' then ⟨p.depth - 1, .outside⟩
    else p
  | .inside =>
    if c = '"' then ⟨p.depth, .outside⟩
    else if c = '\\' then ⟨p.depth, .escaped⟩
    else p
  | .escaped => ⟨p.depth, .inside⟩

/-- The spot behind some characters. -/
def after (p : Spot) (cs : List Char) : Spot :=
  cs.foldl step p

end Spot

/-- Is the character layout, outside of strings? -/
def IsLayout (c : Char) : Prop :=
  c = ' ' ∨ c = '\n'

instance (c : Char) : Decidable (IsLayout c) :=
  inferInstanceAs (Decidable (_ ∨ _))

/-- **The text without its layout**: blanks and line breaks go, unless they are in a
string. -/
def squeeze (p : Spot) : List Char → List Char
  | [] => []
  | c :: cs =>
    if p.side = .outside ∧ IsLayout c then squeeze (p.step c) cs
    else c :: squeeze (p.step c) cs

/-- The number of lists that are closed as soon as they are opened. -/
def emptyLists (p : Spot) : List Char → Nat
  | [] => 0
  | c :: cs =>
    (if p.side = .outside ∧ c = '[' ∧ cs.head? = some ']' then 1 else 0)
      + emptyLists (p.step c) cs

/-- **A line is indented**: it starts with four blanks for each open bracket, and then
something else. A bracket that closes counts as closed. -/
def IsIndented (depth : Nat) (line : List Char) : Prop :=
  ∃ c cs, ¬ IsLayout c ∧
    line = List.replicate (4 * if c = ']' ∨ c = '\x7d' then depth - 1 else depth) ' ' ++ c :: cs

/-- **A list is closed at once, or it is opened out**: a line break follows, and on the next
line stands something other than the bracket that closes it. -/
def OpensOut (text : List Char) : Prop :=
  (∃ cs, text = ']' :: cs) ∨
    ∃ indent c cs, ¬ IsLayout c ∧ c ≠ ']' ∧ text = '\n' :: (List.replicate indent ' ' ++ c :: cs)

/-- The layout at one character: line breaks stand outside of strings and the line behind
them is indented, and a list that is opened is closed at once or opened out. -/
structure LaidOutAt (p : Spot) (c : Char) (rest : List Char) : Prop where
  line_break : c = '\n' → p.side = .outside ∧ IsIndented p.depth rest
  opening : p.side = .outside → c = '[' → OpensOut rest

/-- The layout at every character of a text. -/
def LaidOut (p : Spot) (text : List Char) : Prop :=
  ∀ front c back, text = front ++ c :: back → LaidOutAt (p.after front) c back

variable {p q r : Spot} {c : Char} {cs rest text : List Char}

theorem laidOut_nil : LaidOut p [] := by
  intro front c back h
  simp at h

theorem laidOut_cons : LaidOut p (c :: cs) ↔ LaidOutAt p c cs ∧ LaidOut (p.step c) cs := by
  constructor
  · intro h
    refine ⟨h [] c cs rfl, fun front d back hcs => h (c :: front) d back ?_⟩
    rw [hcs, List.cons_append]
  · rintro ⟨hfirst, hrest⟩ front d back hcs
    cases front with
    | nil =>
      obtain ⟨rfl, rfl⟩ := List.cons.inj hcs
      exact hfirst
    | cons e front =>
      obtain ⟨rfl, rfl⟩ := List.cons.inj hcs
      exact hrest front d back rfl

/-! ### Texts in front of a text -/

/-- **Text in front of a text.** `x` puts indented text in front of a text, and `y` puts
compact text there. From `p` to `q` the one is the other without its layout, it is laid out,
and it holds `n` empty lists. -/
structure Parallel (p q : Spot) (x y : List Char → List Char) (n : Nat) : Prop where
  squeeze_eq : ∀ rest, squeeze p (x rest) = y (squeeze q rest)
  laidOut : ∀ rest, LaidOut q rest → LaidOut p (x rest)
  emptyLists_eq : ∀ rest, emptyLists p (x rest) = n + emptyLists q rest

/-- A value starts with a character that is no layout and closes nothing. -/
theorem StartsValue.not_isLayout (hc : StartsValue c) :
    ¬ IsLayout c ∧ ¬ (c = ']' ∨ c = '\x7d') := by
  obtain ⟨hspace, hclose⟩ := hc.ne
  constructor
  · intro hlayout
    obtain rfl | rfl := hlayout
    all_goals exact hspace (by decide)
  · rintro (rfl | rfl)
    · exact hclose rfl
    · revert hc
      unfold StartsValue
      decide

/-- A numeral consists of digits and a sign. -/
theorem isDigit_or_sign {n : Int} (hc : c ∈ (toString n).toList) : c.isDigit ∨ c = '-' := by
  have hdigits : ∀ m : Nat, c ∈ Nat.toDigits 10 m → c.isDigit := fun m hc =>
    Nat.isDigit_of_mem_toDigits (by decide) (by decide) hc
  cases n with
  | ofNat n =>
    rw [toList_toString_ofNat] at hc
    exact .inl (hdigits n hc)
  | negSucc n =>
    rw [toList_toString_negSucc] at hc
    obtain rfl | hc := List.mem_cons.mp hc
    · exact .inr rfl
    · exact .inl (hdigits (n + 1) hc)

namespace Parallel

variable {x y x' y' : List Char → List Char} {n m depth : Nat}

theorem id : Parallel p p id id 0 where
  squeeze_eq _ := rfl
  laidOut _ h := h
  emptyLists_eq _ := (Nat.zero_add _).symm

/-- One text in front of another. -/
theorem comp (h : Parallel p q x y n) (h' : Parallel q r x' y' m) :
    Parallel p r (fun rest => x (x' rest)) (fun rest => y (y' rest)) (n + m) where
  squeeze_eq rest := by rw [h.squeeze_eq, h'.squeeze_eq]
  laidOut rest hrest := h.laidOut _ (h'.laidOut _ hrest)
  emptyLists_eq rest := by rw [h.emptyLists_eq, h'.emptyLists_eq, Nat.add_assoc]

theorem congr (h : Parallel p q x y n) (hx : ∀ rest, x' rest = x rest)
    (hy : ∀ rest, y' rest = y rest) : Parallel p q x' y' n := by
  rwa [funext hx, funext hy]

/-- **A character that is no layout and opens no list** stands for itself. -/
theorem char (hbreak : c ≠ '\n') (h : p.side = .outside → c ≠ ' ' ∧ c ≠ '[') :
    Parallel p (p.step c) (c :: ·) (c :: ·) 0 where
  squeeze_eq rest := by
    have hkept : ¬ (p.side = .outside ∧ IsLayout c) := by
      rintro ⟨hside, hc | hc⟩
      · exact (h hside).1 hc
      · exact hbreak hc
    rw [squeeze, if_neg hkept]
  laidOut rest hrest :=
    laidOut_cons.mpr ⟨⟨fun hc => absurd hc hbreak, fun hside hc => absurd hc (h hside).2⟩, hrest⟩
  emptyLists_eq rest := by
    have hnone : ¬ (p.side = .outside ∧ c = '[' ∧ rest.head? = some ']') :=
      fun hlist => (h hlist.1).2 hlist.2.1
    rw [emptyLists, if_neg hnone]

/-- A blank outside of strings is layout. -/
theorem blank : Parallel ⟨depth, .outside⟩ ⟨depth, .outside⟩ (' ' :: ·) (fun rest => rest) 0 where
  squeeze_eq rest := by
    rw [squeeze, if_pos ⟨rfl, .inl rfl⟩]
    rfl
  laidOut rest hrest := laidOut_cons.mpr ⟨⟨nofun, nofun⟩, hrest⟩
  emptyLists_eq rest := by
    have hnone : ¬ (Side.outside = .outside ∧ ' ' = '[' ∧ rest.head? = some ']') :=
      fun hlist => absurd hlist.2.1 (by decide)
    rw [emptyLists, if_neg hnone]
    rfl

/-- Characters that leave the spot alone. -/
theorem chars (hcs : ∀ c ∈ cs, p.step c = p ∧ c ≠ '\n' ∧ (p.side = .outside → c ≠ ' ' ∧ c ≠ '[')) :
    Parallel p p (cs ++ ·) (cs ++ ·) 0 := by
  induction cs with
  | nil => exact id
  | cons c cs ih =>
    obtain ⟨⟨hstep, hbreak, hc⟩, hcs⟩ := List.forall_mem_cons.mp hcs
    have hchar := char hbreak hc
    rw [hstep] at hchar
    exact hchar.comp (ih hcs)

/-- A character of a string, however it is written. -/
theorem escape (depth : Nat) (c : Char) :
    Parallel ⟨depth, .inside⟩ ⟨depth, .inside⟩ (Json.escape c ++ ·) (Json.escape c ++ ·) 0 := by
  have hslash : Parallel ⟨depth, .inside⟩ ⟨depth, .escaped⟩ ('\\' :: ·) ('\\' :: ·) 0 :=
    char (c := '\\') (by decide) nofun
  -- what stands behind a backslash opens and closes nothing, even if it is a quote
  have hbehind : ∀ e : Char, e ≠ '\n' →
      Parallel ⟨depth, .escaped⟩ ⟨depth, .inside⟩ (e :: ·) (e :: ·) 0 :=
    fun e he => char he nofun
  obtain ⟨e, he, hescape, -⟩ | ⟨hcontrol, hescape⟩ | ⟨⟨hquote, hplain, hcode⟩, hescape⟩ :=
    escape_cases c
  · have hbreak : e ≠ '\n' := by
      rintro rfl
      exact absurd he (by decide)
    rw [hescape]
    exact hslash.comp (hbehind e hbreak)
  · have hdigit : ∀ n < 16, Nat.digitChar n ≠ '"' ∧ Nat.digitChar n ≠ '\\' ∧
        Nat.digitChar n ≠ '\n' := by decide
    have hcode : ∀ n < 16, Parallel ⟨depth, .inside⟩ ⟨depth, .inside⟩
        ([Nat.digitChar n] ++ ·) ([Nat.digitChar n] ++ ·) 0 := by
      intro n hn
      obtain ⟨hquote, hplain, hbreak⟩ := hdigit n hn
      refine chars (List.forall_mem_singleton.mpr ⟨?_, hbreak, nofun⟩)
      simp [Spot.step, hquote, hplain]
    have hzero := hcode 0 (by decide)
    rw [hescape]
    exact hslash.comp ((hbehind 'u' (by decide)).comp (hzero.comp (hzero.comp
      ((hcode (c.toNat / 16) (by omega)).comp (hcode (c.toNat % 16) (by omega))))))
  · have hbreak : c ≠ '\n' := by
      rintro rfl
      exact absurd hcode (by decide)
    rw [hescape]
    refine chars (List.forall_mem_singleton.mpr ⟨?_, hbreak, nofun⟩)
    simp [Spot.step, hquote, hplain]

/-- **A string** is gone past as a whole. -/
theorem quote (depth : Nat) (s : String) :
    Parallel ⟨depth, .outside⟩ ⟨depth, .outside⟩ (Json.quote s ++ ·) (Json.quote s ++ ·) 0 := by
  have hopen : Parallel ⟨depth, .outside⟩ ⟨depth, .inside⟩ ('"' :: ·) ('"' :: ·) 0 :=
    char (c := '"') (by decide) fun _ => by decide
  have hclose : Parallel ⟨depth, .inside⟩ ⟨depth, .outside⟩ ('"' :: ·) ('"' :: ·) 0 :=
    char (c := '"') (by decide) nofun
  have hcharacters : ∀ cs : List Char, Parallel ⟨depth, .inside⟩ ⟨depth, .inside⟩
      (cs.flatMap Json.escape ++ ·) (cs.flatMap Json.escape ++ ·) 0 := by
    intro cs
    induction cs with
    | nil => exact id
    | cons c cs ih => simpa [List.append_assoc] using (escape depth c).comp ih
  simpa [Json.quote] using hopen.comp ((hcharacters s.toList).comp hclose)

/-- **A number** is gone past as a whole, too. -/
theorem number (depth : Nat) (n : Int) :
    Parallel ⟨depth, .outside⟩ ⟨depth, .outside⟩ ((toString n).toList ++ ·)
      ((toString n).toList ++ ·) 0 := by
  refine chars fun c hc => ?_
  -- all that moves the spot and all that is layout
  have hmarks : ∀ d ∈ ['"', '[', '\x7b', ']', '\x7d', ' ', '\n'], ¬ (d.isDigit ∨ d = '-') := by
    simp
  have hne : ∀ d ∈ ['"', '[', '\x7b', ']', '\x7d', ' ', '\n'], c ≠ d := by
    rintro d hd rfl
    exact hmarks c hd (isDigit_or_sign hc)
  simp only [List.mem_cons, List.not_mem_nil, or_false, forall_eq_or_imp, forall_eq] at hne
  obtain ⟨hquote, hopen, hopen', hclose, hclose', hblank, hbreak⟩ := hne
  refine ⟨?_, hbreak, fun _ => ⟨hblank, hopen⟩⟩
  simp [Spot.step, hquote, hopen, hopen', hclose, hclose']

/-! Layout in front of a text. -/

theorem blanks (depth k : Nat) :
    Parallel ⟨depth, .outside⟩ ⟨depth, .outside⟩ (List.replicate k ' ' ++ ·) (fun rest => rest)
      0 := by
  induction k with
  | zero => exact id
  | succ k ih =>
    refine (blank.comp ih).congr (fun rest => ?_) fun _ => rfl
    rw [List.replicate_succ, List.cons_append]

/-- **A text on a line of its own.** The line is indented by four blanks for each bracket
that is open at the start of the text. -/
theorem gap (h : Parallel ⟨depth, .outside⟩ q x y n) {k : Nat}
    (hstart : ∀ rest, ∃ c cs, x rest = c :: cs ∧ ¬ IsLayout c ∧
      k = if c = ']' ∨ c = '\x7d' then depth - 1 else depth) :
    Parallel ⟨depth, .outside⟩ q (fun rest => Layout.indented.gap k ++ x rest) y n where
  squeeze_eq rest := by
    calc squeeze ⟨depth, .outside⟩ (Layout.indented.gap k ++ x rest)
        = squeeze ⟨depth, .outside⟩ (List.replicate (4 * k) ' ' ++ x rest) := by
          rw [Layout.indented, List.cons_append, squeeze, if_pos ⟨rfl, .inr rfl⟩]
          rfl
      _ = squeeze ⟨depth, .outside⟩ (x rest) := (blanks depth _).squeeze_eq _
      _ = y (squeeze q rest) := h.squeeze_eq rest
  laidOut rest hrest := by
    obtain ⟨c, cs, hcons, hc, hk⟩ := hstart rest
    refine laidOut_cons.mpr ⟨⟨fun _ => ⟨rfl, c, cs, hc, ?_⟩, nofun⟩, ?_⟩
    · rw [hcons, hk]
      rfl
    · exact (blanks depth _).laidOut _ (h.laidOut rest hrest)
  emptyLists_eq rest := by
    rw [← h.emptyLists_eq, Layout.indented, List.cons_append, emptyLists, if_neg (by simp),
      Nat.zero_add]
    exact ((blanks depth _).emptyLists_eq _).trans (Nat.zero_add _)

/-- Whatever follows, the text starts as a value does. -/
def StartsItem (x : List Char → List Char) : Prop :=
  ∀ rest, ∃ c cs, x rest = c :: cs ∧ StartsValue c

/-- An item on a line of its own. -/
theorem item (h : Parallel ⟨depth, .outside⟩ q x y n) (hstart : StartsItem x) :
    Parallel ⟨depth, .outside⟩ q (fun rest => Layout.indented.gap depth ++ x rest) y n := by
  refine h.gap fun rest => ?_
  obtain ⟨c, cs, hcons, hc⟩ := hstart rest
  obtain ⟨hlayout, hclose⟩ := hc.not_isLayout
  exact ⟨c, cs, hcons, hlayout, by rw [if_neg hclose]⟩

/-- An item after a comma. -/
theorem comma (h : Parallel ⟨depth, .outside⟩ q x y n) (hstart : StartsItem x) :
    Parallel ⟨depth, .outside⟩ q (fun rest => ',' :: (Layout.indented.gap depth ++ x rest))
      (fun rest => ',' :: y rest) n := by
  have hcomma : Parallel ⟨depth, .outside⟩ ⟨depth, .outside⟩ (',' :: ·) (',' :: ·) 0 :=
    char (c := ',') (by decide) fun _ => by decide
  simpa using hcomma.comp (h.item hstart)

/-- A field of an object: a name, a colon and a value. -/
theorem field (h : Parallel ⟨depth, .outside⟩ q x y n) (name : String) :
    Parallel ⟨depth, .outside⟩ q
      (fun rest => Json.quote name ++ ':' :: (Layout.indented.afterColon ++ x rest))
      (fun rest => Json.quote name ++ ':' :: y rest) n := by
  have hcolon : Parallel ⟨depth, .outside⟩ ⟨depth, .outside⟩ (':' :: ·) (':' :: ·) 0 :=
    char (c := ':') (by decide) fun _ => by decide
  simpa [Layout.indented] using (quote depth name).comp (hcolon.comp (blank.comp h))

/-- A bracket that opens, and an item behind it. -/
theorem opened (h : Parallel ⟨depth + 1, .outside⟩ q x y n) (hstart : StartsItem x)
    (hc : c = '[' ∨ c = '\x7b') :
    Parallel ⟨depth, .outside⟩ q (fun rest => c :: (Layout.indented.gap (depth + 1) ++ x rest))
      (fun rest => c :: y rest) n := by
  have hmark : c ≠ '"' ∧ ¬ IsLayout c := by
    obtain rfl | rfl := hc
    all_goals decide
  have hstep : Spot.step ⟨depth, .outside⟩ c = ⟨depth + 1, .outside⟩ := by
    simp [Spot.step, hmark.1, hc]
  have hitem := h.item hstart
  refine ⟨fun rest => ?_, fun rest hrest => ?_, fun rest => ?_⟩
  · rw [squeeze, if_neg fun hlayout => hmark.2 hlayout.2, hstep, hitem.squeeze_eq]
  · rw [laidOut_cons, hstep]
    refine ⟨⟨fun hbreak => absurd (.inr hbreak) hmark.2, fun _ _ => .inr ?_⟩,
      hitem.laidOut rest hrest⟩
    -- the item that stands on the next line is not the bracket that closes
    obtain ⟨d, cs, hcons, hd⟩ := hstart rest
    obtain ⟨hlayout, hclose⟩ := hd.not_isLayout
    exact ⟨_, d, cs, hlayout, fun hd => hclose (.inl hd), by rw [hcons]; rfl⟩
  · -- a line break stands behind the bracket
    rw [emptyLists, if_neg (by simp [Layout.indented]), hstep, hitem.emptyLists_eq, Nat.zero_add]

/-- A bracket that closes. -/
theorem close (hc : c = ']' ∨ c = '\x7d') :
    Parallel ⟨depth + 1, .outside⟩ ⟨depth, .outside⟩ (c :: ·) (c :: ·) 0 := by
  obtain rfl | rfl := hc
  · exact char (c := ']') (by decide) fun _ => by decide
  · exact char (c := '\x7d') (by decide) fun _ => by decide

/-- A bracket that closes, on a line of its own. -/
theorem closed (hc : c = ']' ∨ c = '\x7d') :
    Parallel ⟨depth + 1, .outside⟩ ⟨depth, .outside⟩
      (fun rest => Layout.indented.gap depth ++ c :: rest) (c :: ·) 0 := by
  have hlayout : ¬ IsLayout c := by
    obtain rfl | rfl := hc
    all_goals decide
  -- the line belongs to what the bracket closes, so it is indented one level less
  exact (close hc).gap fun rest => ⟨c, rest, rfl, hlayout, by rw [if_pos hc]; rfl⟩

/-- **A pair of brackets around items.** What stands between them is one level deeper. -/
theorem brackets (h : Parallel ⟨depth + 1, .outside⟩ ⟨depth + 1, .outside⟩ x y n)
    (hstart : StartsItem x) {o : Char} (ho : o = '[' ∨ o = '\x7b') (hc : c = ']' ∨ c = '\x7d') :
    Parallel ⟨depth, .outside⟩ ⟨depth, .outside⟩
      (fun rest => o :: (Layout.indented.gap (depth + 1) ++
        x (Layout.indented.gap depth ++ c :: rest)))
      (fun rest => o :: y (c :: rest)) n :=
  (h.comp (closed hc)).opened (fun _ => hstart _) ho

/-- The list without items. -/
theorem emptyList (depth : Nat) :
    Parallel ⟨depth, .outside⟩ ⟨depth, .outside⟩ ('[' :: ']' :: ·) ('[' :: ']' :: ·) 1 := by
  have hclose : Parallel ⟨depth + 1, .outside⟩ ⟨depth, .outside⟩ (']' :: ·) (']' :: ·) 0 :=
    close (.inl rfl)
  refine ⟨fun rest => ?_, fun rest hrest => ?_, fun rest => ?_⟩
  · rw [squeeze, if_neg fun hlayout => absurd hlayout.2 (by decide)]
    exact congrArg ('[' :: ·) (hclose.squeeze_eq rest)
  · exact laidOut_cons.mpr ⟨⟨nofun, fun _ _ => .inl ⟨rest, rfl⟩⟩, hclose.laidOut rest hrest⟩
  · rw [emptyLists, if_pos ⟨rfl, rfl, rfl⟩]
    exact congrArg (1 + ·) ((hclose.emptyLists_eq rest).trans (Nat.zero_add _))

/-- The object without fields. -/
theorem emptyObject (depth : Nat) :
    Parallel ⟨depth, .outside⟩ ⟨depth, .outside⟩ ('\x7b' :: '\x7d' :: ·)
      ('\x7b' :: '\x7d' :: ·) 0 := by
  have hopen : Parallel ⟨depth, .outside⟩ ⟨depth + 1, .outside⟩ ('\x7b' :: ·) ('\x7b' :: ·) 0 :=
    char (c := '\x7b') (by decide) fun _ => by decide
  exact hopen.comp (close (.inr rfl))

end Parallel

/-! ### Values -/

mutual

/-- The number of lists without items in a value. -/
def countEmpty : Json → Nat
  | .number _ => 0
  | .text _ => 0
  | .array [] => 1
  | .array (item :: items) => item.countEmpty + countEmptyItems items
  | .object fields => countEmptyFields fields

/-- The number of lists without items in some values. -/
def countEmptyItems : List Json → Nat
  | [] => 0
  | item :: items => item.countEmpty + countEmptyItems items

/-- The number of lists without items in the values of some fields. -/
def countEmptyFields : List (String × Json) → Nat
  | [] => 0
  | (_, value) :: fields => value.countEmpty + countEmptyFields fields

end

theorem startsItem_write (layout : Layout) (depth : Nat) (value : Json) :
    Parallel.StartsItem (value.write layout depth) :=
  fun rest => exists_write_eq_cons layout depth value rest

theorem startsItem_quote (s : String) (x : List Char → List Char) :
    Parallel.StartsItem fun rest => quote s ++ x rest :=
  fun _ => ⟨'"', _, rfl, .inr (by decide)⟩

mutual

/-- **A value is written in parallel** in both layouts. -/
theorem parallel_write (depth : Nat) (value : Json) :
    Parallel ⟨depth, .outside⟩ ⟨depth, .outside⟩ (value.write .indented depth)
      (value.write .compact depth) value.countEmpty := by
  match value with
  | .number n =>
    exact (Parallel.number depth n).congr (fun _ => by rw [write]) fun _ => by rw [write]
  | .text s =>
    exact (Parallel.quote depth s).congr (fun _ => by rw [write]) fun _ => by rw [write]
  | .array [] =>
    exact (Parallel.emptyList depth).congr (fun _ => by rw [write]) fun _ => by rw [write]
  | .array (item :: items) =>
    -- what stands between the brackets is one text, one level deeper
    have hitems := (parallel_write (depth + 1) item).comp (parallel_writeItems (depth + 1) items)
    refine (hitems.brackets (fun _ => startsItem_write _ _ item _) (.inl rfl) (.inl rfl)).congr
      (fun _ => ?_) fun _ => ?_
    · rw [write]
      rfl
    · rw [write]
      rfl
  | .object [] =>
    exact (Parallel.emptyObject depth).congr (fun _ => by rw [write]) fun _ => by rw [write]
  | .object ((name, value) :: fields) =>
    -- the name of the first field is in front of the value, the other fields behind it
    have hfields :=
      (parallel_write (depth + 1) value).comp (parallel_writeFields (depth + 1) fields)
    refine ((hfields.field name).brackets (startsItem_quote name _) (.inr rfl) (.inr rfl)).congr
      (fun _ => ?_) fun _ => ?_
    · rw [write_object_cons]
    · rw [write_object_cons]
      rfl
termination_by sizeOf value

/-- The items after the first. -/
theorem parallel_writeItems (depth : Nat) (items : List Json) :
    Parallel ⟨depth, .outside⟩ ⟨depth, .outside⟩ (writeItems .indented depth items)
      (writeItems .compact depth items) (countEmptyItems items) := by
  match items with
  | [] =>
    exact Parallel.id.congr (fun _ => by rw [writeItems, id]) fun _ => by rw [writeItems, id]
  | item :: items =>
    have hitems := (parallel_write depth item).comp (parallel_writeItems depth items)
    refine (hitems.comma fun _ => startsItem_write _ _ item _).congr (fun _ => ?_) fun _ => ?_
    · rw [writeItems]
      rfl
    · rw [writeItems]
      rfl
termination_by sizeOf items

/-- The fields after the first. -/
theorem parallel_writeFields (depth : Nat) (fields : List (String × Json)) :
    Parallel ⟨depth, .outside⟩ ⟨depth, .outside⟩ (writeFields .indented depth fields)
      (writeFields .compact depth fields) (countEmptyFields fields) := by
  match fields with
  | [] =>
    exact Parallel.id.congr (fun _ => by rw [writeFields, id]) fun _ => by rw [writeFields, id]
  | (name, value) :: fields =>
    have hfields := (parallel_write depth value).comp (parallel_writeFields depth fields)
    refine ((hfields.field name).comma (startsItem_quote name _)).congr (fun _ => ?_) fun _ => ?_
    · rw [writeFields_cons]
    · rw [writeFields_cons]
      rfl
termination_by sizeOf fields

end

/-- The whole text of a value, with nothing open before it. -/
theorem parallel_text (value : Json) :
    squeeze .start value.pretty.toList = value.compact.toList ∧
      LaidOut .start value.pretty.toList ∧
      emptyLists .start value.pretty.toList = value.countEmpty := by
  have hvalue := parallel_write 0 value
  rw [pretty, compact, String.toList_ofList, String.toList_ofList]
  exact ⟨hvalue.squeeze_eq [], hvalue.laidOut [] laidOut_nil, hvalue.emptyLists_eq []⟩

end Json

/-! ### Trees -/

namespace Node

mutual

/-- The number of blocks without children in a node. A group holds one block. -/
def childless : Node → Nat
  | .literal _ => 0
  | .binary left _ right => left.childless + right.childless
  | .block [] | .group [] => 1
  | .block (node :: nodes) | .group (node :: nodes) => node.childless + allChildless nodes

/-- The number of blocks without children in some nodes. -/
def allChildless : List Node → Nat
  | [] => 0
  | node :: nodes => node.childless + allChildless nodes

end

mutual

/-- Blocks are the only parts of a tree that are written as lists. -/
theorem countEmpty_toJson (node : Node) : node.toJson.countEmpty = node.childless := by
  match node with
  | .literal (.integer n) | .literal (.text s) =>
    simp [toJson, Literal.toJson, Json.countEmpty, Json.countEmptyFields, childless]
  | .binary left operator right =>
    simp [toJson, Json.countEmpty, Json.countEmptyFields, childless, countEmpty_toJson left,
      countEmpty_toJson right]
  | .block [] | .group [] =>
    simp [toJson, allToJson, Block.objectOf, Json.countEmpty, Json.countEmptyFields, childless]
  | .block (node :: nodes) | .group (node :: nodes) =>
    simp [toJson, allToJson, Block.objectOf, Json.countEmpty, Json.countEmptyFields, childless,
      countEmpty_toJson node, countEmptyItems_allToJson nodes]

theorem countEmptyItems_allToJson (nodes : List Node) :
    Json.countEmptyItems (allToJson nodes) = allChildless nodes := by
  match nodes with
  | [] => rw [allToJson, Json.countEmptyItems, allChildless]
  | node :: nodes =>
    rw [allToJson, Json.countEmptyItems, allChildless, countEmpty_toJson node,
      countEmptyItems_allToJson nodes]

end

end Node

namespace Block

open Json (Spot)

/-- The number of blocks without children in a tree, which is itself one of its blocks. -/
def childless (block : Block) : Nat :=
  (Node.block block.children).childless

theorem countEmpty_toJson (block : Block) : block.toJson.countEmpty = block.childless :=
  Node.countEmpty_toJson (.block block.children)

/-- **The indented text of a tree and its compact text.** For every tree

* the indented text is the compact one once its layout is deleted, which is the blanks and
  line breaks outside of strings;
* each line break stands outside of strings, and behind it stand four blanks for each list
  and object that is open there, without the one that the next character closes;
* each list is closed at once or opened out, and the ones that are closed at once are as many
  as there are blocks without children. -/
theorem json_indented (block : Block) :
    String.ofList (Json.squeeze .start block.json.toList) = block.toJson.compact ∧
    (∀ front back, block.json.toList = front ++ '\n' :: back →
      (Spot.start.after front).side = .outside ∧
        Json.IsIndented (Spot.start.after front).depth back) ∧
    (∀ front back, block.json.toList = front ++ '[' :: back →
      (Spot.start.after front).side = .outside → Json.OpensOut back) ∧
    Json.emptyLists .start block.json.toList = block.childless := by
  obtain ⟨hsqueeze, hlaidOut, hempty⟩ := Json.parallel_text block.toJson
  refine ⟨?_, ?_, ?_, ?_⟩
  · show String.ofList (Json.squeeze .start block.toJson.pretty.toList) = _
    rw [hsqueeze, String.ofList_toList]
  · intro front back hback
    exact (hlaidOut front '\n' back hback).line_break rfl
  · intro front back hback hside
    exact (hlaidOut front '[' back hback).opening hside rfl
  · rw [← countEmpty_toJson]
    exact hempty

/-- A text that looks like two lists, on a line that two brackets lead to. -/
theorem json_indented_of_quoted_lists :
    ∃ front middle back,
      (Block.mk [.literal (.text "[] []")]).json.toList
        = front ++ '[' :: (middle ++ '\n' :: back) ∧
      Spot.start.after front = ⟨1, .outside⟩ ∧ Json.OpensOut (middle ++ '\n' :: back) ∧
      Spot.start.after (front ++ '[' :: middle) = ⟨2, .outside⟩ ∧ back = "    ]\n\x7d".toList ∧
      Json.IsIndented 2 back ∧
      Json.emptyLists .start (Block.mk [.literal (.text "[] []")]).json.toList = 0 := by
  let front := "\x7b\n    \"type\": \"block_node\",\n    \"children\": ".toList
  let middle := ("\n        \x7b\n            \"type\": \"literal_node\",\n" ++
    "            \"value\": \"[] []\"\n        \x7d").toList
  let back := "    ]\n\x7d".toList
  have htext : (Block.mk [.literal (.text "[] []")]).json.toList
      = front ++ '[' :: (middle ++ '\n' :: back) := by
    rw [Block.json, Json.pretty, String.toList_ofList]
    decide +kernel
  have hfront : Spot.start.after front = ⟨1, .outside⟩ := by decide +kernel
  have hmiddle : Spot.start.after (front ++ '[' :: middle) = ⟨2, .outside⟩ := by decide +kernel
  obtain ⟨-, hbreak, hopen, hempty⟩ := json_indented ⟨[.literal (.text "[] []")]⟩
  refine ⟨front, middle, back, htext, hfront, hopen front _ htext (by rw [hfront]), hmiddle, rfl,
    ?_, hempty⟩
  have hindented := (hbreak (front ++ '[' :: middle) back (by rw [htext]; simp)).2
  rwa [hmiddle] at hindented

end Block

end ArithTree
