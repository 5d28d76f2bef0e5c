import ArithTree.Proofs.Alignment

/-!
# Colours and the layout of a report

With colours on, some pieces of a report stand between escape sequences. A terminal obeys
these and shows none of their characters, so a report looks the same with colours and
without them. `Text.strip` is what is left to see: it deletes every sequence from a text.
`Report.strip_render` says that it makes the two renderings of a report equal, in whole and
line by line, whatever the report is about.

The texts that a report quotes may hold sequences of their own, and also the first half of
one. What must not happen is that such a half is completed by what the report puts behind
it. It is not, because every piece that quotes a text ends with a character that no sequence
has (`Text.Stops`), and in front of such a character everything is settled:

* `Text.strip_cut` — the text up to there is stripped as if it stood alone.
* `Text.lines_strip` — so is every line, since line breaks are such characters.
* `Text.Span.Safe` — the two shapes of a piece, and what they say about escape characters.
* `Text.strip_render_safe` — colours do not matter to a row of safe pieces, by induction on
  the row.
-/

namespace ArithTree

open Text (Span Style isLineBreak)

namespace Text

variable {cs s rest front : List Char} {c : Char}

/-! ### Escape sequences -/

/-- The characters between the bracket of a sequence and its last letter. -/
def IsParameter (c : Char) : Prop :=
  c.isDigit ∨ c = ';'

instance (c : Char) : Decidable (IsParameter c) :=
  inferInstanceAs (Decidable (_ ∨ _))

/-- **A sequence that sets colours**: an escape character, a bracket, digits and semicolons,
and the letter `m`. -/
def IsSequence (s : List Char) : Prop :=
  ∃ parameters, (∀ p ∈ parameters, IsParameter p) ∧
    s = '\x1b' :: '[' :: (parameters ++ ['m'])

/-- The text behind the parameters of a sequence and its last letter. -/
def behindParameters? : List Char → Option (List Char)
  | [] => none
  | c :: cs =>
    if c = 'm' then some cs
    else if IsParameter c then behindParameters? cs
    else none

/-- The text behind the sequence that it starts with. -/
def behindSequence? : List Char → Option (List Char)
  | '\x1b' :: '[' :: cs => behindParameters? cs
  | _ => none

theorem behindParameters?_eq_some_iff :
    behindParameters? cs = some rest ↔
      ∃ parameters, (∀ p ∈ parameters, IsParameter p) ∧ cs = parameters ++ 'm' :: rest := by
  induction cs with
  | nil => simp [behindParameters?]
  | cons c cs ih =>
    rw [behindParameters?]
    constructor
    · intro h
      split at h
      · next hc =>
        obtain rfl := Option.some.inj h
        exact ⟨[], nofun, by rw [hc]; rfl⟩
      split at h
      · next hc =>
        obtain ⟨parameters, hparameters, rfl⟩ := ih.mp h
        exact ⟨c :: parameters, List.forall_mem_cons.mpr ⟨hc, hparameters⟩, rfl⟩
      · cases h
    · rintro ⟨parameters, hparameters, hcs⟩
      cases parameters with
      | nil =>
        obtain ⟨rfl, rfl⟩ := List.cons.inj hcs
        rfl
      | cons p parameters =>
        obtain ⟨rfl, htail⟩ := List.cons.inj hcs
        obtain ⟨hp, hparameters⟩ := List.forall_mem_cons.mp hparameters
        -- a parameter can not be taken for the end of the sequence
        have hm : c ≠ 'm' := by
          rintro rfl
          exact absurd hp (by decide)
        rw [if_neg hm, if_pos hp]
        exact ih.mpr ⟨parameters, hparameters, htail⟩

/-- A text has a part behind a sequence exactly when it starts with one. -/
theorem behindSequence?_eq_some_iff :
    behindSequence? cs = some rest ↔ ∃ s, IsSequence s ∧ cs = s ++ rest := by
  constructor
  · intro h
    unfold behindSequence? at h
    split at h
    · next cs =>
      obtain ⟨parameters, hparameters, rfl⟩ := behindParameters?_eq_some_iff.mp h
      exact ⟨_, ⟨parameters, hparameters, rfl⟩, by simp⟩
    · cases h
  · rintro ⟨s, ⟨parameters, hparameters, rfl⟩, rfl⟩
    show behindParameters? _ = some rest
    exact behindParameters?_eq_some_iff.mpr ⟨parameters, hparameters, by simp⟩

theorem length_lt_of_behindSequence? (h : behindSequence? cs = some rest) :
    rest.length < cs.length := by
  obtain ⟨s, ⟨parameters, -, rfl⟩, rfl⟩ := behindSequence?_eq_some_iff.mp h
  simp only [List.length_append, List.length_cons]
  omega

/-- **A text without its sequences.** Of the text that is left nothing is deleted, even
where two parts of it make a sequence together. -/
def strip (cs : List Char) : List Char :=
  match _h : behindSequence? cs with
  | some rest => strip rest
  | none =>
    match cs with
    | [] => []
    | c :: cs => c :: strip cs
termination_by cs.length
decreasing_by
  · exact length_lt_of_behindSequence? ‹_›
  · exact Nat.lt_succ_self _

@[simp] theorem strip_nil : strip [] = [] := by
  rw [strip]
  rfl

/-- A sequence is deleted. -/
theorem strip_sequence (hs : IsSequence s) (rest : List Char) : strip (s ++ rest) = strip rest := by
  have h : behindSequence? (s ++ rest) = some rest :=
    behindSequence?_eq_some_iff.mpr ⟨s, hs, rfl⟩
  rw [strip]
  split
  · next heq =>
    rw [h] at heq
    rw [Option.some.inj heq]
  · next heq =>
    rw [h] at heq
    cases heq

/-- A character that starts no sequence is kept. -/
theorem strip_cons (h : behindSequence? (c :: cs) = none) : strip (c :: cs) = c :: strip cs := by
  rw [strip]
  split
  · next heq =>
    rw [h] at heq
    cases heq
  · rfl

theorem strip_cons_of_ne (hc : c ≠ '\x1b') (cs : List Char) : strip (c :: cs) = c :: strip cs := by
  apply strip_cons
  unfold behindSequence?
  split
  · next heq => exact absurd (List.cons.inj heq).1 hc
  · rfl

/-- A text without escape characters is kept. -/
theorem strip_append_of_free (hfront : '\x1b' ∉ front) (cs : List Char) :
    strip (front ++ cs) = front ++ strip cs := by
  induction front with
  | nil => rfl
  | cons c front ih =>
    obtain ⟨hc, hfront⟩ := not_or.mp (mt List.mem_cons.mpr hfront)
    rw [List.cons_append, strip_cons_of_ne (Ne.symm hc), ih hfront, List.cons_append]

theorem strip_of_free (hcs : '\x1b' ∉ cs) : strip cs = cs := by
  have h := strip_append_of_free hcs []
  rwa [strip_nil, List.append_nil] at h

/-- **Induction along the sequences**: a text is empty, or starts with a sequence, or with a
character that no sequence starts with. -/
@[elab_as_elim]
theorem sequence_induction {motive : List Char → Prop} (nil : motive [])
    (sequence : ∀ s cs, IsSequence s → motive cs → motive (s ++ cs))
    (cons : ∀ c cs, behindSequence? (c :: cs) = none → motive cs → motive (c :: cs))
    (cs : List Char) : motive cs := by
  induction h : cs.length using Nat.strongRecOn generalizing cs with
  | ind n ih =>
    cases hcs : behindSequence? cs with
    | some rest =>
      have hlt := length_lt_of_behindSequence? hcs
      obtain ⟨s, hs, rfl⟩ := behindSequence?_eq_some_iff.mp hcs
      exact sequence s rest hs (ih rest.length (h ▸ hlt) rest rfl)
    | none =>
      cases cs with
      | nil => exact nil
      | cons c cs => exact cons c cs hcs (ih cs.length (h ▸ Nat.lt_succ_self _) cs rfl)

/-- Nothing is added to a text. -/
theorem mem_of_mem_strip (hc : c ∈ strip cs) : c ∈ cs := by
  induction cs using sequence_induction with
  | nil =>
    rw [strip_nil] at hc
    cases hc
  | sequence s cs hs ih =>
    rw [strip_sequence hs] at hc
    exact List.mem_append_right _ (ih hc)
  | cons d cs hd ih =>
    rw [strip_cons hd] at hc
    obtain rfl | hc := List.mem_cons.mp hc
    · exact List.mem_cons_self
    · exact List.mem_cons_of_mem _ (ih hc)

/-! ### Where a text may be cut -/

/-- **A character that no sequence has.** -/
def Stops (c : Char) : Prop :=
  ¬ (c = '\x1b' ∨ c = '[' ∨ IsParameter c ∨ c = 'm')

instance (c : Char) : Decidable (Stops c) :=
  inferInstanceAs (Decidable (¬ _))

theorem Stops.not_mem (hc : Stops c) (hs : IsSequence s) : c ∉ s := by
  obtain ⟨parameters, hparameters, rfl⟩ := hs
  intro hmem
  apply hc
  simp only [List.mem_cons, List.mem_append, List.not_mem_nil, or_false] at hmem
  obtain hmem | hmem | hmem | hmem := hmem
  · exact .inl hmem
  · exact .inr (.inl hmem)
  · exact .inr (.inr (.inl (hparameters c hmem)))
  · exact .inr (.inr (.inr hmem))

theorem stops_of_isLineBreak (hc : isLineBreak c) : Stops c := by
  obtain rfl | rfl : c = '\n' ∨ c = '\r' := by simpa [isLineBreak] using hc
  all_goals decide

/-- No sequence reaches over a character that it does not have. -/
theorem behindSequence?_cut (hc : Stops c) (hfront : behindSequence? front = none)
    (hne : front ≠ []) (cs : List Char) : behindSequence? (front ++ c :: cs) = none := by
  by_contra hsome
  obtain ⟨rest, hrest⟩ := Option.ne_none_iff_exists'.mp hsome
  obtain ⟨s, hs, happend⟩ := behindSequence?_eq_some_iff.mp hrest
  -- either the sequence goes at least up to the cut, or `front` starts with it
  obtain ⟨mid, rfl, hmid⟩ | ⟨mid, rfl, -⟩ := List.append_eq_append_iff.mp happend
  · cases mid with
    | nil =>
      -- the sequence is the whole of what stands before the cut
      have h : behindSequence? front = some [] :=
        behindSequence?_eq_some_iff.mpr ⟨front ++ [], hs, by simp⟩
      rw [hfront] at h
      cases h
    | cons d mid =>
      obtain ⟨rfl, -⟩ := List.cons.inj hmid
      exact hc.not_mem hs (by simp)
  · have h : behindSequence? (s ++ mid) = some mid :=
      behindSequence?_eq_some_iff.mpr ⟨s, hs, rfl⟩
    rw [hfront] at h
    cases h

/-- **In front of a character that no sequence has**, a text is stripped as if it stood
alone. -/
theorem strip_cut (hc : Stops c) (front cs : List Char) :
    strip (front ++ c :: cs) = strip front ++ c :: strip cs := by
  induction front using sequence_induction with
  | nil =>
    rw [strip_nil, List.nil_append, List.nil_append]
    exact strip_cons_of_ne (fun h => hc (.inl h)) cs
  | sequence s front hs ih => rw [List.append_assoc, strip_sequence hs, ih, strip_sequence hs]
  | cons d front hd ih =>
    have hcut : behindSequence? (d :: (front ++ c :: cs)) = none :=
      behindSequence?_cut hc hd (List.cons_ne_nil d front) cs
    rw [List.cons_append, strip_cons hcut, ih, strip_cons hd, List.cons_append]

/-- **Lines are stripped one by one**: no sequence goes over the end of a line. -/
theorem lines_strip (cs : List Char) : lines (strip cs) = (lines cs).map strip := by
  induction h : cs.length using Nat.strongRecOn generalizing cs with
  | ind n ih =>
    by_cases hbreak : ∃ c ∈ cs, isLineBreak c
    · -- a break cuts the text into two shorter ones, whichever it is
      obtain ⟨c, hmem, hc⟩ := hbreak
      obtain ⟨front, back, rfl⟩ := List.append_of_mem hmem
      have hlines : ∀ xs ys, lines (xs ++ c :: ys) = lines xs ++ lines ys :=
        fun xs ys => List.splitOnP_append_cons xs ys hc
      rw [List.length_append, List.length_cons] at h
      rw [strip_cut (stops_of_isLineBreak hc), hlines, hlines, List.map_append,
        ih front.length (by omega) front rfl, ih back.length (by omega) back rfl]
    · -- a text of one line, which stays one
      have hcs : ∀ c ∈ cs, isLineBreak c = false := by
        intro c hmem
        rw [Bool.eq_false_iff]
        exact fun hc => hbreak ⟨c, hmem, hc⟩
      have hone : lines cs = [cs] := List.splitOnP_eq_singleton hcs
      have hstripped : lines (strip cs) = [strip cs] :=
        List.splitOnP_eq_singleton fun c hc => hcs c (mem_of_mem_strip hc)
      rw [hone, hstripped, List.map_singleton]

/-! ### Rows of styled pieces -/

/-- **A piece of a report that quotes some texts.** A styled piece is free of escape
characters. A bare piece ends with a character that no sequence has. And an escape character
of a piece is one of the texts'. -/
structure Span.Safe (texts : List String) (x : Span) : Prop where
  styled : x.style.isSome → '\x1b' ∉ x.text.toList
  bare : x.style = none → ∃ front c, x.text.toList = front ++ [c] ∧ Stops c
  quoted : '\x1b' ∈ x.text.toList → ∃ text ∈ texts, '\x1b' ∈ text.toList

theorem isSequence_code (style : Style) : IsSequence (Span.sequence style.code).toList := by
  cases style with
  | boldRed => exact ⟨['1', ';', '3', '1'], by simp [IsParameter], rfl⟩
  | boldBlue => exact ⟨['1', ';', '3', '4'], by simp [IsParameter], rfl⟩
  | blue => exact ⟨['3', '4'], by simp [IsParameter], rfl⟩

theorem isSequence_reset : IsSequence (Span.sequence "0").toList :=
  ⟨['0'], by simp [IsParameter], rfl⟩

variable {texts : List String} {spans : List Span}

/-- **Colours do not matter** to a row of safe pieces. Both renderings go through the same
pieces, and what follows a piece on either side is stripped as if it stood alone. -/
theorem strip_render_safe (h : ∀ x ∈ spans, x.Safe texts) :
    strip (Span.render true spans).toList = strip (Span.render false spans).toList := by
  induction spans with
  | nil => rfl
  | cons x spans ih =>
    obtain ⟨hx, hspans⟩ := List.forall_mem_cons.mp h
    have ih := ih hspans
    obtain ⟨style, text⟩ := x
    cases style with
    | none =>
      -- the last character of a bare piece keeps what is before it from what follows
      obtain ⟨front, c, htext, hc⟩ := hx.bare rfl
      have hrender : ∀ colour, (Span.render colour (⟨none, text⟩ :: spans)).toList
          = front ++ c :: (Span.render colour spans).toList := by
        intro colour
        rw [show (⟨none, text⟩ : Span) = .bare text from rfl, Span.render_bare_cons,
          String.toList_append, htext, List.append_assoc]
        rfl
      rw [hrender, hrender, strip_cut hc, strip_cut hc, ih]
    | some style =>
      -- nothing is left open in front of a styled piece, so both of its sequences go
      have hfree : '\x1b' ∉ text.toList := hx.styled rfl
      have hcoloured : (Span.render true (⟨some style, text⟩ :: spans)).toList
          = (Span.sequence style.code).toList ++
            (text.toList ++ ((Span.sequence "0").toList ++ (Span.render true spans).toList)) := by
        rw [Span.render_cons, String.toList_append]
        simp [Span.render, Span.coloured, String.toList_append]
      rw [hcoloured, Span.toList_render_cons, strip_sequence (isSequence_code style),
        strip_append_of_free hfree, strip_append_of_free hfree, strip_sequence isSequence_reset,
        ih]

/-- Without colours there are no escape characters but those of the texts. -/
theorem mem_texts_of_mem_render (h : ∀ x ∈ spans, x.Safe texts)
    (hc : '\x1b' ∈ (Span.render false spans).toList) :
    ∃ text ∈ texts, '\x1b' ∈ text.toList := by
  induction spans with
  | nil => simp at hc
  | cons x spans ih =>
    obtain ⟨hx, hspans⟩ := List.forall_mem_cons.mp h
    rw [Span.toList_render_cons] at hc
    obtain hc | hc := List.mem_append.mp hc
    · exact hx.quoted hc
    · exact ih hspans hc

/-- A bare piece that ends with such a character. -/
theorem safe_bare {text last : String} (hlast : last = "\n" ∨ last = " ")
    (hquoted : '\x1b' ∈ text.toList → ∃ quoted ∈ texts, '\x1b' ∈ quoted.toList) :
    (Span.bare (text ++ last)).Safe texts where
  styled h := by cases h
  bare _ := by
    obtain rfl | rfl := hlast
    · exact ⟨text.toList, '\n', String.toList_append, by decide⟩
    · exact ⟨text.toList, ' ', String.toList_append, by decide⟩
  quoted h := by
    rw [Span.bare, String.toList_append, List.mem_append] at h
    obtain h | h := h
    · exact hquoted h
    · obtain rfl | rfl := hlast
      · exact absurd h (by decide)
      · exact absurd h (by decide)

/-- A styled piece that quotes nothing. -/
theorem safe_styled {text : String} (style : Style) (hfree : '\x1b' ∉ text.toList) :
    (Span.styled style text).Safe texts where
  styled _ := hfree
  bare h := by cases h
  quoted h := absurd h hfree

end Text

/-! ### Reports -/

namespace Report

variable {texts : List String}

/-- Numbers are free of escape characters. -/
theorem not_mem_toDigits (n : Nat) : '\x1b' ∉ Nat.toDigits 10 n := fun h =>
  absurd (Nat.isDigit_of_mem_toDigits (by decide) (by decide) h) (by decide)

/-- A line of a report: a bare piece, a styled one, and another bare one. -/
theorem safe_line {before text after : Span} (hbefore : before.Safe texts)
    (htext : text.Safe texts) (hafter : after.Safe texts) :
    ∀ x ∈ [before, text, after], x.Safe texts :=
  List.forall_mem_cons.mpr ⟨hbefore, List.forall_mem_cons.mpr
    ⟨htext, List.forall_mem_singleton.mpr hafter⟩⟩

theorem safe_title {cause : Cause} (h : cause.message ∈ texts) :
    ∀ x ∈ title cause, x.Safe texts := by
  have hheading : '\x1b' ∉ cause.heading.toList := by
    cases cause with
    | unimplemented => show '\x1b' ∉ "Unimplemented".toList; decide
    | malformed => show '\x1b' ∉ "Malformed Input".toList; decide
  refine List.forall_mem_cons.mpr ⟨Text.safe_styled _ hheading, List.forall_mem_singleton.mpr ?_⟩
  refine Text.safe_bare (.inl rfl) fun hescape => ⟨_, h, ?_⟩
  simpa [String.toList_append] using hescape

theorem safe_pointer {file : Option String} (h : ∀ name ∈ file, name ∈ texts)
    (place : Position) : ∀ x ∈ pointer file place, x.Safe texts := by
  have hordinal : '\x1b' ∉ place.ordinal.toList := by
    rw [Position.ordinal, String.toList_append, String.toList_append]
    simp [not_mem_toDigits]
  have hbefore : (Span.bare (" " ++ " ")).Safe texts := Text.safe_bare (.inr rfl) (by simp)
  refine safe_line hbefore (Text.safe_styled _ (by decide)) ?_
  refine Text.safe_bare (.inl rfl) fun hescape => ?_
  cases file with
  | none => simp [String.toList_append, hordinal] at hescape
  | some name => exact ⟨name, h name rfl, by simpa [String.toList_append, hordinal] using hescape⟩

theorem safe_numbered {line : List Char}
    (h : '\x1b' ∈ line → ∃ text ∈ texts, '\x1b' ∈ text.toList)
    (style : Style) (width row : Nat) : ∀ x ∈ numbered style width row line, x.Safe texts := by
  have hnumber : '\x1b' ∉ (Text.alignRight width (toString (row + 1))).toList := by
    rw [Text.toList_alignRight]
    simp [not_mem_toDigits]
  have hbefore : (Span.bare (" " ++ " ")).Safe texts := Text.safe_bare (.inr rfl) (by simp)
  refine safe_line hbefore (Text.safe_styled _ hnumber) ?_
  refine Text.safe_bare (.inl rfl) fun hescape => h ?_
  simpa [String.toList_append] using hescape

theorem safe_caret (width col : Nat) : ∀ x ∈ caret width col, x.Safe texts := by
  -- there is always a last blank, even below the first column
  have hblanks : Text.blanks (width + 3 + col) = Text.blanks (width + 2 + col) ++ " " := by
    rw [← String.toList_inj, String.toList_append]
    simp only [Text.blanks, String.toList_ofList]
    rw [show width + 3 + col = width + 2 + col + 1 by omega, List.replicate_succ']
    rfl
  have hafter : (Span.bare ("" ++ "\n")).Safe texts := Text.safe_bare (.inl rfl) (by simp)
  rw [caret, hblanks]
  exact safe_line (Text.safe_bare (.inr rfl) (by simp [Text.blanks]))
    (Text.safe_styled _ (by decide)) hafter

theorem safe_context {lines : List (List Char)}
    (h : ∀ l ∈ lines, '\x1b' ∈ l → ∃ text ∈ texts, '\x1b' ∈ text.toList) (place : Position) :
    ∀ x ∈ context lines place, x.Safe texts := by
  unfold context
  split
  · -- every line that is shown is a line of the text
    simp only [List.forall_mem_append]
    refine ⟨⟨⟨?_, safe_numbered (h _ (List.getElem_mem _)) _ _ _⟩, safe_caret _ _⟩, ?_⟩
    · split
      · exact nofun
      · exact safe_numbered (h _ (List.getElem_mem _)) _ _ _
    · split
      · exact safe_numbered (h _ (List.getElem_mem _)) _ _ _
      · exact nofun
  · exact nofun

/-- The texts that a report quotes: what its fault says, the name of the file, and the
source. -/
def quotedTexts (report : Report) : List String :=
  report.fault.cause.message :: (report.file.toList ++ report.source.toList)

/-- **Every piece of a report is safe.** -/
theorem safe_spans (report : Report) : ∀ x ∈ report.spans, x.Safe report.quotedTexts := by
  obtain ⟨⟨cause, location⟩, source, file⟩ := report
  rw [spans, List.forall_mem_append]
  refine ⟨safe_title List.mem_cons_self, ?_⟩
  cases location with
  | none => exact List.forall_mem_nil _
  | some place =>
    rw [List.forall_mem_append]
    refine ⟨safe_pointer (fun name hname => ?_) place, ?_⟩
    · obtain rfl : file = some name := hname
      simp [quotedTexts]
    · cases source with
      | none => exact List.forall_mem_nil _
      | some source =>
        refine safe_context (fun l hl hescape => ⟨source, ?_, ?_⟩) place
        · simp [quotedTexts]
        · exact (Text.of_mem_lines hl hescape).1

open Text (strip)

/-- **Colours never change the layout of a report.** Without their escape sequences, the
report with colours and the report without them are the same text, and so are their lines
one by one. If the texts that it quotes are free of escape characters, then the report with
colours is the report without them and sequences, and nothing else. -/
theorem strip_render (report : Report) :
    strip (report.render true).toList = strip (report.render false).toList ∧
    (Text.lines (report.render true).toList).map strip
      = (Text.lines (report.render false).toList).map strip ∧
    ('\x1b' ∉ report.fault.cause.message.toList → (∀ name ∈ report.file, '\x1b' ∉ name.toList) →
      (∀ source ∈ report.source, '\x1b' ∉ source.toList) →
      strip (report.render true).toList = (report.render false).toList) := by
  have hsafe := safe_spans report
  have hstrip : strip (report.render true).toList = strip (report.render false).toList :=
    Text.strip_render_safe hsafe
  refine ⟨hstrip, ?_, fun hmessage hfile hsource => ?_⟩
  · rw [← Text.lines_strip, ← Text.lines_strip, hstrip]
  · rw [hstrip]
    apply Text.strip_of_free
    intro hescape
    obtain ⟨text, htext, hmem⟩ := Text.mem_texts_of_mem_render hsafe hescape
    simp only [quotedTexts, List.mem_cons, List.mem_append, Option.mem_toList] at htext
    obtain rfl | htext | htext := htext
    · exact hmessage hmem
    · exact hfile text htext hmem
    · exact hsource text htext hmem

/-- A file whose name ends in the first half of a sequence, and a source text in a report
that quotes no escape character. -/
theorem strip_render_cut_off :
    strip (render ⟨.malformed .unexpectedRightParen ⟨3, 2, 0⟩, some "1\r\n)", some "\x1b[1;3"⟩
        true).toList
      = strip (render ⟨.malformed .unexpectedRightParen ⟨3, 2, 0⟩, some "1\r\n)",
        some "\x1b[1;3"⟩ false).toList ∧
    ('\x1b' ∉ "unexpected right parenthesis".toList ∧ '\x1b' ∉ "sum.txt".toList ∧
      '\x1b' ∉ "1\r\n)".toList) ∧
    strip (render ⟨.malformed .unexpectedRightParen ⟨3, 2, 0⟩, some "1\r\n)", some "sum.txt"⟩
        true).toList
      = (render ⟨.malformed .unexpectedRightParen ⟨3, 2, 0⟩, some "1\r\n)", some "sum.txt"⟩
        false).toList := by
  have hmessage : '\x1b' ∉ "unexpected right parenthesis".toList := by decide
  have hfile : '\x1b' ∉ "sum.txt".toList := by decide
  have hsource : '\x1b' ∉ "1\r\n)".toList := by decide
  refine ⟨(strip_render _).1, ⟨hmessage, hfile, hsource⟩, (strip_render _).2.2 hmessage ?_ ?_⟩
  · rintro _ ⟨⟩
    exact hfile
  · rintro _ ⟨⟩
    exact hsource

end Report

end ArithTree
