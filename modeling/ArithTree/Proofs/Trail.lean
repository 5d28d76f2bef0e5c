import ArithTree.Log
import ArithTree.Proofs.Munch
import ArithTree.Proofs.OnePass
import ArithTree.Proofs.Shifts

/-!
# The trail of a source text

Events are written while a text is read, before it is known how the reading ends. This
module says what they come to when it has ended (`Log.ofSource_trail`): an event for each
token of the text in front of its leftmost fault, one more event for each of the two stages
that succeeded, and of all these the ones that matter enough for the first threshold that
was asked for.

* `FaultFreeTo` — the text up to an index holds no fault, and the index is where the leftmost
  fault starts or, if there is none, where the text ends. Every text has such an index
  (`exists_faultFreeTo`) and only one (`FaultFreeTo.unique`).
* `Scan.tokens_take` — a scan of the text up to there meets no fault and finds the tokens
  that a scan of the whole text finds.
* `Log.tokenLine`, `Log.stageLines` — the lines that are told of, written out, each with its
  level. `Level.ascending` is the order of the levels.

A run of digits that is out of range is known by its end, but it starts further left. The
text in front of it ends at its start, so the digits of the run are no part of it.
-/

namespace ArithTree

open Lexeme (At Between EndsNoDigit Faulty StartsNoDigit)

/-- **A text is free of faults up to an index**, and no further: the leftmost fault starts
there, or the text ends. -/
structure FaultFreeTo (cs : List Char) (n : Nat) : Prop where
  le_of_faulty : ∀ j y cause, At cs j y → y.Faulty cause → n ≤ j
  ends : n = cs.length ∨ ∃ x cause, At cs n x ∧ x.Faulty cause

variable {source : String} {cs front back : List Char} {m n : Nat} {x : Lexeme}

/-- A text that becomes tokens is free of faults to its end. -/
theorem faultFreeTo_of_tokenize {tokens : List Token} (h : tokenize source = .ok tokens) :
    FaultFreeTo source.toList source.toList.length := by
  have hlegible := Lexeme.legible_iff.mp (exists_tokenize_iff.mp ⟨tokens, h⟩)
  refine ⟨?_, .inl rfl⟩
  intro j y cause hy hfaulty
  exact absurd hfaulty (hlegible j y cause hy)

theorem exists_faultFreeTo (source : String) : ∃ n, FaultFreeTo source.toList n := by
  cases h : tokenize source with
  | ok tokens => exact ⟨_, faultFreeTo_of_tokenize h⟩
  | error fault =>
    obtain ⟨cause, place⟩ := fault
    obtain ⟨n, x, hx, hfaulty, hleft⟩ := exists_tokenize_eq_error_iff.mp ⟨place, h⟩
    exact ⟨n, hleft, .inr ⟨x, cause, hx, hfaulty⟩⟩

/-- The front of a text is not longer than the one up to its leftmost fault. -/
theorem FaultFreeTo.le (h : FaultFreeTo cs m) (h' : FaultFreeTo cs n) : m ≤ n := by
  obtain rfl | ⟨x, cause, hx, hfaulty⟩ := h'.ends
  · obtain rfl | ⟨y, cause, hy, -⟩ := h.ends
    · exact Nat.le_refl _
    · exact Nat.le_of_lt hy.lt_length
  · exact h.le_of_faulty n x cause hx hfaulty

/-- **The text in front of the leftmost fault** is determined by the text. -/
theorem FaultFreeTo.unique (h : FaultFreeTo cs m) (h' : FaultFreeTo cs n) : m = n :=
  Nat.le_antisymm (h.le h') (h'.le h)

/-- The leftmost fault is that of the first lexeme that is refused. -/
theorem faultFreeTo_of_ofChars {before after : List Lexeme} {cause : Cause}
    (h : Lexeme.ofChars cs = before ++ x :: after)
    (hbefore : ∀ y ∈ before, ∀ cause, y.reading ≠ .refused cause)
    (hx : x.reading = .refused cause) : FaultFreeTo cs (before.flatMap Lexeme.chars).length := by
  have hat : At cs (before.flatMap Lexeme.chars).length x :=
    Lexeme.at_iff.mpr ⟨before, after, h, rfl⟩
  refine ⟨?_, .inr ⟨x, cause, hat, hat.reading_eq_refused_iff.mp hx⟩⟩
  intro j y cause hy hfaulty
  obtain ⟨front, back, heq, rfl⟩ := Lexeme.at_iff.mp hy
  rw [h] at heq
  obtain ⟨between, rfl, -⟩ | ⟨between, rfl, hrest⟩ := List.append_eq_append_iff.mp heq
  · simp
  · cases between with
    | nil => simp
    | cons z between =>
      obtain ⟨rfl, -⟩ := List.cons.inj hrest
      -- a lexeme further left is one of those in front
      exact absurd (hy.reading_eq_refused_iff.mpr hfaulty) (hbefore _ (by simp) cause)

/-! ### The text in front of a fault -/

/-- A text may be cut in front of a lexeme of it. -/
theorem Lexeme.Between.cut_before (h : Between front x back) :
    EndsNoDigit front ∨ StartsNoDigit (x.chars ++ back) := by
  cases h with
  | number hrun => exact .inl hrun.left
  | mark hc => exact .inr (Lexeme.startsNoDigit_cons.mpr hc)

namespace Scan

/-- The text in front of the leftmost fault has no fault. -/
theorem fault_front (h : FaultFreeTo (front ++ back) front.length)
    (hcut : EndsNoDigit front ∨ StartsNoDigit back) :
    (ofLexemes .start (Lexeme.ofChars front)).fault = none := by
  rw [fault_eq_none_iff]
  intro i y cause hy hreading
  have hlt : i < front.length := hy.lt_length
  have hwhole : At (front ++ back) i y := (Lexeme.at_append_iff hcut).mpr (.inl hy)
  have hfaulty := h.le_of_faulty i y cause hwhole (hwhole.reading_eq_refused_iff.mp hreading)
  omega

/-- **The tokens in front of the leftmost fault** are those of the whole text. -/
theorem tokens_take (h : FaultFreeTo cs n) :
    (ofLexemes .start (Lexeme.ofChars (cs.take n))).fault = none ∧
    (ofLexemes .start (Lexeme.ofChars cs)).tokens
      = (ofLexemes .start (Lexeme.ofChars (cs.take n))).tokens := by
  obtain rfl | ⟨x, cause, hx, hfaulty⟩ := h.ends
  · rw [List.take_length]
    have hwhole : FaultFreeTo (cs ++ []) cs.length := by rwa [List.append_nil]
    exact ⟨fault_front hwhole (.inr Lexeme.startsNoDigit_nil), rfl⟩
  · -- the text is cut where the refused lexeme starts
    have hreading := hx.reading_eq_refused_iff.mpr hfaulty
    obtain ⟨front, back, rfl, rfl, hbetween⟩ := hx
    have hfront := fault_front h hbetween.cut_before
    rw [List.take_left]
    refine ⟨hfront, ?_⟩
    -- behind the front the scan ends at once
    rw [hbetween.ofChars_eq, ofLexemes_append, followedBy, hfront]
    simp [ofLexemes, hreading]

end Scan

/-! ### The lines of the log -/

/-- The levels, the least severe first. -/
def Level.ascending : List Level := [.trace, .debug, .info, .warn, .error]

theorem Level.severity_eq_idxOf (level : Level) : level.severity = ascending.idxOf level := by
  cases level <;> rfl

namespace Log

/-- A line that is told of, and the level it is told at. -/
structure Line where
  level : Level
  text : String

/-- What a line calls a kind of token. -/
def kindWord : Token.Kind → String
  | .integer => "integer"
  | .string => "string"
  | .identifier => "identifier"
  | .operator => "operator"
  | .leftParen => "("
  | .rightParen => ")"

/-- The line for a token: its kind, and the row and the column it was found at. -/
def tokenLine (t : Token) : Line :=
  ⟨.trace, "TRACE token kind=" ++ kindWord t.kind ++ " position=" ++ toString t.position.row ++
    ":" ++ toString t.position.col ++ "\n"⟩

/-- **The lines for the two stages**, by their results. The first stage makes tokens of the
characters of the text, and if it succeeds the second one makes a tree of the tokens. -/
def stageLines (source : String) : Except Fault (List Token) → List Line
  | .error _ => []
  | .ok tokens =>
    ⟨.debug, "DEBUG lexed source tokens=" ++ toString tokens.length ++ " chars=" ++
        toString source.toList.length ++ "\n"⟩ ::
      match Block.ofTokens tokens with
      | .error _ => []
      | .ok block =>
        [⟨.debug, "DEBUG parsed tokens tokens=" ++ toString tokens.length ++ " children=" ++
          toString block.children.length ++ "\n"⟩]

end Log

/-! ### Events as lines -/

namespace Event

/-- An event as it is told of. -/
def told (event : Event) : Log.Line :=
  ⟨event.level, event.line⟩

theorem told_found (t : Token) : (found t).told = Log.tokenLine t := by
  have hkind : t.kind.label = Log.kindWord t.kind := by
    cases t.kind <;> rfl
  simp [told, found, line, Log.tokenLine, hkind, Position.label, Level.name, Text.alignRight,
    List.leftpad, ← String.append_assoc]

theorem told_lexed (tokens chars : Nat) :
    (lexed tokens chars).told = ⟨.debug, "DEBUG lexed source tokens=" ++ toString tokens ++
      " chars=" ++ toString chars ++ "\n"⟩ := by
  simp [told, lexed, line, Level.name, Text.alignRight, List.leftpad, ← String.append_assoc]

theorem told_parsed (tokens children : Nat) :
    (parsed tokens children).told = ⟨.debug, "DEBUG parsed tokens tokens=" ++ toString tokens ++
      " children=" ++ toString children ++ "\n"⟩ := by
  simp [told, parsed, line, Level.name, Text.alignRight, List.leftpad, ← String.append_assoc]

/-- The trail of reading a tree is what is told of the second stage. -/
theorem told_ofTokens (tokens : List Token) :
    (ofTokens tokens).map told =
      match Block.ofTokens tokens with
      | .error _ => []
      | .ok block =>
        [⟨.debug, "DEBUG parsed tokens tokens=" ++ toString tokens.length ++ " children=" ++
          toString block.children.length ++ "\n"⟩] := by
  unfold ofTokens
  cases Block.ofTokens tokens with
  | error fault => rfl
  | ok block =>
    rw [List.map_singleton, told_parsed]

/-- **The trail of a text**: the tokens that were found, and then the stages. -/
theorem told_ofSource (source : String) :
    (ofSource source).map told
      = (Scan.ofSource source).tokens.map Log.tokenLine ++
        Log.stageLines source (tokenize source) := by
  have htokens : ∀ tokens : List Token,
      (tokens.map found).map told = tokens.map Log.tokenLine := by
    intro tokens
    rw [List.map_map]
    exact List.map_congr_left fun t _ => told_found t
  unfold ofSource ofScan tokenize
  obtain ⟨tokens, fault⟩ := Scan.ofSource source
  cases fault with
  | some fault =>
    -- the first stage failed, so only its tokens are told of
    simp [htokens, Scan.result, Log.stageLines]
  | none =>
    simp [htokens, told_lexed, told_ofTokens, Scan.result, Log.stageLines, String.length_toList]

end Event

namespace Log

/-- Without a threshold no event is written. -/
theorem write_none (events : List Event) : write none events = "" := by
  have hnone : events.filter (admits none) = [] :=
    List.filter_eq_nil_iff.mpr fun _ _ => Bool.false_ne_true
  rw [write, hnone]
  rfl

/-- With a threshold the lines are written that are at least as severe. -/
theorem write_some (least : Level) (events : List Event) :
    write (some least) events
      = String.join (((events.map Event.told).filter fun line =>
          Level.ascending.idxOf least ≤ Level.ascending.idxOf line.level).map Line.text) := by
  rw [write, List.filter_map, List.map_map]
  have hadmits : admits (some least) = (fun line : Line =>
      decide (Level.ascending.idxOf least ≤ Level.ascending.idxOf line.level)) ∘ Event.told := by
    funext event
    simp only [admits, Level.severity_eq_idxOf, Function.comp_apply]
    rfl
  rw [hadmits]
  rfl

/-- **The log tells what the two stages did.** Without a request for a threshold nothing is
written. Otherwise the first request alone counts, for warnings if it names no level, and what
is written are the lines that are at least as severe, out of these: one for each token of the
text in front of the leftmost fault, in the order of the text; one when the whole text has
become tokens; one more when the tokens have become a tree. -/
theorem ofSource_trail (requests : List (Option Level)) (source : String) :
    ∃ n found, FaultFreeTo source.toList n ∧
      tokenize (String.ofList (source.toList.take n)) = .ok found ∧
      ofSource requests source =
        match requests with
        | [] => ""
        | request :: _ =>
          String.join
            (((found.map tokenLine ++ stageLines source (tokenize source)).filter fun line =>
              Level.ascending.idxOf (request.getD .warn) ≤ Level.ascending.idxOf line.level).map
                Line.text) := by
  obtain ⟨n, hn⟩ := exists_faultFreeTo source
  obtain ⟨hfault, htokens⟩ := Scan.tokens_take hn
  refine ⟨n, (Scan.ofSource source).tokens, hn, ?_, ?_⟩
  · -- the front has no fault, and its tokens are those that were found
    apply Scan.result_eq_ok_iff.mpr
    rw [Scan.ofSource, String.toList_ofList]
    exact ⟨hfault, htokens.symm⟩
  · cases requests with
    | nil => exact write_none _
    | cons request requests =>
      rw [ofSource, threshold, write_some, Event.told_ofSource]
      rfl

/-- The digits of a run that is out of range are not told of, and only the first request counts.
A text without a fault is told of at both stages, but not to a log for warnings. -/
theorem ofSource_trail_cut_short :
    ofSource [some .trace, none] "7\n99999999999999999999"
      = "TRACE token kind=integer position=0:1\n" ∧
    ofSource [some .debug] "(1)"
      = "DEBUG lexed source tokens=3 chars=3\nDEBUG parsed tokens tokens=3 children=1\n" ∧
    ofSource [none, some .trace] "(1)" = "" := by
  have htokens : tokenize "(1)" = .ok [⟨.leftParen, ⟨0, 0, 0⟩, none⟩,
      ⟨.integer, ⟨2, 0, 2⟩, some (.integer 1)⟩, ⟨.rightParen, ⟨2, 0, 2⟩, none⟩] := rfl
  have hblock : Block.ofTokens [⟨.leftParen, ⟨0, 0, 0⟩, none⟩,
      ⟨.integer, ⟨2, 0, 2⟩, some (.integer 1)⟩, ⟨.rightParen, ⟨2, 0, 2⟩, none⟩]
      = .ok ⟨[.group [.literal (.integer 1)]]⟩ := Block.ofTokens_eq_ok_iff_run.mpr rfl
  refine ⟨?_, ?_, ?_⟩
  · obtain ⟨n, found, hn, hfound, hlog⟩ :=
      ofSource_trail [some .trace, none] "7\n99999999999999999999"
    have hcut : Lexeme.ofChars "7\n99999999999999999999".toList
        = [.number ['7'], .mark '\n'] ++ [.number "99999999999999999999".toList] := rfl
    obtain rfl : n = 2 := by
      refine hn.unique (faultFreeTo_of_ofChars hcut ?_ rfl)
      intro y hy cause
      obtain rfl | rfl : y = .number ['7'] ∨ y = .mark '\n' := by simpa using hy
      · exact Lexeme.Reading.noConfusion
      · exact Lexeme.Reading.noConfusion
    obtain rfl : [⟨.integer, ⟨1, 0, 1⟩, some (.integer 7)⟩] = found := Except.ok.inj hfound
    rw [hlog]
    decide
  · obtain ⟨n, found, hn, hfound, hlog⟩ := ofSource_trail [some .debug] "(1)"
    obtain rfl : n = 3 := hn.unique (faultFreeTo_of_tokenize htokens)
    obtain rfl := Except.ok.inj (htokens.symm.trans hfound)
    rw [hlog, htokens, stageLines, hblock]
    decide
  · obtain ⟨n, found, hn, hfound, hlog⟩ := ofSource_trail [none, some .trace] "(1)"
    obtain rfl : n = 3 := hn.unique (faultFreeTo_of_tokenize htokens)
    obtain rfl := Except.ok.inj (htokens.symm.trans hfound)
    rw [hlog, htokens, stageLines, hblock]
    decide

end Log

end ArithTree
