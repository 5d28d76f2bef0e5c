import ArithTree.CommandLine.Options
import Mathlib.Data.List.Induction
import Mathlib.Data.List.Perm.Basic
import Mathlib.Logic.ExistsUnique

/-!
# Phrases of a command line

A list of arguments is a list of *phrases*: a switch is one, an option and the value behind it
are one, and so is every other argument. This module says what options a list of phrases asks
for, without reading it from left to right (`Options.ofArguments_phrases`):

* every list of arguments is cut into phrases in one way (`Phrase.Cut`);
* the first phrase that is refused (`Phrase.Refused`) gives the error (`Phrase.Fails`), and only
  if there is none (`Phrase.Clean`), a file next to an expression does;
* in all other cases `Options.ofPhrases` are the options: a switch is on if it is there, and of
  several values the last one counts.

So the order of phrases does not matter as long as no option is there twice.

`Settings.obey` is what one phrase does to the settings, and arguments are read by obeying their
phrases one by one (`Settings.read_eq`). As long as none is refused, this comes to what the
phrases ask for all together (`Settings.ofPhrases`): one phrase keeps it so
(`Settings.obey_ofPhrases`), and then all of them do (`Settings.obeyAll_of_clean`).
-/

namespace ArithTree.CommandLine

/-! ### Arguments -/

namespace Word

variable {argument : String} {word : Word}

/-- The ways to write a word that has a fixed spelling. -/
def names : Word → List String
  | .tokens => ["--tokens", "-t"]
  | .verbose => ["--verbose", "-v"]
  | .help => ["--help", "-h"]
  | .expr => ["--expr", "-e"]
  | .output => ["--output", "-o"]
  | .unknown | .positional => []

/-- All names start with a dash. -/
theorem head?_of_mem_names (h : argument ∈ word.names) : argument.toList.head? = some '-' := by
  cases word with
  | unknown | positional => simp [names] at h
  | tokens | verbose | help | expr | output =>
    simp only [names, List.mem_cons, List.not_mem_nil, or_false] at h
    obtain rfl | rfl := h <;> rfl

theorem ofArgument_of_mem_names (h : argument ∈ word.names) : ofArgument argument = word := by
  cases word with
  | unknown | positional => simp [names] at h
  | tokens | verbose | help | expr | output =>
    simp only [names, List.mem_cons, List.not_mem_nil, or_false] at h
    obtain rfl | rfl := h <;> rfl

/-- An argument that is no name is what its first character makes it. -/
theorem ofArgument_of_no_name (h : ∀ word : Word, argument ∉ word.names) :
    ofArgument argument
      = if argument.toList.head? = some '-' then .unknown else .positional := by
  have htokens := h .tokens
  have hverbose := h .verbose
  have hhelp := h .help
  have hexpr := h .expr
  have houtput := h .output
  simp only [names, List.mem_cons, List.not_mem_nil, or_false, not_or] at *
  simp [ofArgument, htokens, hverbose, hhelp, hexpr, houtput]

theorem ofArgument_of_dash (hdash : argument.toList.head? = some '-')
    (h : ∀ word : Word, argument ∉ word.names) : ofArgument argument = .unknown := by
  rw [ofArgument_of_no_name h, if_pos hdash]

theorem ofArgument_of_no_dash (hdash : argument.toList.head? ≠ some '-') :
    ofArgument argument = .positional := by
  have hname : ∀ word : Word, argument ∉ word.names :=
    fun _ h => hdash (head?_of_mem_names h)
  rw [ofArgument_of_no_name hname, if_neg hdash]

end Word

/-! ### Phrases -/

/-- **A phrase of a command line.** -/
inductive Phrase where
  | tokens
  | verbose
  | help
  /-- An option with the source text behind it. -/
  | expr (text : String)
  /-- An option with the file to save to behind it. -/
  | output (path : String)
  /-- The file to read. -/
  | file (path : String)
  /-- An argument that starts with a dash and means nothing. -/
  | unknown (argument : String)
  /-- An option with nothing behind it. -/
  | unfinished (argument : String)
deriving DecidableEq

namespace Phrase

/-- **The arguments that a phrase consists of.** A value may look like anything, even like an
option, and a file may be named by the empty argument. -/
inductive Spelling : Phrase → List String → Prop
  | tokens {argument} (h : argument ∈ Word.tokens.names) : Spelling .tokens [argument]
  | verbose {argument} (h : argument ∈ Word.verbose.names) : Spelling .verbose [argument]
  | help {argument} (h : argument ∈ Word.help.names) : Spelling .help [argument]
  | expr {argument} (h : argument ∈ Word.expr.names) (text : String) :
      Spelling (.expr text) [argument, text]
  | output {argument} (h : argument ∈ Word.output.names) (path : String) :
      Spelling (.output path) [argument, path]
  | unknown {argument} (hdash : argument.toList.head? = some '-')
      (h : ∀ word : Word, argument ∉ word.names) : Spelling (.unknown argument) [argument]
  | file {argument} (h : argument.toList.head? ≠ some '-') : Spelling (.file argument) [argument]

/-- **The phrases of a list of arguments**, from left to right. An option with nothing behind it
is the last one. -/
inductive Cut : List String → List Phrase → Prop
  | nil : Cut [] []
  | cons {phrase words arguments phrases} (h : Spelling phrase words)
      (hrest : Cut arguments phrases) : Cut (words ++ arguments) (phrase :: phrases)
  | unfinished {argument} (h : argument ∈ Word.expr.names ++ Word.output.names) :
      Cut [argument] [.unfinished argument]

/-- Cuts a list of arguments into phrases. -/
def ofArguments : List String → List Phrase
  | [] => []
  | argument :: rest =>
    match Word.ofArgument argument with
    | .tokens => .tokens :: ofArguments rest
    | .verbose => .verbose :: ofArguments rest
    | .help => .help :: ofArguments rest
    | .expr =>
      match rest with
      | [] => [.unfinished argument]
      | text :: rest => .expr text :: ofArguments rest
    | .output =>
      match rest with
      | [] => [.unfinished argument]
      | path :: rest => .output path :: ofArguments rest
    | .unknown => .unknown argument :: ofArguments rest
    | .positional => .file argument :: ofArguments rest

variable {arguments : List String} {phrases front back : List Phrase} {phrase : Phrase}
  {error : UsageError}

/-- **Every list of arguments is cut into phrases.** -/
theorem cut_ofArguments (arguments : List String) : Cut arguments (ofArguments arguments) := by
  match arguments with
  | [] => exact .nil
  | argument :: rest =>
    unfold ofArguments
    by_cases hname : ∃ word : Word, argument ∈ word.names
    · obtain ⟨word, hname⟩ := hname
      rw [Word.ofArgument_of_mem_names hname]
      -- what stands behind an option is its value, so it is not looked at
      cases word with
      | unknown | positional => simp [Word.names] at hname
      | tokens => exact .cons (.tokens hname) (cut_ofArguments rest)
      | verbose => exact .cons (.verbose hname) (cut_ofArguments rest)
      | help => exact .cons (.help hname) (cut_ofArguments rest)
      | expr =>
        match rest with
        | [] => exact .unfinished (List.mem_append_left _ hname)
        | text :: rest => exact .cons (.expr hname text) (cut_ofArguments rest)
      | output =>
        match rest with
        | [] => exact .unfinished (List.mem_append_right _ hname)
        | path :: rest => exact .cons (.output hname path) (cut_ofArguments rest)
    · have hname : ∀ word : Word, argument ∉ word.names := not_exists.mp hname
      rw [Word.ofArgument_of_no_name hname]
      by_cases hdash : argument.toList.head? = some '-'
      · rw [if_pos hdash]
        exact .cons (.unknown hdash hname) (cut_ofArguments rest)
      · rw [if_neg hdash]
        exact .cons (.file hdash) (cut_ofArguments rest)

/-- The arguments of a phrase are cut off in front of all others. -/
theorem Spelling.ofArguments_append {words : List String} (h : Spelling phrase words)
    (arguments : List String) :
    ofArguments (words ++ arguments) = phrase :: ofArguments arguments := by
  cases h with
  | @tokens argument h | @verbose argument h | @help argument h =>
    show ofArguments (argument :: arguments) = _
    rw [ofArguments.eq_def]
    simp only [Word.ofArgument_of_mem_names h]
  | @expr argument h value | @output argument h value =>
    show ofArguments (argument :: value :: arguments) = _
    rw [ofArguments.eq_def]
    simp only [Word.ofArgument_of_mem_names h]
  | @unknown argument hdash h =>
    show ofArguments (argument :: arguments) = _
    rw [ofArguments.eq_def]
    simp only [Word.ofArgument_of_dash hdash h]
  | @file argument h =>
    show ofArguments (argument :: arguments) = _
    rw [ofArguments.eq_def]
    simp only [Word.ofArgument_of_no_dash h]

/-- **There is no other cut.** -/
theorem Cut.eq_ofArguments (h : Cut arguments phrases) : phrases = ofArguments arguments := by
  induction h with
  | nil => rfl
  | cons h _ ih => rw [h.ofArguments_append, ih]
  | unfinished h =>
    unfold ofArguments
    obtain h | h := List.mem_append.mp h
    · rw [Word.ofArgument_of_mem_names h]
    · rw [Word.ofArgument_of_mem_names h]

/-! ### Values -/

def file? : Phrase → Option String
  | .file path => some path
  | _ => none

def text? : Phrase → Option String
  | .expr text => some text
  | _ => none

def path? : Phrase → Option String
  | .output path => some path
  | _ => none

/-- The files that phrases name. -/
def files (phrases : List Phrase) : List String := phrases.filterMap file?

/-- The source texts that phrases have. -/
def texts (phrases : List Phrase) : List String := phrases.filterMap text?

/-- The files to save to that phrases name. -/
def paths (phrases : List Phrase) : List String := phrases.filterMap path?

/-- One value of a kind is the same in any order. -/
theorem values_of_perm {value? : Phrase → Option String} (h : front.Perm back)
    (hlength : (front.filterMap value?).length ≤ 1) :
    front.filterMap value? = back.filterMap value? := by
  have hvalues := h.filterMap value?
  -- no list of more than one value is left, and shorter ones have one order
  match hfront : front.filterMap value? with
  | [] =>
    rw [hfront] at hvalues
    exact hvalues.nil_eq
  | [value] =>
    rw [hfront] at hvalues
    exact List.singleton_perm.mp hvalues
  | _ :: _ :: _ => simp [hfront] at hlength

/-- Of two files, one has the other one in front of it. -/
theorem exists_second_file (h : 1 < (files phrases).length) :
    ∃ front path back, phrases = front ++ .file path :: back ∧ files front ≠ [] := by
  match hfiles : files phrases with
  | [] | [_] => simp [hfiles] at h
  | first :: second :: rest =>
    have hsplit : phrases.filterMap file? = [first] ++ second :: rest := hfiles
    obtain ⟨front, others, rfl, hfront, hothers⟩ := List.filterMap_eq_append_iff.mp hsplit
    obtain ⟨between, phrase, back, rfl, -, hphrase, -⟩ := List.filterMap_eq_cons_iff.mp hothers
    have hphrase : phrase = .file second := by
      cases phrase <;> simp_all [file?]
    subst hphrase
    refine ⟨front ++ between, second, back, by rw [List.append_assoc], ?_⟩
    rw [files, List.filterMap_append, hfront]
    exact List.cons_ne_nil _ _

/-! ### Refusals -/

/-- **A phrase is refused** behind others: it means nothing, it is unfinished, or it is a second
file. -/
inductive Refused (front : List Phrase) : Phrase → UsageError → Prop
  | unknown (argument : String) : Refused front (.unknown argument) (.unknownFlag argument)
  | unfinished (argument : String) :
      Refused front (.unfinished argument) (.missingValue argument)
  | file (h : files front ≠ []) (path : String) :
      Refused front (.file path) (.unexpectedArgument path)

/-- **None of the phrases is refused.** -/
def Clean (phrases : List Phrase) : Prop :=
  ∀ front phrase back error, phrases = front ++ phrase :: back → ¬ Refused front phrase error

/-- **The phrases fail with `error`**, since the first one that is refused is refused with it. -/
def Fails (phrases : List Phrase) (error : UsageError) : Prop :=
  ∃ front phrase back, phrases = front ++ phrase :: back ∧ Clean front ∧
    Refused front phrase error

theorem clean_nil : Clean [] := by
  intro front phrase back error heq
  exact absurd heq.symm (List.append_ne_nil_of_right_ne_nil front (List.cons_ne_nil phrase back))

/-- Clean phrases, phrase by phrase from the right. -/
theorem clean_concat_iff :
    Clean (front ++ [phrase]) ↔ Clean front ∧ ∀ error, ¬ Refused front phrase error := by
  constructor
  · intro h
    refine ⟨?_, fun error => h front phrase [] error rfl⟩
    intro front' phrase' back' error heq
    refine h front' phrase' (back' ++ [phrase]) error ?_
    rw [heq, List.append_assoc, List.cons_append]
  · rintro ⟨hfront, hphrase⟩ front' phrase' back' error heq
    -- the phrase that is looked at is the last one, or stands in `front`
    rcases List.eq_nil_or_concat back' with rfl | ⟨back, last, rfl⟩
    · obtain ⟨rfl, h⟩ := List.append_inj' heq rfl
      obtain rfl := List.singleton_inj.mp h
      exact hphrase error
    · rw [List.concat_eq_append, ← List.cons_append, ← List.append_assoc] at heq
      obtain ⟨rfl, -⟩ := List.append_inj' heq rfl
      exact hfront front' phrase' back error rfl

/-- **If not all phrases are clean, there is a first one that is refused.** -/
theorem clean_or_fails (phrases : List Phrase) : Clean phrases ∨ ∃ error, Fails phrases error := by
  induction phrases using List.reverseRecOn with
  | nil => exact .inl clean_nil
  | append_singleton front phrase ih =>
    obtain hfront | ⟨error, front', phrase', back', rfl, hclean, hrefused⟩ := ih
    · by_cases hphrase : ∃ error, Refused front phrase error
      · obtain ⟨error, hphrase⟩ := hphrase
        exact .inr ⟨error, front, phrase, [], rfl, hfront, hphrase⟩
      · exact .inl (clean_concat_iff.mpr ⟨hfront, not_exists.mp hphrase⟩)
    · refine .inr ⟨error, front', phrase', back' ++ [phrase], ?_, hclean, hrefused⟩
      rw [List.append_assoc, List.cons_append]

/-- **Clean phrases, without their order**: each has a meaning, and one file is named at most. -/
theorem clean_iff :
    Clean phrases ↔ (∀ argument, .unknown argument ∉ phrases) ∧
      (∀ argument, .unfinished argument ∉ phrases) ∧ (files phrases).length ≤ 1 := by
  constructor
  · intro h
    refine ⟨fun argument hmem => ?_, fun argument hmem => ?_, ?_⟩
    · obtain ⟨front, back, heq⟩ := List.append_of_mem hmem
      exact h front _ back _ heq (.unknown argument)
    · obtain ⟨front, back, heq⟩ := List.append_of_mem hmem
      exact h front _ back _ heq (.unfinished argument)
    · -- the second of two files is refused
      by_contra hlength
      obtain ⟨front, path, back, heq, hfront⟩ := exists_second_file (Nat.lt_of_not_le hlength)
      exact h front _ back _ heq (.file hfront path)
  · rintro ⟨hunknown, hunfinished, hlength⟩ front phrase back error rfl hrefused
    cases hrefused with
    | unknown argument => exact hunknown argument (by simp)
    | unfinished argument => exact hunfinished argument (by simp)
    | file hfirst path =>
      -- the refused file is one more than those in front of it
      have hpos : 0 < (files front).length := List.length_pos_iff.mpr hfirst
      simp only [files, file?, List.filterMap_append, List.filterMap_cons, List.length_append,
        List.length_cons] at hlength hpos
      omega

/-- **Clean phrases stay clean in any order.** -/
theorem Clean.perm (h : Clean front) (hperm : front.Perm back) : Clean back := by
  rw [clean_iff] at h ⊢
  obtain ⟨hunknown, hunfinished, hlength⟩ := h
  refine ⟨fun argument hmem => ?_, fun argument hmem => ?_, ?_⟩
  · exact hunknown argument (hperm.mem_iff.mpr hmem)
  · exact hunfinished argument (hperm.mem_iff.mpr hmem)
  · have hfiles : (files front).Perm (files back) := hperm.filterMap file?
    rwa [← hfiles.length_eq]

end Phrase

/-! ### Phrase by phrase -/

namespace Settings

open Phrase

variable {settings : Settings} {arguments : List String} {phrases front back : List Phrase}
  {phrase : Phrase} {error : UsageError}

/-- What one phrase does to the settings. -/
def obey (settings : Settings) : Phrase → Except UsageError Settings
  | .tokens => .ok { settings with showTokens := true }
  | .verbose => .ok { settings with verbose := true }
  | .help => .ok { settings with showHelp := true }
  | .expr text => .ok { settings with expr := some text }
  | .output path => .ok { settings with output := some path }
  | .file path =>
    if settings.file.isSome then .error (.unexpectedArgument path)
    else .ok { settings with file := some path }
  | .unknown argument => .error (.unknownFlag argument)
  | .unfinished argument => .error (.missingValue argument)

/-- **Arguments are read phrase by phrase.** -/
theorem read_eq (settings : Settings) (arguments : List String) :
    settings.read arguments = (Phrase.ofArguments arguments).foldlM obey settings := by
  fun_induction read settings arguments with
  | case1 => rfl
  | case2 settings argument rest h ih | case3 settings argument rest h ih
  | case4 settings argument rest h ih =>
    -- a switch
    unfold Phrase.ofArguments
    rw [h, ih]
    rfl
  | case5 settings argument h | case7 settings argument h | case9 settings argument _ h =>
    -- an option with nothing behind it, or an unknown argument
    unfold Phrase.ofArguments
    rw [h]
    rfl
  | case6 settings argument h value rest ih | case8 settings argument h value rest ih =>
    -- an option with its value
    unfold Phrase.ofArguments
    rw [h, ih]
    rfl
  | case10 settings argument rest h hfile =>
    -- a second file
    unfold Phrase.ofArguments
    rw [h]
    show _ = settings.obey (.file argument) >>= _
    rw [obey, if_pos hfile]
    rfl
  | case11 settings argument rest h hfile ih =>
    unfold Phrase.ofArguments
    rw [h, ih]
    show _ = settings.obey (.file argument) >>= _
    rw [obey, if_neg hfile]
    rfl

/-- What phrases ask for all together. -/
def ofPhrases (phrases : List Phrase) : Settings where
  file := (files phrases).getLast?
  expr := (texts phrases).getLast?
  output := (paths phrases).getLast?
  showTokens := .tokens ∈ phrases
  verbose := .verbose ∈ phrases
  showHelp := .help ∈ phrases

/-- **One more phrase that is not refused.** -/
theorem obey_ofPhrases (h : ∀ error, ¬ Refused front phrase error) :
    (ofPhrases front).obey phrase = .ok (ofPhrases (front ++ [phrase])) := by
  cases phrase with
  | tokens | verbose | help | expr text | output path =>
    simp [obey, ofPhrases, files, texts, paths, file?, text?, path?]
  | file path =>
    have hfile : ¬ (files front).getLast?.isSome := by
      rw [List.getLast?_isSome]
      exact fun hfiles => h _ (.file hfiles path)
    have hobey : (ofPhrases front).obey (.file path)
        = .ok { ofPhrases front with file := some path } := if_neg hfile
    rw [hobey]
    simp [ofPhrases, files, texts, paths, file?, text?, path?]
  | unknown argument => exact absurd (.unknown argument) (h _)
  | unfinished argument => exact absurd (.unfinished argument) (h _)

/-- **A phrase that is refused.** -/
theorem obey_ofPhrases_of_refused (h : Refused front phrase error) :
    (ofPhrases front).obey phrase = .error error := by
  cases h with
  | unknown argument | unfinished argument => rfl
  | file h path => exact if_pos (List.getLast?_isSome.mpr h)

/-- **Clean phrases come to what they ask for all together.** -/
theorem obeyAll_of_clean (h : Clean phrases) :
    phrases.foldlM obey initial = .ok (ofPhrases phrases) := by
  -- from the right, since a phrase is judged by those in front of it
  induction phrases using List.reverseRecOn with
  | nil => rfl
  | append_singleton front phrase ih =>
    obtain ⟨hfront, hphrase⟩ := clean_concat_iff.mp h
    calc (front ++ [phrase]).foldlM obey initial
      _ = (front.foldlM obey initial >>= fun settings => settings.obey phrase) := by
        rw [List.foldlM_append]; simp
      _ = (ofPhrases front).obey phrase := by rw [ih hfront]; rfl
      _ = .ok (ofPhrases (front ++ [phrase])) := obey_ofPhrases hphrase

/-- **Nothing behind the first refusal is obeyed.** -/
theorem obeyAll_of_fails (h : Fails phrases error) :
    phrases.foldlM obey initial = .error error := by
  obtain ⟨front, phrase, back, rfl, hfront, hphrase⟩ := h
  rw [List.foldlM_append, obeyAll_of_clean hfront]
  show (ofPhrases front).obey phrase >>= _ = _
  rw [obey_ofPhrases_of_refused hphrase]
  rfl

end Settings

/-! ### The options -/

namespace Options

open Phrase

variable {arguments : List String} {phrases : List Phrase} {error : UsageError}
  {options : Options}

/-- **The options that phrases ask for**: the source text is that of the file, or else the last
one that is given, or else the default. -/
def ofPhrases (phrases : List Phrase) : Options where
  input :=
    match (files phrases).getLast? with
    | some path => .file path
    | none => .inline ((texts phrases).getLast?.getD defaultSource)
  output := (paths phrases).getLast?.getD defaultOutput
  showTokens := .tokens ∈ phrases
  verbose := .verbose ∈ phrases
  showHelp := .help ∈ phrases

/-- All that can be wrong with settings is a file next to an expression. -/
theorem input_ofPhrases (phrases : List Phrase) :
    (Settings.ofPhrases phrases).input =
      if files phrases ≠ [] ∧ texts phrases ≠ [] then .error .twoInputs
      else .ok (ofPhrases phrases).input := by
  simp only [← List.getLast?_isSome, Settings.input, Settings.ofPhrases, ofPhrases]
  cases (files phrases).getLast? <;> cases (texts phrases).getLast? <;> rfl

theorem ofArguments_of_fails (h : Cut arguments phrases) (hfails : Fails phrases error) :
    ofArguments arguments = .error error := by
  rw [ofArguments, Settings.read_eq, ← h.eq_ofArguments, Settings.obeyAll_of_fails hfails]
  rfl

theorem ofArguments_of_clean (h : Cut arguments phrases) (hclean : Clean phrases) :
    ofArguments arguments =
      if files phrases ≠ [] ∧ texts phrases ≠ [] then .error .twoInputs
      else .ok (ofPhrases phrases) := by
  rw [ofArguments, Settings.read_eq, ← h.eq_ofArguments, Settings.obeyAll_of_clean hclean]
  show (Settings.ofPhrases phrases).input >>= _ = _
  rw [input_ofPhrases]
  split <;> rfl

/-- **Arguments are accepted** if their phrases are clean and do not name a file next to an
expression. -/
theorem ofArguments_eq_ok_iff (h : Cut arguments phrases) :
    ofArguments arguments = .ok options ↔
      Clean phrases ∧ ¬ (files phrases ≠ [] ∧ texts phrases ≠ []) ∧
        options = ofPhrases phrases := by
  constructor
  · intro hok
    obtain hclean | ⟨error, hfails⟩ := clean_or_fails phrases
    · rw [ofArguments_of_clean h hclean] at hok
      split at hok
      next => cases hok
      next hboth => exact ⟨hclean, hboth, (Except.ok.inj hok).symm⟩
    · rw [ofArguments_of_fails h hfails] at hok
      cases hok
  · rintro ⟨hclean, hboth, rfl⟩
    rw [ofArguments_of_clean h hclean, if_neg hboth]

/-- **Arguments are refused** because of their first phrase that is refused, or else for naming
a file next to an expression. -/
theorem ofArguments_eq_error_iff (h : Cut arguments phrases) :
    ofArguments arguments = .error error ↔
      Fails phrases error ∨
        Clean phrases ∧ (files phrases ≠ [] ∧ texts phrases ≠ []) ∧ error = .twoInputs := by
  constructor
  · intro herror
    obtain hclean | ⟨first, hfails⟩ := clean_or_fails phrases
    · rw [ofArguments_of_clean h hclean] at herror
      split at herror
      next hboth => exact .inr ⟨hclean, hboth, (Except.error.inj herror).symm⟩
      next => cases herror
    · rw [ofArguments_of_fails h hfails] at herror
      obtain rfl := Except.error.inj herror
      exact .inl hfails
  · rintro (hfails | ⟨hclean, hboth, rfl⟩)
    · exact ofArguments_of_fails h hfails
    · rw [ofArguments_of_clean h hclean, if_pos hboth]

/-- **In another order, the same options**, if no option has several values. The files need no
such bound: several of them are refused in any order. -/
theorem ofArguments_of_perm {front back : List Phrase} {arguments' : List String}
    (hfront : Cut arguments front) (hback : Cut arguments' back) (h : front.Perm back)
    (htexts : (texts front).length ≤ 1) (hpaths : (paths front).length ≤ 1) :
    ofArguments arguments = .ok options ↔ ofArguments arguments' = .ok options := by
  rw [ofArguments_eq_ok_iff hfront, ofArguments_eq_ok_iff hback]
  have hclean : Clean front ↔ Clean back := ⟨fun hc => hc.perm h, fun hc => hc.perm h.symm⟩
  rw [← hclean]
  refine and_congr_right fun hfront => ?_
  obtain ⟨-, -, hlength⟩ := clean_iff.mp hfront
  have hfiles : files front = files back := values_of_perm h hlength
  have htexts : texts front = texts back := values_of_perm h htexts
  have hpaths : paths front = paths back := values_of_perm h hpaths
  have hsame : ofPhrases front = ofPhrases back := by
    simp only [ofPhrases, hfiles, htexts, hpaths, h.mem_iff]
  rw [hfiles, htexts, hsame]

/-- **What options a command line asks for.** Its phrases say it, of which it has one list: it is
refused because of the first phrase that is refused, or else for naming a file next to an
expression, and gets `Options.ofPhrases` otherwise. In another order, phrases that have one value
of a kind at most ask for the same. -/
theorem ofArguments_phrases :
    (∀ arguments, ∃! phrases, Cut arguments phrases) ∧
      (∀ arguments phrases, Cut arguments phrases →
        (∀ error, ofArguments arguments = .error error ↔
          Fails phrases error ∨
            Clean phrases ∧ (files phrases ≠ [] ∧ texts phrases ≠ []) ∧ error = .twoInputs) ∧
        (∀ options, ofArguments arguments = .ok options ↔
          Clean phrases ∧ ¬ (files phrases ≠ [] ∧ texts phrases ≠ []) ∧
            options = ofPhrases phrases)) ∧
      ∀ arguments phrases arguments' phrases', Cut arguments phrases → Cut arguments' phrases' →
        phrases.Perm phrases' → (texts phrases).length ≤ 1 → (paths phrases).length ≤ 1 →
        ∀ options, ofArguments arguments = .ok options ↔ ofArguments arguments' = .ok options := by
  refine ⟨fun arguments => ?_, fun arguments phrases h => ⟨?_, ?_⟩, ?_⟩
  · refine ⟨Phrase.ofArguments arguments, cut_ofArguments arguments, ?_⟩
    intro phrases h
    exact h.eq_ofArguments
  · intro error
    exact ofArguments_eq_error_iff h
  · intro options
    exact ofArguments_eq_ok_iff h
  · intro arguments phrases arguments' phrases' h h' hperm htexts hpaths options
    exact ofArguments_of_perm h h' hperm htexts hpaths

/-- A switch behind `-e` is a value, and the phrases may be swapped. -/
theorem ofArguments_phrases_swapped :
    Cut ["-e", "-t", "-v"] [.expr "-t", .verbose] ∧
      ofArguments ["-v", "--expr", "-t"] = .ok ⟨.inline "-t", defaultOutput, false, true, false⟩ ∧
      ofArguments ["-e", "-t", "-v"] = .ok ⟨.inline "-t", defaultOutput, false, true, false⟩ ∧
      ofArguments ["a", "", "-x"] = .error (.unexpectedArgument "") := by
  have hcut : Cut ["-e", "-t", "-v"] [.expr "-t", .verbose] :=
    .cons (.expr (by decide) "-t") (.cons (.verbose (by decide)) .nil)
  have hswapped : Cut ["-v", "--expr", "-t"] [.verbose, .expr "-t"] :=
    .cons (.verbose (by decide)) (.cons (.expr (by decide) "-t") .nil)
  have hok : ofArguments ["-e", "-t", "-v"]
      = .ok ⟨.inline "-t", defaultOutput, false, true, false⟩ := by
    have hclean : Clean [.expr "-t", .verbose] := clean_iff.mpr ⟨by simp, by simp, by decide⟩
    exact ((ofArguments_phrases.2.1 _ _ hcut).2 _).mpr ⟨hclean, by decide, by decide⟩
  have hfiles : Cut ["a", "", "-x"] [.file "a", .file "", .unknown "-x"] :=
    .cons (.file (by decide)) (.cons (.file (by decide))
      (.cons (.unknown (by decide) fun word => by cases word <;> decide) .nil))
  refine ⟨hcut, ?_, hok, ?_⟩
  · exact (ofArguments_phrases.2.2 _ _ _ _ hcut hswapped (.swap _ _ _) (by decide) (by decide)
      _).mp hok
  · refine ((ofArguments_phrases.2.1 _ _ hfiles).1 _).mpr (.inl ?_)
    exact ⟨[.file "a"], .file "", [.unknown "-x"], rfl, clean_iff.mpr ⟨by simp, by simp, by decide⟩,
      .file (by decide) ""⟩

end Options

end ArithTree.CommandLine
