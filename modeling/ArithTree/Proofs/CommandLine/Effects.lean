import ArithTree.CommandLine.Program
import ArithTree.Proofs.CommandLine.Files
import ArithTree.Proofs.Sources

/-!
# What a run leaves behind

A run ends with an exit code and leaves a directory behind. This module says which, for
every list of arguments and every directory (`program_writes_only_output`): the run ends
well exactly when it finds what it needs (`Succeeds`), and the file that a tree is saved to
is the only thing that it ever changes. That file may well be the one that the source was read
from, under any of its names: the source is read before anything is written.

A run has many ends. `Options.Ends` lists them, one rule for each, with what has been found
by then and the exit code and directory that come of it; `execute_ends` is the walk through
the script, and everything else is read off the rules.
-/

namespace ArithTree.CommandLine

/-! ### Outcomes -/

namespace Outcome

variable (text : String) (outcome : Outcome)

@[simp] theorem exit_afterPrint : (outcome.afterPrint text).exit = outcome.exit := rfl

@[simp] theorem directory_afterPrint :
    (outcome.afterPrint text).directory = outcome.directory := rfl

@[simp] theorem exit_afterComplain : (outcome.afterComplain text).exit = outcome.exit := rfl

@[simp] theorem directory_afterComplain :
    (outcome.afterComplain text).directory = outcome.directory := rfl

end Outcome

/-! ### The ends of a run -/

/-- The source text that options ask for, as a directory has it. -/
def Options.source (options : Options) (directory : Directory) : Except FileError String :=
  match options.input with
  | .inline text => .ok text
  | .file path => directory.read path

/-- **The options give a source text**: it is in the arguments, or a path that reads as it is. -/
def Options.Finds (options : Options) (directory : Directory) (source : String) : Prop :=
  match options.input with
  | .inline text => text = source
  | .file path => directory.Reads path source

theorem Options.source_eq_ok_iff {options : Options} {directory : Directory} {source : String} :
    options.source directory = .ok source ↔ options.Finds directory source := by
  unfold Options.source Options.Finds
  cases options.input with
  | inline text => simp
  | file path => exact Directory.read_eq_ok_iff

/-- **The ends of a run** that was asked for more than help: what was found on the way, the
exit code, and the directory afterwards. -/
inductive Options.Ends (options : Options) (directory : Directory) : UInt32 → Directory → Prop
  | noSource {error} (h : options.source directory = .error error) :
      Ends options directory 1 directory
  | noTokens {source fault} (hsource : options.source directory = .ok source)
      (h : tokenize source = .error fault) : Ends options directory 1 directory
  | tokens {source tokens} (hsource : options.source directory = .ok source)
      (htokens : tokenize source = .ok tokens) (hshow : options.showTokens = true) :
      Ends options directory 0 directory
  | noTree {source tokens fault} (hsource : options.source directory = .ok source)
      (htokens : tokenize source = .ok tokens) (hshow : options.showTokens = false)
      (h : Block.ofTokens tokens = .error fault) : Ends options directory 1 directory
  | noFile {source tokens block} (hsource : options.source directory = .ok source)
      (htokens : tokenize source = .ok tokens) (hshow : options.showTokens = false)
      (hblock : Block.ofTokens tokens = .ok block)
      (h : ∀ target, ¬ directory.Opens options.output target) : Ends options directory 1 directory
  /-- The tree is saved to the file that the output path leads to. -/
  | tree {source tokens block target number after}
      (hsource : options.source directory = .ok source)
      (htokens : tokenize source = .ok tokens) (hshow : options.showTokens = false)
      (hblock : Block.ofTokens tokens = .ok block)
      (hopens : directory.Opens options.output target)
      (hover : directory.Overwritten target number block.json.toUTF8 after) :
      Ends options directory 0 after

variable {options : Options} {directory : Directory} {source : String} {colour : Bool}
  {arguments : List String}

/-- From the source text on, the run comes to one of its ends. -/
theorem process_ends (hsource : options.source directory = .ok source) (name : String) :
    options.Ends directory ((process options colour name source).play directory).exit
      ((process options colour name source).play directory).directory := by
  have hresult : (Scan.ofSource source).result = tokenize source := rfl
  simp only [process, Script.play, hresult, Outcome.exit_afterComplain,
    Outcome.directory_afterComplain]
  cases htokens : tokenize source with
  | error fault => exact .noTokens hsource htokens
  | ok tokens =>
    cases hshow : options.showTokens with
    | true => exact .tokens hsource htokens hshow
    | false =>
      simp only [Bool.false_eq_true, ↓reduceIte, Script.play, Outcome.exit_afterComplain,
        Outcome.directory_afterComplain]
      cases hblock : Block.ofTokens tokens with
      | error fault => exact .noTree hsource htokens hshow hblock
      | ok block =>
        simp only [save, Script.play, Outcome.exit_afterPrint, Outcome.directory_afterPrint]
        -- nothing is written unless the path can be written to
        cases hwrite : directory.write options.output block.json with
        | error error =>
          refine .noFile hsource htokens hshow hblock fun target hopens => ?_
          obtain ⟨after, hafter⟩ := Directory.exists_write_iff.mpr ⟨target, hopens⟩
          rw [hwrite] at hafter
          cases hafter
        | ok after =>
          obtain ⟨target, number, hopens, hover⟩ := Directory.overwritten_of_write hwrite
          exact .tree hsource htokens hshow hblock hopens hover

/-- **Every run comes to one of its ends.** -/
theorem execute_ends (options : Options) (colour : Bool) (directory : Directory) :
    options.Ends directory ((execute options colour).play directory).exit
      ((execute options colour).play directory).directory := by
  unfold execute
  cases hinput : options.input with
  | inline text =>
    have hsource : options.source directory = .ok text := by rw [Options.source, hinput]
    exact process_ends hsource "<expr>"
  | file path =>
    have hread : options.source directory = directory.read path := by
      rw [Options.source, hinput]
    simp only [Script.play]
    cases hsource : directory.read path with
    | error error => exact .noSource (hread.trans hsource)
    | ok text => exact process_ends (hread.trans hsource) path

/-! ### The exit code -/

/-- **What a run has to find to end well**: options, and unless they only ask for help, a
source text that becomes tokens, and unless only these are to be shown, a tree and a file to
save it to. -/
def Succeeds (arguments : List String) (directory : Directory) : Prop :=
  ∃ options, Options.ofArguments arguments = .ok options ∧
    (options.showHelp = true ∨
      ∃ source tokens, options.Finds directory source ∧ tokenize source = .ok tokens ∧
        (options.showTokens = true ∨
          (∃ block, Block.ofTokens tokens = .ok block) ∧
            ∃ target, directory.Opens options.output target))

namespace Options.Ends

variable {code : UInt32} {after : Directory}

theorem code_cases (h : options.Ends directory code after) : code = 0 ∨ code = 1 := by
  cases h with
  | tokens | tree => exact .inl rfl
  | noSource | noTokens | noTree | noFile => exact .inr rfl

/-- **A run that ends well** has found all that it needs, and only such a run does. -/
theorem code_eq_zero_iff (h : options.Ends directory code after) :
    code = 0 ↔ ∃ source tokens, options.Finds directory source ∧
      tokenize source = .ok tokens ∧ (options.showTokens = true ∨
        (∃ block, Block.ofTokens tokens = .ok block) ∧
          ∃ target, directory.Opens options.output target) := by
  simp only [← Options.source_eq_ok_iff]
  cases h with
  | tokens hsource htokens hshow => exact iff_of_true rfl ⟨_, _, hsource, htokens, .inl hshow⟩
  | tree hsource htokens hshow hblock hopens =>
    exact iff_of_true rfl ⟨_, _, hsource, htokens, .inr ⟨⟨_, hblock⟩, _, hopens⟩⟩
  | noSource h => simp [h]
  | noTokens hsource h => simp [hsource, h]
  | noTree hsource htokens hshow h => simp [hsource, htokens, hshow, h]
  | noFile hsource _ hshow _ h => simp [hsource, hshow, h]

/-- **A run that fails or shows tokens changes nothing.** -/
theorem directory_eq (h : options.Ends directory code after)
    (hkeep : code = 1 ∨ options.showTokens = true) : after = directory := by
  cases h with
  | noSource | noTokens | tokens | noTree | noFile => rfl
  | tree hsource htokens hshow => simp [hshow] at hkeep

/-- **A run that saves a tree** changes the file that it saves the tree to, and nothing
else. -/
theorem saved (h : options.Ends directory code after) (hcode : code = 0)
    (hshow : options.showTokens = false) :
    ∃ source block target number, options.Finds directory source ∧
      Block.ofSource source = .ok block ∧ directory.Opens options.output target ∧
      directory.Overwritten target number block.json.toUTF8 after ∧
      ∀ purpose, after.Leads purpose options.output (.file number) := by
  cases h with
  | noSource | noTokens | noTree | noFile => cases hcode
  | tokens hsource htokens h => simp [hshow] at h
  | @tree source tokens block target number after hsource htokens _ hblock hopens hover =>
    refine ⟨source, block, target, number, Options.source_eq_ok_iff.mp hsource, ?_, hopens, hover,
      fun purpose => hopens.overwritten hover⟩
    exact Block.ofSource_eq_ok_iff.mpr ⟨tokens, htokens, hblock⟩

end Options.Ends

/-- **A run changes at most the file that it saves.** It exits with code 0 exactly when it
succeeds, and with code 1 otherwise. A run that fails, or that was asked for help or for
tokens only, leaves the directory as it was. Any other run read its source from the directory
as it was, and saved the text of the source's tree: the output path led to a file that may be
written to, or to a free name, and leads to a file afterwards that has this content, and no
other file and no other name has changed. -/
theorem program_writes_only_output (arguments : List String) (colour : Bool)
    (directory : Directory) :
    let outcome := (program arguments colour).play directory
    (outcome.exit = 0 ↔ Succeeds arguments directory) ∧
    (outcome.exit ≠ 0 → outcome.exit = 1) ∧
    (∀ options, Options.ofArguments arguments = .ok options →
      outcome.exit = 0 → options.showHelp = false → options.showTokens = false →
      ∃ source block target number, options.Finds directory source ∧
        Block.ofSource source = .ok block ∧ directory.Opens options.output target ∧
        directory.Overwritten target number block.json.toUTF8 outcome.directory ∧
        ∀ purpose, outcome.directory.Leads purpose options.output (.file number)) ∧
    ((outcome.exit = 1 ∨ ∃ options, Options.ofArguments arguments = .ok options ∧
        (options.showHelp = true ∨ options.showTokens = true)) →
      outcome.directory = directory) := by
  intro outcome
  cases hoptions : Options.ofArguments arguments with
  | error error =>
    -- the run ends before it has looked at the directory
    have houtcome : outcome = ((Script.exit 1).play directory).afterComplain
        (error.message ++ "\n" ++ usage) := by
      simp only [outcome, program, hoptions, Script.play]
    simp [houtcome, Script.play, Succeeds, hoptions]
  | ok options =>
    cases hhelp : options.showHelp with
    | true =>
      -- so does a run that was asked for help, whatever else it was asked for
      have houtcome : outcome = ((Script.exit 0).play directory).afterPrint help := by
        simp only [outcome, program, hoptions, hhelp, ↓reduceIte, Script.play]
      simp [houtcome, Script.play, Succeeds, hoptions, hhelp]
    | false =>
      -- all other runs come to an end of the options, and each part is read off the ends
      have houtcome : outcome = (execute options colour).play directory := by
        simp only [outcome, program, hoptions, hhelp, Bool.false_eq_true, ↓reduceIte]
      have hends : options.Ends directory outcome.exit outcome.directory := by
        rw [houtcome]
        exact execute_ends options colour directory
      refine ⟨?_, hends.code_cases.resolve_left, ?_, ?_⟩
      · rw [hends.code_eq_zero_iff]
        simp [Succeeds, hoptions, hhelp]
      · rintro options' hoptions' hexit - hshow
        cases hoptions'
        exact hends.saved hexit hshow
      · -- help has been ruled out, so it is a failure or the tokens were asked for
        rintro (hexit | ⟨options', hoptions', h⟩)
        · exact hends.directory_eq (.inl hexit)
        · cases hoptions'
          exact hends.directory_eq (.inr (h.resolve_left (by simp [hhelp])))

/-- A source that is overwritten by its own tree: the output path leads to it through the folder
above and a link with its full path. The other file there may not be written to, and a run that
saves its tree there fails. -/
theorem program_writes_only_output_over_input :
    let directory : Directory :=
      { here := ⟨["home", "u"]⟩
        entries :=
          [(.root, .folder .full), (⟨["home"]⟩, .folder .full), (⟨["home", "u"]⟩, .folder .full),
            (⟨["home", "u", "sum"]⟩, .file 0), (⟨["home", "u", "link"]⟩, .link "/home/u/sum"),
            (⟨["home", "u", "kept"]⟩, .file 1)]
        files := fun number =>
          if number = 0 then ⟨"1 + 2".toUTF8, .full⟩ else ⟨"3".toUTF8, ⟨true, false, false⟩⟩
        newFile := .full }
    let saved := (program ["sum", "-o", "../u/link"] false).play directory
    let kept := (program ["sum", "-o", "kept"] false).play directory
    (saved.exit = 0 ∧
      (saved.directory.files 0).content
        = (Block.json ⟨[.binary (.integer 1) .add (.integer 2)]⟩).toUTF8 ∧
      (∀ other, other ≠ 0 → saved.directory.files other = directory.files other) ∧
      ∀ name, saved.directory.lookup name = directory.lookup name) ∧
    kept.exit = 1 ∧ kept.directory = directory := by
  intro directory saved kept
  have hread : directory.Reads "sum" "1 + 2" :=
    Directory.read_eq_ok_iff.mp (by decide +kernel)
  have htree : Block.ofSource "1 + 2" = .ok ⟨[.binary (.integer 1) .add (.integer 2)]⟩ :=
    Block.ofSource_eq_ok_iff.mpr ⟨_, rfl, Block.ofTokens_eq_ok_iff_run.mpr rfl⟩
  obtain ⟨tokens, htokens, hblock⟩ := Block.ofSource_eq_ok_iff.mp htree
  constructor
  · have hoptions : Options.ofArguments ["sum", "-o", "../u/link"]
        = .ok ⟨.file "sum", "../u/link", false, false, false⟩ := rfl
    have hleads : directory.Leads .write "../u/link" (.file 0) :=
      Directory.locate_eq_ok_iff.mp (by decide +kernel)
    have hopens : directory.Opens "../u/link" (.file 0) := ⟨hleads, rfl⟩
    obtain ⟨hexit, -, hsaved, -⟩ :=
      program_writes_only_output ["sum", "-o", "../u/link"] false directory
    have hzero : saved.exit = 0 :=
      hexit.mpr ⟨_, hoptions, .inr ⟨_, tokens, hread, htokens, .inr ⟨⟨_, hblock⟩, _, hopens⟩⟩⟩
    obtain ⟨source, block, target, number, hsource, hsourceBlock, htarget, hover, -⟩ :=
      hsaved _ hoptions hzero rfl rfl
    -- there is one source text, and one place that the path leads to
    obtain rfl : "1 + 2" = source := hread.unique hsource
    obtain rfl := Except.ok.inj (htree.symm.trans hsourceBlock)
    obtain rfl : Target.file 0 = target := hleads.unique htarget.leads
    obtain ⟨rfl, -⟩ := hover.file 0 rfl
    exact ⟨hzero, hover.content_eq, hover.files_other, fun name => hover.lookup_other name nofun⟩
  · have hoptions : Options.ofArguments ["sum", "-o", "kept"]
        = .ok ⟨.file "sum", "kept", false, false, false⟩ := rfl
    have hleads : directory.Leads .write "kept" (.file 1) :=
      Directory.locate_eq_ok_iff.mp (by decide +kernel)
    obtain ⟨hexit, hother, -, hsame⟩ :=
      program_writes_only_output ["sum", "-o", "kept"] false directory
    have hone : kept.exit = 1 := by
      apply hother
      rw [Ne, hexit]
      rintro ⟨options, hoptions', hhelp | ⟨_, _, -, -, hshow | ⟨-, target, hopens⟩⟩⟩
      · cases hoptions.symm.trans hoptions'
        cases hhelp
      · cases hoptions.symm.trans hoptions'
        cases hshow
      · -- the path leads to the other file, which may not be written to
        cases hoptions.symm.trans hoptions'
        obtain rfl : Target.file 1 = target := hleads.unique hopens.leads
        cases hopens.writable
    exact ⟨hone, hsame (.inl hone)⟩

end ArithTree.CommandLine
