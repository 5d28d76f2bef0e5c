import ArithTree.Tree.Descent

/-!
# The workbench

A `Workbench` stands for the stateful side of the library: a reader of characters,
made from a source text and asked for its tokens; a reader of tokens, made from a copy
of a list and asked for its tree; and the two things that a user may change by hand, the
list of tokens and the children of a tree. `Workbench.perform` carries out one `Step`
with them and says what came of it.

* `Workbench.perform_of_failed` — a step that fails leaves the bench as it was, and so
  `Workbench.performAll_succeeding`: of a whole session the steps that fail may be left
  out, and all the others come to the same.
* `Workbench.tokenize_after` and `Workbench.parse_after` — both readers may be asked
  again, and answer the same whatever has been done to the list and the tree since they
  were made.
-/

namespace ArithTree

/-- The things on the bench. -/
structure Workbench where
  source : Option String
  tokens : List Token
  /-- The tokens that were set aside for reading. Later changes to the list do not
  reach them. -/
  aside : Option (List Token)
  tree : Block
deriving DecidableEq

/-- One step of work. -/
inductive Step where
  /-- Lays out a source text. -/
  | layOut (source : String)
  /-- Cuts the source text into tokens. -/
  | tokenize
  | setTokens (tokens : List Token)
  | pushToken (token : Token)
  | popToken
  | reverseTokens
  /-- Sets a copy of the tokens aside. -/
  | setAside
  /-- Reads the tokens that were set aside. -/
  | parse
  | pushNode (node : Node)
  | popNode
  /-- Puts the whole tree between parentheses. -/
  | wrapGroup
  /-- Makes the whole tree a nested block. -/
  | wrapBlock
  /-- Only looks at the tree. -/
  | look
deriving DecidableEq

/-- What came of a step. -/
inductive Step.Result where
  | done
  | tokens (tokens : List Token)
  | count (tokens : Nat)
  /-- A token that was taken off, and how many are left. -/
  | poppedToken (token : Option Token) (left : Nat)
  | tree (block : Block)
  /-- A node that was taken off, and how many are left. -/
  | poppedNode (node : Option Node) (left : Nat)
  | fault (fault : Fault)
  /-- The step needs something that is not on the bench. -/
  | missing
deriving DecidableEq

/-- Has the step failed? -/
def Step.Result.isFailure : Step.Result → Bool
  | .fault _ | .missing => true
  | _ => false

namespace Workbench

open Step (Result)

/-- A bench with nothing on it. -/
def empty : Workbench := ⟨none, [], none, .empty⟩

/-- The bench with another list of tokens. -/
def withTokens (bench : Workbench) (tokens : List Token) : Workbench :=
  { bench with tokens := tokens }

/-- The bench with a tree of other children, and that tree. -/
def withChildren (bench : Workbench) (children : List Node) : Workbench × Result :=
  ({ bench with tree := ⟨children⟩ }, .tree ⟨children⟩)

/-- Carries out one step. -/
def perform (bench : Workbench) : Step → Workbench × Result
  | .layOut source => ({ bench with source := some source }, .done)
  | .tokenize =>
    match bench.source.map ArithTree.tokenize with
    | none => (bench, .missing)
    | some (.error fault) => (bench, .fault fault)
    | some (.ok tokens) => (bench.withTokens tokens, .tokens tokens)
  | .setTokens tokens => (bench.withTokens tokens, .count tokens.length)
  | .pushToken token =>
    let tokens := bench.tokens ++ [token]
    (bench.withTokens tokens, .count tokens.length)
  | .popToken =>
    let tokens := bench.tokens.dropLast
    (bench.withTokens tokens, .poppedToken bench.tokens.getLast? tokens.length)
  | .reverseTokens =>
    let tokens := bench.tokens.reverse
    (bench.withTokens tokens, .tokens tokens)
  | .setAside => ({ bench with aside := some bench.tokens }, .done)
  | .parse =>
    match bench.aside.map Block.ofTokens with
    | none => (bench, .missing)
    | some (.error fault) => (bench, .fault fault)
    | some (.ok block) => ({ bench with tree := block }, .tree block)
  | .pushNode node => bench.withChildren (bench.tree.children ++ [node])
  | .popNode =>
    let children := bench.tree.children.dropLast
    ((bench.withChildren children).1, .poppedNode bench.tree.children.getLast? children.length)
  | .wrapGroup => bench.withChildren [.group bench.tree.children]
  | .wrapBlock => bench.withChildren [.block bench.tree.children]
  | .look => (bench, .tree bench.tree)

/-- Carries out steps in turn, and collects what came of each. -/
def performAll (bench : Workbench) : List Step → List Result
  | [] => []
  | step :: steps =>
    let (bench, result) := bench.perform step
    result :: bench.performAll steps

/-- The bench after some steps. -/
def after (bench : Workbench) : List Step → Workbench
  | [] => bench
  | step :: steps => (bench.perform step).1.after steps

/-! ### Steps that fail -/

/-- **A step that fails leaves the bench as it was.** -/
theorem perform_of_failed {bench : Workbench} {step : Step}
    (h : (bench.perform step).2.isFailure) : (bench.perform step).1 = bench := by
  cases step with
  | tokenize | parse =>
    simp only [perform] at h ⊢
    split
    · rfl
    · rfl
    next hread =>
      rw [hread] at h
      cases h
  | look => rfl
  -- no other step can fail
  | layOut | setTokens | pushToken | popToken | reverseTokens | setAside | pushNode | popNode
  | wrapGroup | wrapBlock => cases h

/-- Those of some steps that succeed when all of them are carried out in turn. -/
def succeeding (bench : Workbench) : List Step → List Step
  | [] => []
  | step :: steps =>
    let (next, result) := bench.perform step
    if result.isFailure then next.succeeding steps else step :: next.succeeding steps

/-- **Steps that fail may be left out**: the bench comes to the same, and so does every
other step. -/
theorem performAll_succeeding (bench : Workbench) (steps : List Step) :
    bench.after (bench.succeeding steps) = bench.after steps ∧
      bench.performAll (bench.succeeding steps)
        = (bench.performAll steps).filter fun result => !result.isFailure := by
  induction steps generalizing bench with
  | nil => exact ⟨rfl, rfl⟩
  | cons step steps ih =>
    rw [succeeding, after, performAll]
    cases hfailed : (bench.perform step).2.isFailure with
    | true =>
      -- the next step finds the bench as this one did
      have hsame : (bench.perform step).1 = bench := perform_of_failed hfailed
      simpa [hfailed, hsame] using ih bench
    | false => simpa [hfailed, after, performAll] using ih (bench.perform step).1

/-! ### Asking again -/

/-- Only a new source text takes the place of the one that is laid out. -/
theorem source_perform {bench : Workbench} {step : Step} (h : ∀ source, step ≠ .layOut source) :
    (bench.perform step).1.source = bench.source := by
  cases step with
  | layOut source => exact absurd rfl (h source)
  | tokenize | parse => simp only [perform]; split <;> rfl
  | setTokens | pushToken | popToken | reverseTokens | setAside | pushNode | popNode
  | wrapGroup | wrapBlock | look => rfl

/-- Only another copy takes the place of the tokens that were set aside. -/
theorem aside_perform {bench : Workbench} {step : Step} (h : step ≠ .setAside) :
    (bench.perform step).1.aside = bench.aside := by
  cases step with
  | setAside => exact absurd rfl h
  | tokenize | parse => simp only [perform]; split <;> rfl
  | layOut | setTokens | pushToken | popToken | reverseTokens | pushNode | popNode
  | wrapGroup | wrapBlock | look => rfl

/-- What no step of some changes is the same after them. -/
theorem after_kept {α : Type} (part : Workbench → α) {steps : List Step}
    (h : ∀ step ∈ steps, ∀ bench : Workbench, part (bench.perform step).1 = part bench)
    (bench : Workbench) : part (bench.after steps) = part bench := by
  induction steps generalizing bench with
  | nil => rfl
  | cons step steps ih =>
    obtain ⟨hstep, hsteps⟩ := List.forall_mem_cons.mp h
    rw [after, ih hsteps, hstep]

/-- **The source text may be cut again**, whatever has been done since it was laid out. -/
theorem tokenize_after {bench : Workbench} {steps : List Step}
    (h : ∀ source, .layOut source ∉ steps) :
    ((bench.after steps).perform .tokenize).2 = (bench.perform .tokenize).2 := by
  have hsource : (bench.after steps).source = bench.source := by
    refine after_kept source (fun step hmem bench => source_perform ?_) bench
    rintro source rfl
    exact h source hmem
  simp only [perform, hsource]
  split <;> rfl

/-- **The tokens that were set aside may be read again**, whatever has been done to the list
and to the tree since. -/
theorem parse_after {bench : Workbench} {steps : List Step} (h : .setAside ∉ steps) :
    ((bench.after steps).perform .parse).2 = (bench.perform .parse).2 := by
  have haside : (bench.after steps).aside = bench.aside := by
    refine after_kept aside (fun step hmem bench => aside_perform ?_) bench
    rintro rfl
    exact h hmem
  simp only [perform, haside]
  split <;> rfl

end Workbench

end ArithTree
