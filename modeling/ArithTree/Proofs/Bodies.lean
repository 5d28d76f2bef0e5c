import ArithTree.Proofs.Pieces

/-!
# Bodies

What stands between a parenthesis and the one that answers it is a *body*, and so
is the whole. This module has what can be said about the bodies of a run of
pieces without reading it as a tree.

* `Piece.Balanced` counts parentheses: none is closed before it is opened, and
  none stays open. `Piece.Nested` builds the same runs from the inside out, which
  is the form that inductions need; `Piece.balanced_iff_nested` joins the two.
* `Piece.IsBody` is the set of the bodies of a run, `Piece.innerBodies` finds
  those between parentheses by a walk from left to right
  (`Piece.Nested.isBody_iff`).
* `Piece.items` lists what a body holds itself, with every pair of parentheses in
  it counted as one atom.

A walk over a run that goes on after a nested part is a walk over the part and a
walk over what follows. The `_append` lemmas say so of every walk of this module.
-/

namespace ArithTree

namespace Piece

/-! ### Balanced parentheses -/

/-- Every prefix opens at least as many parentheses as it closes, and the whole
opens as many as it closes. -/
structure Balanced (xs : List Piece) : Prop where
  closings_le : ∀ front, front <+: xs → front.count .closing ≤ front.count .opening
  closings_eq : xs.count .closing = xs.count .opening

/-- Runs in which every parenthesis is answered. -/
inductive Nested : List Piece → Prop
  | nil : Nested []
  | literal {value xs} (hxs : Nested xs) : Nested (.literal value :: xs)
  | operator {o xs} (hxs : Nested xs) : Nested (.operator o :: xs)
  | group {body xs} (hbody : Nested body) (hxs : Nested xs) :
      Nested (.opening :: (body ++ .closing :: xs))

variable {xs ys : List Piece}

theorem Nested.append (hxs : Nested xs) (hys : Nested ys) : Nested (xs ++ ys) := by
  induction hxs with
  | nil => exact hys
  | literal _ ih => exact .literal ih
  | operator _ ih => exact .operator ih
  | group hbody _ _ ih =>
    rw [List.cons_append, List.append_assoc, List.cons_append]
    exact .group hbody ih

theorem Nested.balanced (hxs : Nested xs) : Balanced xs := by
  induction hxs with
  | nil =>
    refine ⟨fun front hfront => ?_, rfl⟩
    rw [List.prefix_nil.mp hfront]
    exact Nat.le_refl _
  | literal _ ih | operator _ ih =>
    refine ⟨fun front hfront => ?_, ?_⟩
    · obtain rfl | ⟨tail, rfl, htail⟩ := List.prefix_cons_iff.mp hfront
      · exact Nat.le_refl _
      · have hle := ih.closings_le tail htail
        simpa using hle
    · simpa using ih.closings_eq
  | @group body xs _ _ ihbody ihxs =>
    have hbody := ihbody.closings_eq
    refine ⟨fun front hfront => ?_, ?_⟩
    · obtain rfl | ⟨tail, rfl, back, hback⟩ := List.prefix_cons_iff.mp hfront
      · exact Nat.le_refl _
      -- the prefix ends in the body, at its closing parenthesis, or behind it
      obtain ⟨rest, rfl, -⟩ | ⟨rest, rfl, hrest⟩ := List.append_eq_append_iff.mp hback
      · have hle := ihbody.closings_le tail (List.prefix_append _ _)
        simp only [List.count_cons, reduceCtorEq, beq_iff_eq, ↓reduceIte]
        omega
      · -- behind the body the two parentheses cancel
        obtain rfl | ⟨last, rfl, hlast⟩ := List.prefix_cons_iff.mp ⟨back, hrest.symm⟩
        · simp [hbody]
        · have hle := ihxs.closings_le last hlast
          simp only [List.count_cons, List.count_append, reduceCtorEq, beq_iff_eq, ↓reduceIte]
          omega
    · have hxs := ihxs.closings_eq
      simp only [List.count_cons, List.count_append, reduceCtorEq, beq_iff_eq, ↓reduceIte]
      omega

/-- **Finding the nesting.** A run that may close `depth` parentheses from
further out, and closes them all, is `depth + 1` nested runs with those closing
parentheses between them. -/
theorem exists_nested (depth : Nat)
    (hle : ∀ front, front <+: xs → front.count .closing ≤ front.count .opening + depth)
    (heq : xs.count .closing = xs.count .opening + depth) :
    ∃ (head : List Piece) (others : List (List Piece)), others.length = depth ∧ Nested head ∧
      (∀ other ∈ others, Nested other) ∧ xs = head ++ others.flatMap (.closing :: ·) := by
  -- An opening parenthesis raises the depth by one. Of the nested runs that follow
  -- it, the first is its body and the second is what comes behind.
  induction xs generalizing depth with
  | nil =>
    obtain rfl : 0 = depth := by simpa using heq
    exact ⟨[], [], rfl, .nil, by simp, rfl⟩
  | cons x xs ih =>
    have hcons : ∀ front, front <+: xs →
        (x :: front).count .closing ≤ (x :: front).count .opening + depth :=
      fun front hfront => hle (x :: front) (List.cons_prefix_cons.mpr ⟨rfl, hfront⟩)
    cases x with
    | literal value =>
      obtain ⟨head, others, hlen, hhead, hothers, rfl⟩ :=
        ih depth (by simpa using hcons) (by simpa using heq)
      exact ⟨_, others, hlen, .literal hhead, hothers, rfl⟩
    | operator o =>
      obtain ⟨head, others, hlen, hhead, hothers, rfl⟩ :=
        ih depth (by simpa using hcons) (by simpa using heq)
      exact ⟨_, others, hlen, .operator hhead, hothers, rfl⟩
    | opening =>
      obtain ⟨head, others, hlen, hhead, hothers, rfl⟩ := ih (depth + 1)
        (fun front hfront => by have hfront := hcons front hfront; simp at hfront; omega)
        (by simp at heq; omega)
      -- one level deeper there are a head and at least one more run
      cases others with
      | nil => simp at hlen
      | cons next others =>
        rw [List.forall_mem_cons] at hothers
        refine ⟨_, others, by simpa using hlen, .group hhead hothers.1, hothers.2, ?_⟩
        simp
    | closing =>
      cases depth with
      | zero =>
        -- nothing is open that could be closed
        have hfirst := hcons [] List.nil_prefix
        simp at hfirst
      | succ depth =>
        obtain ⟨head, others, hlen, hhead, hothers, rfl⟩ := ih depth
          (fun front hfront => by have hfront := hcons front hfront; simp at hfront; omega)
          (by simp at heq; omega)
        exact ⟨[], head :: others, by simp [hlen], .nil,
          List.forall_mem_cons.mpr ⟨hhead, hothers⟩, rfl⟩

theorem balanced_iff_nested : Balanced xs ↔ Nested xs := by
  refine ⟨fun h => ?_, Nested.balanced⟩
  obtain ⟨head, others, hlen, hhead, -, rfl⟩ := exists_nested 0 h.closings_le h.closings_eq
  obtain rfl := List.length_eq_zero_iff.mp hlen
  rwa [List.flatMap_nil, List.append_nil]

/-! ### The items of a body -/

/-- What a body holds itself: atoms, which are literals and pairs of parentheses,
and operators. -/
inductive Item where
  | atom
  | operator
deriving DecidableEq

/-- The items of a body, of which `depth` parentheses are open. What stands
between parentheses is no item; the pair counts where it opens. -/
def items : (depth : Nat) → List Piece → List Item
  | _, [] => []
  | 0, .literal _ :: xs => .atom :: items 0 xs
  | 0, .operator _ :: xs => .operator :: items 0 xs
  | 0, .opening :: xs => .atom :: items 1 xs
  | 0, .closing :: xs => items 0 xs
  | depth + 1, .opening :: xs => items (depth + 2) xs
  | depth + 1, .closing :: xs => items depth xs
  | depth + 1, _ :: xs => items (depth + 1) xs

theorem Nested.items_inside (hxs : Nested xs) (depth : Nat) (ys : List Piece) :
    items (depth + 1) (xs ++ ys) = items (depth + 1) ys := by
  induction hxs generalizing depth ys with
  | nil => rfl
  | literal _ ih | operator _ ih => exact ih depth ys
  | group _ _ ihbody ihxs =>
    rw [List.cons_append, List.append_assoc, items, ihbody, List.cons_append, items, ihxs]

theorem Nested.items_group (hxs : Nested xs) (ys : List Piece) :
    items 0 (.opening :: (xs ++ .closing :: ys)) = .atom :: items 0 ys := by
  rw [items, hxs.items_inside, items]

theorem Nested.items_append (hxs : Nested xs) (ys : List Piece) :
    items 0 (xs ++ ys) = items 0 xs ++ items 0 ys := by
  induction hxs with
  | nil => rfl
  | literal _ ih | operator _ ih => rw [List.cons_append, items, ih, items, List.cons_append]
  | group hbody _ _ ih =>
    rw [hbody.items_group, List.cons_append, List.append_assoc, List.cons_append,
      hbody.items_group, ih, List.cons_append]

/-! ### The bodies of a run -/

/-- `body` is a body of `xs`: all of it, or what stands between a parenthesis of
it and the one that answers it. -/
def IsBody (xs body : List Piece) : Prop :=
  body = xs ∨
    ∃ before after, xs = before ++ .opening :: (body ++ .closing :: after) ∧ Balanced body

/-- What stands before the parenthesis that closes one more than `depth`. -/
def enclosed : (depth : Nat) → List Piece → List Piece
  | _, [] => []
  | 0, .closing :: _ => []
  | depth + 1, .closing :: xs => .closing :: enclosed depth xs
  | depth, .opening :: xs => .opening :: enclosed (depth + 1) xs
  | depth, x :: xs => x :: enclosed depth xs

/-- The bodies between parentheses, in the order in which they open. -/
def innerBodies : List Piece → List (List Piece)
  | [] => []
  | .opening :: xs => enclosed 0 xs :: innerBodies xs
  | _ :: xs => innerBodies xs

theorem Nested.enclosed_append (hxs : Nested xs) (depth : Nat) (ys : List Piece) :
    enclosed depth (xs ++ ys) = xs ++ enclosed depth ys := by
  induction hxs generalizing depth ys with
  | nil => rfl
  | literal _ ih | operator _ ih => simp only [List.cons_append, enclosed, ih]
  | group _ _ ihbody ihxs =>
    simp only [List.cons_append, List.append_assoc, enclosed, ihbody, ihxs]

theorem Nested.innerBodies_append (hxs : Nested xs) (ys : List Piece) :
    innerBodies (xs ++ ys) = innerBodies xs ++ innerBodies ys := by
  induction hxs generalizing ys with
  | nil => rfl
  | literal _ ih | operator _ ih => exact ih ys
  | group hbody _ ihbody ihxs =>
    simp only [List.cons_append, List.append_assoc, innerBodies, hbody.enclosed_append, ihbody,
      ihxs, enclosed]

theorem Nested.innerBodies_group (hxs : Nested xs) (ys : List Piece) :
    innerBodies (.opening :: (xs ++ .closing :: ys))
      = xs :: (innerBodies xs ++ innerBodies ys) := by
  rw [innerBodies, hxs.enclosed_append, hxs.innerBodies_append, enclosed, List.append_nil]
  rfl

/-- A body that opens anywhere is found there. -/
theorem Nested.mem_innerBodies_of_append (hxs : Nested xs) (before after : List Piece) :
    xs ∈ innerBodies (before ++ .opening :: (xs ++ .closing :: after)) := by
  induction before with
  | nil =>
    rw [List.nil_append, hxs.innerBodies_group]
    exact List.mem_cons_self
  | cons x before ih =>
    cases x with
    | opening => exact List.mem_cons_of_mem _ ih
    | literal | operator | closing => exact ih

/-- Every body that is found stands between parentheses. -/
theorem Nested.exists_of_mem_innerBodies {body : List Piece} (hxs : Nested xs)
    (h : body ∈ innerBodies xs) :
    ∃ before after, xs = before ++ .opening :: (body ++ .closing :: after) ∧ Nested body := by
  induction hxs with
  | nil => simp [innerBodies] at h
  | @literal value xs _ ih =>
    obtain ⟨before, after, rfl, hbody⟩ := ih h
    exact ⟨.literal value :: before, after, rfl, hbody⟩
  | @operator o xs _ ih =>
    obtain ⟨before, after, rfl, hbody⟩ := ih h
    exact ⟨.operator o :: before, after, rfl, hbody⟩
  | @group inside xs hinside _ ihinside ihxs =>
    rw [hinside.innerBodies_group, List.mem_cons, List.mem_append] at h
    obtain rfl | h | h := h
    · exact ⟨[], xs, rfl, hinside⟩
    · obtain ⟨before, after, rfl, hbody⟩ := ihinside h
      exact ⟨.opening :: before, after ++ .closing :: xs, by simp, hbody⟩
    · obtain ⟨before, after, rfl, hbody⟩ := ihxs h
      exact ⟨.opening :: (inside ++ .closing :: before), after, by simp, hbody⟩

/-- The bodies of a balanced run are the whole and those found between
parentheses. -/
theorem Nested.isBody_iff {body : List Piece} (hxs : Nested xs) :
    IsBody xs body ↔ body = xs ∨ body ∈ innerBodies xs := by
  refine or_congr_right ⟨?_, fun h => ?_⟩
  · -- what is balanced is found where it opens
    rintro ⟨before, after, rfl, hbody⟩
    exact (balanced_iff_nested.mp hbody).mem_innerBodies_of_append before after
  · obtain ⟨before, after, heq, hbody⟩ := hxs.exists_of_mem_innerBodies h
    exact ⟨before, after, heq, hbody.balanced⟩

end Piece

end ArithTree
