import Deduction.Formula

/-!
# Paths and differences

A **path** is a list of child indices and leads from a formula to one of its
subformulas.  This file follows paths, changes a formula at a path, and finds
the path to the first place where two formulas differ.

`Formula.firstDifference?` goes down as long as both nodes have the same
operator and the same number of children, always into the leftmost children
that differ.

Main statement: `subformula?_append`, a path may be followed in two parts.
-/

namespace Deduction

/-- Child indices, from the root downwards. -/
abbrev Path := List Nat

namespace Formula

/-- The subformula a path leads to. -/
def subformula? : Path → Formula → Option Formula
  | [], f => some f
  | _ :: _, .atom _ => none
  | i :: path, .node _ cs => cs[i]?.bind (subformula? path)

/-- Changes the subformula at a path.  A path that leads nowhere changes
nothing. -/
def modifyAt (g : Formula → Formula) : Path → Formula → Formula
  | [], f => g f
  | _ :: _, .atom name => .atom name
  | i :: path, .node op cs => .node op (cs.modify i (modifyAt g path))

mutual

/-- The path to the first difference of two formulas, if they differ. -/
def firstDifference? : Formula → Formula → Option Path
  | .atom a, .atom b => if a = b then none else some []
  | .node o cs, .node p ds =>
    if o = p ∧ cs.length = ds.length then firstDifferenceFrom? 0 cs ds else some []
  | _, _ => some []

/-- The path to the first difference of two lists of children of which the
first pair has the index `i`. -/
def firstDifferenceFrom? (i : Nat) : List Formula → List Formula → Option Path
  | f :: fs, g :: gs =>
    match firstDifference? f g with
    | some path => some (i :: path)
    | none => firstDifferenceFrom? (i + 1) fs gs
  | _, _ => none

end

@[simp] theorem subformula?_nil (f : Formula) : subformula? [] f = some f := by
  cases f <;> rfl

@[simp] theorem modifyAt_nil (g : Formula → Formula) (f : Formula) : modifyAt g [] f = g f := by
  cases f <;> rfl

/-- Following a path is following its first part and then the second. -/
theorem subformula?_append (path path' : Path) (f : Formula) :
    subformula? (path ++ path') f = (subformula? path f).bind (subformula? path') := by
  induction path generalizing f with
  | nil => simp
  | cons i path ih =>
    cases f with
    | atom name => rfl
    | node op cs =>
      simp only [List.cons_append, subformula?]
      cases cs[i]? with
      | none => rfl
      | some c => exact ih c

end Formula

end Deduction
