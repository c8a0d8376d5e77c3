import Deduction.Formula.Path
import Deduction.Formula.Substitution

/-!
# Renaming bound variables

Two ways to rename what a formula binds.

**One chosen binder.**  The binders of a variable are numbered from zero in
the order in which they are met on reading, an outer binder before those
inside it.  `renameBinder` renames the variable throughout the chosen binder,
and `nthBinder?` is the subformula that it works on; both go through
`binderPaths`, so they number alike.

**Apart from given names.**  `renameApart` gives every binder of an unwanted
name a fresh one, working from the inside outwards.  The fresh name is the old
one followed by as few primes as possible (at least one) such that it neither
occurs in the renamed binder nor is itself unwanted.
-/

namespace Deduction

namespace Formula

/-! ## One chosen binder -/

mutual

/-- The paths to all binders of the variable `x`, in reading order. -/
def binderPaths (x : String) : Formula → List Path
  | .atom _ => []
  | .node op cs =>
    let inside := binderPathsFrom x 0 cs
    if (Formula.node op cs).binder? = some x then [] :: inside else inside

/-- The paths to the binders in a list of children of which the first has the
index `i`. -/
def binderPathsFrom (x : String) (i : Nat) : List Formula → List Path
  | [] => []
  | f :: fs => (binderPaths x f).map (i :: ·) ++ binderPathsFrom x (i + 1) fs

end

/-- The path to the `n`-th binder of the variable `v`.  What is no variable has
no binders. -/
def binderPath? (f v : Formula) (n : Nat) : Option Path :=
  v.var?.bind fun x => (binderPaths x f)[n]?

/-- The `n`-th binder of the variable `v`. -/
def nthBinder? (f v : Formula) (n : Nat) : Option Formula :=
  (f.binderPath? v n).bind fun path => subformula? path f

/-- Replaces the variable `v` by `t` throughout its `n`-th binder.  Without
such a binder the formula stays as it is. -/
def renameBinder (f v t : Formula) (n : Nat) : Formula :=
  match v.var?, f.binderPath? v n with
  | some x, some path => modifyAt (replaceVar x t) path f
  | _, _ => f

/-! ## Apart from given names -/

/-- A name followed by a number of primes. -/
def primed (name : String) (primes : Nat) : String :=
  name ++ String.ofList (List.replicate primes '\'')

/-- The name with the fewest primes, at least one, that is not taken.  Among
one more candidates than there are taken names one is always free. -/
def freshName (name : String) (taken : List String) : String :=
  let spare? := (List.range (taken.length + 1)).find? fun n =>
    !taken.contains (primed name (n + 1))
  primed name (spare?.getD 0 + 1)

mutual

/-- Renames every binder of a name in `avoid`, innermost binders first. -/
def renameApart (avoid : List String) : Formula → Formula
  | .atom name => .atom name
  | .node op cs =>
    let renamed := Formula.node op (renameApartAll avoid cs)
    match (Formula.node op cs).binder? with
    | none => renamed
    | some x =>
      if avoid.contains x then
        replaceVar x (var (freshName x (renamed.free ++ renamed.bound ++ avoid))) renamed
      else renamed

/-- Renames apart in every formula of a list. -/
def renameApartAll (avoid : List String) : List Formula → List Formula
  | [] => []
  | f :: fs => renameApart avoid f :: renameApartAll avoid fs

end

/-- Formulas of a list are renamed one by one. -/
theorem renameApartAll_eq_map (avoid : List String) (fs : List Formula) :
    renameApartAll avoid fs = fs.map (renameApart avoid) := by
  induction fs with
  | nil => rfl
  | cons f fs ih => simp [renameApartAll, ih]

end Formula

end Deduction
