import Deduction.Formula

/-!
# Free and bound variables

A subject variable occurs **free** in a formula unless a binder around it
binds its name; it is **bound** when some binder binds it.  One name may be
both.  Either notion is a list of names in the order of first occurrence,
obtained by dropping repetitions from the list of all occurrences.

Since the first child of a binder is the bound variable itself, removing that
name from the occurrences in *all* children gives the occurrences that stay
free, so no list of enclosing binders has to be carried along.

Main statements: `mem_free` and `mem_bound`, membership may be read off the
occurrences, and the equations of the occurrences at a variable, at a binder
and at any other node.
-/

namespace Deduction

namespace Formula

mutual

/-- The names of the free variables, one entry for each occurrence. -/
def freeOccurrences : Formula → List String
  | .atom _ => []
  | .node op cs =>
    match (Formula.node op cs).var? with
    | some x => [x]
    | none =>
      match (Formula.node op cs).binder? with
      | some x => (freeOccurrencesAll cs).filter (· != x)
      | none => freeOccurrencesAll cs

/-- The free occurrences in a list of formulas, from left to right. -/
def freeOccurrencesAll : List Formula → List String
  | [] => []
  | f :: fs => freeOccurrences f ++ freeOccurrencesAll fs

end

mutual

/-- The names of the bound variables, one entry for each binder. -/
def boundOccurrences : Formula → List String
  | .atom _ => []
  | .node op cs => (Formula.node op cs).binder?.toList ++ boundOccurrencesAll cs

/-- The bound occurrences in a list of formulas, from left to right. -/
def boundOccurrencesAll : List Formula → List String
  | [] => []
  | f :: fs => boundOccurrences f ++ boundOccurrencesAll fs

end

/-- The free variables of a formula, in order of first occurrence. -/
def free (f : Formula) : List String :=
  f.freeOccurrences.eraseDups

/-- The variables a formula binds somewhere, in order of first occurrence. -/
def bound (f : Formula) : List String :=
  f.boundOccurrences.eraseDups

/-- Whether some variable of the list is free in the formula. -/
def mentionsFree (f : Formula) (xs : List String) : Bool :=
  f.free.any fun x => xs.contains x

/-- The free occurrences in a list are those of its formulas in turn. -/
theorem freeOccurrencesAll_eq_flatMap (fs : List Formula) :
    freeOccurrencesAll fs = fs.flatMap freeOccurrences := by
  induction fs with
  | nil => rfl
  | cons f fs ih => simp [freeOccurrencesAll, ih]

/-- The bound occurrences in a list are those of its formulas in turn. -/
theorem boundOccurrencesAll_eq_flatMap (fs : List Formula) :
    boundOccurrencesAll fs = fs.flatMap boundOccurrences := by
  induction fs with
  | nil => rfl
  | cons f fs ih => simp [boundOccurrencesAll, ih]

@[simp] theorem freeOccurrences_atom (name : String) :
    (Formula.atom name).freeOccurrences = [] := rfl

@[simp] theorem freeOccurrences_var (x : String) : (var x).freeOccurrences = [x] := rfl

@[simp] theorem boundOccurrences_atom (name : String) :
    (Formula.atom name).boundOccurrences = [] := rfl

@[simp] theorem boundOccurrences_var (x : String) : (var x).boundOccurrences = [] := rfl

/-- A node that is no variable and binds `x` hides `x` in its children. -/
theorem freeOccurrences_binder {op : Operator} {cs : List Formula} {x : String}
    (hv : (Formula.node op cs).var? = none) (hb : (Formula.node op cs).binder? = some x) :
    (Formula.node op cs).freeOccurrences = (cs.flatMap freeOccurrences).filter (· != x) := by
  rw [freeOccurrences, hv, hb, freeOccurrencesAll_eq_flatMap]

/-- A node that is neither a variable nor a binder hides nothing. -/
theorem freeOccurrences_plain {op : Operator} {cs : List Formula}
    (hv : (Formula.node op cs).var? = none) (hb : (Formula.node op cs).binder? = none) :
    (Formula.node op cs).freeOccurrences = cs.flatMap freeOccurrences := by
  rw [freeOccurrences, hv, hb, freeOccurrencesAll_eq_flatMap]

/-- A node binds its own variable first, if it is a binder, and then what its
children bind. -/
theorem boundOccurrences_node (op : Operator) (cs : List Formula) :
    (Formula.node op cs).boundOccurrences =
      (Formula.node op cs).binder?.toList ++ cs.flatMap boundOccurrences := by
  rw [boundOccurrences, boundOccurrencesAll_eq_flatMap]

/-- Dropping repetitions loses no free variable. -/
theorem mem_free {f : Formula} {x : String} : x ∈ f.free ↔ x ∈ f.freeOccurrences :=
  List.mem_eraseDups

/-- Dropping repetitions loses no bound variable. -/
theorem mem_bound {f : Formula} {x : String} : x ∈ f.bound ↔ x ∈ f.boundOccurrences :=
  List.mem_eraseDups

end Formula

end Deduction
