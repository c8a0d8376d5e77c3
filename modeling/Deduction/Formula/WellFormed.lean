import Deduction.Formula.Variables

/-!
# Well-formed formulas and terms

A formula is well formed when

* every operator has as many children as it takes, and formulas and terms
  stand where they belong;
* every name that is applied, and every variable that stands for a term, is
  not empty;
* a symbol name is applied to the same number of arguments everywhere;
* no binder binds a variable again inside its own scope;
* no variable is both free and bound.

The check walks the tree from left to right and stops at the first offence.
It remembers which variables are bound around the place it has come to, and
how many arguments each name was first applied to.  The last condition is
checked after the walk, for the whole formula.
-/

namespace Deduction

/-- What a place in a tree calls for. -/
inductive Kind where
  | formula
  | term
  deriving DecidableEq, Repr

namespace Kind

/-- The word for a kind. -/
def text : Kind → String
  | formula => "formula"
  | term => "term"

end Kind

namespace Operator

/-- The kind of tree that an operator heads. -/
def kind : Operator → Kind
  | subjectVariable | functionVariable | functionConstant | classTerm => .term
  | _ => .formula

/-- Whether an operator takes a given number of children.  Variables and
applications are judged by the shape of their children instead, except that a
function variable needs an argument. -/
def takes : Operator → Nat → Bool
  | functionVariable, n => 2 ≤ n
  | negation, n => n = 1
  | conjunction, n | disjunction, n => 2 ≤ n
  | implication, n | equivalence, n | classTerm, n => n = 2
  | universal, n | existential, n | uniqueExistential, n => n = 2 ∨ n = 3
  | _, _ => true

/-- How many children an operator takes, in words. -/
def takesText : Operator → String
  | functionVariable => "a name and at least 1 argument"
  | negation => "exactly 1"
  | conjunction | disjunction => "at least 2"
  | implication | equivalence | classTerm => "exactly 2"
  | universal | existential | uniqueExistential => "2 or 3"
  | _ => "any number of"

end Operator

/-- Why a tree is not well formed. -/
inductive Malformation where
  | unexpectedAtom (name : String) (expected : Kind)
  | unexpectedOperator (op : Operator) (expected : Kind)
  | wrongArity (op : Operator) (found : Nat)
  | missingName (op : Operator)
  | missingBoundVariable (op : Operator)
  | freeAndBound (variableName : String)
  | rebound (variableName : String)
  | inconsistentArity (op : Operator) (name : String) (first found : Nat)
  deriving DecidableEq, Repr

namespace Malformation

/-- The complaint in words. -/
def message : Malformation → String
  | unexpectedAtom name expected =>
    "atom \"" ++ name ++ "\" found where a " ++ expected.text ++ " was expected"
  | unexpectedOperator op expected =>
    "operator " ++ op.tag ++ " found where a " ++ expected.text ++ " was expected"
  | wrongArity op found =>
    "operator " ++ op.tag ++ " expects " ++ op.takesText ++ " children but has " ++ found.repr
  | missingName op =>
    "operator " ++ op.tag ++ " needs a non-empty name atom as first child"
  | missingBoundVariable op => "operator " ++ op.tag ++ " must bind a subject variable"
  | freeAndBound x => "subject variable " ++ x ++ " occurs free and bound"
  | rebound x => "subject variable " ++ x ++ " is bound again inside its own scope"
  | inconsistentArity op name first found =>
    op.tag ++ " " ++ name ++ " is used with " ++ found.repr ++
      " arguments but was first used with " ++ first.repr

end Malformation

/-- The number of arguments that each name was first applied to. -/
abbrev Arities := List ((Operator × String) × Nat)

namespace Arities

/-- Notes an application of a name, or tells the earlier number of arguments
when it was another one. -/
def note (seen : Arities) (op : Operator) (name : String) (found : Nat) :
    Except Malformation Arities :=
  match seen.lookup (op, name) with
  | none => .ok (((op, name), found) :: seen)
  | some first =>
    if first = found then .ok seen else .error (.inconsistentArity op name first found)

end Arities

namespace Formula

mutual

/-- Walks a tree that should be of kind `kind`, below binders of the variables
`outer` and after the applications `seen`, and gives all applications seen. -/
def checkShape (kind : Kind) (outer : List String) (seen : Arities) :
    Formula → Except Malformation Arities
  | .atom name => .error (.unexpectedAtom name kind)
  | .node op cs =>
    if op.kind ≠ kind then .error (.unexpectedOperator op kind)
    else if !op.takes cs.length then .error (.wrongArity op cs.length)
    else if op.isBinder then
      match cs with
      | [] => .error (.missingBoundVariable op)
      | v :: parts =>
        match v.var? with
        | none => .error (.missingBoundVariable op)
        | some x =>
          if outer.contains x then .error (.rebound x)
          else checkShapes .formula (x :: outer) seen parts
    else if op.isApplication then
      match cs with
      | .atom name :: args =>
        if name = "" then .error (.missingName op)
        else
          match seen.note op name args.length with
          | .error offence => .error offence
          | .ok seen => checkShapes .term outer seen args
      | _ => .error (.missingName op)
    else if op = .subjectVariable then
      match cs with
      | [.atom name] => if name = "" then .error (.missingName op) else .ok seen
      | _ => .error (.missingName op)
    else checkShapes .formula outer seen cs

/-- Walks a list of trees of the same kind, from left to right. -/
def checkShapes (kind : Kind) (outer : List String) (seen : Arities) :
    List Formula → Except Malformation Arities
  | [] => .ok seen
  | f :: fs =>
    match checkShape kind outer seen f with
    | .error offence => .error offence
    | .ok seen => checkShapes kind outer seen fs

end

/-- Checks a whole tree of the given kind. -/
def check (kind : Kind) (f : Formula) : Except Malformation Unit :=
  match checkShape kind [] [] f with
  | .error offence => .error offence
  | .ok _ =>
    match f.free.find? f.bound.contains with
    | some x => .error (.freeAndBound x)
    | none => .ok ()

end Formula

end Deduction
