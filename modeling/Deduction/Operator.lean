/-!
# Operators

The fourteen operators of the formula language.  An operator is written by
its **tag** in upper case.  Three groups matter to the rest of the library:

* **binders** take the variable they bind as their first child;
* **applications** take a name as their first child and arguments after it;
* all others combine formulas.

Main statements: `ofTag?_tag` and `tag_injective`, which say that a tag names
exactly one operator.
-/

namespace Deduction

/-- An operator that heads a formula or a term. -/
inductive Operator where
  | subjectVariable
  | predicateVariable
  | functionVariable
  | predicateConstant
  | functionConstant
  | negation
  | conjunction
  | disjunction
  | implication
  | equivalence
  | universal
  | existential
  | uniqueExistential
  | classTerm
  deriving DecidableEq, Repr, Inhabited

namespace Operator

/-- Every operator, in the order by which operators are compared. -/
def all : List Operator :=
  [subjectVariable, predicateVariable, functionVariable, predicateConstant,
    functionConstant, negation, conjunction, disjunction, implication,
    equivalence, universal, existential, uniqueExistential, classTerm]

/-- The written form of an operator. -/
def tag : Operator → String
  | subjectVariable => "VAR"
  | predicateVariable => "PREDVAR"
  | functionVariable => "FUNVAR"
  | predicateConstant => "PREDCON"
  | functionConstant => "FUNCON"
  | negation => "NOT"
  | conjunction => "AND"
  | disjunction => "OR"
  | implication => "IMPL"
  | equivalence => "EQUI"
  | universal => "FORALL"
  | existential => "EXISTS"
  | uniqueExistential => "EXISTSU"
  | classTerm => "CLASS"

/-- The operator written by a tag.  Tags are case sensitive. -/
def ofTag? (text : String) : Option Operator :=
  all.find? fun op => op.tag = text

/-- The complaint about a tag that names no operator. -/
def unknownTagMessage (text : String) : String :=
  "unknown operator '" ++ text ++ "'"

/-- A binder's first child is the variable it binds. -/
def isBinder : Operator → Bool
  | universal | existential | uniqueExistential | classTerm => true
  | _ => false

/-- An application's first child is a name, the others are arguments. -/
def isApplication : Operator → Bool
  | predicateVariable | functionVariable | predicateConstant
  | functionConstant => true
  | _ => false

/-- The place of an operator in `all`. -/
def rank (op : Operator) : Nat :=
  all.idxOf op

instance : LT Operator where
  lt a b := a.rank < b.rank

instance (a b : Operator) : Decidable (a < b) :=
  inferInstanceAs (Decidable (a.rank < b.rank))

/-- No operator is left out of the list. -/
theorem mem_all (op : Operator) : op ∈ all := by
  cases op <;> decide

/-- Reading the tag of an operator gives the operator back. -/
@[simp] theorem ofTag?_tag (op : Operator) : ofTag? op.tag = some op := by
  cases op <;> decide +kernel

/-- No two operators share a tag. -/
theorem tag_injective {a b : Operator} (h : a.tag = b.tag) : a = b := by
  have hb : ofTag? a.tag = some b := h ▸ ofTag?_tag b
  simpa using hb

/-- An operator that a tag was read as is written by that tag. -/
theorem tag_of_ofTag? {text : String} {op : Operator}
    (h : ofTag? text = some op) : op.tag = text := by
  simpa using List.find?_some h

end Operator

end Deduction
