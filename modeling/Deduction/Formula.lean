import Deduction.Operator

/-!
# Formulas

A formula is a tree: an **atom** carries a name, a **node** applies an
operator to a list of children.  No arity is built into the type, so that a
defective formula can be held, shown and reported; which trees are well
formed is a matter of `Deduction.Formula.WellFormed`.

Terms and formulas are trees of this one type.  A subject variable is the
node `VAR(x)` over a single atom, and the library speaks of it by its name.

Every walk over a formula is a pair of functions, one for a formula and one
for a list of them; `Formula.induct` is the matching principle of induction.
Main statements: `Formula.decEq`, equality of formulas is decided, and
`Formula.var?_eq_some_iff` and `Formula.binder?_eq_some_iff`, the one shape of a
subject variable and of a binder.
-/

namespace Deduction

/-- A formula or a term, as a tree of operators over named leaves. -/
inductive Formula where
  | atom (name : String)
  | node (op : Operator) (children : List Formula)
  deriving Repr, Inhabited

namespace Formula

/-- **Induction over formulas**, with the hypothesis for every child. -/
theorem induct {motive : Formula → Prop}
    (atom : ∀ name, motive (.atom name))
    (node : ∀ op children, (∀ c ∈ children, motive c) → motive (.node op children)) :
    ∀ f, motive f
  | .atom name => atom name
  | .node op children => node op children fun c _ => induct atom node c

mutual

/-- Equality of formulas is decided by walking both trees. -/
def decEq : (f g : Formula) → Decidable (f = g)
  | .atom a, .atom b =>
    if h : a = b then isTrue (h ▸ rfl) else isFalse fun e => h (Formula.atom.inj e)
  | .atom _, .node _ _ => isFalse fun e => nomatch e
  | .node _ _, .atom _ => isFalse fun e => nomatch e
  | .node o cs, .node p ds =>
    if h : o = p then
      match decEqAll cs ds with
      | isTrue h' => isTrue (h ▸ h' ▸ rfl)
      | isFalse h' => isFalse fun e => h' (Formula.node.inj e).2
    else isFalse fun e => h (Formula.node.inj e).1

/-- Equality of lists of formulas. -/
def decEqAll : (fs gs : List Formula) → Decidable (fs = gs)
  | [], [] => isTrue rfl
  | [], _ :: _ => isFalse fun e => nomatch e
  | _ :: _, [] => isFalse fun e => nomatch e
  | f :: fs, g :: gs =>
    match decEq f g with
    | isFalse h => isFalse fun e => h (List.cons.inj e).1
    | isTrue h =>
      match decEqAll fs gs with
      | isTrue h' => isTrue (h ▸ h' ▸ rfl)
      | isFalse h' => isFalse fun e => h' (List.cons.inj e).2

end

instance : DecidableEq Formula := decEq

/-! ## Building formulas -/

/-- The subject variable of a given name. -/
def var (name : String) : Formula :=
  .node .subjectVariable [.atom name]

/-- An operator applied to a name and to arguments. -/
def application (op : Operator) (name : String) (args : List Formula) : Formula :=
  .node op (.atom name :: args)

/-- A predicate variable without arguments, which stands for a proposition. -/
def letter (name : String) : Formula :=
  application .predicateVariable name []

/-- The implication of two formulas. -/
def implies (antecedent consequent : Formula) : Formula :=
  .node .implication [antecedent, consequent]

/-- The formula that quantifies over a variable without a restriction. -/
def quantify (op : Operator) (x : String) (body : Formula) : Formula :=
  .node op [var x, body]

/-- The conjunction of a list: of one formula it is that formula itself, and
of none there is no conjunction. -/
def conjunction? : List Formula → Option Formula
  | [] => none
  | [f] => some f
  | fs => some (.node .conjunction fs)

/-! ## Looking at formulas -/

/-- The name of an atom. -/
def atom? : Formula → Option String
  | .atom name => some name
  | .node _ _ => none

/-- The operator that heads a node. -/
def operator? : Formula → Option Operator
  | .atom _ => none
  | .node op _ => some op

/-- The children of a node; an atom has none. -/
def children : Formula → List Formula
  | .atom _ => []
  | .node _ cs => cs

/-- The name of a subject variable. -/
def var? : Formula → Option String
  | .node .subjectVariable [.atom name] => some name
  | _ => none

/-- The variable a binder binds.  A binder whose first child is no subject
variable binds nothing. -/
def binder? : Formula → Option String
  | .node op (v :: _) => if op.isBinder then v.var? else none
  | _ => none

/-- The name that is applied, of an application that has one. -/
def name? : Formula → Option String
  | .node op (.atom name :: _) => if op.isApplication then some name else none
  | _ => none

/-- The children of an application after its first. -/
def arguments : Formula → List Formula
  | .node op (_ :: args) => if op.isApplication then args else []
  | _ => []

/-- Antecedent and consequent of an implication between two formulas. -/
def implication? : Formula → Option (Formula × Formula)
  | .node .implication [antecedent, consequent] => some (antecedent, consequent)
  | _ => none

@[simp] theorem var?_var (x : String) : (var x).var? = some x := rfl

/-- **One shape of variable.**  A formula is the variable `x` exactly when it
is the node over the single atom `x`. -/
theorem var?_eq_some_iff {f : Formula} {x : String} : f.var? = some x ↔ f = var x := by
  constructor
  · intro h
    unfold var? at h
    split at h
    · cases h; rfl
    · cases h
  · rintro rfl; rfl

/-- **One shape of binder.**  A formula binds `x` exactly when a binder heads it
and its first child is the variable `x`. -/
theorem binder?_eq_some_iff {f : Formula} {x : String} :
    f.binder? = some x ↔ ∃ op rest, op.isBinder ∧ f = .node op (var x :: rest) := by
  constructor
  · intro h
    unfold binder? at h
    split at h
    · rename_i op v rest
      split at h
      · rename_i hop
        exact ⟨op, rest, hop, by rw [var?_eq_some_iff.1 h]⟩
      · cases h
    · cases h
  · rintro ⟨op, rest, hop, rfl⟩
    simp [binder?, hop]

/-- A binder is not a variable. -/
theorem var?_eq_none_of_binder? {f : Formula} {x : String} (h : f.binder? = some x) :
    f.var? = none := by
  obtain ⟨op, rest, hop, rfl⟩ := binder?_eq_some_iff.1 h
  cases op <;> simp_all [var?, Operator.isBinder]

/-- **One shape of implication.**  Only a node over two formulas is one. -/
theorem implication?_eq_some_iff {f a b : Formula} :
    f.implication? = some (a, b) ↔ f = implies a b := by
  constructor
  · intro h
    unfold implication? at h
    split at h
    · cases h; rfl
    · cases h
  · rintro rfl; rfl

/-! ## Text -/

mutual

/-- The displayed form: an atom between quotes, a node as its tag with the
children in parentheses.  Names are shown as they are. -/
def text : Formula → String
  | .atom name => "\"" ++ name ++ "\""
  | .node op cs => op.tag ++ "(" ++ textAll cs ++ ")"

/-- The children of a node, separated by commas. -/
def textAll : List Formula → String
  | [] => ""
  | f :: fs => text f ++ textRest fs

/-- The children after the first, each with its comma. -/
def textRest : List Formula → String
  | [] => ""
  | f :: fs => ", " ++ text f ++ textRest fs

end

end Formula

end Deduction
