import Deduction.Formula.Renaming

/-!
# Symbols and their replacement

A **symbol** is what an application applies: an operator, a name and a number
of arguments.  A **template** `p(x₁, …, xₙ)` is an application of a symbol to
parameters; together with a formula it describes how every application
`p(t₁, …, tₙ)` is to be replaced, namely by that formula with `tᵢ` put for
`xᵢ`.  Applications inside arguments are replaced first.

There are two replacements.  `replaceSymbol` substitutes the arguments as they
are, so that a binder of the formula may capture their variables.
`expandSymbol` first renames the binders of the formula apart from the
arguments, and nothing is captured.

`symbolMeets` is the test that tells the two apart: some application lies
below a binder of one of the given variables, or passes one of them in an
argument.
-/

namespace Deduction

/-- What an application applies: operator, name and number of arguments. -/
structure Symbol where
  op : Operator
  name : String
  arity : Nat
  deriving DecidableEq, Repr

namespace Formula

/-- The symbol that a formula applies, if it is an application of a name. -/
def symbol? : Formula → Option Symbol
  | .node op (.atom name :: args) =>
    if op.isApplication then some ⟨op, name, args.length⟩ else none
  | _ => none

/-- Whether a formula applies the symbol. -/
def applies (s : Symbol) (f : Formula) : Bool :=
  f.symbol? = some s

mutual

/-- Whether the symbol is applied somewhere in a formula. -/
def containsSymbol (s : Symbol) : Formula → Bool
  | .atom _ => false
  | .node op cs => applies s (.node op cs) || anyContainsSymbol s cs

/-- Whether the symbol is applied in some formula of a list. -/
def anyContainsSymbol (s : Symbol) : List Formula → Bool
  | [] => false
  | f :: fs => containsSymbol s f || anyContainsSymbol s fs

end

mutual

/-- Whether the symbol is applied below a binder of one of the variables, or
with one of them free in an argument.  `below` says that such a binder stands
around the formula. -/
def symbolMeets (s : Symbol) (xs : List String) (below : Bool) : Formula → Bool
  | .atom _ => false
  | .node op cs =>
    (applies s (.node op cs) &&
      (below || (Formula.node op cs).arguments.any fun arg => arg.mentionsFree xs)) ||
    anySymbolMeets s xs (below || (Formula.node op cs).binder?.any xs.contains) cs

/-- The same test for some formula of a list. -/
def anySymbolMeets (s : Symbol) (xs : List String) (below : Bool) : List Formula → Bool
  | [] => false
  | f :: fs => symbolMeets s xs below f || anySymbolMeets s xs below fs

end

mutual

/-- Replaces every application of the symbol by what `put` makes of its
arguments, innermost applications first. -/
def replaceApplications (s : Symbol) (put : List Formula → Formula) : Formula → Formula
  | .atom name => .atom name
  | .node op cs =>
    let replaced := replaceApplicationsAll s put cs
    if applies s (.node op cs) then put replaced.tail else .node op replaced

/-- Replaces the applications in every formula of a list. -/
def replaceApplicationsAll (s : Symbol) (put : List Formula → Formula) :
    List Formula → List Formula
  | [] => []
  | f :: fs => replaceApplications s put f :: replaceApplicationsAll s put fs

end

/-- The formula with arguments put for the parameters, as they are. -/
def instantiate (params : List Formula) (f : Formula) (args : List Formula) : Formula :=
  f.substitute (Substitution.ofPairs (params.zip args))

/-- The variables that are free in an argument bound to some parameter. -/
def argumentVariables (params args : List Formula) : List String :=
  (Substitution.lastPairs (params.zip args)).flatMap fun pair => pair.2.free

/-- The formula with arguments put for the parameters, after its binders were
renamed apart from the arguments. -/
def instantiateApart (params : List Formula) (f : Formula) (args : List Formula) : Formula :=
  instantiate params (renameApart (argumentVariables params args) f) args

/-- Whether the symbol of the template is applied somewhere. -/
def containsApplication (f template : Formula) : Bool :=
  template.symbol?.any fun s => containsSymbol s f

/-- Whether an application of the template's symbol meets one of the
variables. -/
def applicationMeets (f template : Formula) (xs : List String) : Bool :=
  template.symbol?.any fun s => symbolMeets s xs false f

/-- Replaces every application of the template's symbol, without renaming. -/
def replaceSymbol (f template replacement : Formula) : Formula :=
  match template.symbol? with
  | some s => replaceApplications s (instantiate template.arguments replacement) f
  | none => f

/-- Replaces every application of the template's symbol, renaming the binders
of the replacement apart from the arguments. -/
def expandSymbol (f template replacement : Formula) : Formula :=
  match template.symbol? with
  | some s => replaceApplications s (instantiateApart template.arguments replacement) f
  | none => f

/-- Replacing applications treats the formulas of a list one by one. -/
theorem replaceApplicationsAll_eq_map (s : Symbol) (put : List Formula → Formula)
    (fs : List Formula) :
    replaceApplicationsAll s put fs = fs.map (replaceApplications s put) := by
  induction fs with
  | nil => rfl
  | cons f fs ih => simp [replaceApplicationsAll, ih]

/-- A symbol occurs in a list if it occurs in one of the formulas. -/
theorem anyContainsSymbol_eq_any (s : Symbol) (fs : List Formula) :
    anyContainsSymbol s fs = fs.any (containsSymbol s) := by
  induction fs with
  | nil => rfl
  | cons f fs ih => simp [anyContainsSymbol, ih]

/-- A symbol meets variables in a list if it does in one of the formulas. -/
theorem anySymbolMeets_eq_any (s : Symbol) (xs : List String) (below : Bool)
    (fs : List Formula) :
    anySymbolMeets s xs below fs = fs.any (symbolMeets s xs below) := by
  induction fs with
  | nil => rfl
  | cons f fs ih => simp [anySymbolMeets, ih]

end Formula

end Deduction
