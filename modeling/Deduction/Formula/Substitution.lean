import Deduction.Formula.Variables

/-!
# Substitution for variables

A **substitution** assigns formulas to the names of subject variables, and
applying it replaces all their free occurrences at once.  Below a binder the
bound variable is taken out of the substitution.  Nothing is renamed: whether
a variable of a substituted formula gets captured is for the caller to see.

A substitution is often given by pairs of formulas in which a key may be
repeated or may be no variable at all.  `Substitution.ofPairs` fixes what they
mean: of equal keys the last one counts, and only variables are replaced.

`Formula.replaceVar` on the other hand replaces a variable *everywhere*, also
where it is bound and in the binders themselves.
-/

namespace Deduction

/-- Formulas assigned to names of variables; the first entry of a name
counts. -/
abbrev Substitution := List (String × Formula)

namespace Substitution

/-- The substitution that leaves `x` alone. -/
def without (σ : Substitution) (x : String) : Substitution :=
  σ.filter fun entry => entry.1 != x

/-- The pairs that count: those after which their key does not come again. -/
def lastPairs : List (Formula × Formula) → List (Formula × Formula)
  | [] => []
  | (key, value) :: rest =>
    if rest.any fun pair => pair.1 = key then lastPairs rest
    else (key, value) :: lastPairs rest

/-- The substitution given by pairs of a variable and its value. -/
def ofPairs (pairs : List (Formula × Formula)) : Substitution :=
  (lastPairs pairs).filterMap fun pair => pair.1.var?.map fun x => (x, pair.2)

/-- A variable that was left out has no value. -/
@[simp] theorem lookup_without_self (σ : Substitution) (x : String) :
    (σ.without x).lookup x = none := by
  induction σ with
  | nil => rfl
  | cons entry σ ih =>
    obtain ⟨y, f⟩ := entry
    by_cases h : y = x
    · simpa [without, List.filter_cons, h] using ih
    · have hx : (x == y) = false := by simpa using Ne.symm h
      simpa [without, List.filter_cons, h, List.lookup_cons, hx] using ih

/-- All other variables keep their values. -/
theorem lookup_without_of_ne (σ : Substitution) {x y : String} (hne : y ≠ x) :
    (σ.without x).lookup y = σ.lookup y := by
  induction σ with
  | nil => rfl
  | cons entry σ ih =>
    obtain ⟨z, f⟩ := entry
    by_cases h : z = x
    · have hy : (y == x) = false := by simpa using hne
      simpa [without, List.filter_cons, h, List.lookup_cons, hy] using ih
    · by_cases hy : y = z
      · simp [without, h, hy]
      · have hy' : (y == z) = false := by simpa using hy
        simpa [without, List.filter_cons, h, List.lookup_cons, hy'] using ih

end Substitution

namespace Formula

mutual

/-- Replaces the free occurrences of all variables of `σ` at once. -/
def substitute (σ : Substitution) : Formula → Formula
  | .atom name => .atom name
  | .node op cs =>
    match (Formula.node op cs).var? with
    | some x => (σ.lookup x).getD (.node op cs)
    | none =>
      match (Formula.node op cs).binder? with
      | some x => .node op (substituteAll (σ.without x) cs)
      | none => .node op (substituteAll σ cs)

/-- Substitutes in every formula of a list. -/
def substituteAll (σ : Substitution) : List Formula → List Formula
  | [] => []
  | f :: fs => substitute σ f :: substituteAll σ fs

end

mutual

/-- Replaces the variable `x` by `t` wherever it stands, free or bound. -/
def replaceVar (x : String) (t : Formula) : Formula → Formula
  | .atom name => .atom name
  | .node op cs =>
    if (Formula.node op cs).var? = some x then t else .node op (replaceVarAll x t cs)

/-- Replaces the variable in every formula of a list. -/
def replaceVarAll (x : String) (t : Formula) : List Formula → List Formula
  | [] => []
  | f :: fs => replaceVar x t f :: replaceVarAll x t fs

end

/-- Replaces the free occurrences of the variable `v` by `t`.  If `v` is no
variable the formula stays as it is. -/
def replaceFree (f v t : Formula) : Formula :=
  f.substitute (Substitution.ofPairs [(v, t)])

/-- Substitution treats the formulas of a list one by one. -/
theorem substituteAll_eq_map (σ : Substitution) (fs : List Formula) :
    substituteAll σ fs = fs.map (substitute σ) := by
  induction fs with
  | nil => rfl
  | cons f fs ih => simp [substituteAll, ih]

/-- Replacing a variable treats the formulas of a list one by one. -/
theorem replaceVarAll_eq_map (x : String) (t : Formula) (fs : List Formula) :
    replaceVarAll x t fs = fs.map (replaceVar x t) := by
  induction fs with
  | nil => rfl
  | cons f fs ih => simp [replaceVarAll, ih]

@[simp] theorem substitute_atom (σ : Substitution) (name : String) :
    (Formula.atom name).substitute σ = .atom name := rfl

@[simp] theorem substitute_var (σ : Substitution) (x : String) :
    (var x).substitute σ = (σ.lookup x).getD (var x) := rfl

/-- Below a binder its variable has no value. -/
theorem substitute_binder (σ : Substitution) {op : Operator} {cs : List Formula} {x : String}
    (hv : (Formula.node op cs).var? = none) (hb : (Formula.node op cs).binder? = some x) :
    (Formula.node op cs).substitute σ = .node op (cs.map (substitute (σ.without x))) := by
  simp only [substitute, hv, hb, substituteAll_eq_map]

/-- Where nothing is bound, the substitution goes on as it is. -/
theorem substitute_plain (σ : Substitution) {op : Operator} {cs : List Formula}
    (hv : (Formula.node op cs).var? = none) (hb : (Formula.node op cs).binder? = none) :
    (Formula.node op cs).substitute σ = .node op (cs.map (substitute σ)) := by
  simp only [substitute, hv, hb, substituteAll_eq_map]

@[simp] theorem replaceVar_var_self (x : String) (t : Formula) :
    replaceVar x t (var x) = t := by
  simp [var, replaceVar, var?]

end Formula

end Deduction
