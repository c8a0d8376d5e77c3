import Deduction.Proofs.Agreement

/-!
# Names of variables

Of a variable that stands for a term the check for well-formedness asks a name
that is not empty; of the variable of a binder it asks only that it be one.  So
a well-formed tree may have **nameless variables**.  Here is said where: at the
head of a binder that binds the empty name, and nowhere else.  A tree in which
no binder does so has names throughout.

The path to a variable is followed from the root.  Where a child is called for
as a formula or a term, it follows the grammar again.  The other children are
the name that is applied, the variable of a binder and the name of a variable
(`Grammatical.uncalled_child`), and there the path ends.
-/

namespace Deduction

namespace Formula

variable {op : Operator} {cs : List Formula} {f b c : Formula} {x : String}
  {k : Kind} {i : Nat} {path : Path}

/-- Every variable of the tree, as a term or as the variable of a binder, has a
name that is not empty, and nothing besides. -/
def VariablesNamed (f : Formula) : Prop :=
  ∀ path cs, f.subformula? path = some (.node .subjectVariable cs) →
    ∃ x, x ≠ "" ∧ cs = [.atom x]

/-- The path leads to the variable of a binder that binds the empty name. -/
def HeadsNamelessBinder (f : Formula) (path : Path) : Prop :=
  ∃ outer b, path = outer ++ [0] ∧ f.subformula? outer = some b ∧
    b.binder? = some ""

/-! ## One step -/

/-- **What no formula or term is called for.** -/
theorem Grammatical.uncalled_child (h : Grammatical k (.node op cs))
    (hc : cs[i]? = some c) (hk : op.callsFor? i = none) :
    (∃ name, c = .atom name) ∨
      i = 0 ∧ ∃ x, c = var x ∧ (Formula.node op cs).binder? = some x := by
  cases h.sorted with
  | subject x =>
    have hmem := List.mem_of_getElem? hc
    exact .inl ⟨x, List.mem_singleton.1 hmem⟩
  | application name hop =>
    rw [Operator.callsFor?_application hop] at hk
    cases i with
    | zero => exact .inl ⟨name, (Option.some.inj hc).symm⟩
    | succ i => cases hk
  | binder x hop =>
    rw [Operator.callsFor?_binder hop] at hk
    cases i with
    | zero => exact .inr ⟨rfl, x, (Option.some.inj hc).symm, binder?_bind hop⟩
    | succ i => cases hk
  | connective hop =>
    rw [Operator.callsFor?_connective hop] at hk
    cases hk

theorem subformula?_atom_ne_node {name : String} :
    (Formula.atom name).subformula? path ≠ some (.node op cs) := by
  intro h
  cases path with
  | nil => cases h
  | cons i path => cases h

/-- The only node in a variable is the variable. -/
theorem subformula?_var_eq_node
    (h : (var x).subformula? path = some (.node op cs)) :
    path = [] ∧ var x = .node op cs := by
  rcases subformula?_eq_some_iff.1 h with
    ⟨hpath, heq⟩ | ⟨i, inner, c, -, hc, hinner⟩
  · exact ⟨hpath, heq.symm⟩
  · have hmem := List.mem_singleton.1 (List.mem_of_getElem? hc)
    rw [hmem] at hinner
    exact absurd hinner subformula?_atom_ne_node

/-- A nameless binder in a child is one in the node. -/
theorem HeadsNamelessBinder.cons (h : c.HeadsNamelessBinder path)
    (hc : cs[i]? = some c) :
    (Formula.node op cs).HeadsNamelessBinder (i :: path) := by
  obtain ⟨outer, b, rfl, hb, hbinder⟩ := h
  exact ⟨i :: outer, b, rfl,
    subformula?_eq_some_iff.2 (.inr ⟨i, outer, c, rfl, hc, hb⟩), hbinder⟩

/-! ## Whole paths -/

/-- **Variables in a tree that follows the grammar** have a name, which is not
empty unless a binder binds it. -/
theorem Grammatical.variable_shape (h : Grammatical k f)
    (hsub : f.subformula? path = some (.node .subjectVariable cs)) :
    ∃ x, cs = [.atom x] ∧ (x = "" → f.HeadsNamelessBinder path) := by
  induction path generalizing f k with
  | nil =>
    obtain rfl : f = .node .subjectVariable cs := by simpa using hsub
    cases h.sorted with
    | subject x =>
      exact ⟨x, rfl, fun hempty => absurd hempty (grammatical_var_iff.1 h)⟩
    | application name hop | binder x hop | connective hop => cases hop
  | cons i path ih =>
    cases f with
    | atom name => cases hsub
    | node op ds =>
      obtain ⟨c, hc, hsub⟩ := Option.bind_eq_some_iff.1 hsub
      cases hk : op.callsFor? i with
      | some k' =>
        obtain ⟨x, hx, hhead⟩ := ih (h.child hc hk) hsub
        exact ⟨x, hx, fun hempty => (hhead hempty).cons hc⟩
      | none =>
        rcases h.uncalled_child hc hk with ⟨name, rfl⟩ | ⟨rfl, x, rfl, hbinder⟩
        · exact absurd hsub subformula?_atom_ne_node
        · obtain ⟨rfl, heq⟩ := subformula?_var_eq_node hsub
          cases heq
          refine ⟨x, rfl, ?_⟩
          rintro rfl
          exact ⟨[], _, rfl, subformula?_nil _, hbinder⟩

/-- At the head of a binder of the empty name stands the nameless variable. -/
theorem HeadsNamelessBinder.subformula? (h : f.HeadsNamelessBinder path) :
    f.subformula? path = some (var "") := by
  obtain ⟨outer, b, rfl, hb, hbinder⟩ := h
  obtain ⟨op, rest, -, rfl⟩ := binder?_eq_some_iff.1 hbinder
  rw [subformula?_append, hb]
  rfl

/-- There is a nameless binder exactly when the empty name is bound. -/
theorem exists_headsNamelessBinder_iff :
    (∃ path, f.HeadsNamelessBinder path) ↔ "" ∈ f.bound := by
  rw [mem_bound_iff_subformula?]
  constructor
  · rintro ⟨path, outer, b, -, hb, hbinder⟩
    exact ⟨outer, b, hb, hbinder⟩
  · rintro ⟨outer, b, hb, hbinder⟩
    exact ⟨outer ++ [0], outer, b, rfl, hb, hbinder⟩

/-- **Names of variables in well-formed trees.**  Wherever a variable stands in
a well-formed tree, it has exactly one child, an atom, and this is empty exactly
where the variable is that of a binder which binds the empty name.  So all
variables are named if and only if no binder binds the empty name. -/
theorem variables_named_iff_not_bound (k : Kind) (f : Formula)
    (h : f.check k = .ok ()) :
    (∀ path cs, f.subformula? path = some (.node .subjectVariable cs) →
      ∃ x, cs = [.atom x] ∧ (x = "" ↔ f.HeadsNamelessBinder path)) ∧
    (f.VariablesNamed ↔ "" ∉ f.bound) := by
  obtain ⟨hgrammar, -, -⟩ :=
    (check_eq_ok_iff_together.1 h).fits f List.mem_cons_self
  have hshape : ∀ path cs,
      f.subformula? path = some (.node .subjectVariable cs) →
      ∃ x, cs = [.atom x] ∧ (x = "" ↔ f.HeadsNamelessBinder path) := by
    intro path cs hsub
    obtain ⟨x, rfl, hhead⟩ := hgrammar.variable_shape hsub
    refine ⟨x, rfl, hhead, fun hnameless => ?_⟩
    rw [hnameless.subformula?] at hsub
    cases hsub
    rfl
  refine ⟨hshape, ?_⟩
  rw [← exists_headsNamelessBinder_iff]
  constructor
  · rintro hnamed ⟨path, hhead⟩
    obtain ⟨x, hx, heq⟩ := hnamed path _ hhead.subformula?
    cases heq
    exact hx rfl
  · intro hnone path cs hsub
    obtain ⟨x, heq, hempty⟩ := hshape path cs hsub
    exact ⟨x, fun hx => hnone ⟨path, hempty.1 hx⟩, heq⟩

namespace NamelessBinder

/-- The formula `A` below a universal quantifier whose variable has no name. -/
def vacuous : Formula :=
  quantify .universal "" (letter "A")

/-- The formula `∀x P(x, {· | Q(x)})`, in which the variable of the class has no
name. -/
def nested : Formula :=
  quantify .universal "x" (application .predicateVariable "P"
    [var "x", .node .classTerm
      [var "", application .predicateVariable "Q" [var "x"]]])

end NamelessBinder

/-- The variable of the class is the one that has no name. -/
theorem nested_nameless_located :
    NamelessBinder.nested.check .formula = .ok () ∧
      NamelessBinder.nested.HeadsNamelessBinder [1, 2, 0] ∧
      ¬ NamelessBinder.nested.HeadsNamelessBinder [0] ∧
      ¬ NamelessBinder.nested.VariablesNamed := by
  have hcheck : NamelessBinder.nested.check .formula = .ok () := rfl
  obtain ⟨hshape, hnamed⟩ :=
    variables_named_iff_not_bound .formula NamelessBinder.nested hcheck
  obtain ⟨x, hx, hnameless⟩ := hshape [1, 2, 0] [.atom ""] rfl
  obtain ⟨y, hy, hnamedx⟩ := hshape [0] [.atom "x"] rfl
  cases hx
  cases hy
  have hbound : "" ∈ NamelessBinder.nested.bound := by decide +kernel
  refine ⟨hcheck, hnameless.1 rfl, fun hhead => ?_,
    fun hall => hnamed.1 hall hbound⟩
  exact absurd (hnamedx.2 hhead) (by decide)

/-- **Not every variable is named.**  A binder of a nameless variable is
accepted. -/
theorem nameless_binder_accepted :
    NamelessBinder.vacuous.check .formula = .ok () ∧
      ¬ NamelessBinder.vacuous.VariablesNamed := by
  refine ⟨rfl, fun hnamed => ?_⟩
  obtain ⟨x, hx, heq⟩ := hnamed [0] [.atom ""] rfl
  cases heq
  exact hx rfl

end Formula

end Deduction
