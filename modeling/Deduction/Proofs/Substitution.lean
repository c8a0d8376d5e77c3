import Deduction.Proofs.Renaming

/-!
# Substitution: trees and variables

What a substitution makes of a formula depends on the values of the free
variables alone, and the values can be read off the result
(`substitute_eq_substitute_iff`).  A substitution whose values are no bare atoms
keeps the shape of every node it goes through, so the free variables of the
result come from the formula or from a value (`mem_free_substitute`).  What is
free in a value gets there unless a binder of the formula captures it, and what
is bound in a value gets there in any case (`mem_free_substitute_of_value`,
`mem_bound_substitute`).

`substitute_ne_substitute_renameApart` says that renaming apart always shows:
once a binder is renamed, no substitution for the variables hides it.
-/

namespace Deduction

/-- What is found for a key was paired with it. -/
theorem mem_of_lookup {V : Type} {key : String} {value : V}
    {pairs : List (String × V)} (h : pairs.lookup key = some value) :
    (key, value) ∈ pairs := by
  obtain ⟨before, after, heq, -⟩ := List.lookup_eq_some_iff.1 h
  rw [heq]
  simp

namespace Substitution

/-- No value of the substitution is a bare atom. -/
def NoAtoms (σ : Substitution) : Prop :=
  ∀ x t, σ.lookup x = some t → t.atom? = none

/-- Leaving a variable out brings in no atom. -/
theorem NoAtoms.without {σ : Substitution} (h : σ.NoAtoms) (x : String) :
    (σ.without x).NoAtoms := by
  intro y t ht
  by_cases hy : y = x
  · subst hy
    rw [lookup_without_self] at ht
    cases ht
  · rw [lookup_without_of_ne σ hy] at ht
    exact h y t ht

end Substitution

namespace Formula

variable {op : Operator} {cs rest : List Formula} {x y z : String}
  {σ τ : Substitution}

/-- Substitution keeps the operator of a node that is no variable; below it some
substitution goes on. -/
theorem substitute_node (σ : Substitution)
    (hv : (Formula.node op cs).var? = none) :
    ∃ τ : Substitution,
      (Formula.node op cs).substitute σ = .node op (cs.map (substitute τ)) := by
  cases hb : (Formula.node op cs).binder? with
  | none => exact ⟨σ, substitute_plain σ hv hb⟩
  | some x => exact ⟨σ.without x, substitute_binder σ hv hb⟩

/-! ## Values and results -/

/-- Under a binder of `x` the values of `σ` for other variables are those of
`σ` itself. -/
theorem substitute_var_without (hne : y ≠ x) :
    (var y).substitute (σ.without x) = (var y).substitute σ := by
  rw [substitute_var, substitute_var, Substitution.lookup_without_of_ne σ hne]

/-- **A substitution is known by its values.**  Two substitutions give the same
result exactly when they have the same value for every free variable. -/
theorem substitute_eq_substitute_iff {f : Formula} :
    f.substitute σ = f.substitute τ ↔
      ∀ x ∈ f.free, (var x).substitute σ = (var x).substitute τ := by
  induction f using shapeInduct generalizing σ τ with
  | atom name => simp
  | subject y => simp
  | binder op y rest hop ih =>
    rw [substitute_bind σ hop, substitute_bind τ hop]
    simp only [Formula.node.injEq, List.cons.injEq, true_and, List.map_inj_left]
    constructor
    · intro h x hx
      obtain ⟨hne, c, hc, hxc⟩ := (mem_free_bind hop).1 hx
      have hvalue := (ih c hc).1 (h c hc) x hxc
      rwa [substitute_var_without hne, substitute_var_without hne] at hvalue
    · intro h c hc
      refine (ih c hc).2 fun x hxc => ?_
      by_cases hxy : x = y
      · subst hxy
        simp
      · rw [substitute_var_without hxy, substitute_var_without hxy]
        exact h x ((mem_free_bind hop).2 ⟨hxy, c, hc, hxc⟩)
  | plain op cs hv hb ih =>
    rw [substitute_plain σ hv hb, substitute_plain τ hv hb]
    simp only [Formula.node.injEq, true_and, List.map_inj_left]
    constructor
    · intro h x hx
      obtain ⟨c, hc, hxc⟩ := (mem_free_plain hv hb).1 hx
      exact (ih c hc).1 (h c hc) x hxc
    · intro h c hc
      exact (ih c hc).2 fun x hxc => h x ((mem_free_plain hv hb).2 ⟨c, hc, hxc⟩)

/-- What is free in the value of a variable. -/
theorem mem_free_value :
    z ∈ ((var x).substitute σ).free ↔
      (σ.lookup x = none ∧ z = x) ∨ ∃ t, σ.lookup x = some t ∧ z ∈ t.free := by
  cases hlookup : σ.lookup x <;> simp [hlookup]

theorem mem_bound_value :
    z ∈ ((var x).substitute σ).bound ↔
      ∃ t, σ.lookup x = some t ∧ z ∈ t.bound := by
  cases hlookup : σ.lookup x <;> simp [hlookup]

/-! ## Shape and variables of the result -/

/-- Substitution of values that are no atoms neither makes nor changes an
atom. -/
theorem atom?_substitute (hσ : σ.NoAtoms) (f : Formula) :
    (f.substitute σ).atom? = f.atom? := by
  cases f with
  | atom name => rfl
  | node op cs =>
    cases hv : (Formula.node op cs).var? with
    | none =>
      obtain ⟨τ, hτ⟩ := substitute_node σ hv
      rw [hτ]
      rfl
    | some x =>
      rw [var?_eq_some_iff.1 hv, substitute_var]
      cases hx : σ.lookup x with
      | none => rfl
      | some t => exact hσ x t hx

/-- Substitution makes no variable of what is none. -/
theorem var?_substitute_eq_none (hσ : σ.NoAtoms) {f : Formula}
    (h : f.var? = none) :
    (f.substitute σ).var? = none := by
  cases f with
  | atom name => rfl
  | node op cs =>
    cases hb : (Formula.node op cs).binder? with
    | none =>
      rw [substitute_plain σ h hb]
      exact var?_map_eq_none h fun c _ => atom?_substitute hσ c
    | some x =>
      rw [substitute_binder σ h hb]
      exact var?_map_eq_none h fun c _ => atom?_substitute (hσ.without x) c

/-- A variable that is free in the result was free before and is left alone, or
it is free in the value of a variable that was. -/
theorem mem_free_substitute (hσ : σ.NoAtoms) {f : Formula}
    (h : z ∈ (f.substitute σ).free) :
    ∃ x ∈ f.free, z ∈ ((var x).substitute σ).free := by
  induction f using shapeInduct generalizing σ with
  | atom name => simp at h
  | subject y => exact ⟨y, by simp, h⟩
  | binder op y rest hop ih =>
    rw [substitute_bind σ hop, mem_free_bind hop] at h
    obtain ⟨hzy, c', hc', hz⟩ := h
    obtain ⟨c, hc, rfl⟩ := List.mem_map.1 hc'
    obtain ⟨x, hx, hzx⟩ := ih c hc (hσ.without y) hz
    have hxy : x ≠ y := by
      intro hxy
      subst hxy
      simp at hzx
      exact hzy hzx
    rw [substitute_var_without hxy] at hzx
    exact ⟨x, (mem_free_bind hop).2 ⟨hxy, c, hc, hx⟩, hzx⟩
  | plain op cs hv hb ih =>
    have hv' := var?_map_eq_none hv fun c _ => atom?_substitute hσ c
    have hb' :=
      binder?_map_eq_none hb fun c _ => var?_substitute_eq_none hσ (f := c)
    rw [substitute_plain σ hv hb, mem_free_plain hv' hb'] at h
    obtain ⟨c', hc', hz⟩ := h
    obtain ⟨c, hc, rfl⟩ := List.mem_map.1 hc'
    obtain ⟨x, hx, hzx⟩ := ih c hc hσ hz
    exact ⟨x, (mem_free_plain hv hb).2 ⟨c, hc, hx⟩, hzx⟩

/-- What is free in the value of a free variable is free in the result, unless
the value is put below a binder of it. -/
theorem mem_free_substitute_of_value (hσ : σ.NoAtoms) {f : Formula}
    (hx : x ∈ f.free) (hz : z ∈ ((var x).substitute σ).free)
    (hclear : ∀ t, σ.lookup x = some t → z ∉ f.bound) :
    z ∈ (f.substitute σ).free := by
  induction f using shapeInduct generalizing σ with
  | atom name => simp at hx
  | subject y =>
    obtain rfl := mem_free_var.1 hx
    exact hz
  | binder op y rest hop ih =>
    obtain ⟨hxy, c, hc, hxc⟩ := (mem_free_bind hop).1 hx
    have hzy : z ≠ y := by
      cases hlookup : σ.lookup x with
      | none =>
        have hzx : z = x := by simpa [hlookup] using hz
        exact hzx ▸ hxy
      | some t =>
        exact fun h => hclear t hlookup ((mem_bound_bind hop).2 (Or.inl h))
    rw [← substitute_var_without hxy] at hz
    rw [← Substitution.lookup_without_of_ne σ hxy] at hclear
    rw [substitute_bind σ hop, mem_free_bind hop]
    refine ⟨hzy, _, List.mem_map_of_mem hc,
      ih c hc (hσ.without y) hxc hz fun t ht h => ?_⟩
    exact hclear t ht ((mem_bound_bind hop).2 (Or.inr ⟨c, hc, h⟩))
  | plain op cs hv hb ih =>
    have hv' := var?_map_eq_none hv fun c _ => atom?_substitute hσ c
    have hb' :=
      binder?_map_eq_none hb fun c _ => var?_substitute_eq_none hσ (f := c)
    obtain ⟨c, hc, hxc⟩ := (mem_free_plain hv hb).1 hx
    rw [substitute_plain σ hv hb, mem_free_plain hv' hb']
    refine ⟨_, List.mem_map_of_mem hc, ih c hc hσ hxc hz fun t ht h => ?_⟩
    exact hclear t ht ((mem_bound_plain hb).2 ⟨c, hc, h⟩)

/-- A free variable that the substitution leaves alone stays free. -/
theorem mem_free_substitute_of_lookup_eq_none (hσ : σ.NoAtoms) {f : Formula}
    (hz : z ∈ f.free) (hlookup : σ.lookup z = none) :
    z ∈ (f.substitute σ).free := by
  have hvalue : z ∈ ((var z).substitute σ).free := by simp [hlookup]
  refine mem_free_substitute_of_value hσ hz hvalue fun t ht => ?_
  rw [hlookup] at ht
  cases ht

/-- What is bound in the result was bound before, or it is bound in the value of
a free variable. -/
theorem mem_bound_substitute (hσ : σ.NoAtoms) {f : Formula} :
    z ∈ (f.substitute σ).bound ↔
      z ∈ f.bound ∨ ∃ x ∈ f.free, z ∈ ((var x).substitute σ).bound := by
  induction f using shapeInduct generalizing σ with
  | atom name => simp
  | subject y => simp
  | binder op y rest hop ih =>
    -- Below the binder its variable stands for itself, and that brings in no
    -- bound variable.
    have hvalue : ∀ x, z ∈ ((var x).substitute (σ.without y)).bound ↔
        x ≠ y ∧ z ∈ ((var x).substitute σ).bound := by
      intro x
      by_cases hxy : x = y
      · simp [hxy]
      · simp [substitute_var_without hxy, hxy]
    rw [substitute_bind σ hop, mem_bound_bind hop, mem_bound_bind hop]
    simp only [List.mem_map, exists_exists_and_eq_and, mem_free_bind hop]
    have ih' := fun c hc => ih c hc (hσ.without y)
    simp only [hvalue] at ih'
    grind
  | plain op cs hv hb ih =>
    have hb' :=
      binder?_map_eq_none hb fun c _ => var?_substitute_eq_none hσ (f := c)
    rw [substitute_plain σ hv hb, mem_bound_plain hb', mem_bound_plain hb]
    simp only [List.mem_map, exists_exists_and_eq_and, mem_free_plain hv hb]
    have ih' := fun c hc => ih c hc hσ
    grind

/-! ## Renaming apart shows -/

/-- **A renamed binder shows.**  When a formula binds a name to be avoided, no
instance of it is an instance of what renaming apart makes of it. -/
theorem substitute_ne_substitute_renameApart {avoid : List String} {f : Formula}
    (hz : z ∈ f.bound) (havoid : z ∈ avoid) :
    f.substitute σ ≠ (renameApart avoid f).substitute τ := by
  induction f using shapeInduct generalizing σ τ with
  | atom name => simp at hz
  | subject y => simp at hz
  | binder op y rest hop ih =>
    by_cases hy : y ∈ avoid
    · -- The variable of the outermost binder itself has changed.
      have hnew := (apartName_not_mem avoid y
        (.node op (var y :: rest.map (renameApart avoid)))).2.1
      rw [renameApart_bind_of_mem hop hy, replaceVar_bind_self _ hop,
        substitute_bind σ hop, substitute_bind τ hop]
      intro heq
      simp only [Formula.node.injEq, List.cons.injEq, true_and] at heq
      exact hnew ((mem_bound_bind hop).2 (Or.inl (var_injective heq.1).symm))
    · obtain rfl | ⟨c, hc, hzc⟩ := (mem_bound_bind hop).1 hz
      · exact absurd havoid hy
      · rw [renameApart_bind_of_not_mem hop hy, substitute_bind σ hop,
          substitute_bind τ hop]
        intro heq
        simp only [Formula.node.injEq, List.cons.injEq, true_and, List.map_map,
          List.map_inj_left] at heq
        exact ih c hc hzc (heq c hc)
  | plain op cs hv hb ih =>
    obtain ⟨c, hc, hzc⟩ := (mem_bound_plain hb).1 hz
    have hv' := var?_map_eq_none hv fun c _ => atom?_renameApart avoid c
    have hb' :=
      binder?_map_eq_none hb fun c _ => var?_renameApart_eq_none avoid (f := c)
    rw [renameApart_plain avoid hb, substitute_plain σ hv hb,
      substitute_plain τ hv' hb']
    intro heq
    simp only [Formula.node.injEq, true_and, List.map_map,
      List.map_inj_left] at heq
    exact ih c hc hzc (heq c hc)

/-! ## Nothing to substitute -/

theorem substitute_nil (f : Formula) : f.substitute [] = f := by
  induction f using shapeInduct with
  | atom name => rfl
  | subject x => rfl
  | binder op x rest hop ih =>
    have hrest : rest.map (substitute []) = rest.map id :=
      List.map_congr_left ih
    rw [substitute_bind [] hop]
    exact congrArg (fun cs => Formula.node op (var x :: cs))
      (hrest.trans (List.map_id _))
  | plain op cs hv hb ih =>
    have hcs : cs.map (substitute []) = cs.map id := List.map_congr_left ih
    rw [substitute_plain [] hv hb, hcs, List.map_id]

/-- A substitution changes nothing exactly when every free variable has itself
as its value. -/
theorem substitute_eq_self_iff {f : Formula} :
    f.substitute σ = f ↔ ∀ x ∈ f.free, (var x).substitute σ = var x := by
  have h : f.substitute σ = f.substitute [] ↔
      ∀ x ∈ f.free, (var x).substitute σ = (var x).substitute [] :=
    substitute_eq_substitute_iff
  simpa only [substitute_nil] using h

/-- **The variables of an instance.**  Bound in it is what the formula binds and
what the values of its free variables bind.  If no free variable of a value is
bound in the formula, free in it are the free variables without a value and the
free variables of the values.  If the free variables have no values, or only
themselves, nothing changes. -/
theorem substitute_variables (f : Formula) (σ : Substitution) (hσ : σ.NoAtoms) :
    (∀ z, z ∈ (f.substitute σ).bound ↔
      z ∈ f.bound ∨ ∃ x ∈ f.free, ∃ t, σ.lookup x = some t ∧ z ∈ t.bound) ∧
    ((∀ x ∈ f.free, ∀ t, σ.lookup x = some t → ∀ z ∈ t.free, z ∉ f.bound) →
      ∀ z, z ∈ (f.substitute σ).free ↔
        (z ∈ f.free ∧ σ.lookup z = none) ∨
          ∃ x ∈ f.free, ∃ t, σ.lookup x = some t ∧ z ∈ t.free) ∧
    ((∀ x ∈ f.free, σ.lookup x = none) → f.substitute σ = f) ∧
    ((∀ x t, σ.lookup x = some t → t = var x) → f.substitute σ = f) := by
  refine ⟨fun z => ?_, fun hclear z => ?_, fun hnone => ?_, fun hself => ?_⟩
  · rw [mem_bound_substitute hσ]
    simp only [mem_bound_value]
  · refine ⟨fun hz => ?_, ?_⟩
    · obtain ⟨x, hx, hvalue⟩ := mem_free_substitute hσ hz
      rcases mem_free_value.1 hvalue with ⟨hnone, rfl⟩ | hvalue
      · exact Or.inl ⟨hx, hnone⟩
      · exact Or.inr ⟨x, hx, hvalue⟩
    · rintro (⟨hz, hnone⟩ | ⟨x, hx, t, ht, hz⟩)
      · exact mem_free_substitute_of_lookup_eq_none hσ hz hnone
      · have hvalue := mem_free_value.2 (Or.inr ⟨t, ht, hz⟩)
        exact mem_free_substitute_of_value hσ hx hvalue
          fun t' ht' => hclear x hx t ht z hz
  · refine substitute_eq_self_iff.2 fun x hx => ?_
    rw [substitute_var, hnone x hx, Option.getD_none]
  · refine substitute_eq_self_iff.2 fun x _ => ?_
    cases hlookup : σ.lookup x with
    | none => rw [substitute_var, hlookup, Option.getD_none]
    | some t =>
      rw [substitute_var, hlookup, Option.getD_some, hself x t hlookup]

end Formula

open Formula

namespace Crossed

/-- The value `f(y)` of `x`. -/
def first : Formula :=
  application .functionConstant "f" [var "y"]

/-- The value of `y`, the class of all `w` with `R(w, x)`. -/
def second : Formula :=
  quantify .classTerm "w"
    (application .predicateConstant "R" [var "w", var "x"])

/-- Each of the two variables is free in the value of the other. -/
def values : Substitution :=
  [("x", first), ("y", second)]

/-- The formula `P(x) → ∀z Q(y, z)`. -/
def formula : Formula :=
  (application .predicateConstant "P" [var "x"]).implies
    (quantify .universal "z"
      (application .predicateConstant "Q" [var "y", var "z"]))

theorem noAtoms : values.NoAtoms := by
  intro x t ht
  have hmem := mem_of_lookup ht
  simp only [values, List.mem_cons, Prod.mk.injEq, List.not_mem_nil,
    or_false] at hmem
  rcases hmem with ⟨-, rfl⟩ | ⟨-, rfl⟩ <;> rfl

end Crossed

/-- Each variable gets a value with the other one free in it, and what the
second value binds is bound afterwards. -/
theorem crossed_substitute_variables :
    Crossed.values.NoAtoms ∧
      (∀ x ∈ Crossed.formula.free, ∀ t, Crossed.values.lookup x = some t →
        ∀ z ∈ t.free, z ∉ Crossed.formula.bound) ∧
      (∀ z, z ∈ (Crossed.formula.substitute Crossed.values).bound ↔
        z = "z" ∨ z = "w") ∧
      ∀ z, z ∈ (Crossed.formula.substitute Crossed.values).free ↔
        z = "x" ∨ z = "y" := by
  have hfree : Crossed.formula.free = ["x", "y"] := by decide
  have hbound : Crossed.formula.bound = ["z"] := by decide
  have hx : Crossed.values.lookup "x" = some Crossed.first := rfl
  have hy : Crossed.values.lookup "y" = some Crossed.second := rfl
  have hfirst : Crossed.first.free = ["y"] ∧ Crossed.first.bound = [] := by
    decide
  have hsecond : Crossed.second.free = ["x"] ∧
      Crossed.second.bound = ["w"] := by decide
  have hclear : ∀ x ∈ Crossed.formula.free,
      ∀ t, Crossed.values.lookup x = some t →
      ∀ z ∈ t.free, z ∉ Crossed.formula.bound := by
    simp [hfree, hbound, hx, hy, hfirst, hsecond]
  have hvariables :=
    substitute_variables Crossed.formula Crossed.values Crossed.noAtoms
  refine ⟨Crossed.noAtoms, hclear, fun z => ?_, fun z => ?_⟩
  · simp [hvariables.1 z, hfree, hbound, hx, hy, hfirst, hsecond]
  · rw [hvariables.2.1 hclear z, hfree]
    grind

end Deduction
