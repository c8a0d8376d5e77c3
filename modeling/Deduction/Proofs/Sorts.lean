import Deduction.Formula.WellFormed
import Deduction.Proofs.Applications

/-!
# Well-sorted formulas and terms

A tree is **well sorted** when its operators have children of the number and the
kind that they take: terms below an application, formulas below a binder and
below a connective.  That is the part of being well formed which is about shape.
It says nothing about names, and nothing about a variable that is bound twice or
both free and bound; those may well come about in a proof, while a well-sorted
formula stays well sorted under everything a proof does to it.

`Sorted` has one clause for each of the four groups of operators.  Main
statements: `sorted_of_check`, what is well formed is well sorted, and the
lemmas that substitution, renaming and replacement keep it so.
-/

namespace Deduction

/-- A connective combines formulas into a formula. -/
def Operator.isConnective : Operator → Bool
  | negation | conjunction | disjunction | implication | equivalence => true
  | _ => false

namespace Formula

variable {op : Operator} {cs args : List Formula} {f c : Formula}
  {x y z name : String} {k : Kind} {σ : Substitution} {s : Symbol}

/-- **Well-sorted trees** of a kind. -/
inductive Sorted : Kind → Formula → Prop where
  | subject (x : String) : Sorted .term (var x)
  | application {k : Kind} {op : Operator} {args : List Formula} (name : String)
      (hop : op.isApplication) (hkind : op.kind = k)
      (htakes : op.takes (args.length + 1))
      (hargs : ∀ arg ∈ args, Sorted .term arg) :
      Sorted k (application op name args)
  | binder {k : Kind} {op : Operator} {parts : List Formula} (x : String)
      (hop : op.isBinder) (hkind : op.kind = k)
      (htakes : op.takes (parts.length + 1))
      (hparts : ∀ part ∈ parts, Sorted .formula part) :
      Sorted k (.node op (var x :: parts))
  | connective {op : Operator} {cs : List Formula} (hop : op.isConnective)
      (htakes : op.takes cs.length) (hcs : ∀ c ∈ cs, Sorted .formula c) :
      Sorted .formula (.node op cs)

/-! ## Applications and connectives are plain nodes -/

/-- An application is not a variable. -/
theorem var?_application (hop : op.isApplication) :
    (application op name args).var? = none := by
  cases op <;> simp_all [application, var?, Operator.isApplication]

theorem binder?_application (hop : op.isApplication) :
    (application op name args).binder? = none := by
  cases op <;>
    simp_all [application, binder?, Operator.isApplication, Operator.isBinder]

theorem var?_connective (hop : op.isConnective) :
    (Formula.node op cs).var? = none := by
  cases op <;> simp_all [var?, Operator.isConnective]

theorem binder?_connective (hop : op.isConnective) :
    (Formula.node op cs).binder? = none := by
  cases op <;> cases cs <;>
    simp_all [binder?, Operator.isConnective, Operator.isBinder]

/-- A connective applies no symbol. -/
theorem applies_connective (s : Symbol) (hop : op.isConnective) :
    applies s (.node op cs) = false := by
  rw [← Bool.not_eq_true]
  intro h
  obtain ⟨args, happ, -, heq⟩ := applies_eq_true_iff.1 h
  cases heq
  revert hop happ
  cases s.op <;> simp [Operator.isConnective, Operator.isApplication]

/-- An application applies one symbol, that of its operator, its name and the
number of its arguments. -/
theorem applies_application (hop : op.isApplication) :
    applies s (application op name args) = true ↔
      s = ⟨op, name, args.length⟩ := by
  simp [applies, symbol?, application, hop, eq_comm]

/-- Free in an application is what is free in an argument. -/
theorem mem_free_application (hop : op.isApplication) :
    z ∈ (application op name args).free ↔ ∃ arg ∈ args, z ∈ arg.free := by
  rw [application,
    mem_free_plain (var?_application hop) (binder?_application hop)]
  simp

theorem mem_bound_application (hop : op.isApplication) :
    z ∈ (application op name args).bound ↔ ∃ arg ∈ args, z ∈ arg.bound := by
  rw [application, mem_bound_plain (binder?_application hop)]
  simp

/-- Free in a connective is what is free in a part. -/
theorem mem_free_connective (hop : op.isConnective) :
    z ∈ (Formula.node op cs).free ↔ ∃ c ∈ cs, z ∈ c.free :=
  mem_free_plain (var?_connective hop) (binder?_connective hop)

/-- Bound in a connective is what is bound in a part. -/
theorem mem_bound_connective (hop : op.isConnective) :
    z ∈ (Formula.node op cs).bound ↔ ∃ c ∈ cs, z ∈ c.bound :=
  mem_bound_plain (binder?_connective hop)

/-- Substitution goes through an application. -/
theorem substitute_application (σ : Substitution) (hop : op.isApplication) :
    (application op name args).substitute σ =
      application op name (args.map (substitute σ)) := by
  rw [application,
    substitute_plain σ (var?_application hop) (binder?_application hop)]
  rfl

/-- Replacing a variable goes through an application. -/
theorem replaceVar_application (t : Formula) (hop : op.isApplication) :
    replaceVar x t (application op name args) =
      application op name (args.map (replaceVar x t)) := by
  rw [application, replaceVar_plain t (var?_application hop)]
  rfl

/-- Renaming apart goes through an application. -/
theorem renameApart_application (avoid : List String) (hop : op.isApplication) :
    renameApart avoid (application op name args) =
      application op name (args.map (renameApart avoid)) := by
  rw [application, renameApart_plain avoid (binder?_application hop)]
  rfl

/-- Replacing applications goes through an application of another symbol. -/
theorem replaceApplications_application (put : List Formula → Formula)
    (h : applies s (application op name args) = false) :
    replaceApplications s put (application op name args) =
      application op name (args.map (replaceApplications s put)) := by
  rw [application, replaceApplications_node s put h]
  rfl

/-! ## What is well formed is well sorted -/

/-- A walk through a list goes through each of its trees. -/
theorem exists_checkShape_of_checkShapes {outer : List String}
    {seen seen' : Arities} {fs : List Formula}
    (h : checkShapes k outer seen fs = .ok seen') (hf : f ∈ fs) :
    ∃ before after, checkShape k outer before f = .ok after := by
  induction fs generalizing seen with
  | nil => cases hf
  | cons g gs ih =>
    rw [checkShapes] at h
    cases hg : checkShape k outer seen g with
    | error offence =>
      rw [hg] at h
      cases h
    | ok next =>
      rw [hg] at h
      rcases List.mem_cons.1 hf with rfl | hf
      · exact ⟨seen, next, hg⟩
      · exact ih h hf

/-- **The walk sorts.**  A tree that the walk accepts is sorted, wherever it
stands and whatever was met before. -/
theorem sorted_of_checkShape {outer : List String} {seen seen' : Arities}
    (h : checkShape k outer seen f = .ok seen') : Sorted k f := by
  induction f using induct generalizing k outer seen seen' with
  | atom name => cases h
  | node op cs ih =>
    have hall : ∀ {k : Kind} {outer : List String} {seen : Arities}
        {parts : List Formula},
        parts ⊆ cs → checkShapes k outer seen parts = .ok seen' →
        ∀ part ∈ parts, Sorted k part := by
      intro k outer seen parts hparts h part hpart
      obtain ⟨before, after, hshape⟩ := exists_checkShape_of_checkShapes h hpart
      exact ih part (hparts hpart) hshape
    unfold checkShape at h
    by_cases hkind : op.kind = k
    case neg => simp [hkind] at h
    by_cases htakes : op.takes cs.length = true
    case neg => simp [hkind, htakes] at h
    simp only [hkind, htakes, ne_eq, not_true, if_false, Bool.not_true,
      Bool.false_eq_true] at h
    by_cases hbinder : op.isBinder = true
    · rw [if_pos hbinder] at h
      cases cs with
      | nil => cases h
      | cons v parts =>
        cases hv : v.var? with
        | none => simp [hv] at h
        | some x =>
          simp only [hv] at h
          split at h
          · cases h
          · rw [var?_eq_some_iff.1 hv]
            exact .binder x hbinder hkind htakes
              (hall (List.subset_cons_self _ _) h)
    rw [if_neg hbinder] at h
    by_cases happlication : op.isApplication = true
    · rw [if_pos happlication] at h
      match cs, h with
      | .atom name :: args, h =>
        simp only at h
        split at h
        · cases h
        split at h
        · cases h
        exact .application name happlication hkind htakes
          (hall (List.subset_cons_self _ _) h)
    rw [if_neg happlication] at h
    by_cases hsubject : op = .subjectVariable
    · rw [if_pos hsubject] at h
      subst hsubject hkind
      match cs, h with
      | [.atom name], h => exact .subject name
    · rw [if_neg hsubject] at h
      have hconnective : op.isConnective := by
        cases op <;>
          simp_all [Operator.isConnective, Operator.isBinder,
            Operator.isApplication]
      have hformula : k = .formula := by
        subst hkind
        cases op <;> simp_all [Operator.isConnective, Operator.kind]
      subst hformula
      exact .connective hconnective htakes (hall (List.Subset.refl _) h)

/-- **Well-formed trees are well sorted.** -/
theorem sorted_of_check (h : f.check k = .ok ()) : Sorted k f := by
  rw [check] at h
  split at h
  · cases h
  · rename_i seen hshape
    exact sorted_of_checkShape hshape

/-! ## What keeps a tree well sorted -/

namespace Sorted

variable {g : Formula → Formula} {parts : List Formula}

/-- A sorted tree is no atom. -/
theorem atom?_eq_none (h : Sorted k f) : f.atom? = none := by
  cases h <;> rfl

/-- An application stays sorted if its arguments become terms. -/
theorem application_map (name : String) (hop : op.isApplication)
    (hkind : op.kind = k) (htakes : op.takes (args.length + 1))
    (hg : ∀ arg ∈ args, Sorted .term (g arg)) :
    Sorted k (Formula.application op name (args.map g)) := by
  refine .application name hop hkind (by rwa [List.length_map]) ?_
  intro arg' harg'
  obtain ⟨arg, harg, rfl⟩ := List.mem_map.1 harg'
  exact hg arg harg

/-- A binder stays sorted if its parts become formulas. -/
theorem binder_map (x : String) (hop : op.isBinder) (hkind : op.kind = k)
    (htakes : op.takes (parts.length + 1))
    (hg : ∀ part ∈ parts, Sorted .formula (g part)) :
    Sorted k (.node op (var x :: parts.map g)) := by
  refine .binder x hop hkind (by rwa [List.length_map]) ?_
  intro part' hpart'
  obtain ⟨part, hpart, rfl⟩ := List.mem_map.1 hpart'
  exact hg part hpart

/-- A connective stays sorted if its parts become formulas. -/
theorem connective_map (hop : op.isConnective) (htakes : op.takes cs.length)
    (hg : ∀ c ∈ cs, Sorted .formula (g c)) :
    Sorted .formula (.node op (cs.map g)) := by
  refine .connective hop (by rwa [List.length_map]) ?_
  intro c' hc'
  obtain ⟨c, hc, rfl⟩ := List.mem_map.1 hc'
  exact hg c hc

/-- In a sorted tree no symbol is applied to an atom. -/
theorem takesNoAtoms (h : Sorted k f) : TakesNoAtoms s f := by
  induction h with
  | subject x =>
    intro zs args happlied
    have hcontains := containsSymbol_eq_true_iff.2 ⟨zs, args, happlied⟩
    simp at hcontains
  | application name hop hkind htakes hargs ih =>
    intro zs args happlied
    cases happlied with
    | here => exact fun arg harg => (hargs arg harg).atom?_eq_none
    | inside hc happlied =>
      rcases List.mem_cons.1 hc with rfl | hc
      · cases happlied
      · exact ih _ hc _ _ happlied
  | binder x hop hkind htakes hparts ih =>
    intro zs args happlied
    cases happlied with
    | here happlies => simp [applies_bind s hop] at happlies
    | inside hc happlied =>
      rcases List.mem_cons.1 hc with rfl | hc
      · have hcontains := containsSymbol_eq_true_iff.2 ⟨_, _, happlied⟩
        simp at hcontains
      · exact ih _ hc _ _ happlied
  | connective hop htakes hcs ih =>
    intro zs args happlied
    cases happlied with
    | here happlies => simp [applies_connective s hop] at happlies
    | inside hc happlied => exact ih _ hc _ _ happlied

/-- Substituting terms keeps a tree sorted. -/
protected theorem substitute (h : Sorted k f)
    (hσ : ∀ x t, σ.lookup x = some t → Sorted .term t) :
    Sorted k (f.substitute σ) := by
  induction h generalizing σ with
  | subject x =>
    rw [substitute_var]
    cases hx : σ.lookup x with
    | none => exact .subject x
    | some t => exact hσ x t hx
  | application name hop hkind htakes hargs ih =>
    rw [substitute_application σ hop]
    exact application_map name hop hkind htakes fun arg harg => ih arg harg hσ
  | binder x hop hkind htakes hparts ih =>
    rw [substitute_bind σ hop]
    refine binder_map x hop hkind htakes fun part hpart => ih part hpart ?_
    intro y t ht
    by_cases hy : y = x
    · subst hy
      simp at ht
    · rw [Substitution.lookup_without_of_ne σ hy] at ht
      exact hσ y t ht
  | connective hop htakes hcs ih =>
    rw [substitute_plain σ (var?_connective hop) (binder?_connective hop)]
    exact connective_map hop htakes fun c hc => ih c hc hσ

/-- Renaming a variable keeps a tree sorted, whether it is free or bound. -/
protected theorem replaceVar (h : Sorted k f) (x y : String) :
    Sorted k (replaceVar x (var y) f) := by
  induction h with
  | subject z =>
    by_cases hz : z = x
    · subst hz
      rw [replaceVar_var_self]
      exact .subject y
    · rw [replaceVar_var_of_ne _ hz]
      exact .subject z
  | application name hop hkind htakes hargs ih =>
    rw [replaceVar_application _ hop]
    exact application_map name hop hkind htakes ih
  | binder z hop hkind htakes hparts ih =>
    by_cases hz : z = x
    · subst hz
      rw [replaceVar_bind_self _ hop]
      exact binder_map y hop hkind htakes ih
    · rw [replaceVar_bind_of_ne _ hop hz]
      exact binder_map z hop hkind htakes ih
  | connective hop htakes hcs ih =>
    rw [replaceVar_plain _ (var?_connective hop)]
    exact connective_map hop htakes ih

/-- Renaming apart keeps a tree sorted. -/
protected theorem renameApart (h : Sorted k f) (avoid : List String) :
    Sorted k (renameApart avoid f) := by
  induction h with
  | subject x => exact .subject x
  | application name hop hkind htakes hargs ih =>
    rw [renameApart_application avoid hop]
    exact application_map name hop hkind htakes ih
  | binder x hop hkind htakes hparts ih =>
    have hinside := binder_map x hop hkind htakes ih
    by_cases hx : x ∈ avoid
    · rw [renameApart_bind_of_mem hop hx]
      exact hinside.replaceVar _ _
    · rw [renameApart_bind_of_not_mem hop hx]
      exact hinside
  | connective hop htakes hcs ih =>
    rw [renameApart_plain avoid (binder?_connective hop)]
    exact connective_map hop htakes ih

/-- An instance of a well-sorted formula with terms as arguments. -/
theorem instantiateApart {params : List Formula} {β : Formula} (hβ : Sorted k β)
    (hargs : ∀ arg ∈ args, Sorted .term arg) :
    Sorted k (Formula.instantiateApart params β args) := by
  refine (hβ.renameApart _).substitute fun x t ht => hargs t ?_
  exact (List.of_mem_zip (mem_of_lookup_ofPairs ht)).2

/-- Replacing the applications of a symbol by trees of the symbol's kind. -/
protected theorem replaceApplications {put : List Formula → Formula}
    (h : Sorted k f)
    (hput : ∀ args, (∀ arg ∈ args, Sorted .term arg) →
      Sorted s.op.kind (put args)) :
    Sorted k (replaceApplications s put f) := by
  induction h with
  | subject x =>
    rw [replaceApplications_var]
    exact .subject x
  | @application k op args name hop hkind htakes hargs ih =>
    cases happlies : applies s (Formula.application op name args) with
    | true =>
      obtain rfl := (applies_application hop).1 happlies
      subst hkind
      rw [Formula.application, replaceApplications_applied _ _ happlies]
      refine hput _ fun arg' harg' => ?_
      obtain ⟨arg, harg, rfl⟩ := List.mem_map.1 harg'
      exact ih arg harg
    | false =>
      rw [replaceApplications_application _ happlies]
      exact application_map name hop hkind htakes ih
  | binder x hop hkind htakes hparts ih =>
    rw [replaceApplications_bind s _ hop]
    exact binder_map x hop hkind htakes ih
  | connective hop htakes hcs ih =>
    rw [replaceApplications_node s _ (applies_connective s hop)]
    exact connective_map hop htakes ih

/-- Replacing a symbol by a formula of its kind keeps a tree sorted. -/
protected theorem replaceApart {xs : List String} {β : Formula} (h : Sorted k f)
    (hβ : Sorted s.op.kind β) : Sorted k (replaceApart s xs β f) :=
  h.replaceApplications fun _ hargs => instantiateApart hβ hargs

end Sorted

end Formula

end Deduction
