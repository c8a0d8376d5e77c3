import Deduction.Proofs.Invariance
import Deduction.Theory

/-!
# Definitions and meaning

A definition is **true** in a model when its template and its definiens have the
same meaning under every assignment.  Expanding true definitions does not change
what a well-sorted formula means.  It does not matter in which order constants
are nested in a formula, which names are bound where, or whether a definition
leads back to itself: every single expansion keeps the meaning of every
well-sorted tree, and so does any number of them.

One expansion is a replacement of the defined constant with binders renamed
apart, so the replacement lemma applies, and the assignment stays the same
throughout.
-/

universe u

namespace Deduction

variable {D : Type u} {M : Model D}

open Formula

/-- Two meanings of trees of a kind are the same: the truth values of formulas,
the elements of terms. -/
def Meaning.Same : Kind → Meaning D → Meaning D → Prop
  | .formula, a, b => a.truth ↔ b.truth
  | .term, a, b => a.value = b.value

namespace Model

variable {f g : Formula} {k : Kind} {v : Assignment D} {op : Operator}
  {name : String} {xs : List String} {d : Definition}

/-- **True definitions.**  A constant that is applied to distinct variables, and
a well-sorted definiens of the constant's kind which means the same
everywhere. -/
inductive Defines (M : Model D) : Definition → Prop where
  | intro {op : Operator} {name : String} {xs : List String}
      {definiens : Formula}
      (hop : op = .predicateConstant ∨ op = .functionConstant)
      (hnodup : xs.Nodup) (hsorted : Sorted op.kind definiens)
      (hsame : ∀ v, (M.denote (template op name xs) v).Same op.kind
        (M.denote definiens v)) :
      Defines M ⟨template op name xs, definiens⟩

/-- On well-sorted trees the part of a meaning that counts is all of it. -/
theorem denote_eq_of_same (hf : Sorted k f) (hg : Sorted k g)
    (h : Meaning.Same k (M.denote f v) (M.denote g v)) :
    M.denote f v = M.denote g v := by
  cases k with
  | formula =>
    rw [denote_eq_ofTruth hf, denote_eq_ofTruth hg]
    exact congrArg M.ofTruth (propext h)
  | term =>
    rw [denote_eq_ofValue hf, denote_eq_ofValue hg]
    exact congrArg Meaning.ofValue h

/-! ## Templates -/

/-- A constant applied to variables is sorted. -/
theorem sorted_template
    (hop : op = .predicateConstant ∨ op = .functionConstant) :
    Sorted op.kind (template op name xs) := by
  have happ : op.isApplication := by rcases hop with rfl | rfl <;> rfl
  have htakes : op.takes ((xs.map var).length + 1) := by
    rcases hop with rfl | rfl <;> rfl
  refine .application name happ rfl htakes fun arg harg => ?_
  obtain ⟨x, -, rfl⟩ := List.mem_map.1 harg
  exact .subject x

/-- Parameters that stand for given elements. -/
theorem values_assignAll (hnodup : xs.Nodup) {ds : List D}
    (hlength : ds.length = xs.length) :
    (xs.map var).map (M.value (v.assignAll xs ds)) = ds := by
  rw [List.map_map]
  apply List.ext_getElem
  · rw [List.length_map, hlength]
  · intro i hi hi'
    have hx : i < xs.length := by omega
    have hpair := getElem_mem_zip hx hi'
    rw [List.getElem_map]
    show ((xs.zip ds).lookup xs[i]).getD (v.subject xs[i]) = ds[i]
    rw [lookup_zip_of_mem hnodup hpair, Option.getD_some]

/-- At given values of its variables a template means what its name means at
these values. -/
theorem denote_template_assignAll (happ : op.isApplication) (hnodup : xs.Nodup)
    {ds : List D} (hlength : ds.length = xs.length) :
    M.denote (template op name xs) (v.assignAll xs ds) =
      M.apply v op name ds := by
  rw [template, denote_application happ, values_assignAll hnodup hlength,
    apply_assignAll]

/-! ## Steps that keep the meaning -/

/-- A step that keeps well-sorted trees well sorted and does not change what
they mean. -/
def Keeps (M : Model D) (step : Formula → Formula) : Prop :=
  ∀ k f, Sorted k f →
    Sorted k (step f) ∧ ∀ v, M.denote (step f) v = M.denote f v

/-- **One definition.** -/
theorem Defines.keeps (h : M.Defines d) :
    M.Keeps fun f => f.expandSymbol d.template d.definiens := by
  intro k f hf
  cases h with
  | @intro op name xs β hop hnodup hβ hsame =>
    have happ : op.isApplication := by rcases hop with rfl | rfl <;> rfl
    have hreplaces : ∀ v w : Assignment D, v = w →
        Replaces M (.ofTemplate op name xs) xs β v w := by
      intro v w hvw
      subst hvw
      refine ⟨rfl, fun ds hds => ?_, fun _ _ _ _ => rfl⟩
      have hsame' :=
        denote_eq_of_same (sorted_template hop) hβ (hsame (v.assignAll xs ds))
      rw [← hsame', denote_template_assignAll happ hnodup hds]
      rfl
    simp only [expandSymbol_template happ]
    refine ⟨hf.replaceApart hβ, fun v => ?_⟩
    exact denote_replaceApart hnodup rfl hβ hf hreplaces
      (fun v w z d _ hvw => congrArg (fun v => v.assign z d) hvw) rfl

/-- One definition after the other. -/
theorem keeps_expand {theory : Theory}
    (h : ∀ d ∈ theory.definitions, M.Defines d) :
    M.Keeps theory.expand := by
  obtain ⟨proved, definitions⟩ := theory
  intro k f hf
  rw [Theory.expand]
  induction definitions generalizing f with
  | nil => exact ⟨hf, fun _ => rfl⟩
  | cons d ds ih =>
    obtain ⟨hsorted, hmeaning⟩ := (h d List.mem_cons_self).keeps k f hf
    obtain ⟨hsorted', hmeaning'⟩ :=
      ih (fun e he => h e (List.mem_cons_of_mem _ he)) _ hsorted
    exact ⟨hsorted', fun v => (hmeaning' v).trans (hmeaning v)⟩

/-- Pass after pass. -/
theorem Keeps.settle {step : Formula → Formula} (h : M.Keeps step) (n : Nat) :
    M.Keeps (Theory.settle step n) := by
  induction n with
  | zero => exact fun k f hf => ⟨hf, fun _ => rfl⟩
  | succ n ih =>
    intro k f hf
    rw [Theory.settle]
    by_cases hfixed : step f = f
    · rw [if_pos hfixed]
      exact ⟨hf, fun _ => rfl⟩
    · rw [if_neg hfixed]
      obtain ⟨hsorted, hmeaning⟩ := h k f hf
      obtain ⟨hsorted', hmeaning'⟩ := ih k (step f) hsorted
      exact ⟨hsorted', fun v => (hmeaning' v).trans (hmeaning v)⟩

/-- **Definition expansion keeps the meaning.**  If all definitions of a theory
are true in a model, a well-sorted formula and what normalization makes of it
have the same truth value under every assignment, and the normalized formula is
well sorted. -/
theorem normalize_keeps_meaning (M : Model D) (theory : Theory)
    (hdefinitions : ∀ d ∈ theory.definitions, M.Defines d) (f : Formula)
    (hf : Sorted .formula f) :
    Sorted .formula (theory.normalize f) ∧
      ∀ v, M.Holds v (theory.normalize f) ↔ M.Holds v f := by
  obtain ⟨hsorted, hmeaning⟩ :=
    (keeps_expand hdefinitions).settle
      (theory.definitions.length + 1) .formula f hf
  refine ⟨hsorted, fun v => ?_⟩
  rw [Holds, Theory.normalize, hmeaning v]
  rfl

end Model

namespace RecursiveDefinition

/-- The model in which every relation holds. -/
def model : Model Nat where
  relation _ _ := True
  function _ ds := ds.length
  classOf _ := 0

/-- Defines `p(x)` as `p(z)` for all `z` with `q(x, z)`. -/
def theory : Theory where
  definitions :=
    [⟨template .predicateConstant "p" ["x"],
      .quantify .universal "z"
        ((template .predicateConstant "q" ["x", "z"]).implies
          (template .predicateConstant "p" ["z"]))⟩]

theorem defines : ∀ d ∈ theory.definitions, model.Defines d := by
  intro d hd
  obtain rfl := List.mem_singleton.1 hd
  refine .intro (Or.inl rfl) (by decide) (sorted_of_check rfl) fun v => ?_
  have htrue : ∀ (w : Assignment Nat) name xs,
      (model.denote (template .predicateConstant name xs) w).truth := by
    intro w name xs
    rw [template, Model.denote_application rfl]
    trivial
  refine ⟨fun _ => ?_, fun _ => htrue v _ _⟩
  exact Model.holds_universal.2 fun d =>
    Model.holds_implies.2 fun _ => htrue _ _ _

end RecursiveDefinition

/-- The argument `z` of `p` is bound in the definiens, which holds `p` again. -/
theorem normalize_keeps_meaning_of_recursive_definition :
    (∀ d ∈ RecursiveDefinition.theory.definitions,
      RecursiveDefinition.model.Defines d) ∧
      Sorted .formula (template .predicateConstant "p" ["z"]) ∧
      ∀ v, RecursiveDefinition.model.Holds v
          (RecursiveDefinition.theory.normalize
            (template .predicateConstant "p" ["z"])) ↔
        RecursiveDefinition.model.Holds v
          (template .predicateConstant "p" ["z"]) :=
  have hsorted : Sorted .formula (template .predicateConstant "p" ["z"]) :=
    sorted_of_check rfl
  ⟨RecursiveDefinition.defines, hsorted,
    (Model.normalize_keeps_meaning _ _ RecursiveDefinition.defines _ hsorted).2⟩

end Deduction
