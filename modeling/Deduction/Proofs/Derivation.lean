import Deduction.Check.Proof
import Deduction.Proofs.Applications

/-!
# Correct proofs

What it means for a proof to be correct, said without a check that runs through
it.  A line is judged against one flat list of what is **known** there and may
be cited: a label, a normalized formula, and whether the formula was assumed.  A
citation is an entry of this list; nothing is looked up in order, for no label
is ever given twice.

* `Follows` has one clause for each rule of inference and each place it may
  cite.
* `Permits` says that a rule may be used: it is declared at a supported version,
  and not below the conditional minimum where that applies.
* `Justified` adds the conditional proof, whose lines are themselves correct
  under one more condition, and `Correct` goes through the lines of a body.

`Correct` and the check of a proof are compared in
`Deduction.Proofs.Acceptance`.
-/

namespace Deduction

/-- Something that may be cited: the formula is normalized. -/
structure Known where
  label : String
  formula : Formula
  assumed : Bool
  deriving DecidableEq, Repr

namespace Known

/-- The formula is cited by the label. -/
def Cites (known : List Known) (label : String) (formula : Formula) : Prop :=
  ∃ assumed, ⟨label, formula, assumed⟩ ∈ known

/-- No known formula has the label. -/
def Fresh (known : List Known) (label : Option String) : Prop :=
  ∀ l, label = some l → ∀ entry ∈ known, entry.label ≠ l

/-- One more known formula, if there is a label to cite it by. -/
def add (known : List Known) (label : Option String) (formula : Formula)
    (assumed : Bool) : List Known :=
  match label with
  | none => known
  | some label => ⟨label, formula, assumed⟩ :: known

end Known

open Known

/-- The formula may be put for the template `p(x₁, …, xₙ)` throughout the
source: the parameters are distinct, no other free variable of it is bound in
the source, what it binds stays clear of every application of `p`, and `p` does
not occur in a condition. -/
structure Replaceable (theory : Theory) (conditions : List Formula)
    (op : Operator) (name : String) (xs : List String)
    (source replacement : Formula) : Prop where
  distinct : xs.Nodup
  keepsFree : ∀ z ∈ replacement.free, z ∉ xs → z ∉ source.bound
  clearOfBinders : ∀ zs args, source.Applied (.ofTemplate op name xs) zs args →
    ∀ z ∈ zs, z ∉ replacement.bound
  clearOfArguments :
    ∀ zs args, source.Applied (.ofTemplate op name xs) zs args →
    ∀ arg ∈ args, ∀ z ∈ arg.free, z ∉ replacement.bound
  unconditional : ∀ c ∈ conditions, ∀ zs args,
    ¬ (theory.normalize c).Applied (.ofTemplate op name xs) zs args

/-- **The rules of inference.**  `Follows theory known conditions reason B` says
that the reason yields the normalized formula `B`. -/
inductive Follows (theory : Theory) (known : List Known)
    (conditions : List Formula) : Reason → Formula → Prop where
  /-- An enclosing hypothesis. -/
  | assumption {r : String} {A : Formula} (h : ⟨r, A, true⟩ ∈ known) :
      Follows theory known conditions (.add (some r)) A
  /-- A proved formula, unless an enclosing hypothesis has its label. -/
  | proved {r : String} {p : Proved} (hno : ∀ A, ⟨r, A, true⟩ ∉ known)
      (h : theory.find? r = some p) :
      Follows theory known conditions (.add (some r))
        (theory.normalize p.formula)
  | rename {r x y : String} {A : Formula} {n : UInt64} (hA : Cites known r A)
      (hroom : ∀ b, A.nthBinder? (.var x) n.toNat = some b →
        x = y ∨ (y ∉ b.free ∧ y ∉ b.bound)) :
      Follows theory known conditions
        (.rename (some r) (some (.var x)) (some (.var y)) n)
        (A.renameBinder (.var x) (.var y) n.toNat)
  | modusPonens {r₁ r₂ : String} {A B : Formula}
      (hAB : Cites known r₁ (A.implies B)) (hA : Cites known r₂ A) :
      Follows theory known conditions (.modusPonens (some r₁) (some r₂)) B
  | substFree {r x : String} {A term : Formula} (hA : Cites known r A)
      (hcapture : ∀ z ∈ (theory.normalize term).free, z ∉ A.bound)
      (hcond : ∀ c ∈ conditions, x ∉ (theory.normalize c).free) :
      Follows theory known conditions
        (.substFree (some r) (some (.var x)) (some term))
        (A.replaceFree (.var x) (theory.normalize term))
  | substPredicate {r p : String} {xs : List String} {A β : Formula}
      (hA : Cites known r A)
      (h : Replaceable theory conditions .predicateVariable p xs A
        (theory.normalize β)) :
      Follows theory known conditions
        (.substPredicate (some r)
          (some (.template .predicateVariable p xs)) (some β))
        (A.replaceSymbol (.template .predicateVariable p xs)
          (theory.normalize β))
  | substFunction {r p : String} {xs : List String} {A β : Formula}
      (hA : Cites known r A)
      (h : Replaceable theory conditions .functionVariable p xs A
        (theory.normalize β)) :
      Follows theory known conditions
        (.substFunction (some r)
          (some (.template .functionVariable p xs)) (some β))
        (A.replaceSymbol (.template .functionVariable p xs)
          (theory.normalize β))
  | universal {r x : String} {A B : Formula} (hAB : Cites known r (A.implies B))
      (hfree : x ∉ A.free)
      (hcond : ∀ c ∈ conditions, x ∉ (theory.normalize c).free) :
      Follows theory known conditions (.universal (some r) (some (.var x)))
        (A.implies (.quantify .universal x B))
  | existential {r x : String} {A B : Formula}
      (hAB : Cites known r (A.implies B)) (hfree : x ∉ B.free)
      (hcond : ∀ c ∈ conditions, x ∉ (theory.normalize c).free) :
      Follows theory known conditions (.existential (some r) (some (.var x)))
        ((Formula.quantify .existential x A).implies B)

/-- The rule is declared at a supported version, which is not below the
conditional minimum when conditions are active or a conditional proof is
made. -/
def Permits (setting : Setting) (conditions : List Formula) (rule : Rule) :
    Prop :=
  ∃ version, setting.rules.find? rule.name = some ⟨rule.name, version⟩ ∧
    version ∈ setting.policy.supported ∧
    ∀ minimum, setting.policy.conditionalMinimum = some minimum →
      conditions ≠ [] ∨ rule = .conditionalProof → ¬ version < minimum

/-- The active conditions together imply the formula in a well-formed way. -/
def Agrees (conditions : List Formula) (A : Formula) : Prop :=
  ∀ premise, Formula.conjunction? conditions = some premise →
    (premise.implies A).check .formula = .ok ()

mutual

/-- The reason justifies the formula `A`, as it is written. -/
inductive Justified (setting : Setting) :
    List Known → List Formula → Formula → Reason → Prop where
  | rule {known : List Known} {conditions : List Formula} {A : Formula}
      {reason : Reason}
      (h : Follows setting.theory known conditions reason
        (setting.theory.normalize A)) :
      Justified setting known conditions A reason
  | conditionalProof {known : List Known} {conditions : List Formula}
      {A H B : Formula} {label : Option String} {lines : List Line}
      (hallowed : setting.policy.conditionalMinimum.isSome)
      (hdepth : conditions.length < setting.policy.maxDepth)
      (hlabel : Fresh known label)
      (hlines : Correct setting
        (add known label (setting.theory.normalize H) true)
        (conditions ++ [H]) lines)
      (hlast : lines.getLast?.bind Line.formula = some B)
      (hconclusion : setting.theory.normalize A =
        (setting.theory.normalize H).implies (setting.theory.normalize B)) :
      Justified setting known conditions A
        (.conditionalProof ⟨label, some H⟩ lines)

/-- **The lines are correct**, each after those before it. -/
inductive Correct (setting : Setting) :
    List Known → List Formula → List Line → Prop where
  | nil {known : List Known} {conditions : List Formula} :
      Correct setting known conditions []
  | cons {known : List Known} {conditions : List Formula}
      {label : Option String} {A : Formula} {reason : Reason} {rest : List Line}
      (hlabel : Fresh known label)
      (hagrees : Agrees conditions A)
      (hpermits : Permits setting conditions reason.rule)
      (hjustified : Justified setting known conditions A reason)
      (hrest : Correct setting
        (add known label (setting.theory.normalize A) false) conditions rest) :
      Correct setting known conditions (⟨label, some A, some reason⟩ :: rest)

end

end Deduction
