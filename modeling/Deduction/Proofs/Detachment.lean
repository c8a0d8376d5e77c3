import Deduction.Proofs.Acceptance
import Deduction.Proofs.Normalization

/-!
# Normalization and structure

The rules of inference take normalized formulas apart: modus ponens splits a
normalized implication and compares a side of it with a formula that was
normalized by itself.  That works because normalization goes through connectives
and binders: the normal form of a whole is made of the normal forms of its
parts.

Normalization stops as soon as a pass changes nothing, and a whole may need more
passes than one of its parts; with recursive definitions no pass may ever be the
last.  Stopping early is harmless, however (`Theory.settle_eq_iterate`), so
whole and parts may as well go through all the passes that are allowed.  One
definition (`expandSymbol_node`), one pass (`Fixes.expand`) and any number of
passes (`iterate_node`) go through a node that is no application, whatever the
definitions are, and through the application of a name that is not defined.

As a consequence a formula can always be detached: if `A → B` and `A` are
proved, `B` has a proof of three lines.
-/

namespace Deduction

namespace Formula

variable {op : Operator} {cs : List Formula}

/-- What is no application applies no symbol. -/
theorem symbol?_of_not_application (hop : op.isApplication = false) :
    (Formula.node op cs).symbol? = none := by
  rw [symbol?.eq_def]
  split <;> simp_all

@[simp] theorem expandSymbol_atom (template definiens : Formula)
    (name : String) :
    (Formula.atom name).expandSymbol template definiens = .atom name := by
  unfold expandSymbol
  split <;> rfl

/-- **One definition** goes through a node that applies another symbol or
none. -/
theorem expandSymbol_node (template definiens : Formula)
    (h : ∀ s, template.symbol? = some s →
      (Formula.node op cs).symbol? ≠ some s) :
    (Formula.node op cs).expandSymbol template definiens =
      .node op (cs.map fun c => c.expandSymbol template definiens) := by
  unfold expandSymbol
  cases hsymbol : template.symbol? with
  | none => simp
  | some s =>
    have happlies : applies s (.node op cs) = false :=
      decide_eq_false (h s hsymbol)
    exact replaceApplications_node s _ happlies

end Formula

namespace Theory

variable {theory : Theory} {op : Operator} {cs : List Formula}
  {step : Formula → Formula}

/-- **A node that the definitions leave in place**: if it is an application, it
applies a name that is not defined. -/
structure Fixes (theory : Theory) (op : Operator) (cs : List Formula) :
    Prop where
  named : op.isApplication = true → ∃ name args, cs = .atom name :: args
  undefined : ∀ d ∈ theory.definitions, ∀ s, d.template.symbol? = some s →
    (Formula.node op cs).symbol? ≠ some s

/-- A node that is no application stays in place. -/
theorem fixes_of_not_application (hop : op.isApplication = false) :
    theory.Fixes op cs where
  named := fun happ => absurd happ (by simp [hop])
  undefined := by
    intro d _ s _
    rw [Formula.symbol?_of_not_application hop]
    nofun

/-- The node is left in place also after a change below it that keeps names. -/
theorem Fixes.map (hatom : ∀ name, step (.atom name) = .atom name)
    (h : theory.Fixes op cs) :
    theory.Fixes op (cs.map step) := by
  by_cases hop : op.isApplication = true
  · obtain ⟨name, args, rfl⟩ := h.named hop
    refine ⟨fun _ => ⟨name, args.map step, by simp [hatom]⟩,
      fun d hd s hs => ?_⟩
    simpa [hatom, Formula.symbol?] using h.undefined d hd s hs
  · exact fixes_of_not_application (by simpa using hop)

theorem expand_atom (theory : Theory) (name : String) :
    theory.expand (.atom name) = .atom name := by
  unfold expand
  induction theory.definitions with
  | nil => rfl
  | cons d definitions ih => rw [List.foldl_cons, Formula.expandSymbol_atom, ih]

/-- **One pass.** -/
theorem Fixes.expand (h : theory.Fixes op cs) :
    theory.expand (.node op cs) = .node op (cs.map theory.expand) := by
  obtain ⟨proved, definitions⟩ := theory
  induction definitions generalizing cs with
  | nil => exact congrArg (Formula.node op) (List.map_id cs).symm
  | cons d definitions ih =>
    have hrest : Fixes ⟨proved, definitions⟩ op cs :=
      ⟨h.named, fun e he => h.undefined e (List.mem_cons_of_mem d he)⟩
    calc Theory.expand ⟨proved, d :: definitions⟩ (.node op cs)
        = Theory.expand ⟨proved, definitions⟩
            ((Formula.node op cs).expandSymbol d.template d.definiens) := rfl
      _ = Theory.expand ⟨proved, definitions⟩
            (.node op (cs.map fun c =>
              c.expandSymbol d.template d.definiens)) := by
          rw [Formula.expandSymbol_node _ _ (h.undefined d List.mem_cons_self)]
      _ = .node op ((cs.map fun c => c.expandSymbol d.template d.definiens).map
            (Theory.expand ⟨proved, definitions⟩)) :=
          ih (hrest.map fun name => Formula.expandSymbol_atom _ _ name)
      _ = .node op (cs.map (Theory.expand ⟨proved, d :: definitions⟩)) := by
          rw [List.map_map]
          rfl

/-- **Any number of passes.** -/
theorem iterate_node {P : List Formula → Prop}
    (hP : ∀ cs, P cs → P (cs.map step))
    (hstep : ∀ cs, P cs → step (.node op cs) = .node op (cs.map step))
    (n : Nat) (hcs : P cs) :
    step^[n] (.node op cs) = .node op (cs.map step^[n]) := by
  induction n generalizing cs with
  | zero => simp
  | succ n ih =>
    rw [Function.iterate_succ_apply, hstep cs hcs, ih (hP cs hcs), List.map_map,
      ← Function.iterate_succ]

/-- **The normal form of a whole** is made of the normal forms of its parts
where the definitions leave it in place. -/
theorem Fixes.normalize (h : theory.Fixes op cs) :
    theory.normalize (.node op cs) = .node op (cs.map theory.normalize) := by
  have hall : theory.normalize =
      theory.expand^[theory.definitions.length + 1] := by
    funext f
    exact settle_eq_iterate _ _ f
  rw [hall]
  exact iterate_node (P := theory.Fixes op)
    (fun _ => Fixes.map theory.expand_atom) (fun _ => Fixes.expand) _ h

/-- Normalization goes through a node that is no application. -/
theorem normalize_node (theory : Theory) (hop : op.isApplication = false) :
    theory.normalize (.node op cs) = .node op (cs.map theory.normalize) :=
  (fixes_of_not_application hop).normalize

theorem normalize_implies (theory : Theory) (A B : Formula) :
    theory.normalize (A.implies B) =
      (theory.normalize A).implies (theory.normalize B) :=
  theory.normalize_node rfl

end Theory

open Known

/-- The proof of `B` that restates two proved formulas, `A → B` and `A`, by
their labels and detaches. -/
def detachment (A B : Formula) (implication premise first second : String)
    (third : Option String) : List Line :=
  [⟨some first, some (A.implies B), some (.add (some implication))⟩,
    ⟨some second, some A, some (.add (some premise))⟩,
    ⟨third, some B, some (.modusPonens (some first) (some second))⟩]

section

variable {theory : Theory} {rules : RuleBook}

/-- Under the basic policy a rule may be used when it is declared at the basic
version. -/
theorem permits_basic {rule : Rule}
    (hrule : rules.find? rule.name = some ⟨rule.name, .basic⟩) :
    Permits ⟨.basic, rules, theory⟩ [] rule := by
  have hsupported : Version.basic ∈ Policy.basic.supported := by decide
  exact ⟨.basic, hrule, hsupported, nofun⟩

/-- A line may restate a proved formula, while nothing is assumed. -/
theorem correct_restate {known : List Known} {label : Option String}
    {r : String} {A : Formula} {place : Location} {rest : List Line}
    (hadd : rules.find? Rule.add.name = some ⟨Rule.add.name, .basic⟩)
    (hunassumed : ∀ entry ∈ known, entry.assumed = false)
    (hlabel : Fresh known label) (hproved : theory.find? r = some ⟨A, place⟩)
    (hrest : Correct ⟨.basic, rules, theory⟩
      (add known label (theory.normalize A) false) [] rest) :
    Correct ⟨.basic, rules, theory⟩ known []
      (⟨label, some A, some (.add (some r))⟩ :: rest) := by
  have hno : ∀ B, ⟨r, B, true⟩ ∉ known := fun B hB => by
    have hfalse := hunassumed _ hB
    cases hfalse
  exact .cons hlabel nofun (permits_basic hadd)
    (.rule (.proved hno hproved)) hrest

/-- **Detachment** is a correct proof. -/
theorem correct_detachment {A B : Formula}
    {implication premise first second : String} {third : Option String}
    {place place' : Location}
    (hadd : rules.find? Rule.add.name = some ⟨Rule.add.name, .basic⟩)
    (hmp : rules.find? Rule.modusPonens.name =
      some ⟨Rule.modusPonens.name, .basic⟩)
    (himplication : theory.find? implication = some ⟨A.implies B, place⟩)
    (hpremise : theory.find? premise = some ⟨A, place'⟩)
    (hsecond : second ≠ first)
    (hthird : ∀ l, third = some l → l ≠ first ∧ l ≠ second) :
    Correct ⟨.basic, rules, theory⟩ [] []
      (detachment A B implication premise first second third) := by
  refine correct_restate hadd (by simp) nofun himplication ?_
  refine correct_restate hadd (by simp [add]) ?_ hpremise ?_
  · intro l hl entry hentry
    obtain rfl := Option.some.inj hl
    obtain rfl := List.mem_singleton.1 hentry
    exact hsecond.symm
  -- Here the cited implication, normalized as a whole, has to have normalized
  -- sides.
  rw [theory.normalize_implies]
  have hfollows : Follows theory
      [⟨second, theory.normalize A, false⟩,
        ⟨first, (theory.normalize A).implies (theory.normalize B), false⟩] []
      (.modusPonens (some first) (some second)) (theory.normalize B) :=
    .modusPonens ⟨false, List.mem_cons_of_mem _ List.mem_cons_self⟩
      ⟨false, List.mem_cons_self⟩
  refine .cons ?_ nofun (permits_basic hmp) (.rule hfollows) .nil
  intro l hl entry hentry
  obtain ⟨hlfirst, hlsecond⟩ := hthird l hl
  rcases List.mem_cons.1 hentry with rfl | hentry
  · exact hlsecond.symm
  · obtain rfl := List.mem_singleton.1 hentry
    exact hlfirst.symm

end

/-- **Normalization goes through connectives and binders, and formulas can be
detached.**  Whatever the definitions of a theory are, the normal form of a node
whose operator is no application consists of the normal forms of its children.
So if `A → B` and `A` are proved, the proof of `B` by detachment is accepted
under the basic policy, under any labels that are not repeated. -/
theorem normalization_structural (theory : Theory) :
    (∀ (op : Operator) (cs : List Formula), op.isApplication = false →
      theory.normalize (.node op cs) = .node op (cs.map theory.normalize)) ∧
    ∀ (A B : Formula) (implication premise : String) (place place' : Location),
      theory.find? implication = some ⟨A.implies B, place⟩ →
      theory.find? premise = some ⟨A, place'⟩ →
      ∀ (rules : RuleBook),
        (∀ rule : Rule, rules.find? rule.name = some ⟨rule.name, .basic⟩) →
        ∀ (first second : String) (third : Option String), second ≠ first →
          (∀ l, third = some l → l ≠ first ∧ l ≠ second) →
          ∀ location,
            (checkProof ⟨.basic, rules, theory⟩ location B
              (detachment A B implication premise first second
                third)).errors = [] := by
  refine ⟨fun op cs hop => theory.normalize_node hop, ?_⟩
  intro A B implication premise place place' himplication hpremise
    rules hrules first second third hsecond hthird location
  have hcorrect := correct_detachment (hrules .add) (hrules .modusPonens)
    himplication hpremise hsecond hthird
  rw [checkProof_errors_eq_nil_iff, checkLines_wholeBody_errors_eq_nil_iff,
    checkLast_errors_eq_nil_iff hcorrect]
  exact ⟨rfl, hcorrect, rfl⟩

namespace Liar

/-- The formula `p`. -/
def liar : Formula :=
  .template .predicateConstant "p" []

/-- Defines `p` as `¬p`; proved are `p → ∀x (p → q(x))` and `p`. -/
def theory : Theory where
  proved :=
    [("a", ⟨liar.implies (.quantify .universal "x"
        (liar.implies (.template .predicateConstant "q" ["x"]))),
        ⟨"liar", "a"⟩⟩),
      ("b", ⟨liar, ⟨"liar", "b"⟩⟩)]
  definitions := [⟨liar, .node .negation [liar]⟩]

end Liar

/-- Every pass changes the formulas again, and still `∀x (p → q(x))` can be
detached. -/
theorem liar_detached :
    Liar.theory.normalize Liar.liar =
      .node .negation [.node .negation [Liar.liar]] ∧
      Liar.theory.expand (Liar.theory.normalize Liar.liar) ≠
        Liar.theory.normalize Liar.liar ∧
      (checkProof ⟨.basic, .allAt .basic, Liar.theory⟩ ⟨"liar", "proof"⟩
        (.quantify .universal "x"
          (Liar.liar.implies (.template .predicateConstant "q" ["x"])))
        (detachment Liar.liar
          (.quantify .universal "x"
            (Liar.liar.implies (.template .predicateConstant "q" ["x"])))
          "a" "b" "1" "2" none)).errors = [] := by
  refine ⟨by decide, by decide, ?_⟩
  refine (normalization_structural Liar.theory).2 _ _ "a" "b" _ _ rfl rfl _
    ?_ "1" "2" none (by decide) nofun _
  intro rule
  cases rule <;> decide

end Deduction
