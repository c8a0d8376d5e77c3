import Deduction.Proofs.Acceptance
import Deduction.Proofs.Normalization

/-!
# Abbreviations are transparent

A defined constant in a proof is an abbreviation and nothing else: the proof may
be written out with all definitions expanded, and it is accepted as before.

The check compares normalized formulas throughout.  Of a line it uses the
normalized formula, of a reason the normalized substitute, and all that is known
of earlier lines is normalized too.  So nothing it looks at changes when
formulas and substitutes are normalized beforehand, as long as normalizing twice
is the same as normalizing once.  For well-sorted formulas and definitions
without cycles that is `Theory.normalize_normalize`.

The one comparison that takes a formula as it is written is the last: the
proposition has to be the formula of the last line.

Conditional proofs are left out.  Whether a line agrees with its conditions
depends on how both are written, and an expansion may bind a variable of a
condition.
-/

namespace Deduction

open Formula Known

variable {setting : Setting} {theory : Theory} {known : List Known}
  {conditions : List Formula} {A B : Formula} {reason : Reason}
  {label : Option String} {lines rest : List Line}

namespace Reason

/-- The formula or term that a substitution puts in. -/
def substitute? : Reason → Option Formula
  | substFree _ _ substitute => substitute
  | substPredicate _ _ substitute => substitute
  | substFunction _ _ substitute => substitute
  | _ => none

/-- Changes the formula or term that a substitution puts in, and nothing
else. -/
def mapSubstitute (g : Formula → Formula) : Reason → Reason
  | substFree reference subject substitute =>
    substFree reference subject (substitute.map g)
  | substPredicate reference template substitute =>
    substPredicate reference template (substitute.map g)
  | substFunction reference template substitute =>
    substFunction reference template (substitute.map g)
  | reason => reason

@[simp] theorem rule_mapSubstitute (g : Formula → Formula) (reason : Reason) :
    (reason.mapSubstitute g).rule = reason.rule := by
  cases reason <;> rfl

end Reason

namespace Line

/-- The line with the definitions expanded in its formula and in its substitute.
Its label and all else that the reason gives stay. -/
def expanded (theory : Theory) (line : Line) : Line where
  label := line.label
  formula := line.formula.map theory.normalize
  reason := line.reason.map (Reason.mapSubstitute theory.normalize)

/-- The line makes no conditional proof. -/
def Direct (line : Line) : Prop :=
  ∀ reason, line.reason = some reason → reason.rule ≠ .conditionalProof

/-- Formula and substitute are well sorted, where there are any. -/
structure WellSorted (line : Line) : Prop where
  formula : ∀ A, line.formula = some A → ∃ k, Sorted k A
  substitute : ∀ reason β, line.reason = some reason →
    reason.substitute? = some β → ∃ k, Sorted k β

end Line

/-! ## Reasons with the same substitute -/

/-- The reasons are the same, up to what normalization makes of the
substitute. -/
inductive Reason.Alike (theory : Theory) : Reason → Reason → Prop where
  | same (reason : Reason) : Alike theory reason reason
  | substFree {reference : Option String} {subject : Option Formula}
      {β γ : Formula} (h : theory.normalize β = theory.normalize γ) :
      Alike theory (.substFree reference subject (some β))
        (.substFree reference subject (some γ))
  | substPredicate {reference : Option String} {template : Option Formula}
      {β γ : Formula} (h : theory.normalize β = theory.normalize γ) :
      Alike theory (.substPredicate reference template (some β))
        (.substPredicate reference template (some γ))
  | substFunction {reference : Option String} {template : Option Formula}
      {β γ : Formula} (h : theory.normalize β = theory.normalize γ) :
      Alike theory (.substFunction reference template (some β))
        (.substFunction reference template (some γ))

namespace Reason.Alike

variable {reason' : Reason}

/-- Likeness goes either way. -/
theorem symm (h : Alike theory reason reason') :
    Alike theory reason' reason := by
  cases h with
  | same => exact .same reason
  | substFree h => exact .substFree h.symm
  | substPredicate h => exact .substPredicate h.symm
  | substFunction h => exact .substFunction h.symm

/-- Every rule looks at its substitute normalized. -/
theorem follows (halike : Alike theory reason reason')
    (h : Follows theory known conditions reason B) :
    Follows theory known conditions reason' B := by
  cases halike with
  | same => exact h
  | substFree heq =>
    cases h with
    | substFree hA hcapture hcond =>
      rw [heq] at hcapture ⊢
      exact .substFree hA hcapture hcond
  | substPredicate heq =>
    cases h with
    | substPredicate hA hreplaceable =>
      rw [heq] at hreplaceable ⊢
      exact .substPredicate hA hreplaceable
  | substFunction heq =>
    cases h with
    | substFunction hA hreplaceable =>
      rw [heq] at hreplaceable ⊢
      exact .substFunction hA hreplaceable

/-- By reasons that are alike the same follows. -/
theorem follows_iff (h : Alike theory reason reason') :
    Follows theory known conditions reason B ↔
      Follows theory known conditions reason' B :=
  ⟨h.follows, h.symm.follows⟩

/-- Reasons are alike if what is substituted has the same normal form. -/
theorem of_mapSubstitute {g : Formula → Formula}
    (hg : ∀ β, reason.substitute? = some β →
      theory.normalize (g β) = theory.normalize β) :
    Alike theory (reason.mapSubstitute g) reason := by
  cases reason with
  | substFree reference subject substitute =>
    cases substitute with
    | none => exact .same _
    | some β => exact .substFree (hg β rfl)
  | substPredicate reference template substitute =>
    cases substitute with
    | none => exact .same _
    | some β => exact .substPredicate (hg β rfl)
  | substFunction reference template substitute =>
    cases substitute with
    | none => exact .same _
    | some β => exact .substFunction (hg β rfl)
  | _ => exact .same _

end Reason.Alike

/-! ## Lines -/

/-- What makes a complete line and the lines after it correct. -/
theorem correct_cons_iff :
    Correct setting known conditions (⟨label, some A, some reason⟩ :: rest) ↔
      Fresh known label ∧ Agrees conditions A ∧
        Permits setting conditions reason.rule ∧
        Justified setting known conditions A reason ∧
        Correct setting (add known label (setting.theory.normalize A) false)
          conditions rest := by
  constructor
  · intro h
    cases h with
    | cons hlabel hagrees hpermits hjustified hrest =>
      exact ⟨hlabel, hagrees, hpermits, hjustified, hrest⟩
  · intro h
    obtain ⟨hlabel, hagrees, hpermits, hjustified, hrest⟩ := h
    exact .cons hlabel hagrees hpermits hjustified hrest

/-- Without conditions every formula agrees. -/
theorem agrees_nil (A : Formula) : Agrees [] A := nofun

/-- **Lines may be written out.**  Under no conditions, lines with expanded
formulas and substitutes are correct exactly when the lines themselves are. -/
theorem correct_expanded_iff (hsorted : setting.theory.WellSorted)
    (hacyclic : setting.theory.Acyclic) (hdirect : ∀ line ∈ lines, line.Direct)
    (hlines : ∀ line ∈ lines, line.WellSorted) :
    Correct setting known [] (lines.map (Line.expanded setting.theory)) ↔
      Correct setting known [] lines := by
  have hstable : ∀ f, (∃ k, Sorted k f) →
      setting.theory.normalize (setting.theory.normalize f) =
        setting.theory.normalize f := by
    intro f hf
    obtain ⟨k, hf⟩ := hf
    exact Theory.normalize_normalize hsorted hacyclic hf
  induction lines generalizing known with
  | nil => exact Iff.rfl
  | cons line rest ih =>
    have hrest : ∀ known,
        Correct setting known [] (rest.map (Line.expanded setting.theory)) ↔
        Correct setting known [] rest := fun known =>
      ih (fun l hl => hdirect l (List.mem_cons_of_mem _ hl))
        fun l hl => hlines l (List.mem_cons_of_mem _ hl)
    have hline := hlines line List.mem_cons_self
    have hrule := hdirect line List.mem_cons_self
    obtain ⟨label, formula, reason⟩ := line
    -- A line that lacks a part is not correct, and it still lacks it when
    -- expanded.
    cases formula with
    | none => exact ⟨nofun, nofun⟩
    | some A =>
      cases reason with
      | none => exact ⟨nofun, nofun⟩
      | some reason =>
        have hA := hstable A (hline.formula A rfl)
        have hreason : reason.rule ≠ .conditionalProof := hrule reason rfl
        have halike : Reason.Alike setting.theory
            (reason.mapSubstitute setting.theory.normalize) reason :=
          .of_mapSubstitute fun β hβ =>
            hstable β (hline.substitute reason β rfl hβ)
        rw [List.map_cons, Line.expanded, Option.map_some, Option.map_some,
          correct_cons_iff, correct_cons_iff, justified_iff_follows hreason,
          justified_iff_follows (by rwa [Reason.rule_mapSubstitute]),
          Reason.rule_mapSubstitute, hA, halike.follows_iff, hrest]
        simp only [agrees_nil]

/-- The last line states the expanded formula. -/
theorem getLast?_map_expanded (lines : List Line) :
    (lines.map (Line.expanded theory)).getLast?.bind Line.formula =
      (lines.getLast?.bind Line.formula).map theory.normalize := by
  rw [List.getLast?_map]
  cases lines.getLast? <;> rfl

/-- **Abbreviations are transparent.**  If the definitions are well sorted and
without cycles, a proof without conditional proofs may be written out with the
definitions expanded in the proposition, in every formula and in every
substitute.  The proof is accepted exactly when the written-out proof is and its
last line states the proposition. -/
theorem accepted_iff_expanded_accepted (setting : Setting) (location : Location)
    (proposition : Formula) (lines : List Line)
    (hsorted : setting.theory.WellSorted) (hacyclic : setting.theory.Acyclic)
    (hdirect : ∀ line ∈ lines, line.Direct)
    (hlines : ∀ line ∈ lines, line.WellSorted) :
    (checkProof setting location proposition lines).errors = [] ↔
      lines.getLast?.bind Line.formula = some proposition ∧
        (checkProof setting location (setting.theory.normalize proposition)
          (lines.map (Line.expanded setting.theory))).errors = [] := by
  have hcorrect :
      Correct setting [] [] (lines.map (Line.expanded setting.theory)) ↔
        Correct setting [] [] lines :=
    correct_expanded_iff hsorted hacyclic hdirect hlines
  rw [checkProof_errors_eq_nil_iff, checkProof_errors_eq_nil_iff,
    checkLines_wholeBody_errors_eq_nil_iff,
    checkLines_wholeBody_errors_eq_nil_iff]
  constructor
  · intro h
    obtain ⟨haccepts, hbody, hend⟩ := h
    have hlast := (checkLast_errors_eq_nil_iff hbody).1 hend
    have hbody' := hcorrect.2 hbody
    have hlast' :
        (lines.map (Line.expanded setting.theory)).getLast?.bind Line.formula =
          some (setting.theory.normalize proposition) := by
      rw [getLast?_map_expanded, hlast, Option.map_some]
    exact ⟨hlast, haccepts, hbody',
      (checkLast_errors_eq_nil_iff hbody').2 hlast'⟩
  · intro h
    obtain ⟨hlast, haccepts, hbody', -⟩ := h
    have hbody := hcorrect.1 hbody'
    exact ⟨haccepts, hbody, (checkLast_errors_eq_nil_iff hbody).2 hlast⟩

namespace WrittenOut

open Formula (letter)

/-- The abbreviation `subset(z, b)`. -/
def inclusion : Formula :=
  template .predicateConstant "subset" ["z", "b"]

/-- The constants `subset` and `proper` are defined, and `A → A` is proved. -/
def logic : Setting where
  policy := .basic
  rules := .allAt .basic
  theory :=
    ProperSubset.theory.prove "identity" ((letter "A").implies (letter "A"))
      ⟨"logic", "axiom"⟩

/-- The proof puts `subset(z, b)` for `A`. -/
def steps : List Line :=
  [⟨some "1", some ((letter "A").implies (letter "A")),
      some (.add (some "identity"))⟩,
    ⟨none, some (inclusion.implies inclusion),
      some (.substPredicate (some "1") (some (letter "A")) (some inclusion))⟩]

theorem direct : ∀ line ∈ steps, line.Direct := by
  intro line hline reason hreason
  simp only [steps, List.mem_cons, List.not_mem_nil, or_false] at hline
  rcases hline with rfl | rfl <;> cases hreason <;> decide

theorem wellSorted : ∀ line ∈ steps, line.WellSorted := by
  intro line hline
  simp only [steps, List.mem_cons, List.not_mem_nil, or_false] at hline
  rcases hline with rfl | rfl
  · refine ⟨fun A hA => ?_, fun reason β hreason hβ => ?_⟩
    · cases hA
      exact ⟨.formula, sorted_of_check rfl⟩
    · cases hreason
      cases hβ
  · refine ⟨fun A hA => ?_, fun reason β hreason hβ => ?_⟩
    · cases hA
      exact ⟨.formula, sorted_of_check rfl⟩
    · cases hreason
      cases hβ
      exact ⟨.formula, sorted_of_check rfl⟩

end WrittenOut

/-- The proof uses a defined constant, and written out it is accepted as
well. -/
theorem inclusion_accepted_iff_expanded_accepted :
    WrittenOut.logic.theory.WellSorted ∧ WrittenOut.logic.theory.Acyclic ∧
      (∀ line ∈ WrittenOut.steps, line.Direct) ∧
      (∀ line ∈ WrittenOut.steps, line.WellSorted) ∧
      WrittenOut.steps.map (Line.expanded WrittenOut.logic.theory) ≠
        WrittenOut.steps ∧
      (checkProof WrittenOut.logic ⟨"logic", "proof"⟩
        (WrittenOut.logic.theory.normalize
          (WrittenOut.inclusion.implies WrittenOut.inclusion))
        (WrittenOut.steps.map
          (Line.expanded WrittenOut.logic.theory))).errors = [] := by
  have haccepted : (checkProof WrittenOut.logic ⟨"logic", "proof"⟩
      (WrittenOut.inclusion.implies WrittenOut.inclusion)
      WrittenOut.steps).errors = [] := rfl
  have hiff :=
    accepted_iff_expanded_accepted WrittenOut.logic ⟨"logic", "proof"⟩
      (WrittenOut.inclusion.implies WrittenOut.inclusion) WrittenOut.steps
      ProperSubset.wellSorted ProperSubset.acyclic WrittenOut.direct
      WrittenOut.wellSorted
  refine ⟨ProperSubset.wellSorted, ProperSubset.acyclic, WrittenOut.direct,
    WrittenOut.wellSorted, ?_, (hiff.1 haccepted).2⟩
  intro heq
  have hformula := congrArg (fun lines => lines.getLast?.bind Line.formula) heq
  revert hformula
  decide

end Deduction
