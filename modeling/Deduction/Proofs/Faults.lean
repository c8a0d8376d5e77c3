import Deduction.Check.Proof
import Deduction.Proofs.Locations

/-!
# What a rule can complain of

A rule is a sequence of steps, each of which stops with a diagnostic or goes on.
A **fault** is what such a diagnostic can be: it stands in the line's reason or
in its formula, and the place that it refers to, if any, is that of the cited
formula or of a condition.

Each step is looked at on its own, and what holds of all diagnostics of two
steps holds of those of the two in sequence.  In a sequence more is known: a
rule that has got past its citation did find something, and what it refers to
later is the place of just that (`cited?_of_citedLine`).
-/

namespace Deduction

/-- Where the step stops, its diagnostic has the property. -/
def StopsWith {α : Type} (P : Diagnostic → Prop) (step : Except Diagnostic α) :
    Prop :=
  ∀ d, step = .error d → P d

namespace StopsWith

variable {α β : Type} {P Q : Diagnostic → Prop} {d : Diagnostic}

theorem ok (a : α) : StopsWith P (.ok a : Except Diagnostic α) := by
  intro d h
  cases h

theorem error (h : P d) : StopsWith P (.error d : Except Diagnostic α) := by
  intro e he
  cases he
  exact h

/-- The second step is only taken after the first has gone on. -/
theorem bind {first : Except Diagnostic α} {next : α → Except Diagnostic β}
    (hfirst : StopsWith P first)
    (hnext : ∀ a, first = .ok a → StopsWith P (next a)) :
    StopsWith P (first >>= next) := by
  cases first with
  | error d => exact .error (hfirst d rfl)
  | ok a => exact hnext a rfl

/-- A failed test stops with the given diagnostic. -/
theorem ensure {test : Bool} (h : P d) : StopsWith P (Site.ensure test d) := by
  cases test with
  | true => exact .ok ()
  | false => exact .error h

/-- A weaker property holds of what stops the step as well. -/
theorem mono {step : Except Diagnostic α} (h : StopsWith P step)
    (hPQ : ∀ d, P d → Q d) : StopsWith Q step :=
  fun d hd => hPQ d (h d hd)

/-- The verdict reports no other diagnostic than the one that stopped the
check. -/
theorem errors_ofCheck {step : Except Diagnostic Unit} (h : StopsWith P step) :
    ∀ d ∈ (Verdict.ofCheck step).found.errors, P d := by
  cases step with
  | ok => simp [Verdict.ofCheck]
  | error d =>
    intro e he
    obtain rfl := List.mem_singleton.1 he
    exact h e rfl

end StopsWith

namespace Site

variable (s : Site) {cited : Option Location}

/-- The place is that of the line's formula, or that of the first difference
between what is expected and the line's statement. -/
def InFormula (place : Location) : Prop :=
  ∃ path, place = s.formulaPlace.follow path ∧
    (path = [] ∨ ∃ expected,
      Formula.firstDifference? expected s.statement = some path)

/-- **What a rule can complain of**, if it cites the formula at the given
place. -/
structure Fault (cited : Option Location) (d : Diagnostic) : Prop where
  defect_ne : d.defect ≠ .repeatedLabel
  place : s.reasonPlace.Covers d.location ∨ s.InFormula d.location
  reference : d.reference = none ∨ d.reference = cited ∨
    d.defect = .fixedByCondition

/-- The line or hypothesis that a rule cites. -/
def citedEntry? (reference : Option String) : Option Citable :=
  reference.bind s.visible.named?

/-- A part of a reason lies in the reason. -/
theorem covers_partPlace (part : String) :
    s.reasonPlace.Covers (s.partPlace part) :=
  s.reasonPlace.covers_field part

/-- The reason lies in the line. -/
theorem covers_reasonPlace : s.location.Covers s.reasonPlace :=
  s.location.covers_field _

/-- The formula lies in the line. -/
theorem covers_formulaPlace : s.location.Covers s.formulaPlace :=
  s.location.covers_field _

/-- A fault is placed at its line or below it. -/
theorem Fault.covers {s : Site} {d : Diagnostic} (h : s.Fault cited d) :
    s.location.Covers d.location := by
  rcases h.place with hreason | ⟨path, hpath, -⟩
  · exact s.covers_reasonPlace.trans hreason
  · rw [hpath]
    exact s.covers_formulaPlace.follow path

/-! ## The steps of a rule -/

/-- Citing a line or a hypothesis can only go wrong with a fault. -/
theorem citedLine_fault (cited : Option Location) (reference : Option String)
    (part : String) :
    StopsWith (s.Fault cited) (s.citedLine reference part) := by
  cases reference with
  | none => exact .error ⟨nofun, .inl (s.covers_partPlace part), .inl rfl⟩
  | some label =>
    rw [citedLine]
    split
    · exact .ok _
    · exact .error ⟨nofun, .inl (s.covers_partPlace part), .inl rfl⟩

/-- A line is cited when the label names one, and then it is its normalized
formula. -/
theorem citedLine_eq_ok_iff_entry {reference : Option String} {part : String}
    {A : Formula} :
    s.citedLine reference part = .ok A ↔
      ∃ entry, s.citedEntry? reference = some entry ∧
        s.normalize entry.formula = A := by
  cases reference with
  | none => simp [citedLine, citedEntry?]
  | some label =>
    cases hentry : s.visible.named? label <;>
      simp [citedLine, citedEntry?, hentry]

/-- **After its citation** a rule refers to the line or hypothesis that it has
found. -/
theorem cited?_of_citedLine {reference : Option String} {part : String}
    {A : Formula} (h : s.citedLine reference part = .ok A) :
    s.cited? reference = (s.citedEntry? reference).map Citable.location := by
  obtain ⟨entry, hentry, -⟩ := s.citedLine_eq_ok_iff_entry.1 h
  obtain ⟨label, rfl, hnamed⟩ := Option.bind_eq_some_iff.1 hentry
  simp [cited?, locate?, citedEntry?, hnamed]

theorem citedProved_fault (cited : Option Location) (reference : Option String)
    (part : String) :
    StopsWith (s.Fault cited) (s.citedProved reference part) := by
  cases reference with
  | none => exact .error ⟨nofun, .inl (s.covers_partPlace part), .inl rfl⟩
  | some label =>
    rw [citedProved]
    split
    · exact .ok _
    · exact .error ⟨nofun, .inl (s.covers_partPlace part), .inl rfl⟩

/-- A variable that is not given is a fault. -/
theorem givenVar_fault (cited : Option Location) (given : Option Formula)
    (part : String) :
    StopsWith (s.Fault cited) (s.givenVar given part) := by
  rw [givenVar]
  split
  · exact .ok _
  · exact .error ⟨nofun, .inl (s.covers_partPlace part), .inl rfl⟩

theorem givenSubstitute_fault (cited : Option Location) (given : Option Formula)
    (part : String) :
    StopsWith (s.Fault cited) (s.givenSubstitute given part) := by
  cases given with
  | none => exact .error ⟨nofun, .inl (s.covers_partPlace part), .inl rfl⟩
  | some f => exact .ok _

theorem givenTemplate_fault (cited : Option Location) (kind : Schematic)
    (given : Option Formula) :
    StopsWith (s.Fault cited) (s.givenTemplate kind given) := by
  rw [givenTemplate]
  split
  · exact .ok _
  · refine .error ⟨?_, .inl (s.covers_partPlace _), .inl rfl⟩
    cases kind <;> nofun

/-- A cited formula that is no implication is a fault, which refers to it. -/
theorem citedImplication_fault (f : Formula) (reference : Option String)
    (part : String) :
    StopsWith (s.Fault (s.cited? reference))
      (s.citedImplication f reference part) := by
  rw [citedImplication]
  split
  · exact .ok _
  · exact .error ⟨nofun, .inl (s.covers_partPlace part), .inr (.inl rfl)⟩

/-- A statement that differs from what the rule yields is a fault. -/
theorem checkStatement_fault {defect : Defect}
    (hdefect : defect ≠ .repeatedLabel) (expected : Formula)
    (cited : Option Location) :
    StopsWith (s.Fault cited) (s.checkStatement defect expected cited) := by
  rw [checkStatement]
  split
  · exact .ok _
  next path hpath =>
    exact .error ⟨hdefect, .inr ⟨path, rfl, .inr ⟨expected, hpath⟩⟩,
      .inr (.inl rfl)⟩

/-- A condition that stands in the way is a fault. -/
theorem checkConditions_fault (cited : Option Location) (subject : Formula)
    (part : String) (occurs : Formula → Bool) :
    StopsWith (s.Fault cited) (s.checkConditions subject part occurs) := by
  rw [checkConditions]
  split
  · exact .ok _
  · exact .error ⟨nofun, .inl (s.covers_partPlace part), .inr (.inr rfl)⟩

/-- A rule that may not be used is complained of at the reason as a whole. -/
theorem checkRule_place (rule : Rule) :
    StopsWith (fun d => d.location = s.reasonPlace ∧ d.defect ≠ .repeatedLabel ∧
      d.reference = none) (s.checkRule rule) := by
  rw [checkRule]
  split
  · exact .error ⟨rfl, nofun, rfl⟩
  · split
    · exact .error ⟨rfl, nofun, rfl⟩
    · split
      · exact .ok _
      · exact .error ⟨rfl, nofun, rfl⟩

/-- A rule that is not permitted is a fault. -/
theorem checkRule_fault (cited : Option Location) (rule : Rule) :
    StopsWith (s.Fault cited) (s.checkRule rule) := by
  refine (s.checkRule_place rule).mono fun d hd =>
    ⟨hd.2.1, .inl ?_, .inl hd.2.2⟩
  rw [hd.1]
  exact .refl _

/-- A new name that is in use is a fault, which refers to the cited formula. -/
theorem checkRoom_fault (binder : Option Formula) (x y : String)
    (reference : Option String) :
    StopsWith (s.Fault (s.cited? reference))
      (s.checkRoom binder x y reference) := by
  cases binder with
  | none => exact .ok _
  | some b =>
    exact .ensure ⟨nofun, .inl (s.covers_partPlace _), .inr (.inl rfl)⟩

/-- A variable that would be captured is a fault, which refers to the cited
formula. -/
theorem checkCapture_fault (source substitute : Formula) (params : List Formula)
    (part : String) (reference : Option String) :
    StopsWith (s.Fault (s.cited? reference))
      (s.checkCapture source substitute params part reference) := by
  rw [checkCapture]
  split
  · exact .ok _
  · exact .error ⟨nofun, .inl (s.covers_partPlace part), .inr (.inl rfl)⟩

/-- Parameters that are not distinct variables are a fault. -/
theorem checkParameters_fault (cited : Option Location) (part : String)
    (params : List Formula) :
    StopsWith (s.Fault cited) (s.checkParameters part params) := by
  refine .bind (.ensure
    ⟨nofun, .inl (s.covers_partPlace part), .inl rfl⟩) fun _ _ => ?_
  split
  · exact .ok _
  · exact .error ⟨nofun, .inl ((s.covers_partPlace part).item _ _), .inl rfl⟩

/-! ## The rules -/

/-- **Restating a formula** has no other faults than these. -/
theorem checkAdd_fault (reference : Option String) :
    StopsWith (s.Fault (s.cited? reference)) (s.checkAdd reference) :=
  .bind (s.citedProved_fault _ _ _) fun _ _ =>
    .bind (s.checkStatement_fault (by decide) _ _) fun _ _ =>
      s.checkRule_fault _ _

/-- Renaming can only go wrong with a fault. -/
theorem checkRename_fault (reference : Option String)
    (current replacement : Option Formula) (occurrence : UInt64) :
    StopsWith (s.Fault ((s.citedEntry? reference).map Citable.location))
      (s.checkRename reference current replacement occurrence) := by
  refine .bind (s.citedLine_fault _ _ _) fun source hsource => ?_
  rw [← s.cited?_of_citedLine hsource]
  exact .bind (s.givenVar_fault _ _ _) fun _ _ =>
    .bind (s.givenVar_fault _ _ _) fun _ _ =>
    .bind (s.checkRoom_fault _ _ _ _) fun _ _ =>
    .bind (s.checkStatement_fault (by decide) _ _) fun _ _ =>
      s.checkRule_fault _ _

/-- Detachment can only go wrong with a fault, which may refer to the cited
implication. -/
theorem checkModusPonens_fault (implication premise : Option String) :
    StopsWith (s.Fault ((s.citedEntry? implication).map Citable.location))
      (s.checkModusPonens implication premise) := by
  refine .bind (s.citedLine_fault _ _ _) fun source hsource => ?_
  rw [← s.cited?_of_citedLine hsource]
  exact .bind (s.citedLine_fault _ _ _) fun _ _ =>
    .bind (s.citedImplication_fault _ _ _) fun _ _ =>
    .bind (.ensure
      ⟨nofun, .inl (s.covers_partPlace _), .inr (.inl rfl)⟩) fun _ _ =>
    .bind (s.checkStatement_fault (by decide) _ _) fun _ _ =>
      s.checkRule_fault _ _

/-- Either generalization can only go wrong with a fault. -/
theorem checkGeneralization_fault (quantifier : Quantifier)
    (reference : Option String) (subject : Option Formula) :
    StopsWith (s.Fault ((s.citedEntry? reference).map Citable.location))
      (s.checkGeneralization quantifier reference subject) := by
  refine .bind (s.citedLine_fault _ _ _) fun source hsource => ?_
  rw [← s.cited?_of_citedLine hsource]
  exact .bind (s.citedImplication_fault _ _ _) fun _ _ =>
    .bind (s.givenVar_fault _ _ _) fun _ _ =>
    .bind (.ensure
      ⟨nofun, .inl (s.covers_partPlace _), .inr (.inl rfl)⟩) fun _ _ =>
    .bind (s.checkStatement_fault (by decide) _ _) fun _ _ =>
    .bind (s.checkConditions_fault _ _ _ _) fun _ _ => s.checkRule_fault _ _

/-- Substitution for a free variable can only go wrong with a fault. -/
theorem checkSubstFree_fault (reference : Option String)
    (subject substitute : Option Formula) :
    StopsWith (s.Fault ((s.citedEntry? reference).map Citable.location))
      (s.checkSubstFree reference subject substitute) := by
  refine .bind (s.citedLine_fault _ _ _) fun source hsource => ?_
  rw [← s.cited?_of_citedLine hsource]
  exact .bind (s.givenVar_fault _ _ _) fun _ _ =>
    .bind (s.givenSubstitute_fault _ _ _) fun _ _ =>
    .bind (s.checkCapture_fault _ _ _ _ _) fun _ _ =>
    .bind (s.checkStatement_fault (by decide) _ _) fun _ _ =>
    .bind (s.checkConditions_fault _ _ _ _) fun _ _ => s.checkRule_fault _ _

/-- Substitution for a symbol can only go wrong with a fault. -/
theorem checkSubstSymbol_fault (kind : Schematic) (reference : Option String)
    (template substitute : Option Formula) :
    StopsWith (s.Fault ((s.citedEntry? reference).map Citable.location))
      (s.checkSubstSymbol kind reference template substitute) := by
  refine .bind (s.citedLine_fault _ _ _) fun source hsource => ?_
  rw [← s.cited?_of_citedLine hsource]
  exact .bind (s.givenTemplate_fault _ _ _) fun _ _ =>
    .bind (s.givenSubstitute_fault _ _ _) fun _ _ =>
    .bind (s.checkStatement_fault (by decide) _ _) fun _ _ =>
    .bind (s.checkParameters_fault _ _ _) fun _ _ =>
    .bind (s.checkCapture_fault _ _ _ _ _) fun _ _ =>
    .bind (.ensure
      ⟨nofun, .inl (s.covers_partPlace _), .inr (.inl rfl)⟩) fun _ _ =>
    .bind (s.checkConditions_fault _ _ _ _) fun _ _ => s.checkRule_fault _ _

/-! ## Conditional proofs -/

/-- A conditional proof that cannot be opened is a fault. -/
theorem openConditional_fault (cited : Option Location)
    (hypothesis : Hypothesis) (lines : List Line) :
    StopsWith (s.Fault cited) (s.openConditional hypothesis lines) := by
  refine .bind (.ensure ⟨nofun, .inl (.refl _), .inl rfl⟩) fun _ _ => ?_
  split
  · exact .error ⟨nofun,
      .inl ((s.covers_partPlace "hypothesis").field "formula"), .inl rfl⟩
  · exact .bind (.ensure
      ⟨nofun, .inl (s.covers_partPlace _), .inl rfl⟩) fun _ _ =>
      .bind (.ensure ⟨nofun, .inl (.refl _), .inl rfl⟩) fun _ _ => .ok _

/-- A wrong conclusion of a conditional proof is a fault, which refers to
nothing. -/
theorem checkConclusion_fault (assumption last : Formula) :
    StopsWith (s.Fault none) (s.checkConclusion assumption last) :=
  .bind (.ensure ⟨nofun, .inr ⟨[], rfl, .inl rfl⟩, .inl rfl⟩) fun _ _ =>
    .bind (s.checkStatement_fault (by decide) _ _) fun _ _ =>
      s.checkRule_fault _ _

/-- The label of a hypothesis is complained of when it names something
already. -/
theorem mem_checkHypothesisLabel {label : Option String} {d : Diagnostic} :
    d ∈ (s.checkHypothesisLabel label).errors ↔
      ∃ l entry, label = some l ∧ s.visible.named? l = some entry ∧
        d = { defect := .repeatedLabel
              location := (s.partPlace "hypothesis").field "label"
              detail := some l
              reference := some entry.location } := by
  cases label with
  | none => simp [checkHypothesisLabel]
  | some l =>
    cases hnamed : s.visible.named? l <;> simp [checkHypothesisLabel, hnamed]

end Site

/-! ## Reasons -/

/-- The label by which a reason cites the formula that it starts from. -/
def Reason.citation : Reason → Option String
  | .add r | .rename r .. | .modusPonens r _ | .substFree r ..
  | .substPredicate r .. | .substFunction r ..
  | .universal r _ | .existential r _ => r
  | .conditionalProof .. => none

namespace Site

variable (s : Site)

/-- The place that a complaint about a reason can refer to, apart from
conditions. -/
def referred? : Reason → Option Location
  | .add reference => s.cited? reference
  | reason => (s.citedEntry? reason.citation).map Citable.location

/-- A rule other than conditional proof is checked up to its first fault. -/
theorem exists_judge_eq_ofCheck {reason : Reason}
    (hreason : reason.rule ≠ .conditionalProof) :
    ∃ check, judge s reason = .ofCheck check ∧
      StopsWith (s.Fault (s.referred? reason)) check := by
  cases reason with
  | add r => exact ⟨s.checkAdd r, by rw [judge], s.checkAdd_fault r⟩
  | rename r x y n =>
    exact ⟨s.checkRename r x y n, by rw [judge], s.checkRename_fault r x y n⟩
  | modusPonens r r' =>
    exact ⟨s.checkModusPonens r r', by rw [judge],
      s.checkModusPonens_fault r r'⟩
  | substFree r x t =>
    exact ⟨s.checkSubstFree r x t, by rw [judge], s.checkSubstFree_fault r x t⟩
  | substPredicate r p t =>
    exact ⟨s.checkSubstSymbol .predicate r p t, by rw [judge],
      s.checkSubstSymbol_fault _ r p t⟩
  | substFunction r p t =>
    exact ⟨s.checkSubstSymbol .function r p t, by rw [judge],
      s.checkSubstSymbol_fault _ r p t⟩
  | universal r x =>
    exact ⟨s.checkGeneralization .universal r x, by rw [judge],
      s.checkGeneralization_fault _ r x⟩
  | existential r x =>
    exact ⟨s.checkGeneralization .existential r x, by rw [judge],
      s.checkGeneralization_fault _ r x⟩
  | conditionalProof => exact absurd rfl hreason

/-- **The diagnostics of a rule are faults.** -/
theorem judge_fault {reason : Reason}
    (hreason : reason.rule ≠ .conditionalProof) :
    ∀ d ∈ (judge s reason).found.errors, s.Fault (s.referred? reason) d := by
  obtain ⟨check, hjudge, hcheck⟩ := s.exists_judge_eq_ofCheck hreason
  rw [hjudge]
  exact hcheck.errors_ofCheck

end Site

end Deduction
