import Deduction.Proofs.Faults

/-!
# Where diagnostics stand

Every diagnostic of a line is placed at the line or below it: at its label, in
its formula, at a part of its reason, or in a line of the conditional proof that
is its reason.

Of the rules this is known already, for a fault lies below its line.  The mutual
induction follows the check through nested conditional proofs.
-/

namespace Deduction

/-- The diagnostic is placed at a place or below it. -/
def Diagnostic.Below (place : Location) (d : Diagnostic) : Prop :=
  place.Covers d.location

namespace Site

variable {s : Site} {place : Location}

/-- The end of a conditional proof is complained of below its line. -/
theorem closeConditional_below (h : place.Covers s.location)
    (assumption : Formula) (last : Option Formula) (innerPassed : Bool) :
    ∀ d ∈ (s.closeConditional assumption last innerPassed).found.errors,
      d.Below place := by
  cases last with
  | none => simp [closeConditional]
  | some last =>
    intro d hd
    have hfault :=
      (s.checkConclusion_fault assumption last).errors_ofCheck d hd
    exact h.trans hfault.covers

/-- The label of a hypothesis is complained of below its line. -/
theorem checkHypothesisLabel_below (h : place.Covers s.location)
    (label : Option String) :
    ∀ d ∈ (s.checkHypothesisLabel label).errors, d.Below place := by
  intro d hd
  obtain ⟨l, entry, -, -, rfl⟩ := s.mem_checkHypothesisLabel.1 hd
  exact ((h.trans s.covers_reasonPlace).trans
    (s.covers_partPlace "hypothesis")).field "label"

end Site

/-- What is reported about the label of a line. -/
theorem Body.mem_checkLabel {b : Body} {here : Scope} {index : Nat}
    {label : Option String} {d : Diagnostic}
    (hd : d ∈ (b.checkLabel here index label).errors) :
    d.defect = .repeatedLabel ∧ d.location = (b.place index).field "label" := by
  cases label with
  | none => cases hd
  | some label =>
    rw [checkLabel] at hd
    split at hd
    · cases hd
    · obtain rfl := List.mem_singleton.1 hd
      exact ⟨rfl, rfl⟩

/-- The label of a line is complained of below the line. -/
theorem Body.checkLabel_below (b : Body) (here : Scope) (index : Nat)
    (label : Option String) :
    ∀ d ∈ (b.checkLabel here index label).errors, d.Below (b.place index) := by
  intro d hd
  rw [Diagnostic.Below, (mem_checkLabel hd).2]
  exact (b.place index).covers_field "label"

/-! ## Lines -/

/-- A conditional proof: its own diagnostics, and those of its lines, which are
below its reason. -/
theorem judge_conditionalProof_below {s : Site} {place : Location}
    {hypothesis : Hypothesis} {lines : List Line} (h : place.Covers s.location)
    (hlines : ∀ b : Body,
      ∀ d ∈ (checkLines b 0 [] lines).errors, ∃ i, d.Below (b.place i)) :
    ∀ d ∈ (judge s (.conditionalProof hypothesis lines)).found.errors,
      d.Below place := by
  intro d hd
  rw [judge] at hd
  split at hd
  next fault hopen =>
    obtain rfl := List.mem_singleton.1 hd
    exact h.trans (s.openConditional_fault none hypothesis lines d hopen).covers
  next assumption hopen =>
    simp only [Findings.errors_append, Findings.errors_note, List.append_nil,
      List.mem_append] at hd
    rcases hd with (hd | hd) | hd
    · exact Site.checkHypothesisLabel_below h hypothesis.label d hd
    · obtain ⟨i, hi⟩ := hlines _ d hd
      exact ((h.trans s.covers_reasonPlace).item "line" i).trans hi
    · exact Site.closeConditional_below h assumption _ _ d hd

mutual

/-- **The diagnostics of a reason are below its line.** -/
theorem judge_below : ∀ (reason : Reason) (s : Site) (place : Location),
    place.Covers s.location → ∀ d ∈ (judge s reason).found.errors, d.Below place
  | .add _, s, _, h | .rename .., s, _, h | .modusPonens .., s, _, h
  | .substFree .., s, _, h | .substPredicate .., s, _, h
  | .substFunction .., s, _, h | .universal .., s, _, h
  | .existential .., s, _, h =>
    fun d hd => h.trans (s.judge_fault (by nofun) d hd).covers
  | .conditionalProof _ lines, _, _, h =>
    judge_conditionalProof_below h fun b d hd =>
      (checkLines_below lines b 0 [] d hd).imp fun _ hi => hi.2.2

/-- **The diagnostics of lines are each below one of the lines.** -/
theorem checkLines_below :
    ∀ (lines : List Line) (b : Body) (index : Nat) (here : Scope),
    ∀ d ∈ (checkLines b index here lines).errors,
      ∃ i, index ≤ i ∧ i < index + lines.length ∧ d.Below (b.place i)
  | [], _, _, _, _, hd => by
    rw [checkLines] at hd
    cases hd
  | ⟨_, none, _⟩ :: rest, b, index, here, d, hd => by
    rw [checkLines] at hd
    rcases List.mem_append.1 hd with hd | hd
    · obtain rfl := List.mem_singleton.1 hd
      exact ⟨index, Nat.le_refl _, by simp,
        (b.place index).covers_field "formula"⟩
    · obtain ⟨i, hle, hlt, hi⟩ := checkLines_below rest b (index + 1) here d hd
      exact ⟨i, by omega, by rw [List.length_cons]; omega, hi⟩
  | ⟨_, some _, none⟩ :: rest, b, index, here, d, hd => by
    rw [checkLines] at hd
    rcases List.mem_append.1 hd with hd | hd
    · obtain rfl := List.mem_singleton.1 hd
      exact ⟨index, Nat.le_refl _, by simp,
        (b.place index).covers_field "reason"⟩
    · obtain ⟨i, hle, hlt, hi⟩ := checkLines_below rest b (index + 1) here d hd
      exact ⟨i, by omega, by rw [List.length_cons]; omega, hi⟩
  | ⟨label, some formula, some reason⟩ :: rest, b, index, here, d, hd => by
    rw [checkLines] at hd
    rcases List.mem_append.1 hd with hd | hd
    · refine ⟨index, Nat.le_refl _, by simp, ?_⟩
      rcases List.mem_append.1 hd with hd | hd
      · exact b.checkLabel_below here index label d hd
      · split at hd
        · obtain rfl := List.mem_singleton.1 hd
          exact (b.place index).covers_field "formula"
        · rw [Findings.errors_append, Findings.errors_note,
            List.append_nil] at hd
          exact judge_below reason (b.site here index label formula)
            (b.place index) (.refl _) d hd
    · obtain ⟨i, hle, hlt, hi⟩ := checkLines_below rest b (index + 1) _ d hd
      exact ⟨i, by omega, by rw [List.length_cons]; omega, hi⟩

end

end Deduction
