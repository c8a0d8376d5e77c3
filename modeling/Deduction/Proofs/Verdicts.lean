import Deduction.Proofs.Blocks
import Deduction.Proofs.Log

/-!
# Verdicts and diagnostics

The verdict on a line says whether its reason passed.  It agrees with what the
reason reported, with one exception: the label of a hypothesis is no part of
what a conditional proof proves, so a complaint that it is in use already leaves
the verdict alone, just as one about the label of a line does.  Everything else
counts, the diagnostics of all lines inside included, and nothing fails in
silence: a conditional proof that ends without a formula has reported that at
its last line.

The log shows the verdicts.  Each of them comes right after the records of the
reason that it is about (`Block.traced_check`).
-/

namespace Deduction

open Known

/-- The label of the hypothesis, of a conditional proof. -/
def Reason.hypothesisLabel? : Reason → Option String
  | .conditionalProof hypothesis _ => hypothesis.label
  | _ => none

namespace Site

variable {s : Site} {d : Diagnostic} {hypothesis : Hypothesis}
  {lines : List Line} {H : Formula}

/-- The complaint that the label of the line's own hypothesis is in use. -/
def OnHypothesisLabel (s : Site) (d : Diagnostic) : Prop :=
  d.defect = .repeatedLabel ∧
    d.location = (s.partPlace "hypothesis").field "label"

/-- No rule complains of the label of a hypothesis. -/
theorem Fault.not_onHypothesisLabel {cited : Option Location}
    (h : s.Fault cited d) :
    ¬ s.OnHypothesisLabel d :=
  fun honLabel => h.defect_ne honLabel.1

theorem onHypothesisLabel_of_mem {label : Option String}
    (hd : d ∈ (s.checkHypothesisLabel label).errors) :
    s.OnHypothesisLabel d := by
  obtain ⟨l, entry, -, -, rfl⟩ := s.mem_checkHypothesisLabel.1 hd
  exact ⟨rfl, rfl⟩

/-- What is reported inside stands at one of the lines, and not at the
hypothesis. -/
theorem not_onHypothesisLabel_of_inner
    (hd : d ∈ (s.conditionalBlock hypothesis H lines).check.errors) :
    ¬ s.OnHypothesisLabel d := by
  rintro ⟨-, hplace⟩
  obtain ⟨i, -, -, hline⟩ := checkLines_below lines _ 0 [] d hd
  have hpart : (s.partPlace "hypothesis").Covers d.location := by
    rw [hplace]
    exact Location.covers_field _ _
  exact Location.covers_item_field (by decide) (by decide) (by decide)
    hline hpart

/-- What is reported at the end of a conditional proof is about its
conclusion. -/
theorem not_onHypothesisLabel_of_closing {last : Option Formula}
    {innerPassed : Bool}
    (hd : d ∈ (s.closeConditional H last innerPassed).found.errors) :
    ¬ s.OnHypothesisLabel d := by
  cases last with
  | none => cases hd
  | some B =>
    have hfault := (s.checkConclusion_fault H B).errors_ofCheck d hd
    exact hfault.not_onHypothesisLabel

end Site

/-- Lines that end without a formula have reported it. -/
theorem Block.errors_ne_nil_of_last {k : Block} (hlines : k.lines ≠ [])
    (hlast : k.lines.getLast?.bind Line.formula = none) :
    k.check.errors ≠ [] := by
  obtain ⟨body, lines⟩ := k
  obtain ⟨first, ⟨label, formula, reason⟩, rfl⟩ :=
    (List.eq_nil_or_concat' lines).resolve_left hlines
  obtain rfl : formula = none := by simpa using hlast
  intro hnil
  rw [check, Body.checkLines_append, checkLines] at hnil
  simp at hnil

namespace Site

variable {s : Site} {d : Diagnostic} {hypothesis : Hypothesis}
  {lines : List Line} {H : Formula}

/-- **The diagnostics of a conditional proof** are those on its label, those of
its lines and those on its conclusion. -/
theorem errors_conditionalProof
    (hopen : s.openConditional hypothesis lines = .ok H) :
    (judge s (.conditionalProof hypothesis lines)).found.errors =
      (s.checkHypothesisLabel hypothesis.label).errors ++
        (s.conditionalBlock hypothesis H lines).check.errors ++
        (s.closeConditional H (lines.getLast?.bind Line.formula)
          (s.conditionalBlock hypothesis H lines).check.errors.isEmpty
          ).found.errors := by
  rw [judge, hopen]
  simp [conditionalBlock, Block.check]

/-- A conditional proof passes when nothing is reported by its lines or its
conclusion. -/
theorem passed_conditionalProof
    (hopen : s.openConditional hypothesis lines = .ok H) :
    (judge s (.conditionalProof hypothesis lines)).passed = true ↔
      (s.conditionalBlock hypothesis H lines).check.errors = [] ∧
        (s.closeConditional H (lines.getLast?.bind Line.formula)
          (s.conditionalBlock hypothesis H lines).check.errors.isEmpty
          ).found.errors = [] := by
  have hpassed : (judge s (.conditionalProof hypothesis lines)).passed =
      (s.closeConditional H (lines.getLast?.bind Line.formula)
        (s.conditionalBlock hypothesis H lines).check.errors.isEmpty
        ).passed := by
    rw [judge, hopen]
    rfl
  rw [hpassed]
  cases hlast : lines.getLast?.bind Line.formula with
  | none =>
    have hlines : lines ≠ [] := (openConditional_eq_ok_iff.1 hopen).2.2.1
    have hinner : (s.conditionalBlock hypothesis H lines).check.errors ≠ [] :=
      Block.errors_ne_nil_of_last hlines hlast
    simp [closeConditional, hinner]
  | some B =>
    cases hconclusion : s.checkConclusion H B <;>
      simp [closeConditional, hconclusion, Verdict.ofCheck]

/-- **A reason passes when all it reports is about the label of its
hypothesis.** -/
theorem passed_iff (s : Site) (reason : Reason) :
    (judge s reason).passed = true ↔
      ∀ d ∈ (judge s reason).found.errors, s.OnHypothesisLabel d := by
  by_cases hreason : reason.rule = .conditionalProof
  · cases reason with
    | conditionalProof hypothesis lines =>
      cases hopen : s.openConditional hypothesis lines with
      | error d =>
        have hfault := (s.openConditional_fault none hypothesis lines) d hopen
        rw [judge, hopen]
        simpa using hfault.not_onHypothesisLabel
      | ok H =>
        rw [passed_conditionalProof hopen, errors_conditionalProof hopen]
        constructor
        · rintro ⟨hinner, hclosing⟩ d hd
          rw [hclosing, hinner, List.append_nil, List.append_nil] at hd
          exact onHypothesisLabel_of_mem hd
        · intro hall
          simp only [List.mem_append] at hall
          refine ⟨List.eq_nil_iff_forall_not_mem.2 fun d hd => ?_,
            List.eq_nil_iff_forall_not_mem.2 fun d hd => ?_⟩
          · exact not_onHypothesisLabel_of_inner hd (hall d (.inl (.inr hd)))
          · exact not_onHypothesisLabel_of_closing hd (hall d (.inr hd))
    | _ => cases hreason
  · obtain ⟨check, hjudge, hfault⟩ := s.exists_judge_eq_ofCheck hreason
    rw [hjudge]
    cases check with
    | ok => simp [Verdict.ofCheck]
    | error d =>
      simpa [Verdict.ofCheck] using (hfault d rfl).not_onHypothesisLabel

/-- **A reason reports nothing** when it passes and the label of its hypothesis
is fresh. -/
theorem errors_eq_nil_iff (s : Site) (reason : Reason) :
    (judge s reason).found.errors = [] ↔
      (judge s reason).passed = true ∧
        Fresh s.known reason.hypothesisLabel? := by
  by_cases hreason : reason.rule = .conditionalProof
  · cases reason with
    | conditionalProof hypothesis lines =>
      cases hopen : s.openConditional hypothesis lines with
      | error d =>
        rw [judge, hopen]
        simp
      | ok H =>
        rw [passed_conditionalProof hopen, errors_conditionalProof hopen,
          List.append_eq_nil_iff, List.append_eq_nil_iff,
          checkHypothesisLabel_errors_eq_nil_iff, and_assoc, and_comm]
        rfl
    | _ => cases hreason
  · have hlabel : reason.hypothesisLabel? = none := by
      cases reason with
      | conditionalProof => exact absurd rfl hreason
      | _ => rfl
    obtain ⟨check, hjudge, -⟩ := s.exists_judge_eq_ofCheck hreason
    rw [hjudge, hlabel]
    cases check <;> simp [Verdict.ofCheck, Fresh]

end Site

/-! ## Verdicts in the log -/

namespace Block

variable {k k' : Block} {log log' : List Event}

/-- **Verdicts come after their reasons.**  Each verdict in the log is the one
on a line of the block or of a block that is entered, and the records of its
reason are the ones before it. -/
def Traced (k : Block) (log : List Event) : Prop :=
  ∀ first place rule passed rest,
    log = first ++ .judged place rule passed :: rest →
    ∃ k' s reason earlier, k.Enters k' ∧ k'.Judges s reason ∧
      s.location = place ∧ reason.rule = rule ∧
      (judge s reason).passed = passed ∧
      first = earlier ++ (judge s reason).found.log

/-- A log without verdicts has nothing to trace. -/
theorem traced_of_not_judged
    (h : ∀ place rule passed, .judged place rule passed ∉ log) :
    k.Traced log := by
  rintro first place rule passed rest rfl
  exact absurd (List.mem_append_right _ List.mem_cons_self)
    (h place rule passed)

/-- Traced logs may be put one after the other. -/
theorem Traced.append (h : k.Traced log) (h' : k.Traced log') :
    k.Traced (log ++ log') := by
  intro first place rule passed rest heq
  rcases List.append_eq_append_iff.1 heq with ⟨m, rfl, hm⟩ | ⟨m, rfl, hm⟩
  · obtain ⟨inner, s, reason, earlier, henters, hjudges, hplace, hrule,
        hpassed, rfl⟩ :=
      h' m place rule passed rest hm
    exact ⟨inner, s, reason, log ++ earlier, henters, hjudges, hplace, hrule,
      hpassed, (List.append_assoc _ _ _).symm⟩
  · cases m with
    | nil =>
      obtain ⟨inner, s, reason, earlier, henters, hjudges, hplace, hrule,
          hpassed, hnil⟩ :=
        h' [] place rule passed rest hm.symm
      refine ⟨inner, s, reason, first ++ earlier, henters, hjudges, hplace,
        hrule, hpassed, ?_⟩
      rw [List.append_assoc, ← hnil, List.append_nil]
    | cons event m =>
      obtain ⟨rfl, rfl⟩ := List.cons.inj hm
      exact h first place rule passed m rfl

/-- A verdict is traced if it comes right after the records of its reason. -/
theorem Traced.judged {s : Site} {reason : Reason} (hjudges : k.Judges s reason)
    (h : k.Traced (judge s reason).found.log) :
    k.Traced ((judge s reason).found.log ++
      [.judged s.location reason.rule (judge s reason).passed]) := by
  intro first place rule passed rest heq
  rcases Log.append_cons_eq_append_cons heq with
    ⟨m, rfl, hm⟩ | ⟨rfl, hevent, -⟩ | ⟨m, hfound, -⟩
  · simp at hm
  · cases hevent
    exact ⟨k, s, reason, [], .refl, hjudges, rfl, rfl, rfl, rfl⟩
  · exact h first place rule passed m hfound

theorem composes_traced (k : Block) :
    Composes fun found => k.Traced found.log where
  empty := traced_of_not_judged nofun
  append := fun ha hb => ha.append hb
  entered := fun _ _ => traced_of_not_judged (by simp)
  left := fun _ _ => traced_of_not_judged (by simp)

/-- What is traced in a conditional proof is traced in the block around it. -/
theorem Traced.of_opens (hopens : k.Opens k') (h : k'.Traced log) :
    k.Traced log := by
  intro first place rule passed rest heq
  obtain ⟨inner, s, reason, earlier, henters, hrest⟩ :=
    h first place rule passed rest heq
  exact ⟨inner, s, reason, earlier, .head hopens henters, hrest⟩

/-- **The verdicts of a run.** -/
theorem traced_check (k : Block) : k.Traced k.check.log := by
  refine run_induct composes_traced ?_ ?_ ?_ k
  · intro k d _
    exact traced_of_not_judged (by simp)
  · intro k s reason hjudges hfound
    exact hfound.judged hjudges
  · intro k k' found hopens hfound
    exact hfound.of_opens hopens

/-- Every line that is judged has its verdict in the log. -/
theorem Judges.mem_log {s : Site} {reason : Reason} (h : k.Judges s reason) :
    .judged s.location reason.rule (judge s reason).passed ∈ k.check.log := by
  obtain ⟨hline, hagrees⟩ := h
  obtain ⟨first, rest, hcheck⟩ := check_split hline
  rw [hcheck, checkLine_judged hagrees]
  simp [site, Body.site]

/-- The log of an opened block is part of the log around it. -/
theorem Opens.log_subset (h : k.Opens k') : k'.check.log ⊆ k.check.log := by
  obtain ⟨⟨hline, hagrees⟩, hopen⟩ := h
  obtain ⟨first, rest, hcheck⟩ := check_split hline
  intro event hevent
  rw [hcheck, checkLine_judged hagrees, judge, hopen]
  simp only [Findings.log_append, List.mem_append]
  exact .inr (.inl (.inr (.inl (.inl (.inl (.inr hevent))))))

/-- What is logged for a block that is entered is logged for the whole. -/
theorem Enters.log_subset (h : k.Enters k') : k'.check.log ⊆ k.check.log := by
  induction h with
  | refl => exact List.Subset.refl _
  | tail _ hopens ih => exact List.Subset.trans hopens.log_subset ih

end Block

/-- The verdicts in the log of a whole check are those of its lines. -/
theorem traced_checkProof (setting : Setting) (location : Location)
    (proposition : Formula) (lines : List Line) :
    (Block.whole setting location lines).Traced
      (checkProof setting location proposition lines).log := by
  have hlast : ∀ place rule passed,
      .judged place rule passed ∉
        (checkLast location proposition lines).log := by
    intro place rule passed
    rw [checkLast]
    split
    · simp
    · split <;> simp
  rw [checkProof]
  split
  · have hlines : (Block.whole setting location lines).Traced
        (Block.whole setting location lines).check.log := Block.traced_check _
    have hfound := hlines.append (Block.traced_of_not_judged hlast)
    exact ((Block.traced_of_not_judged (by simp)).append hfound).append
      (Block.traced_of_not_judged (by simp))
  · exact Block.traced_of_not_judged (by simp)

theorem log_check_subset {setting : Setting} {location : Location}
    {proposition : Formula} {lines : List Line}
    (haccepts : setting.policy.acceptsProofs = true) :
    (Block.whole setting location lines).check.log ⊆
      (checkProof setting location proposition lines).log := by
  intro event hevent
  rw [checkProof, if_pos haccepts]
  simp only [Findings.log_append, List.mem_append]
  exact .inl (.inr (.inl hevent))

/-- **The verdict agrees with the diagnostics.**

* A reason passes exactly when all that it reports, the lines of a conditional
  proof included, is that the label of its own hypothesis is in use.
* It reports nothing exactly when it passes and that label is fresh, so it never
  fails in silence.
* In the log of a check, each verdict is the one on a line that is judged and
  comes right after the records of its reason.  It is positive exactly when the
  diagnostics recorded there are about the label of the hypothesis.
* Where proofs are accepted, every line that is judged has its verdict in the
  log. -/
theorem verdict_agrees_with_diagnostics :
    (∀ (s : Site) (reason : Reason),
      ((judge s reason).passed = true ↔
        ∀ d ∈ (judge s reason).found.errors, s.OnHypothesisLabel d) ∧
      ((judge s reason).found.errors = [] ↔
        (judge s reason).passed = true ∧
          Fresh s.known reason.hypothesisLabel?)) ∧
    ∀ (setting : Setting) (location : Location) (proposition : Formula)
      (lines : List Line),
      (∀ first place rule passed rest,
        (checkProof setting location proposition lines).log =
            first ++ .judged place rule passed :: rest →
          ∃ k s reason earlier records,
            (Block.whole setting location lines).Enters k ∧
            k.Judges s reason ∧ s.location = place ∧ reason.rule = rule ∧
            first = earlier ++ records ∧ records = (judge s reason).found.log ∧
            Log.reports records = (judge s reason).found.errors ∧
            (passed = true ↔
              ∀ d ∈ Log.reports records, s.OnHypothesisLabel d)) ∧
      (setting.policy.acceptsProofs = true →
        ∀ k s reason, (Block.whole setting location lines).Enters k →
          k.Judges s reason →
          .judged s.location reason.rule (judge s reason).passed ∈
            (checkProof setting location proposition lines).log) := by
  refine ⟨fun s reason => ⟨s.passed_iff reason, s.errors_eq_nil_iff reason⟩, ?_⟩
  intro setting location proposition lines
  refine ⟨?_, ?_⟩
  · intro first place rule passed rest hlog
    obtain ⟨k, s, reason, earlier, henters, hjudges, hplace, hrule,
        hpassed, hfirst⟩ :=
      traced_checkProof setting location proposition lines first place rule
        passed rest hlog
    have hreports : Log.reports (judge s reason).found.log =
        (judge s reason).found.errors :=
      (logged_judge reason s).2
    refine ⟨k, s, reason, earlier, _, henters, hjudges, hplace, hrule, hfirst,
      rfl, hreports, ?_⟩
    rw [hreports, ← hpassed]
    exact s.passed_iff reason
  · intro haccepts k s reason henters hjudges
    exact log_check_subset haccepts (henters.log_subset hjudges.mem_log)

namespace SharedLabel

open Formula (letter)

/-- What is to be proved, `A → A`. -/
def proposition : Formula :=
  (letter "A").implies (letter "A")

/-- Conditional proofs are allowed, and `A` is proved. -/
def logic : Setting where
  policy := .conditional
  rules := .allAt .conditional
  theory := Theory.prove {} "a" (letter "A") ⟨"m", "proved[a]"⟩

/-- Proves `A → A` from a hypothesis that has the label of the line before. -/
def conditional : Reason :=
  .conditionalProof ⟨some "h", some (letter "A")⟩
    [⟨none, some (letter "A"), some (.add (some "h"))⟩]

/-- The second line repeats the first label inside its conditional proof. -/
def lines : List Line :=
  [⟨some "h", some (letter "A"), some (.add (some "a"))⟩,
    ⟨none, some proposition, some conditional⟩]

/-- The line with the conditional proof. -/
def site : Site :=
  (Block.whole logic ⟨"m", "p"⟩ lines).site 1 none proposition

/-- The verdict on the second line is recorded, after what was found in its
conditional proof. -/
theorem verdict_recorded :
    (∃ first rest,
      (checkProof logic ⟨"m", "p"⟩ proposition lines).log =
        first ++ .judged ⟨"m", "p.line[1]"⟩ .conditionalProof true :: rest ∧
      ∃ k s reason earlier, (Block.whole logic ⟨"m", "p"⟩ lines).Enters k ∧
        k.Judges s reason ∧ s.location = ⟨"m", "p.line[1]"⟩ ∧
        reason.rule = .conditionalProof ∧
        first = earlier ++ (judge s reason).found.log ∧
        ∀ d ∈ (judge s reason).found.errors, s.OnHypothesisLabel d) ∧
    logic.policy.acceptsProofs = true ∧
      (Block.whole logic ⟨"m", "p"⟩ lines).Judges site conditional ∧
      .judged site.location .conditionalProof (judge site conditional).passed ∈
        (checkProof logic ⟨"m", "p"⟩ proposition lines).log := by
  have hjudges : (Block.whole logic ⟨"m", "p"⟩ lines).Judges site conditional :=
    .intro rfl rfl
  obtain ⟨hverdicts, hlogged⟩ :=
    verdict_agrees_with_diagnostics.2 logic ⟨"m", "p"⟩ proposition lines
  refine ⟨?_, rfl, hjudges, hlogged rfl _ _ _ .refl hjudges⟩
  obtain ⟨first, rest, hlog⟩ : ∃ first rest,
      (checkProof logic ⟨"m", "p"⟩ proposition lines).log =
        first ++ .judged ⟨"m", "p.line[1]"⟩ .conditionalProof true :: rest :=
    List.append_of_mem (by decide +kernel)
  obtain ⟨k, s, reason, earlier, records, henters, hjudged, hplace, hrule,
    hfirst, rfl, hreports, hpassed⟩ := hverdicts first _ _ _ rest hlog
  rw [hreports] at hpassed
  exact ⟨first, rest, hlog, k, s, reason, earlier, henters, hjudged, hplace,
    hrule, hfirst, hpassed.1 rfl⟩

/-- A hypothesis that has the label of an earlier line is reported, and still
the line passes. -/
theorem passes_with_report :
    ¬ ((judge site conditional).passed = true ↔
      (judge site conditional).found.errors = []) ∧
      (checkProof logic ⟨"m", "p"⟩ proposition lines).errors =
        [{ defect := .repeatedLabel
           location := ⟨"m", "p.line[1].reason.hypothesis.label"⟩
           detail := some "h"
           reference := some ⟨"m", "p.line[0]"⟩ }] ∧
      .judged ⟨"m", "p.line[1]"⟩ .conditionalProof true ∈
        (checkProof logic ⟨"m", "p"⟩ proposition lines).log := by
  decide +kernel

end SharedLabel

end Deduction
