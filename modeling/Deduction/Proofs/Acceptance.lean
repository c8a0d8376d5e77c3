import Deduction.Proofs.Steps

/-!
# Acceptance

The check of a proof finds nothing to report exactly when the proof is correct.

The check keeps what can be cited in a scope, nearest entry first, and looks for
the first entry of a label.  In a proof without complaints every label was fresh
when it was given, so a scope is **distinct**: it has at most one entry for each
label, and looking for an entry is the same as asking whether it is there.  That
is all that separates the scope of a check from the flat list of `Correct`.

Each rule is compared with its clause of `Follows`.  Reasons and lists of lines
are then compared together, by recursion on the proof: a reason may hold lines,
and a line holds a reason (`judge_errors_eq_nil_iff`,
`checkLines_errors_eq_nil_iff`).  Two invariants go along: the scope is
distinct, and the depth of a body is the number of its conditions.
-/

namespace Deduction

open Known

/-! ## Scopes without repeated labels -/

namespace Scope

variable {scope : Scope} {entry : Citable} {label : String} {theory : Theory}

/-- Every label is given at most once. -/
def Distinct (scope : Scope) : Prop :=
  (scope.map Citable.label).Nodup

/-- What can be cited, with normalized formulas. -/
def known (theory : Theory) (scope : Scope) : List Known :=
  scope.map fun entry =>
    ⟨entry.label, theory.normalize entry.formula, entry.assumed⟩

/-- In a distinct scope a test that fixes the label picks at most one entry, so
the first entry that passes is any entry that passes. -/
theorem find?_eq_some_iff (hdistinct : Distinct scope) (label : String)
    {test : Citable → Bool}
    (htest : ∀ entry, test entry = true → entry.label = label) :
    scope.find? test = some entry ↔ entry ∈ scope ∧ test entry = true := by
  constructor
  · intro h
    exact ⟨List.mem_of_find?_eq_some h, List.find?_some h⟩
  · intro h
    obtain ⟨hmem, hentry⟩ := h
    induction scope with
    | nil => cases hmem
    | cons first scope ih =>
      obtain ⟨hfirst, hrest⟩ := List.nodup_cons.1 hdistinct
      rcases List.mem_cons.1 hmem with rfl | hmem
      · rw [List.find?_cons, hentry]
      · have hskip : test first = false := by
          rw [← Bool.not_eq_true]
          intro hpass
          have hlabel : first.label = entry.label :=
            (htest first hpass).trans (htest entry hentry).symm
          exact hfirst (hlabel ▸ List.mem_map_of_mem hmem)
        rw [List.find?_cons, hskip]
        exact ih hrest hmem

/-- With distinct labels the entry of a label is the one that has it. -/
theorem named?_eq_some_iff (hdistinct : Distinct scope) :
    scope.named? label = some entry ↔ entry ∈ scope ∧ entry.label = label := by
  rw [named?, find?_eq_some_iff hdistinct label fun entry h => by simpa using h]
  simp

theorem assumed?_eq_some_iff (hdistinct : Distinct scope) :
    scope.assumed? label = some entry ↔
      entry ∈ scope ∧ entry.assumed = true ∧ entry.label = label := by
  rw [assumed?, find?_eq_some_iff hdistinct label fun entry h => by
    simp only [Bool.and_eq_true, decide_eq_true_eq] at h
    exact h.2]
  simp

/-- What is known is what can be cited, normalized. -/
theorem mem_known_iff {label : String} {A : Formula} {assumed : Bool} :
    ⟨label, A, assumed⟩ ∈ scope.known theory ↔
      ∃ entry ∈ scope, entry.label = label ∧
        theory.normalize entry.formula = A ∧ entry.assumed = assumed := by
  simp [known]

/-- Labels stay distinct if a new one is added. -/
theorem distinct_cons (hfresh : scope.named? entry.label = none)
    (hdistinct : Distinct scope) :
    Distinct (entry :: scope) := by
  refine List.nodup_cons.2 ⟨?_, hdistinct⟩
  intro hmem
  obtain ⟨other, hother, hlabel⟩ := List.mem_map.1 hmem
  have hnone := List.find?_eq_none.1 hfresh other hother
  simp [hlabel] at hnone

/-- A label is fresh when the scope has no entry for it. -/
theorem fresh_known_iff {label : Option String} :
    Fresh (scope.known theory) label ↔
      ∀ l, label = some l → scope.named? l = none := by
  simp [Fresh, known, named?]

end Scope

/-- The reason that puts a formula or a term for a symbol of the given kind. -/
def Schematic.reason (reference : Option String)
    (given substitute : Option Formula) :
    Schematic → Reason
  | predicate => .substPredicate reference given substitute
  | function => .substFunction reference given substitute

/-- The reason that introduces the quantifier. -/
def Quantifier.reason (reference : Option String) (subject : Option Formula) :
    Quantifier → Reason
  | universal => .universal reference subject
  | existential => .existential reference subject

/-! ## Citations -/

namespace Site

variable {s : Site}

/-- What is known at the site. -/
def known (s : Site) : List Known :=
  s.visible.known s.setting.theory

/-- A citation of a line or a hypothesis gives what is known by the label. -/
theorem citedLine_eq_ok_iff (hdistinct : s.visible.Distinct)
    {reference : Option String} {part : String} {A : Formula} :
    s.citedLine reference part = .ok A ↔
      ∃ r, reference = some r ∧ Cites s.known r A := by
  cases reference with
  | none => simp [citedLine]
  | some r =>
    have hnamed : ∀ entry, s.visible.named? r = some entry ↔
        entry ∈ s.visible ∧ entry.label = r :=
      fun _ => Scope.named?_eq_some_iff hdistinct
    simp only [citedLine, Option.some.injEq, exists_eq_left', Cites, known,
      Scope.mem_known_iff]
    constructor
    · intro h
      cases hentry : s.visible.named? r with
      | none =>
        rw [hentry] at h
        cases h
      | some entry =>
        rw [hentry] at h
        cases h
        obtain ⟨hmem, hlabel⟩ := (hnamed entry).1 hentry
        exact ⟨entry.assumed, entry, hmem, hlabel, rfl, rfl⟩
    · intro h
      obtain ⟨_, entry, hmem, hlabel, rfl, -⟩ := h
      rw [(hnamed entry).2 ⟨hmem, hlabel⟩]
      rfl

/-- A restated formula is an enclosing hypothesis, or else a proved formula. -/
theorem citedProved_eq_ok_iff (hdistinct : s.visible.Distinct)
    {reference : Option String} {part : String} {A : Formula} :
    s.citedProved reference part = .ok A ↔ ∃ r, reference = some r ∧
      (⟨r, A, true⟩ ∈ s.known ∨ (∀ B, ⟨r, B, true⟩ ∉ s.known) ∧
        ∃ p, s.setting.theory.find? r = some p ∧
          s.setting.theory.normalize p.formula = A) := by
  cases reference with
  | none => simp [citedProved]
  | some r =>
    have hassumed : ∀ entry, s.visible.assumed? r = some entry ↔
        entry ∈ s.visible ∧ entry.assumed = true ∧ entry.label = r :=
      fun _ => Scope.assumed?_eq_some_iff hdistinct
    simp only [citedProved, Option.some.injEq, exists_eq_left', known,
      Scope.mem_known_iff]
    cases hentry : s.visible.assumed? r with
    | some entry =>
      obtain ⟨hmem, htrue, hlabel⟩ := (hassumed entry).1 hentry
      have hall : ∀ other ∈ s.visible, other.label = r → other.assumed = true →
          other = entry :=
        fun other hother hl ha => Option.some.inj
          (((hassumed other).2 ⟨hother, ha, hl⟩).symm.trans hentry)
      simp only [Option.map_some, Option.some_or, Except.ok.injEq]
      constructor
      · intro h
        exact Or.inl ⟨entry, hmem, hlabel, h, htrue⟩
      · intro h
        rcases h with ⟨other, hother, hl, hA, ha⟩ | ⟨hno, -⟩
        · rw [← hA, hall other hother hl ha]
          rfl
        · exact absurd ⟨entry, hmem, hlabel, rfl, htrue⟩ (hno _)
    | none =>
      have hno : ∀ entry ∈ s.visible, entry.label = r →
          entry.assumed ≠ true := by
        intro entry hmem hl ha
        rw [(hassumed entry).2 ⟨hmem, ha, hl⟩] at hentry
        cases hentry
      simp only [Option.map_none, Option.none_or, Theory.normalized?]
      cases s.setting.theory.find? r with
      | none => simpa using fun entry hmem hl _ ha => hno entry hmem hl ha
      | some p =>
        simp only [Option.map_some, Except.ok.injEq, Option.some.injEq,
          exists_eq_left']
        constructor
        · intro h
          refine Or.inr ⟨?_, h⟩
          intro B hB
          obtain ⟨entry, hmem, hl, -, ha⟩ := hB
          exact hno entry hmem hl ha
        · intro h
          rcases h with ⟨entry, hmem, hl, -, ha⟩ | ⟨-, h⟩
          · exact absurd ha (hno entry hmem hl)
          · exact h

/-! ## The rules -/

/-- **Restating** a formula is accepted exactly when it follows and the rule is
permitted. -/
theorem checkAdd_eq_ok_iff (hdistinct : s.visible.Distinct)
    {reference : Option String} :
    s.checkAdd reference = .ok () ↔
      Follows s.setting.theory s.known s.assumptions (.add reference)
          s.statement ∧
        Permits s.setting s.assumptions .add := by
  rw [checkAdd]
  simp only [bind_eq_ok_iff, exists_unit_iff, citedProved_eq_ok_iff hdistinct,
    checkStatement_eq_ok_iff, checkRule_eq_ok_iff]
  generalize s.statement = B
  constructor
  · intro h
    obtain ⟨A, ⟨r, rfl, hA⟩, rfl, hrule⟩ := h
    rcases hA with hA | ⟨hno, p, hp, rfl⟩
    · exact ⟨.assumption hA, hrule⟩
    · exact ⟨.proved hno hp, hrule⟩
  · intro h
    obtain ⟨hfollows, hrule⟩ := h
    cases hfollows with
    | assumption hA => exact ⟨B, ⟨_, rfl, Or.inl hA⟩, rfl, hrule⟩
    | proved hno hp => exact ⟨_, ⟨_, rfl, Or.inr ⟨hno, _, hp, rfl⟩⟩, rfl, hrule⟩

/-- **Renaming** a bound variable is accepted exactly when the result follows
and the rule is permitted. -/
theorem checkRename_eq_ok_iff (hdistinct : s.visible.Distinct)
    {reference : Option String} {current replacement : Option Formula}
    {occurrence : UInt64} :
    s.checkRename reference current replacement occurrence = .ok () ↔
      Follows s.setting.theory s.known s.assumptions
          (.rename reference current replacement occurrence) s.statement ∧
        Permits s.setting s.assumptions .rename := by
  rw [checkRename]
  simp only [bind_eq_ok_iff, exists_unit_iff, citedLine_eq_ok_iff hdistinct,
    givenVar_eq_ok_iff, checkRoom_eq_ok_iff, checkStatement_eq_ok_iff,
    checkRule_eq_ok_iff]
  generalize s.statement = B
  constructor
  · intro h
    obtain ⟨A, ⟨r, rfl, hA⟩, x, rfl, y, rfl, hroom, rfl, hrule⟩ := h
    exact ⟨.rename hA hroom, hrule⟩
  · intro h
    obtain ⟨hfollows, hrule⟩ := h
    cases hfollows with
    | rename hA hroom =>
      exact ⟨_, ⟨_, rfl, hA⟩, _, rfl, _, rfl, hroom, rfl, hrule⟩

/-- **Modus ponens** is accepted exactly when the conclusion follows and the
rule is permitted. -/
theorem checkModusPonens_eq_ok_iff (hdistinct : s.visible.Distinct)
    {implication premise : Option String} :
    s.checkModusPonens implication premise = .ok () ↔
      Follows s.setting.theory s.known s.assumptions
          (.modusPonens implication premise) s.statement ∧
        Permits s.setting s.assumptions .modusPonens := by
  rw [checkModusPonens]
  simp only [bind_eq_ok_iff, exists_unit_iff, citedLine_eq_ok_iff hdistinct,
    Prod.exists, citedImplication_eq_ok_iff, ensure_eq_ok_iff,
    decide_eq_true_eq, checkStatement_eq_ok_iff, checkRule_eq_ok_iff]
  generalize s.statement = C
  constructor
  · intro h
    obtain
      ⟨_, ⟨r₁, rfl, hAB⟩, _, ⟨r₂, rfl, hA⟩, A, B, rfl, rfl, rfl, hrule⟩ := h
    exact ⟨.modusPonens hAB hA, hrule⟩
  · intro h
    obtain ⟨hfollows, hrule⟩ := h
    cases hfollows with
    | modusPonens hAB hA =>
      exact ⟨_, ⟨_, rfl, hAB⟩, _, ⟨_, rfl, hA⟩, _, _, rfl, rfl, rfl, hrule⟩

/-- **Substitution for a free variable** is accepted exactly when the result
follows and the rule is permitted. -/
theorem checkSubstFree_eq_ok_iff (hdistinct : s.visible.Distinct)
    {reference : Option String} {subject substitute : Option Formula} :
    s.checkSubstFree reference subject substitute = .ok () ↔
      Follows s.setting.theory s.known s.assumptions
          (.substFree reference subject substitute) s.statement ∧
        Permits s.setting s.assumptions .substFree := by
  have hcapture : ∀ A term,
      s.checkCapture A term [] "substitute_term" reference = .ok () ↔
      ∀ z ∈ term.free, z ∉ A.bound := by
    intro A term
    have h : s.checkCapture A term (([] : List String).map .var)
        "substitute_term" reference = .ok () ↔ _ := checkCapture_eq_ok_iff
    simpa using h
  rw [checkSubstFree]
  simp only [bind_eq_ok_iff, exists_unit_iff, citedLine_eq_ok_iff hdistinct,
    givenVar_eq_ok_iff, givenSubstitute_eq_ok_iff, hcapture,
    checkStatement_eq_ok_iff, checkConditions_eq_ok_iff, List.contains_eq_mem,
    decide_eq_false_iff_not, checkRule_eq_ok_iff]
  generalize s.statement = B
  constructor
  · intro h
    obtain ⟨A, ⟨r, rfl, hA⟩, x, rfl, _, ⟨term, rfl, rfl⟩, hterm, rfl,
      hcond, hrule⟩ := h
    exact ⟨.substFree hA hterm hcond, hrule⟩
  · intro h
    obtain ⟨hfollows, hrule⟩ := h
    cases hfollows with
    | substFree hA hterm hcond =>
      exact ⟨_, ⟨_, rfl, hA⟩, _, rfl, _, ⟨_, rfl, rfl⟩, hterm, rfl,
        hcond, hrule⟩

/-- **Substitution for a predicate or function variable** is accepted exactly
when the result follows and the rule is permitted. -/
theorem checkSubstSymbol_iff_follows (hdistinct : s.visible.Distinct)
    {kind : Schematic} {reference : Option String}
    {given substitute : Option Formula} :
    s.checkSubstSymbol kind reference given substitute = .ok () ↔
      Follows s.setting.theory s.known s.assumptions
          (kind.reason reference given substitute) s.statement ∧
        Permits s.setting s.assumptions kind.rule := by
  rw [checkSubstSymbol_eq_ok_iff]
  simp only [citedLine_eq_ok_iff hdistinct]
  generalize s.statement = B
  constructor
  · intro h
    obtain ⟨A, p, xs, β, ⟨r, rfl, hA⟩, rfl, rfl, hβ, rfl, hrule⟩ := h
    refine ⟨?_, hrule⟩
    cases kind with
    | predicate => exact .substPredicate hA hβ
    | function => exact .substFunction hA hβ
  · intro h
    obtain ⟨hfollows, hrule⟩ := h
    cases kind with
    | predicate =>
      cases hfollows with
      | substPredicate hA hβ =>
        exact ⟨_, _, _, _, ⟨_, rfl, hA⟩, rfl, rfl, hβ, rfl, hrule⟩
    | function =>
      cases hfollows with
      | substFunction hA hβ =>
        exact ⟨_, _, _, _, ⟨_, rfl, hA⟩, rfl, rfl, hβ, rfl, hrule⟩

/-- **Generalization** on either side of an implication is accepted exactly when
the result follows and the rule is permitted. -/
theorem checkGeneralization_eq_ok_iff (hdistinct : s.visible.Distinct)
    {quantifier : Quantifier} {reference : Option String}
    {subject : Option Formula} :
    s.checkGeneralization quantifier reference subject = .ok () ↔
      Follows s.setting.theory s.known s.assumptions
          (quantifier.reason reference subject) s.statement ∧
        Permits s.setting s.assumptions quantifier.rule := by
  rw [checkGeneralization]
  simp only [bind_eq_ok_iff, exists_unit_iff, citedLine_eq_ok_iff hdistinct,
    Prod.exists, citedImplication_eq_ok_iff, givenVar_eq_ok_iff,
    ensure_eq_ok_iff, checkStatement_eq_ok_iff, checkConditions_eq_ok_iff,
    List.contains_eq_mem, Bool.not_eq_true', decide_eq_false_iff_not,
    checkRule_eq_ok_iff]
  generalize s.statement = C
  constructor
  · intro h
    obtain ⟨_, ⟨r, rfl, hAB⟩, A, B, rfl, x, rfl, hfree, rfl, hcond, hrule⟩ := h
    refine ⟨?_, hrule⟩
    cases quantifier with
    | universal => exact .universal hAB hfree hcond
    | existential => exact .existential hAB hfree hcond
  · intro h
    obtain ⟨hfollows, hrule⟩ := h
    cases quantifier with
    | universal =>
      cases hfollows with
      | universal hAB hfree hcond =>
        exact ⟨_, ⟨_, rfl, hAB⟩, _, _, rfl, _, rfl, hfree, rfl, hcond, hrule⟩
    | existential =>
      cases hfollows with
      | existential hAB hfree hcond =>
        exact ⟨_, ⟨_, rfl, hAB⟩, _, _, rfl, _, rfl, hfree, rfl, hcond, hrule⟩

/-! ## Conditional proofs -/

/-- A conditional proof is opened if such proofs are allowed, it assumes a
formula, it has lines, and it does not lie too deep. -/
theorem openConditional_eq_ok_iff {hypothesis : Hypothesis} {lines : List Line}
    {H : Formula} :
    s.openConditional hypothesis lines = .ok H ↔
      s.setting.policy.conditionalMinimum.isSome ∧ hypothesis.formula = some H ∧
        lines ≠ [] ∧ s.depth < s.setting.policy.maxDepth := by
  rw [openConditional]
  simp only [bind_eq_ok_iff, exists_unit_iff, ensure_eq_ok_iff]
  cases hypothesis.formula with
  | none => simp
  | some assumption =>
    simp only [bind_eq_ok_iff, exists_unit_iff, ensure_eq_ok_iff,
      Except.ok.injEq, Option.some.injEq, Bool.not_eq_true',
      List.isEmpty_eq_false_iff, decide_eq_true_eq]
    constructor
    · intro h
      exact ⟨h.1, h.2.2.2, h.2.1, h.2.2.1⟩
    · intro h
      exact ⟨h.1, h.2.2.1, h.2.2.2, h.2.1⟩

/-- The label of a hypothesis is not objected to if it is new. -/
theorem checkHypothesisLabel_errors_eq_nil_iff {label : Option String} :
    (s.checkHypothesisLabel label).errors = [] ↔ Fresh s.known label := by
  rw [known, Scope.fresh_known_iff]
  cases label with
  | none => simp [checkHypothesisLabel]
  | some label =>
    cases hnamed : s.visible.named? label <;>
      simp [checkHypothesisLabel, hnamed]

/-- A conditional proof states the implication from its hypothesis to its last
line, by a rule that is permitted. -/
theorem checkConclusion_eq_ok_iff {H B : Formula} :
    s.checkConclusion H B = .ok () ↔
      s.statement = (s.normalize H).implies (s.normalize B) ∧
        Permits s.setting s.assumptions .conditionalProof := by
  rw [checkConclusion]
  simp only [bind_eq_ok_iff, exists_unit_iff, ensure_eq_ok_iff,
    checkStatement_eq_ok_iff, checkRule_eq_ok_iff]
  constructor
  · intro h
    exact h.2
  · intro h
    refine ⟨?_, h⟩
    rw [h.1]
    rfl

/-- Inside a conditional proof the hypothesis is known besides. -/
theorem known_conditionalBody (label : Option String) (H : Formula) :
    (s.conditionalBody label H).outer.known s.setting.theory =
      add s.known label (s.setting.theory.normalize H) true := by
  cases label <;> rfl

/-- Labels stay distinct inside a conditional proof if that of its hypothesis is
new. -/
theorem distinct_conditionalBody (hdistinct : s.visible.Distinct)
    {label : Option String} (hfresh : Fresh s.known label) (H : Formula) :
    (s.conditionalBody label H).outer.Distinct := by
  rw [known, Scope.fresh_known_iff] at hfresh
  cases label with
  | none => exact hdistinct
  | some label => exact Scope.distinct_cons (hfresh label rfl) hdistinct

end Site

/-! ## Lines -/

namespace Body

variable {b : Body} {here : Scope} {index : Nat} {label : Option String}
  {A : Formula}

/-- The formulas of the active conditions, as they are written. -/
def assumptions (b : Body) : List Formula :=
  b.conditions.map Condition.formula

/-- What is known after the lines `here` of the body. -/
def known (b : Body) (here : Scope) : List Known :=
  (here ++ b.outer).known b.setting.theory

theorem checkLabel_errors_eq_nil_iff :
    (b.checkLabel here index label).errors = [] ↔
      Fresh (b.known here) label := by
  rw [known, Scope.fresh_known_iff]
  cases label with
  | none => simp [checkLabel]
  | some label =>
    cases hnamed : (here ++ b.outer).named? label <;> simp [checkLabel, hnamed]

/-- A formula is not objected to if the active conditions imply it in a
well-formed way. -/
theorem disagreement?_eq_none_iff :
    b.disagreement? A = none ↔ Agrees b.assumptions A := by
  simp only [disagreement?, Agrees, assumptions]
  cases Formula.conjunction? (b.conditions.map Condition.formula) with
  | none => simp
  | some premise =>
    cases hcheck : (premise.implies A).check .formula <;> simp [hcheck]

/-- A line with a fresh label sees everything that stands before it. -/
theorem visible_of_fresh (hfresh : Fresh (b.known here) label) :
    b.visible here label = here ++ b.outer := by
  rw [known, Scope.fresh_known_iff] at hfresh
  cases label with
  | none => rfl
  | some label =>
    have hnone := List.find?_eq_none.1 (hfresh label rfl)
    have hwithout : here.without label = here := by
      rw [Scope.without, List.filter_eq_self]
      intro entry hentry
      simpa using hnone entry (List.mem_append_left _ hentry)
    rw [visible, hwithout]

/-- After a line its formula is known by its label. -/
theorem known_extend :
    b.known (b.extend here index label A) =
      add (b.known here) label (b.setting.theory.normalize A) false := by
  cases label <;> rfl

/-- Labels stay distinct after a line with a new label. -/
theorem distinct_extend (hdistinct : Scope.Distinct (here ++ b.outer))
    (hfresh : Fresh (b.known here) label) :
    Scope.Distinct (b.extend here index label A ++ b.outer) := by
  rw [known, Scope.fresh_known_iff] at hfresh
  cases label with
  | none => exact hdistinct
  | some label => exact Scope.distinct_cons (hfresh label rfl) hdistinct

end Body

/-- A step that is accepted reports nothing. -/
theorem Verdict.errors_ofCheck_eq_nil_iff {check : Except Diagnostic Unit} :
    (Verdict.ofCheck check).found.errors = [] ↔ check = .ok () := by
  cases check <;> simp [Verdict.ofCheck]

/-- Correct lines end with a formula, if there are any. -/
theorem Correct.exists_last {setting : Setting} {known : List Known}
    {conditions : List Formula} {lines : List Line}
    (h : Correct setting known conditions lines) (hlines : lines ≠ []) :
    ∃ B, lines.getLast?.bind Line.formula = some B := by
  have hall : ∀ line ∈ lines, ∃ B, line.formula = some B := by
    clear hlines
    induction lines generalizing known with
    | nil => simp
    | cons line rest ih =>
      cases h with
      | cons hlabel hagrees hpermits hjustified hrest =>
        intro line hline
        rcases List.mem_cons.1 hline with rfl | hline
        · exact ⟨_, rfl⟩
        · exact ih hrest line hline
  obtain ⟨B, hB⟩ := hall _ (List.getLast_mem hlines)
  exact ⟨B, by rw [List.getLast?_eq_some_getLast hlines, Option.bind_some, hB]⟩

/-- Only a conditional proof is justified by more than the rules. -/
theorem justified_iff_follows {setting : Setting} {known : List Known}
    {conditions : List Formula} {A : Formula} {reason : Reason}
    (hreason : reason.rule ≠ .conditionalProof) :
    Justified setting known conditions A reason ↔
      Follows setting.theory known conditions reason
        (setting.theory.normalize A) := by
  constructor
  · intro h
    cases h with
    | rule h => exact h
    | conditionalProof => exact absurd rfl hreason
  · intro h
    exact .rule h

/-- A conditional proof is accepted when its lines are, given that the recursion
has settled the lines. -/
theorem judge_conditionalProof_errors_eq_nil_iff {s : Site}
    {hypothesis : Hypothesis} {lines : List Line}
    (hdistinct : s.visible.Distinct) (hdepth : s.depth = s.conditions.length)
    (hlines : ∀ b : Body, b.outer.Distinct → b.depth = b.conditions.length →
      ((checkLines b 0 [] lines).errors = [] ↔
        Correct b.setting (b.known []) b.assumptions lines)) :
    (judge s (.conditionalProof hypothesis lines)).found.errors = [] ↔
      Justified s.setting s.known s.assumptions s.formula
        (.conditionalProof hypothesis lines) ∧
        Permits s.setting s.assumptions .conditionalProof := by
  obtain ⟨label, formula⟩ := hypothesis
  have hlength : s.assumptions.length = s.conditions.length :=
    List.length_map ..
  have hinner : ∀ H, Fresh s.known label →
      ((checkLines (s.conditionalBody label H) 0 [] lines).errors = [] ↔
        Correct s.setting
          (add s.known label (s.setting.theory.normalize H) true)
          (s.assumptions ++ [H]) lines) := by
    intro H hfresh
    have hbody := hlines (s.conditionalBody label H)
      (s.distinct_conditionalBody hdistinct hfresh H)
      (by simp [Site.conditionalBody, hdepth])
    have hconditions :
        (s.conditionalBody label H).assumptions = s.assumptions ++ [H] := by
      simp [Body.assumptions, Site.conditionalBody, Site.assumptions]
    rw [hbody, hconditions, ← s.known_conditionalBody]
    rfl
  rw [judge]
  constructor
  · intro h
    cases hopen : s.openConditional ⟨label, formula⟩ lines with
    | error d => simp [hopen] at h
    | ok H =>
      obtain ⟨hallowed, hformula, hnonempty, hroom⟩ :=
        Site.openConditional_eq_ok_iff.1 hopen
      obtain rfl : formula = some H := hformula
      simp only [hopen, Findings.errors_append, List.append_eq_nil_iff,
        Findings.errors_note, and_true] at h
      obtain ⟨⟨hlabel, hbody⟩, hclosing⟩ := h
      have hfresh := Site.checkHypothesisLabel_errors_eq_nil_iff.1 hlabel
      have hcorrect := (hinner H hfresh).1 hbody
      -- Without a last formula nothing would be concluded, and nothing reported
      -- here.
      obtain ⟨B, hB⟩ := hcorrect.exists_last hnonempty
      rw [hB] at hclosing
      obtain ⟨hconclusion, hrule⟩ := Site.checkConclusion_eq_ok_iff.1
        (Verdict.errors_ofCheck_eq_nil_iff.1 hclosing)
      exact
        ⟨.conditionalProof hallowed (by omega) hfresh hcorrect hB hconclusion,
          hrule⟩
  · intro h
    obtain ⟨hjustified, hrule⟩ := h
    cases hjustified with
    | rule h => cases h
    | @conditionalProof _ _ _ H B _ _
        hallowed hroom hfresh hcorrect hB hconclusion =>
      have hnonempty : lines ≠ [] := by
        intro hnil
        rw [hnil] at hB
        cases hB
      have hopen : s.openConditional ⟨label, some H⟩ lines = .ok H :=
        Site.openConditional_eq_ok_iff.2 ⟨hallowed, rfl, hnonempty, by omega⟩
      have hclosing := Verdict.errors_ofCheck_eq_nil_iff.2
        (Site.checkConclusion_eq_ok_iff.2 ⟨hconclusion, hrule⟩)
      simp only [hopen, Findings.errors_append, List.append_eq_nil_iff,
        Findings.errors_note, and_true, hB]
      exact ⟨⟨Site.checkHypothesisLabel_errors_eq_nil_iff.2 hfresh,
        (hinner H hfresh).2 hcorrect⟩, hclosing⟩

/-- A rule other than conditional proof is accepted when its check passes. -/
theorem judge_rule_errors_eq_nil_iff {s : Site} {reason : Reason}
    {check : Except Diagnostic Unit} (hjudge : judge s reason = .ofCheck check)
    (hreason : reason.rule ≠ .conditionalProof)
    (hcheck : check = .ok () ↔
      Follows s.setting.theory s.known s.assumptions reason s.statement ∧
        Permits s.setting s.assumptions reason.rule) :
    (judge s reason).found.errors = [] ↔
      Justified s.setting s.known s.assumptions s.formula reason ∧
        Permits s.setting s.assumptions reason.rule := by
  rw [hjudge, Verdict.errors_ofCheck_eq_nil_iff, hcheck,
    justified_iff_follows hreason]
  rfl

mutual

/-- **A reason is accepted exactly when it justifies the line** by a rule that
may be used. -/
theorem judge_errors_eq_nil_iff :
    ∀ (reason : Reason) (s : Site), s.visible.Distinct →
    s.depth = s.conditions.length →
    ((judge s reason).found.errors = [] ↔
      Justified s.setting s.known s.assumptions s.formula reason ∧
        Permits s.setting s.assumptions reason.rule)
  | .add _, s, hdistinct, _ =>
    judge_rule_errors_eq_nil_iff (by rw [judge]) nofun
      (s.checkAdd_eq_ok_iff hdistinct)
  | .rename .., s, hdistinct, _ =>
    judge_rule_errors_eq_nil_iff (by rw [judge]) nofun
      (s.checkRename_eq_ok_iff hdistinct)
  | .modusPonens .., s, hdistinct, _ =>
    judge_rule_errors_eq_nil_iff (by rw [judge]) nofun
      (s.checkModusPonens_eq_ok_iff hdistinct)
  | .substFree .., s, hdistinct, _ =>
    judge_rule_errors_eq_nil_iff (by rw [judge]) nofun
      (s.checkSubstFree_eq_ok_iff hdistinct)
  | .substPredicate .., s, hdistinct, _ =>
    judge_rule_errors_eq_nil_iff (by rw [judge]) nofun
      (s.checkSubstSymbol_iff_follows hdistinct)
  | .substFunction .., s, hdistinct, _ =>
    judge_rule_errors_eq_nil_iff (by rw [judge]) nofun
      (s.checkSubstSymbol_iff_follows hdistinct)
  | .universal .., s, hdistinct, _ =>
    judge_rule_errors_eq_nil_iff (by rw [judge]) nofun
      (s.checkGeneralization_eq_ok_iff hdistinct)
  | .existential .., s, hdistinct, _ =>
    judge_rule_errors_eq_nil_iff (by rw [judge]) nofun
      (s.checkGeneralization_eq_ok_iff hdistinct)
  | .conditionalProof _ lines, _, hdistinct, hdepth =>
    judge_conditionalProof_errors_eq_nil_iff hdistinct hdepth fun b houter hb =>
      checkLines_errors_eq_nil_iff lines b 0 [] houter hb

/-- **Lines are accepted exactly when they are correct.** -/
theorem checkLines_errors_eq_nil_iff :
    ∀ (lines : List Line) (b : Body) (index : Nat) (here : Scope),
    Scope.Distinct (here ++ b.outer) → b.depth = b.conditions.length →
    ((checkLines b index here lines).errors = [] ↔
      Correct b.setting (b.known here) b.assumptions lines)
  | [], _, _, _, _, _ => by
    rw [checkLines]
    exact ⟨fun _ => .nil, fun _ => rfl⟩
  | ⟨_, none, _⟩ :: _, _, _, _, _, _ => by
    rw [checkLines]
    constructor
    · intro h
      simp at h
    · intro h
      cases h
  | ⟨_, some _, none⟩ :: _, _, _, _, _, _ => by
    rw [checkLines]
    constructor
    · intro h
      simp at h
    · intro h
      cases h
  | ⟨label, some A, some reason⟩ :: rest,
      b, index, here, hdistinct, hdepth => by
    have hjudge : Fresh (b.known here) label →
        ((judge (b.site here index label A) reason).found.errors = [] ↔
          Justified b.setting (b.known here) b.assumptions A reason ∧
            Permits b.setting b.assumptions reason.rule) := by
      intro hfresh
      have hvisible := b.visible_of_fresh hfresh
      have h := judge_errors_eq_nil_iff reason (b.site here index label A)
        (by rw [Body.site, hvisible]; exact hdistinct) hdepth
      rwa [show (b.site here index label A).known = b.known here by
        rw [Site.known, Body.site, hvisible]; rfl] at h
    have hrest : Fresh (b.known here) label →
        ((checkLines b (index + 1)
            (b.extend here index label A) rest).errors = [] ↔
          Correct b.setting
            (add (b.known here) label (b.setting.theory.normalize A) false)
            b.assumptions rest) := by
      intro hfresh
      rw [← b.known_extend]
      exact checkLines_errors_eq_nil_iff rest b (index + 1) _
        (b.distinct_extend hdistinct hfresh) hdepth
    rw [checkLines]
    simp only [Findings.errors_append, List.append_eq_nil_iff,
      Body.checkLabel_errors_eq_nil_iff]
    constructor
    · intro h
      obtain ⟨⟨hfresh, hline⟩, hlines⟩ := h
      cases hagrees : b.disagreement? A with
      | some offence => simp [hagrees] at hline
      | none =>
        simp only [hagrees, Findings.errors_append, Findings.errors_note,
          List.append_nil] at hline
        obtain ⟨hjustified, hpermits⟩ := (hjudge hfresh).1 hline
        exact .cons hfresh (Body.disagreement?_eq_none_iff.1 hagrees)
          hpermits hjustified ((hrest hfresh).1 hlines)
    · intro h
      cases h with
      | cons hfresh hagrees hpermits hjustified hlines =>
        refine ⟨⟨hfresh, ?_⟩, (hrest hfresh).2 hlines⟩
        simp only [Body.disagreement?_eq_none_iff.2 hagrees,
          Findings.errors_append, Findings.errors_note, List.append_nil]
        exact (hjudge hfresh).2 ⟨hjustified, hpermits⟩

end

/-! ## Whole proofs -/

/-- After correct lines, the last step asks for the proposition as the formula
of the last line. -/
theorem checkLast_errors_eq_nil_iff {setting : Setting} {known : List Known}
    {conditions : List Formula} {location : Location} {proposition : Formula}
    {lines : List Line} (hcorrect : Correct setting known conditions lines) :
    (checkLast location proposition lines).errors = [] ↔
      lines.getLast?.bind Line.formula = some proposition := by
  by_cases hlines : lines = []
  · subst hlines
    simp [checkLast]
  · obtain ⟨B, hlast⟩ := hcorrect.exists_last hlines
    obtain ⟨line, hline, hB⟩ := Option.bind_eq_some_iff.1 hlast
    have hnone := Formula.firstDifference?_eq_none_iff proposition B
    rw [hlast, Option.some.injEq]
    simp only [checkLast, hline, hB, Option.bind_some]
    cases hdiff : Formula.firstDifference? proposition B with
    | none => simp [(hnone.1 hdiff).symm]
    | some path =>
      have hne : B ≠ proposition := by
        intro heq
        rw [hnone.2 heq.symm] at hdiff
        cases hdiff
      simp [hne]

/-- The body of a whole proof. -/
def wholeBody (setting : Setting) (location : Location) : Body where
  setting := setting
  location := location
  conditions := []
  outer := []
  depth := 0

/-- A proof is accepted if proofs are, its lines are, and the last of them
states the proposition. -/
theorem checkProof_errors_eq_nil_iff {setting : Setting} {location : Location}
    {proposition : Formula} {lines : List Line} :
    (checkProof setting location proposition lines).errors = [] ↔
      setting.policy.acceptsProofs = true ∧
        (checkLines (wholeBody setting location) 0 [] lines).errors = [] ∧
        (checkLast location proposition lines).errors = [] := by
  rw [checkProof]
  by_cases haccepts : setting.policy.acceptsProofs = true <;>
    simp [haccepts, wholeBody]

/-- The lines of a whole proof are accepted exactly when they are correct and
nothing is known or assumed before them. -/
theorem checkLines_wholeBody_errors_eq_nil_iff {setting : Setting}
    {location : Location} {lines : List Line} :
    (checkLines (wholeBody setting location) 0 [] lines).errors = [] ↔
      Correct setting [] [] lines :=
  checkLines_errors_eq_nil_iff lines (wholeBody setting location) 0 []
    List.nodup_nil rfl

/-- **Exact acceptance.**  The check of a proof reports no error exactly when
proofs are accepted at all, the lines are correct, and the last of them states
the proposition. -/
theorem proof_accepted_iff_correct (setting : Setting) (location : Location)
    (proposition : Formula) (lines : List Line) :
    (checkProof setting location proposition lines).errors = [] ↔
      setting.policy.acceptsProofs = true ∧
        lines.getLast?.bind Line.formula = some proposition ∧
        Correct setting [] [] lines := by
  rw [checkProof_errors_eq_nil_iff, checkLines_wholeBody_errors_eq_nil_iff]
  refine and_congr_right fun _ => ?_
  constructor
  · intro h
    exact ⟨(checkLast_errors_eq_nil_iff h.1).1 h.2, h.1⟩
  · intro h
    exact ⟨h.2, (checkLast_errors_eq_nil_iff h.2).2 h.1⟩

end Deduction
