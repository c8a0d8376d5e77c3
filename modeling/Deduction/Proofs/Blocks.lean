import Deduction.Proofs.Acceptance
import Deduction.Proofs.Locality
import Mathlib.Logic.Relation

/-!
# Blocks

A **block** is a body with its lines: the lines of a whole proof, or those of a
conditional proof that the check has opened.  A block **judges** the reasons of
its lines, each at a site of its own, and **opens** a block for every
conditional proof that may be entered.  Since an opened block holds fewer lines
than the line around it, all that a check does can be followed from the inside
out.

Main statement: `run_induct`, an induction over the whole run of a check.  What
is found in a block is put together from diagnostics of its own lines
(`Reports`), records of the log, and what is found in the blocks that it opens.
As a first use, every diagnostic is traced back to the line that it is about
(`accounts_check`).
-/

namespace Deduction

namespace Site

/-- **What a reason itself gives rise to**, not counting the lines of a
conditional proof. -/
inductive Objects (s : Site) : Reason → Diagnostic → Prop where
  | rule {reason : Reason} {d : Diagnostic}
      (hreason : reason.rule ≠ .conditionalProof)
      (hjudge : judge s reason = .ofCheck (.error d)) : Objects s reason d
  | opening {hypothesis : Hypothesis} {lines : List Line} {d : Diagnostic}
      (hopen : s.openConditional hypothesis lines = .error d) :
      Objects s (.conditionalProof hypothesis lines) d
  | label {hypothesis : Hypothesis} {lines : List Line} {d : Diagnostic}
      (hlabel : d ∈ (s.checkHypothesisLabel hypothesis.label).errors) :
      Objects s (.conditionalProof hypothesis lines) d
  | conclusion {hypothesis : Hypothesis} {lines : List Line} {H B : Formula}
      {d : Diagnostic} (hconclusion : s.checkConclusion H B = .error d) :
      Objects s (.conditionalProof hypothesis lines) d

end Site

/-- A body together with its lines. -/
structure Block where
  body : Body
  lines : List Line

/-- The block of a conditional proof under an assumption. -/
def Site.conditionalBlock (s : Site) (hypothesis : Hypothesis)
    (assumption : Formula) (lines : List Line) : Block :=
  ⟨s.conditionalBody hypothesis.label assumption, lines⟩

namespace Block

variable {k k' : Block} {d : Diagnostic}

/-- The block of a whole proof. -/
def whole (setting : Setting) (location : Location) (lines : List Line) :
    Block :=
  ⟨wholeBody setting location, lines⟩

/-- What is found in a block. -/
def check (k : Block) : Findings :=
  checkLines k.body 0 [] k.lines

/-- What the lines before a line leave to be cited. -/
def before (k : Block) (i : Nat) : Scope :=
  k.body.scopeAfterAll [] 0 ((k.lines.take i).map Line.outline)

/-- The site of a line. -/
def site (k : Block) (i : Nat) (label : Option String) (f : Formula) : Site :=
  k.body.site (k.before i) i label f

/-- What is found at a line. -/
def checkLine (k : Block) (i : Nat) (line : Line) : Findings :=
  checkLines k.body i (k.before i) [line]

/-- **A line of the block is judged** at the site, if it agrees with the active
conditions. -/
inductive Judges (k : Block) : Site → Reason → Prop where
  | intro {i : Nat} {label : Option String} {f : Formula} {reason : Reason}
      (hline : k.lines[i]? = some ⟨label, some f, some reason⟩)
      (hagrees : k.body.disagreement? f = none) :
      Judges k (k.site i label f) reason

/-- **A conditional proof is opened** at a line of the block. -/
inductive Opens (k : Block) : Block → Prop where
  | intro {s : Site} {hypothesis : Hypothesis} {lines : List Line} {H : Formula}
      (hjudges : k.Judges s (.conditionalProof hypothesis lines))
      (hopen : s.openConditional hypothesis lines = .ok H) :
      Opens k (s.conditionalBlock hypothesis H lines)

/-- The check of a block enters another, through any number of conditional
proofs. -/
def Enters : Block → Block → Prop :=
  Relation.ReflTransGen Opens

/-- **What a line of the block itself gives rise to.** -/
inductive Reports (k : Block) : Diagnostic → Prop where
  | missingFormula {i : Nat} {label : Option String} {reason : Option Reason}
      (hline : k.lines[i]? = some ⟨label, none, reason⟩) :
      Reports k
        { defect := .missingFormula
          location := (k.body.place i).field "formula" }
  | missingReason {i : Nat} {label : Option String} {f : Formula}
      (hline : k.lines[i]? = some ⟨label, some f, none⟩) :
      Reports k
        { defect := .missingReason
          location := (k.body.place i).field "reason" }
  | label {i : Nat} {label : Option String} {f : Formula} {reason : Reason}
      {d : Diagnostic} (hline : k.lines[i]? = some ⟨label, some f, some reason⟩)
      (hlabel : d ∈ (k.body.checkLabel (k.before i) i label).errors) :
      Reports k d
  | disagreement {i : Nat} {label : Option String} {f : Formula}
      {reason : Reason} {offence : Malformation}
      (hline : k.lines[i]? = some ⟨label, some f, some reason⟩)
      (hdisagrees : k.body.disagreement? f = some offence) :
      Reports k
        { defect := .disagreesWithConditions
          location := (k.body.place i).field "formula"
          detail := some offence.message }
  | objection {s : Site} {reason : Reason} {d : Diagnostic}
      (hjudges : k.Judges s reason) (hobjects : s.Objects reason d) :
      Reports k d

end Block

/-- What can be cited after two runs of lines, one after the other. -/
theorem Body.scopeAfterAll_append (b : Body) {here : Scope} {index : Nat}
    {first rest : List Outline} :
    b.scopeAfterAll here index (first ++ rest) =
      b.scopeAfterAll (b.scopeAfterAll here index first)
        (index + first.length) rest := by
  induction first generalizing here index with
  | nil => rfl
  | cons outline first ih =>
    rw [List.cons_append, scopeAfterAll, ih, scopeAfterAll, List.length_cons,
      Nat.add_right_comm, Nat.add_assoc]

namespace Block

variable {k k' : Block} {d : Diagnostic}

/-! ## Line by line -/

/-- One more line. -/
theorem before_succ {i : Nat} {line : Line} (hline : k.lines[i]? = some line) :
    k.before (i + 1) = k.body.scopeAfter (k.before i) i line.outline := by
  have hlength : i < k.lines.length := by
    by_contra hge
    rw [List.getElem?_eq_none (by omega)] at hline
    cases hline
  rw [before, List.take_add_one, hline, Option.toList_some, List.map_append,
    Body.scopeAfterAll_append, List.length_map,
    List.length_take_of_le (by omega), Nat.zero_add]
  rfl

/-- What is found at a line is part of what is found in the block. -/
theorem check_split {i : Nat} {line : Line} (hline : k.lines[i]? = some line) :
    ∃ first rest, k.check = first ++ (k.checkLine i line ++ rest) := by
  obtain ⟨hlength, rfl⟩ := List.getElem?_eq_some_iff.1 hline
  have hlines : k.lines =
      k.lines.take i ++ ([k.lines[i]] ++ k.lines.drop (i + 1)) := by
    rw [List.singleton_append, ← List.drop_eq_getElem_cons hlength,
      List.take_append_drop]
  have hcheck : k.check = checkLines k.body 0 []
      (k.lines.take i ++ ([k.lines[i]] ++ k.lines.drop (i + 1))) := by
    rw [← hlines]
    rfl
  rw [hcheck, Body.checkLines_append, Body.checkLines_append,
    List.length_take_of_le (by omega), Nat.zero_add]
  exact ⟨_, _, rfl⟩

/-- What holds of no findings and of joined findings holds of the block if it
holds line by line. -/
theorem check_induct {P : Findings → Prop} (hempty : P {})
    (happend : ∀ a b, P a → P b → P (a ++ b))
    (hline : ∀ i line, k.lines[i]? = some line → P (k.checkLine i line)) :
    P k.check := by
  have hprefix : ∀ n ≤ k.lines.length,
      P (checkLines k.body 0 [] (k.lines.take n)) := by
    intro n
    induction n with
    | zero =>
      intro _
      rw [List.take_zero, checkLines]
      exact hempty
    | succ n ih =>
      intro hn
      obtain ⟨line, hget⟩ : ∃ line, k.lines[n]? = some line :=
        ⟨k.lines[n], List.getElem?_eq_getElem (by omega)⟩
      have htake : k.lines.take (n + 1) = k.lines.take n ++ [line] := by
        rw [List.take_add_one, hget]
        rfl
      rw [htake, Body.checkLines_append, List.length_take_of_le (by omega),
        Nat.zero_add]
      exact happend _ _ (ih (by omega)) (hline n line hget)
  have hall := hprefix k.lines.length (Nat.le_refl _)
  rwa [List.take_length] at hall

/-- **A complete line** is checked for its label, judged, and the verdict is
noted. -/
theorem checkLine_judged {i : Nat} {label : Option String} {f : Formula}
    {reason : Reason} (hagrees : k.body.disagreement? f = none) :
    k.checkLine i ⟨label, some f, some reason⟩ =
      k.body.checkLabel (k.before i) i label ++
        ((judge (k.site i label f) reason).found ++
        .note (.judged (k.body.place i) reason.rule
          (judge (k.site i label f) reason).passed)) := by
  rw [checkLine, checkLines, checkLines, Findings.append_empty, hagrees]
  rfl

/-! ## The whole run -/

/-- A conditional proof is smaller than the lines around it. -/
theorem Opens.sizeOf_lt (h : k.Opens k') :
    sizeOf k'.lines < sizeOf k.lines := by
  obtain ⟨⟨hline, -⟩, -⟩ := h
  have hlt := List.sizeOf_lt_of_mem (List.mem_of_getElem? hline)
  simp only [Site.conditionalBlock, Line.mk.sizeOf_spec,
    Option.some.sizeOf_spec, Reason.conditionalProof.sizeOf_spec] at hlt ⊢
  omega

/-- **Induction over blocks**, with the hypothesis for every block that is
opened. -/
theorem induct {P : Block → Prop} (step : ∀ k, (∀ k', k.Opens k' → P k') → P k)
    (k : Block) : P k :=
  step k fun k' hopens =>
    have := hopens.sizeOf_lt
    induct step k'
termination_by sizeOf k.lines

/-- **What findings are put together from**, apart from diagnostics and
verdicts. -/
structure Composes (P : Findings → Prop) : Prop where
  empty : P {}
  append : ∀ {a b}, P a → P b → P (a ++ b)
  entered : ∀ place depth, P (.note (.entered place depth))
  left : ∀ place count, P (.note (.left place count))

/-- A property of findings that are put together holds of the check of a
label. -/
theorem Composes.label {P : Findings → Prop} (hP : Composes P)
    {found : Findings} (hfound : found = {} ∨ ∃ d, found = .report d)
    (hreport : ∀ d ∈ found.errors, P (.report d)) : P found := by
  rcases hfound with rfl | ⟨d, rfl⟩
  · exact hP.empty
  · exact hreport d List.mem_cons_self

end Block

/-- The check of a hypothesis' label finds nothing or makes one complaint. -/
theorem Site.checkHypothesisLabel_found (s : Site) (label : Option String) :
    s.checkHypothesisLabel label = {} ∨
      ∃ d, s.checkHypothesisLabel label = .report d := by
  rw [checkHypothesisLabel.eq_def]
  split
  · exact .inr ⟨_, rfl⟩
  · exact .inl rfl

/-- **What a reason leaves** is put together from what it is itself objected to
and, if it is a conditional proof that may be entered, from what is found inside
and the records around that. -/
theorem Site.judge_induct {P : Findings → Prop} {s : Site} {reason : Reason}
    (hempty : P {}) (happend : ∀ {a b}, P a → P b → P (a ++ b))
    (hreport : ∀ d, s.Objects reason d → P (.report d))
    (hinner : ∀ hypothesis lines H,
      reason = .conditionalProof hypothesis lines →
      s.openConditional hypothesis lines = .ok H →
        P (.note (.entered s.reasonPlace (s.depth + 1))) ∧
        P (s.conditionalBlock hypothesis H lines).check ∧
        P (.note (.left s.reasonPlace
          (s.conditionalBlock hypothesis H lines).check.errors.length))) :
    P (judge s reason).found := by
  by_cases hreason : reason.rule = .conditionalProof
  · cases reason with
    | conditionalProof hypothesis lines =>
      rw [judge]
      split
      next d hopen => exact hreport d (.opening hopen)
      next H hopen =>
        obtain ⟨hentered, hlines, hleft⟩ := hinner hypothesis lines H rfl hopen
        have hlabel : P (s.checkHypothesisLabel hypothesis.label) := by
          rcases s.checkHypothesisLabel_found hypothesis.label with
            hnone | ⟨d, hd⟩
          · rw [hnone]
            exact hempty
          · have hobjects : s.Objects (.conditionalProof hypothesis lines) d :=
              .label (by rw [hd]; exact List.mem_cons_self)
            rw [hd]
            exact hreport d hobjects
        refine happend
          (happend (happend (happend hlabel hentered) hlines) hleft) ?_
        cases lines.getLast?.bind Line.formula with
        | none => exact hempty
        | some B =>
          rw [Site.closeConditional]
          cases hconclusion : s.checkConclusion H B with
          | ok => exact hempty
          | error d => exact hreport d (.conclusion hconclusion)
    | _ => cases hreason
  · obtain ⟨check, hcheck, -⟩ := s.exists_judge_eq_ofCheck hreason
    cases check with
    | ok =>
      rw [hcheck]
      exact hempty
    | error d =>
      have hobjects : s.Objects reason d := .rule hreason hcheck
      rw [hcheck]
      exact hreport d hobjects

theorem Body.checkLabel_found (b : Body) (here : Scope) (index : Nat)
    (label : Option String) :
    b.checkLabel here index label = {} ∨
      ∃ d, b.checkLabel here index label = .report d := by
  cases label with
  | none => exact .inl rfl
  | some label =>
    rw [checkLabel]
    split
    · exact .inl rfl
    · exact .inr ⟨_, rfl⟩

namespace Block

variable {k k' : Block} {d : Diagnostic}

/-- The reason of a line, given that the blocks that it opens are settled. -/
theorem judge_induct {P : Findings → Prop} (hP : Composes P)
    (hreport : ∀ d, k.Reports d → P (.report d))
    (hopens : ∀ k', k.Opens k' → P k'.check) {s : Site} {reason : Reason}
    (hjudges : k.Judges s reason) : P (judge s reason).found := by
  refine Site.judge_induct hP.empty hP.append
    (fun d hobjects => hreport d (.objection hjudges hobjects)) ?_
  rintro hypothesis lines H rfl hopen
  exact ⟨hP.entered _ _, hopens _ (.intro hjudges hopen), hP.left _ _⟩

/-- A line, given that the blocks that it opens are settled. -/
theorem checkLine_induct {P : Findings → Prop} (hP : Composes P)
    (hreport : ∀ d, k.Reports d → P (.report d))
    (hjudged : ∀ s reason, k.Judges s reason → P (judge s reason).found →
      P ((judge s reason).found ++
        .note (.judged s.location reason.rule (judge s reason).passed)))
    (hopens : ∀ k', k.Opens k' → P k'.check) {i : Nat} {line : Line}
    (hline : k.lines[i]? = some line) : P (k.checkLine i line) := by
  obtain ⟨label, formula, reason⟩ := line
  cases formula with
  | none =>
    rw [checkLine, checkLines, checkLines, Findings.append_empty]
    exact hreport _ (.missingFormula hline)
  | some f =>
    cases reason with
    | none =>
      rw [checkLine, checkLines, checkLines, Findings.append_empty]
      exact hreport _ (.missingReason hline)
    | some reason =>
      have hlabel : P (k.body.checkLabel (k.before i) i label) :=
        hP.label (k.body.checkLabel_found _ _ _) fun d hd =>
          hreport d (.label hline hd)
      cases hagrees : k.body.disagreement? f with
      | some offence =>
        rw [checkLine, checkLines, checkLines, Findings.append_empty, hagrees]
        exact hP.append hlabel (hreport _ (.disagreement hline hagrees))
      | none =>
        have hjudges : k.Judges (k.site i label f) reason :=
          .intro hline hagrees
        rw [checkLine_judged hagrees]
        exact hP.append hlabel
          (hjudged _ _ hjudges (judge_induct hP hreport hopens hjudges))

/-- **Induction over a run.**  A property of findings holds of all that is found
in a block if it holds of single diagnostics and records, of joined findings,
and of what is found in an opened block. -/
theorem run_induct {P : Block → Findings → Prop} (hP : ∀ k, Composes (P k))
    (hreport : ∀ k d, k.Reports d → P k (.report d))
    (hjudged : ∀ k s reason, k.Judges s reason → P k (judge s reason).found →
      P k ((judge s reason).found ++
        .note (.judged s.location reason.rule (judge s reason).passed)))
    (hinner : ∀ k k' found, k.Opens k' → P k' found → P k found) (k : Block) :
    P k k.check := by
  induction k using induct with
  | step k ih =>
    have hopens : ∀ k', k.Opens k' → P k k'.check :=
      fun k' hk' => hinner k k' _ hk' (ih k' hk')
    refine check_induct (hP k).empty (fun a b => (hP k).append) ?_
    intro i line hline
    exact checkLine_induct (hP k) (hreport k) (hjudged k) hopens hline

/-- Each of the diagnostics is about a line of the block or of a block that is
entered. -/
def Accounts (k : Block) (found : Findings) : Prop :=
  ∀ d ∈ found.errors, ∃ k', k.Enters k' ∧ k'.Reports d

/-- Findings may be accounted for one after the other. -/
theorem composes_accounts (k : Block) : Composes k.Accounts where
  empty := by simp [Accounts]
  append := by
    intro a b ha hb d hd
    rcases List.mem_append.1 hd with hd | hd
    · exact ha d hd
    · exact hb d hd
  entered := by simp [Accounts]
  left := by simp [Accounts]

/-- **Every diagnostic has an origin.** -/
theorem accounts_check (k : Block) : k.Accounts k.check := by
  refine run_induct composes_accounts ?_ ?_ ?_ k
  · intro k d hreports e he
    obtain rfl := List.mem_singleton.1 he
    exact ⟨k, .refl, hreports⟩
  · intro k s reason _ hfound d hd
    rw [Findings.errors_append, Findings.errors_note, List.append_nil] at hd
    exact hfound d hd
  · intro k k' found hopens hfound d hd
    obtain ⟨inner, henters, hreports⟩ := hfound d hd
    exact ⟨inner, .head hopens henters, hreports⟩

end Block

/-- What the check of a whole proof reports: about its lines, about the
proposition, or that no proofs are accepted. -/
theorem errors_checkProof_cases {setting : Setting} {location : Location}
    {proposition : Formula} {lines : List Line} {d : Diagnostic}
    (hd : d ∈ (checkProof setting location proposition lines).errors) :
    d ∈ (Block.whole setting location lines).check.errors ∨
      d ∈ (checkLast location proposition lines).errors ∨
      d = { defect := .proofsDisabled, location := location } := by
  rw [checkProof] at hd
  split at hd
  · simp only [Findings.errors_append, Findings.errors_note, List.nil_append,
      List.append_nil, List.mem_append] at hd
    exact hd.imp_right .inl
  · exact .inr (.inr (List.mem_singleton.1 hd))

/-! ## Where lines stand -/

/-- **A line and its place** in a proof that stands at some place, inside any
number of conditional proofs. -/
inductive LineAt : Location → List Line → Location → Line → Prop where
  | here {base : Location} {lines : List Line} {i : Nat} {line : Line}
      (hline : lines[i]? = some line) :
      LineAt base lines (base.item "line" i) line
  | inside {base : Location} {lines : List Line} {i : Nat}
      {label : Option String} {formula : Option Formula}
      {hypothesis : Hypothesis} {inner : List Line} {place : Location}
      {line : Line}
      (hline : lines[i]? =
        some ⟨label, formula, some (.conditionalProof hypothesis inner)⟩)
      (hinner : LineAt ((base.item "line" i).field "reason") inner place line) :
      LineAt base lines place line

namespace LineAt

variable {base place other target : Location} {lines : List Line}
  {line line' : Line}

/-- A line is at or below an item of the proof. -/
theorem exists_item (h : LineAt base lines place line) :
    ∃ i, (base.item "line" i).Covers place := by
  induction h with
  | here => exact ⟨_, .refl _⟩
  | @inside base _ i _ _ _ _ _ _ _ _ ih =>
    obtain ⟨j, hj⟩ := ih
    have hreason : (base.item "line" i).Covers
        ((base.item "line" i).field "reason") :=
      Location.covers_field _ _
    exact ⟨i, (hreason.item "line" j).trans hj⟩

theorem covers (h : LineAt base lines place line) : base.Covers place := by
  obtain ⟨i, hi⟩ := h.exists_item
  exact (Location.covers_field _ _).trans hi

/-- **Lines are told apart by their places.**  What lies in the formula of one
line and in a part of another is in the formula of the same line, or else the
first line belongs to the conditional proof that is the reason of the second. -/
theorem same_or_inside (hline : LineAt base lines place line)
    (hother : LineAt base lines other line') {part : String}
    (hpart : Location.Plain part)
    (hformula : (place.field "formula").Covers target)
    (htarget : (other.field part).Covers target) :
    (place = other ∧ line = line' ∧ part = "formula") ∨
      part = "reason" ∧ ∃ hypothesis inner j,
        line'.reason = some (.conditionalProof hypothesis inner) ∧
          ((other.field "reason").item "line" j).Covers target := by
  have hplace : place.Covers target :=
    (Location.covers_field _ _).trans hformula
  induction hother with
  | @here base lines i line' hother =>
    have hitem : (base.item "line" i).Covers target :=
      (Location.covers_field _ _).trans htarget
    cases hline with
    | here hline =>
      obtain rfl := Location.covers_item_unique hplace hitem
      obtain rfl : line = line' := Option.some.inj (hline.symm.trans hother)
      exact .inl ⟨rfl, rfl,
        Location.covers_field_unique hpart (by decide) htarget hformula⟩
    | @inside _ _ j _ _ _ _ _ _ hline hinner =>
      have hreason : ((base.item "line" j).field "reason").Covers target :=
        hinner.covers.trans hplace
      obtain rfl : j = i :=
        Location.covers_item_unique
          ((Location.covers_field _ _).trans hreason) hitem
      obtain rfl := Option.some.inj (hother.symm.trans hline)
      obtain ⟨m, hm⟩ := hinner.exists_item
      exact .inr ⟨
        Location.covers_field_unique hpart (by decide) htarget hreason,
        _, _, m, rfl, hm.trans hplace⟩
  | @inside base lines i _ _ _ _ other line' hother hinner ih =>
    have hreason : ((base.item "line" i).field "reason").Covers target :=
      hinner.covers.trans ((Location.covers_field _ _).trans htarget)
    have hitem : (base.item "line" i).Covers target :=
      (Location.covers_field _ _).trans hreason
    cases hline with
    | here hline =>
      obtain rfl := Location.covers_item_unique hplace hitem
      have hsame :=
        Location.covers_field_unique (by decide) (by decide) hformula hreason
      exact absurd hsame (by decide)
    | @inside _ _ j _ _ _ _ _ _ hline hinner' =>
      have hitem' : (base.item "line" j).Covers target :=
        (Location.covers_field _ _).trans (hinner'.covers.trans hplace)
      obtain rfl : j = i := Location.covers_item_unique hitem' hitem
      cases Option.some.inj (hline.symm.trans hother)
      exact ih hinner' htarget

end LineAt

namespace Block

variable {k k' : Block} {place : Location} {line : Line}

/-- Lines are judged in the setting of their block. -/
theorem Judges.setting_eq {s : Site} {reason : Reason} (h : k.Judges s reason) :
    s.setting = k.body.setting := by
  obtain ⟨-, -⟩ := h
  rfl

/-- All blocks of a run share the rules, the theory and the policy. -/
theorem Enters.setting_eq (h : k.Enters k') :
    k'.body.setting = k.body.setting := by
  induction h with
  | refl => rfl
  | tail _ hopens ih =>
    obtain ⟨⟨-, -⟩, -⟩ := hopens
    exact ih

/-- The lines of an opened block are lines of the proof around it. -/
theorem Opens.lineAt (h : k.Opens k')
    (hline : LineAt k'.body.location k'.lines place line) :
    LineAt k.body.location k.lines place line := by
  obtain ⟨⟨houter, -⟩, -⟩ := h
  exact .inside houter hline

/-- A line of a block that is entered is a line of the whole. -/
theorem Enters.lineAt (h : k.Enters k')
    (hline : LineAt k'.body.location k'.lines place line) :
    LineAt k.body.location k.lines place line := by
  induction h using Relation.ReflTransGen.head_induction_on with
  | refl => exact hline
  | head hopens _ ih => exact hopens.lineAt ih

end Block

end Deduction
