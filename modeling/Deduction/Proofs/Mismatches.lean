import Deduction.Proofs.Blocks
import Deduction.Proofs.Detachment

/-!
# Where formulas are found to differ

A line that is not what its rule yields is reported at the first difference, by
a path into the line's formula.  The path is found in the normalized formula,
while the place is that of the formula as it is written.  Normalization keeps
every node that is not **expandable**: a node that is no application, or applies
a name that is not defined (`Theory.fixes_of_not_expandable`).  So the path
leads to a subformula of the written formula as long as it passes no expandable
one, and past such a node it may lead nowhere.

That a diagnostic at a formula is about that very formula has to be read off its
place.  Lines are told apart by their places (`LineAt.same_or_inside`), and what
a conditional proof is itself objected to lies outside of its lines
(`Site.Objects.place`).

The last line is compared with the proposition as it is written, and there the
path always fits.
-/

namespace Deduction

namespace Formula

/-- **The first difference is found in both formulas.** -/
theorem isSome_subformula?_of_firstDifference? {f g : Formula} {path : Path}
    (h : firstDifference? f g = some path) :
    (f.subformula? path).isSome = true ∧
      (g.subformula? path).isSome = true := by
  obtain ⟨f', g', hf, hg, -⟩ :=
    ((firstDifference?_eq_some_iff f g path).1 h).found
  exact ⟨Option.isSome_of_eq_some hf, Option.isSome_of_eq_some hg⟩

end Formula

namespace Theory

variable (theory : Theory) {op : Operator} {cs : List Formula} {f : Formula}
  {path : Path}

/-- **A formula that normalization may take apart**: an application of a defined
name, or one without a name. -/
def Expandable (f : Formula) : Prop :=
  ∃ op cs, f = .node op cs ∧ op.isApplication = true ∧
    ∀ s, f.symbol? = some s →
      ∃ d ∈ theory.definitions, d.template.symbol? = some s

variable {theory}

/-- A node that cannot be expanded stays in place. -/
theorem fixes_of_not_expandable (h : ¬ theory.Expandable (.node op cs)) :
    theory.Fixes op cs := by
  by_cases hop : op.isApplication = true
  · obtain ⟨s, hs, hundefined⟩ : ∃ s, (Formula.node op cs).symbol? = some s ∧
        ∀ d ∈ theory.definitions, d.template.symbol? ≠ some s := by
      by_contra hnone
      refine h ⟨op, cs, rfl, hop, fun s hs => ?_⟩
      by_contra hdefined
      exact hnone ⟨s, hs, fun d hd hsymbol => hdefined ⟨d, hd, hsymbol⟩⟩
    have happlies : Formula.applies s (.node op cs) = true := decide_eq_true hs
    obtain ⟨args, -, -, heq⟩ := Formula.applies_eq_true_iff.1 happlies
    obtain ⟨rfl, rfl⟩ := Formula.node.inj heq
    refine ⟨fun _ => ⟨_, _, rfl⟩, fun d hd t ht hst => ?_⟩
    obtain rfl : s = t := Option.some.inj (hs.symm.trans hst)
    exact hundefined d hd ht
  · exact fixes_of_not_application (by simpa using hop)

/-- Atoms are their own normal forms. -/
theorem normalize_atom (theory : Theory) (name : String) :
    theory.normalize (.atom name) = .atom name := by
  rw [normalize, settle_eq_iterate,
    Function.iterate_fixed (theory.expand_atom name)]

/-- **A path into the normalized formula** leads into the formula as it is
written, or it passes an expandable formula on the way. -/
theorem isSome_subformula?_of_normalize
    (h : ((theory.normalize f).subformula? path).isSome = true) :
    (f.subformula? path).isSome = true ∨
      ∃ upper lower g, path = upper ++ lower ∧ lower ≠ [] ∧
        f.subformula? upper = some g ∧ theory.Expandable g := by
  induction path generalizing f with
  | nil => exact .inl (by simp)
  | cons i path ih =>
    cases f with
    | atom name =>
      rw [normalize_atom] at h
      cases h
    | node op cs =>
      by_cases hexpandable : theory.Expandable (.node op cs)
      · exact .inr ⟨[], i :: path, _, rfl, nofun,
          Formula.subformula?_nil _, hexpandable⟩
      · rw [(fixes_of_not_expandable hexpandable).normalize,
          Formula.subformula?, List.getElem?_map] at h
        rw [Formula.subformula?]
        cases hc : cs[i]? with
        | none => simp [hc] at h
        | some c =>
          rw [hc] at h
          rcases ih h with hsome | ⟨upper, lower, g, rfl, hlower, hg, hexpands⟩
          · exact .inl hsome
          · refine .inr ⟨i :: upper, lower, g, rfl, hlower, ?_, hexpands⟩
            rw [Formula.subformula?, hc]
            exact hg

end Theory

/-! ## Places of a reason -/

namespace Site

variable {s : Site} {reason : Reason} {d : Diagnostic} {target : Location}

/-- A place of a conditional proof outside of its lines. -/
def OwnPlace (s : Site) (target : Location) : Prop :=
  target = s.reasonPlace ∨ (s.partPlace "hypothesis").Covers target ∨
    (s.partPlace "lines").Covers target

/-- The place lies in the reason. -/
theorem OwnPlace.covers (h : s.OwnPlace target) :
    s.reasonPlace.Covers target := by
  rcases h with rfl | hhypothesis | hlines
  · exact .refl _
  · exact (s.covers_partPlace _).trans hhypothesis
  · exact (s.covers_partPlace _).trans hlines

/-- The place lies in no line of the conditional proof. -/
theorem OwnPlace.not_item (h : s.OwnPlace target) (j : Nat) :
    ¬ (s.reasonPlace.item "line" j).Covers target := by
  intro hitem
  rcases h with rfl | hhypothesis | hlines
  · exact Location.not_covers_of_item j hitem
  · exact Location.covers_item_field (by decide) (by decide) (by decide)
      hitem hhypothesis
  · exact Location.covers_item_field (by decide) (by decide) (by decide)
      hitem hlines

/-- A conditional proof that is not opened is complained of outside of its
lines. -/
theorem openConditional_ownPlace (hypothesis : Hypothesis) (lines : List Line) :
    StopsWith (fun d => s.OwnPlace d.location)
      (s.openConditional hypothesis lines) := by
  refine .bind (.ensure (.inl rfl)) fun _ _ => ?_
  split
  · exact .error (.inr (.inl (Location.covers_field _ _)))
  · exact .bind (.ensure (.inr (.inr (.refl _)))) fun _ _ =>
      .bind (.ensure (.inl rfl)) fun _ _ => .ok _

/-- The conclusion is complained of in the formula of the line, or in the reason
outside of its lines. -/
theorem checkConclusion_place (assumption last : Formula) :
    StopsWith (fun d => s.InFormula d.location ∨ s.OwnPlace d.location)
      (s.checkConclusion assumption last) := by
  refine .bind (.ensure (.inl ⟨[], rfl, .inl rfl⟩)) fun _ _ =>
    .bind ?_ fun _ _ => ?_
  · rw [checkStatement]
    split
    · exact .ok _
    next path hpath => exact .error (.inl ⟨path, rfl, .inr ⟨_, hpath⟩⟩)
  · exact (s.checkRule_place _).mono fun d hd => .inr (.inl hd.1)

/-- **Where a reason is objected to**: in the line's formula, or in the reason
and outside of the lines of a conditional proof. -/
theorem Objects.place (h : s.Objects reason d) :
    s.InFormula d.location ∨
      s.reasonPlace.Covers d.location ∧
        (reason.rule = .conditionalProof →
          ∀ j, ¬ (s.reasonPlace.item "line" j).Covers d.location) := by
  have hown : s.OwnPlace d.location → s.reasonPlace.Covers d.location ∧
      (reason.rule = .conditionalProof →
        ∀ j, ¬ (s.reasonPlace.item "line" j).Covers d.location) :=
    fun h => ⟨h.covers, fun _ => h.not_item⟩
  cases h with
  | rule hreason hjudge =>
    have hfault :=
      s.judge_fault hreason d (by rw [hjudge]; exact List.mem_singleton_self d)
    exact hfault.place.symm.imp_right fun hcovers =>
      ⟨hcovers, fun h => absurd h hreason⟩
  | opening hopen => exact .inr (hown (openConditional_ownPlace _ _ d hopen))
  | label hd =>
    obtain ⟨_, _, -, -, rfl⟩ := s.mem_checkHypothesisLabel.1 hd
    exact .inr (hown (.inr (.inl (Location.covers_field _ _))))
  | conclusion hconclusion =>
    exact (checkConclusion_place _ _ d hconclusion).imp_right hown

end Site

/-! ## Diagnostics at a formula -/

section

variable {setting : Setting} {location place other : Location}
  {proposition f : Formula} {lines : List Line} {line line' : Line}
  {d : Diagnostic} {path path' : Path}

/-- The line and the path are determined by the place. -/
theorem LineAt.formula_unique (hline : LineAt location lines place line)
    (hother : LineAt location lines other line')
    (heq : (place.field "formula").follow path =
      (other.field "formula").follow path') :
    line = line' ∧ path = path' := by
  have hcovers :
      (place.field "formula").Covers ((place.field "formula").follow path) :=
    (Location.Covers.refl _).follow path
  have hcovers' :
      (other.field "formula").Covers ((place.field "formula").follow path) := by
    rw [heq]
    exact (Location.Covers.refl _).follow path'
  rcases hline.same_or_inside hother (by decide) hcovers hcovers' with
    ⟨rfl, rfl, -⟩ | ⟨hpart, -⟩
  · exact ⟨rfl, Location.follow_injective _ heq⟩
  · exact absurd hpart (by decide)

/-- **A diagnostic at a formula is about that formula**: about the whole of it,
or its first difference from what is expected, once it is normalized. -/
theorem Block.Reports.path_eq {k : Block}
    (henters : (Block.whole setting location lines).Enters k)
    (hreports : k.Reports d) (hline : LineAt location lines place line)
    (hformula : line.formula = some f)
    (hplace : d.location = (place.field "formula").follow path) :
    path = [] ∨
      ∃ expected,
        Formula.firstDifference? expected (setting.theory.normalize f) =
          some path := by
  have hcovers : (place.field "formula").Covers d.location := by
    rw [hplace]
    exact (Location.Covers.refl _).follow path
  have hroot : ∀ {other : Location},
      other.field "formula" = (place.field "formula").follow path →
      (place.field "formula").follow path = (other.field "formula").follow [] :=
    Eq.symm
  cases hreports with
  | missingFormula hother =>
    obtain ⟨rfl, -⟩ :=
      hline.formula_unique (henters.lineAt (.here hother)) (hroot hplace)
    cases hformula
  | missingReason hother =>
    rcases hline.same_or_inside (henters.lineAt (.here hother)) (by decide)
        hcovers (.refl _) with
      ⟨-, -, hpart⟩ | ⟨-, _, _, _, hreason, -⟩
    · exact absurd hpart (by decide)
    · cases hreason
  | @label i label _ _ _ hother hd =>
    have hlabel : ((k.body.place i).field "label").Covers d.location := by
      rw [(Body.mem_checkLabel hd).2]
      exact .refl _
    rcases hline.same_or_inside (henters.lineAt (.here hother)) (by decide)
        hcovers hlabel with
      ⟨-, -, hpart⟩ | ⟨hpart, -⟩
    · exact absurd hpart (by decide)
    · exact absurd hpart (by decide)
  | disagreement hother =>
    obtain ⟨-, rfl⟩ :=
      hline.formula_unique (henters.lineAt (.here hother)) (hroot hplace)
    exact .inl rfl
  | objection hjudges hobjects =>
    have hsetting := hjudges.setting_eq.trans henters.setting_eq
    obtain ⟨hother, -⟩ := hjudges
    have hat := henters.lineAt (.here hother)
    rcases hobjects.place with
      ⟨path', hpath', hdifference⟩ | ⟨hreason, houtside⟩
    · obtain ⟨rfl, rfl⟩ := hline.formula_unique hat (hplace.symm.trans hpath')
      cases hformula
      rwa [Site.statement, Site.normalize, hsetting] at hdifference
    · rcases hline.same_or_inside hat (by decide) hcovers hreason with
        ⟨-, -, hpart⟩ | ⟨-, _, _, j, hconditional, hinside⟩
      · exact absurd hpart (by decide)
      · cases hconditional
        exact absurd hinside (houtside rfl j)

theorem not_lineAt_nil : ¬ LineAt location [] place line := by
  intro h
  cases h with
  | here hline => cases hline
  | inside hline => cases hline

/-- **The last line** is compared as it is written. -/
theorem isSome_subformula?_of_checkLast
    (hd : d ∈ (checkLast location proposition lines).errors)
    (hline : LineAt location lines place line)
    (hformula : line.formula = some f)
    (hplace : d.location = (place.field "formula").follow path) :
    (f.subformula? path).isSome = true := by
  rw [checkLast] at hd
  split at hd
  next hnone =>
    rw [List.getLast?_eq_none_iff.1 hnone] at hline
    exact absurd hline not_lineAt_nil
  next last hlast =>
    split at hd
    · cases hd
    next path' hpath' =>
      obtain rfl := List.mem_singleton.1 hd
      obtain ⟨g, hg, hdifference⟩ := Option.bind_eq_some_iff.1 hpath'
      rw [List.getLast?_eq_getElem?] at hlast
      obtain ⟨rfl, rfl⟩ := hline.formula_unique (.here hlast) hplace.symm
      obtain rfl : f = g := Option.some.inj (hformula.symm.trans hg)
      exact (Formula.isSome_subformula?_of_firstDifference? hdifference).2

/-- **Where formulas are found to differ.**  If a diagnostic is placed at the
formula of a line or below it, its path leads to a subformula of the formula as
it is written.  There is one exception: the path was found in the normalized
formula, and above its end it passes an application of a defined name, or one
without a name.  Where the last line is compared with the proposition there is
no exception. -/
theorem difference_lies_in_formula
    (hd : d ∈ (checkProof setting location proposition lines).errors)
    (hline : LineAt location lines place line)
    (hformula : line.formula = some f)
    (hplace : d.location = (place.field "formula").follow path) :
    ((f.subformula? path).isSome = true ∨
      ((setting.theory.normalize f).subformula? path).isSome = true ∧
        ∃ upper lower g, path = upper ++ lower ∧ lower ≠ [] ∧
          f.subformula? upper = some g ∧ setting.theory.Expandable g) ∧
    (d ∈ (checkLast location proposition lines).errors →
      (f.subformula? path).isSome = true) := by
  have hlast : d ∈ (checkLast location proposition lines).errors →
      (f.subformula? path).isSome = true :=
    fun hd => isSome_subformula?_of_checkLast hd hline hformula hplace
  refine ⟨?_, hlast⟩
  rcases errors_checkProof_cases hd with hlines | hd | rfl
  · obtain ⟨k, henters, hreports⟩ := Block.accounts_check _ d hlines
    rcases hreports.path_eq henters hline hformula hplace with
      rfl | ⟨expected, hdifference⟩
    · exact .inl (by rw [Formula.subformula?_nil]; rfl)
    · have hsome :=
        (Formula.isSome_subformula?_of_firstDifference? hdifference).2
      exact (Theory.isSome_subformula?_of_normalize hsome).imp_right
        fun h => ⟨hsome, h⟩
  · exact .inl (hlast hd)
  · -- The place of the whole proof lies in none of its lines.
    obtain ⟨i, hi⟩ := hline.exists_item
    have hcovers : (location.item "line" i).Covers
        ((place.field "formula").follow path) :=
      (hi.field "formula").follow path
    rw [← hplace] at hcovers
    exact absurd hcovers (Location.not_covers_of_item i)

end

namespace DefinedConjunction

/-- The conjunction of two predicate variables. -/
def conjunction (first second : String) : Formula :=
  .node .conjunction [.letter first, .letter second]

/-- The constant that is defined. -/
def constant : Formula :=
  .application .predicateConstant "c" []

/-- The constant stands for `A ∧ C`, and `A ∧ B` is proved. -/
def logic : Setting where
  policy := .basic
  rules := .allAt .basic
  theory :=
    (({} : Theory).prove "ab" (conjunction "A" "B")
      ⟨"m", "proved[ab]"⟩).define constant (conjunction "A" "C")

/-- Restates `A ∧ B` as the constant. -/
def line : Line :=
  ⟨none, some constant, some (.add (some "ab"))⟩

/-- The complaint that the line is not `A ∧ B`. -/
def complaint : Diagnostic where
  defect := .formulaDiffers
  location := ⟨"m", "p.line[0].formula.element[1].element[0]"⟩
  detail := some "expected AND(PREDVAR(\"A\"), PREDVAR(\"B\"))"
  reference := some ⟨"m", "proved[ab]"⟩

theorem errors_eq :
    (checkProof logic ⟨"m", "p"⟩ constant [line]).errors = [complaint] := by
  decide +kernel

theorem lineAt_line : LineAt ⟨"m", "p"⟩ [line] ⟨"m", "p.line[0]"⟩ line := by
  have hplace : Location.item ⟨"m", "p"⟩ "line" 0 = ⟨"m", "p.line[0]"⟩ := by
    decide
  rw [← hplace]
  exact .here rfl

/-- The path passes the constant. -/
theorem path_passes_definition :
    complaint ∈ (checkProof logic ⟨"m", "p"⟩ constant [line]).errors ∧
      LineAt ⟨"m", "p"⟩ [line] ⟨"m", "p.line[0]"⟩ line ∧
      line.formula = some constant ∧
      complaint.location =
        (Location.field ⟨"m", "p.line[0]"⟩ "formula").follow [1, 0] ∧
      ((constant.subformula? [1, 0]).isSome = true ∨
        ((logic.theory.normalize constant).subformula? [1, 0]).isSome = true ∧
          ∃ upper lower g, [1, 0] = upper ++ lower ∧ lower ≠ [] ∧
            constant.subformula? upper = some g ∧
            logic.theory.Expandable g) := by
  have hmem : complaint ∈
      (checkProof logic ⟨"m", "p"⟩ constant [line]).errors := by
    rw [errors_eq]
    exact List.mem_singleton_self _
  have hplace : complaint.location =
      (Location.field ⟨"m", "p.line[0]"⟩ "formula").follow [1, 0] := by decide
  exact ⟨hmem, lineAt_line, rfl, hplace,
    (difference_lies_in_formula hmem lineAt_line rfl hplace).1⟩

/-- **A place that does not exist.**  The constant, as it is written, has one
child and no second. -/
theorem place_not_in_written_formula :
    (checkProof logic ⟨"m", "p"⟩ constant [line]).errors = [complaint] ∧
      LineAt ⟨"m", "p"⟩ [line] ⟨"m", "p.line[0]"⟩ line ∧
      line.formula = some constant ∧
      complaint.location =
        (Location.field ⟨"m", "p.line[0]"⟩ "formula").follow [1, 0] ∧
      constant.subformula? [1, 0] = none :=
  ⟨errors_eq, lineAt_line, rfl, by decide, rfl⟩

end DefinedConjunction

end Deduction
