import Deduction.Proofs.Citations

/-!
# What diagnostics refer to

A diagnostic may refer to the cited formula by its place.  All that is visible
at a line stands in the proof (`Block.Judges.stands`), and the place is that of
the formula which the rule has worked with, with one exception.  To restate a
formula is to cite a hypothesis or a proved formula, but its place is looked up
among the lines first.  A line that has the same label, and is nearer than any
hypothesis, is then referred to in its stead.
-/

namespace Deduction

/-- **What can be cited stands in the proof**: a line with label, formula and
reason, or the hypothesis of a conditional proof. -/
inductive Stands (base : Location) (lines : List Line) : Citable → Prop where
  | line {place : Location} {line : Line} {r : String} {A : Formula}
      (hline : LineAt base lines place line) (hgives : line.Gives r A) :
      Stands base lines ⟨r, A, place, false⟩
  | hypothesis {place : Location} {line : Line} {r : String} {H : Formula}
      {inner : List Line} (hline : LineAt base lines place line)
      (hreason : line.reason =
        some (.conditionalProof ⟨some r, some H⟩ inner)) :
      Stands base lines ⟨r, H, (place.field "reason").field "hypothesis", true⟩

/-- What can be cited after a line could be before, or it is what the line
gives. -/
theorem Body.mem_scopeAfter {b : Body} {here : Scope} {index : Nat}
    {line : Line} {entry : Citable}
    (h : entry ∈ b.scopeAfter here index line.outline) :
    entry ∈ here ∨ ∃ r A, line.Gives r A ∧
      entry = ⟨r, A, b.place index, false⟩ := by
  obtain ⟨label, formula, reason⟩ := line
  cases formula with
  | none => exact .inl h
  | some A =>
    cases reason with
    | none => exact .inl h
    | some reason =>
      cases label with
      | none => exact .inl h
      | some r =>
        rcases List.mem_cons.1 h with rfl | h
        · exact .inr ⟨r, A, ⟨rfl, rfl, rfl⟩, rfl⟩
        · exact .inl h

namespace Block

variable {k : Block} {entry : Citable} {setting : Setting} {location : Location}
  {lines : List Line} {s : Site} {reason : Reason} {d : Diagnostic}
  {place : Location}

/-- What lines leave to be cited stands in the block. -/
theorem stands_before (k : Block) (i : Nat) :
    ∀ entry ∈ k.before i, Stands k.body.location k.lines entry := by
  induction i with
  | zero => exact fun _ hentry => nomatch hentry
  | succ i ih =>
    intro entry hentry
    cases hline : k.lines[i]? with
    | none =>
      rw [before, List.take_add_one, hline, Option.toList_none,
        List.append_nil] at hentry
      exact ih entry hentry
    | some line =>
      rw [before_succ hline] at hentry
      rcases Body.mem_scopeAfter hentry with hearlier | ⟨r, A, hgives, rfl⟩
      · exact ih entry hearlier
      · exact .line (.here hline) hgives

/-- What stands in a block that is entered stands in the whole. -/
theorem Enters.stands {k' : Block} (h : k.Enters k')
    (hstands : Stands k'.body.location k'.lines entry) :
    Stands k.body.location k.lines entry := by
  cases hstands with
  | line hline hgives => exact .line (h.lineAt hline) hgives
  | hypothesis hline hreason => exact .hypothesis (h.lineAt hline) hreason

/-- What is visible at a line comes from the lines before or from outside. -/
theorem mem_visible_site {i : Nat} {label : Option String} {f : Formula}
    (h : entry ∈ (k.site i label f).visible) :
    entry ∈ k.before i ∨ entry ∈ k.body.outer := by
  refine (List.mem_append.1 h).imp_left fun hhere => ?_
  cases label with
  | none => exact hhere
  | some l => exact List.mem_of_mem_filter hhere

/-- **Where a line is judged**, all that can be cited stands in the proof, if
all that can be cited from outside does. -/
theorem stands_site {i : Nat} {label : Option String} {f : Formula}
    (henters : (whole setting location lines).Enters k)
    (houter : ∀ entry ∈ k.body.outer, Stands location lines entry) :
    ∀ entry ∈ (k.site i label f).visible, Stands location lines entry := by
  intro entry hentry
  rcases mem_visible_site hentry with hbefore | hentry
  · exact henters.stands (k.stands_before i entry hbefore)
  · exact houter entry hentry

/-- The hypothesis of a conditional proof that is opened stands in the block. -/
theorem stands_hypothesis {i : Nat} {label : Option String} {f H : Formula}
    {r : String} {hypothesis : Hypothesis} {inner : List Line}
    (hline : k.lines[i]? =
      some ⟨label, some f, some (.conditionalProof hypothesis inner)⟩)
    (hopen : (k.site i label f).openConditional hypothesis inner = .ok H)
    (hr : hypothesis.label = some r) :
    Stands k.body.location k.lines
      ⟨r, H, (k.site i label f).partPlace "hypothesis", true⟩ := by
  have hformula : hypothesis.formula = some H :=
    (Site.openConditional_eq_ok_iff.1 hopen).2.1
  obtain ⟨label', formula⟩ := hypothesis
  obtain rfl : label' = some r := hr
  obtain rfl : formula = some H := hformula
  exact .hypothesis (.here hline) rfl

/-- What is visible outside of a block stands in the proof, by induction on the
conditional proofs around it. -/
theorem stands_outer (henters : (whole setting location lines).Enters k) :
    ∀ entry ∈ k.body.outer, Stands location lines entry := by
  induction henters with
  | refl => exact fun _ hentry => nomatch hentry
  | tail henters hopens ih =>
    obtain ⟨⟨hline, -⟩, hopen⟩ := hopens
    intro entry hentry
    rcases List.mem_append.1 hentry with hhypothesis | hvisible
    · obtain ⟨r, hr, rfl⟩ :=
        Option.map_eq_some_iff.1 (Option.mem_toList.1 hhypothesis)
      exact Enters.stands henters (stands_hypothesis hline hopen hr)
    · exact stands_site henters ih entry hvisible

/-- **All that is visible at a line stands in the proof.** -/
theorem Judges.stands (henters : (whole setting location lines).Enters k)
    (hjudges : k.Judges s reason) :
    ∀ entry ∈ s.visible, Stands location lines entry := by
  obtain ⟨-, -⟩ := hjudges
  exact stands_site henters (stands_outer henters)

end Block

/-! ## The formula that a rule works with -/

namespace Scope

variable {scope : Scope} {r : String} {entry : Citable}

end Scope

namespace Site

variable (s : Site) {reason : Reason} {entry : Citable} {used : Proved}
  {place : Location} {d : Diagnostic}

end Site

namespace Site

variable (s : Site) {reason : Reason} {place : Location} {d : Diagnostic}

end Site

namespace ShadowedCitation

open Formula (letter)

/-- Proved are `A` and `B`. -/
def logic : Setting where
  policy := .basic
  rules := .allAt .basic
  theory :=
    (({} : Theory).prove "a" (letter "A") ⟨"m", "proved[a]"⟩).prove "b"
      (letter "B") ⟨"m", "proved[b]"⟩

/-- The label of the proved formula `A` is given to a line, and then `A` is
cited. -/
def lines : List Line :=
  [⟨some "a", some (letter "B"), some (.add (some "b"))⟩,
    ⟨none, some (letter "B"), some (.add (some "a"))⟩]

/-- The line that cites `A`. -/
def site : Site :=
  (Block.whole logic ⟨"m", "p"⟩ lines).site 1 none (letter "B")

/-- The complaint that the line is not `A`. -/
def complaint : Diagnostic where
  defect := .formulaDiffers
  location := ⟨"m", "p.line[1].formula.element[0]"⟩
  detail := some "expected PREDVAR(\"A\")"
  reference := some ⟨"m", "p.line[0]"⟩

theorem errors_eq :
    (checkProof logic ⟨"m", "p"⟩ (letter "B") lines).errors = [complaint] := by
  decide +kernel

end ShadowedCitation

end Deduction
