import Deduction.Proofs.Placement
import Mathlib.Data.List.Pairwise

/-!
# Verdicts are incremental and local

The check of a body goes on with each line where it left off.  What it reports
for the lines so far is final, and what it reports for a further line is placed
at that line.

Of the lines before, the verdict on a line depends on no more than their
**outlines**: the label, the formula, and whether there is a reason.  The scope
that the check hands on is built from outlines alone (`Body.scopeAfter`).  So it
makes no difference to a line how earlier lines are justified, or whether they
are, or what is assumed and concluded inside an earlier conditional proof, whose
labels are out of sight once it ends.
-/

namespace Deduction

/-- What the lines after a line can see of it. -/
structure Outline where
  label : Option String
  formula : Option Formula
  reasoned : Bool
  deriving DecidableEq, Repr

/-- The outline of a line: its reason counts as present or absent. -/
def Line.outline (line : Line) : Outline where
  label := line.label
  formula := line.formula
  reasoned := line.reason.isSome

namespace Body

variable (b : Body) {here : Scope} {index : Nat} {line : Line}
  {lines more : List Line}

/-- What can be cited after one more line.  A line that lacks a part is passed
over. -/
def scopeAfter (here : Scope) (index : Nat) : Outline → Scope
  | ⟨label, some formula, true⟩ => b.extend here index label formula
  | _ => here

/-- What can be cited after lines with the given outlines. -/
def scopeAfterAll (here : Scope) (index : Nat) : List Outline → Scope
  | [] => here
  | outline :: rest =>
    scopeAfterAll (b.scopeAfter here index outline) (index + 1) rest

/-! ## One line after the other -/

/-- **One line, then the rest.**  The rest learns of the line what its outline
says. -/
theorem checkLines_cons :
    checkLines b index here (line :: lines) =
      checkLines b index here [line] ++
        checkLines b (index + 1)
          (b.scopeAfter here index line.outline) lines := by
  obtain ⟨label, formula, reason⟩ := line
  cases formula with
  | none =>
    rw [checkLines, checkLines, checkLines, Findings.append_empty]
    rfl
  | some formula =>
    cases reason with
    | none =>
      rw [checkLines, checkLines, checkLines, Findings.append_empty]
      rfl
    | some reason =>
      rw [checkLines, checkLines, checkLines, Findings.append_empty]
      rfl

/-- **Some lines, then more.** -/
theorem checkLines_append :
    checkLines b index here (lines ++ more) =
      checkLines b index here lines ++
        checkLines b (index + lines.length)
          (b.scopeAfterAll here index (lines.map Line.outline)) more := by
  induction lines generalizing index here with
  | nil =>
    rw [checkLines, Findings.empty_append]
    rfl
  | cons line lines ih =>
    calc checkLines b index here (line :: lines ++ more)
        = checkLines b index here [line] ++
            checkLines b (index + 1) (b.scopeAfter here index line.outline)
              (lines ++ more) :=
          b.checkLines_cons
      _ = checkLines b index here [line] ++
            checkLines b (index + 1)
              (b.scopeAfter here index line.outline) lines ++
            checkLines b (index + 1 + lines.length)
              (b.scopeAfterAll (b.scopeAfter here index line.outline)
                (index + 1) (lines.map Line.outline)) more := by
          rw [ih, Findings.append_assoc]
      _ = checkLines b index here (line :: lines) ++
            checkLines b (index + (line :: lines).length)
              (b.scopeAfterAll here index
                ((line :: lines).map Line.outline)) more := by
          rw [← checkLines_cons, List.length_cons, Nat.add_right_comm,
            Nat.add_assoc]
          rfl

/-! ## Document order -/

/-- No place lies in two lines of a body. -/
theorem covers_place_unique {place : Location} {i j : Nat}
    (hi : (b.place i).Covers place) (hj : (b.place j).Covers place) : i = j :=
  Location.covers_item_unique hi hj

/-- The first diagnostic is below no later line than the second. -/
def Ordered (d e : Diagnostic) : Prop :=
  ∀ i j, d.Below (b.place i) → e.Below (b.place j) → i ≤ j

/-- Diagnostics of lines in order are in order. -/
theorem ordered_of_below {d e : Diagnostic} {i j : Nat}
    (hd : d.Below (b.place i)) (he : e.Below (b.place j)) (hij : i ≤ j) :
    b.Ordered d e := by
  intro i' j' hi' hj'
  rw [b.covers_place_unique hi' hd, b.covers_place_unique hj' he]
  exact hij

/-- The diagnostics of one line are below that line. -/
theorem checkLines_singleton_below :
    ∀ d ∈ (checkLines b index here [line]).errors, d.Below (b.place index) := by
  intro d hd
  obtain ⟨i, hle, hlt, hi⟩ := checkLines_below [line] b index here d hd
  obtain rfl : i = index := by
    rw [List.length_singleton] at hlt
    omega
  exact hi

/-- **Diagnostics come in the order of the lines.** -/
theorem checkLines_ordered :
    (checkLines b index here lines).errors.Pairwise b.Ordered := by
  induction lines generalizing index here with
  | nil => rw [checkLines]; exact .nil
  | cons line lines ih =>
    have hfirst : ∀ d ∈ (checkLines b index here [line]).errors,
        d.Below (b.place index) :=
      b.checkLines_singleton_below
    -- The diagnostics of the first line share its number, and all others have
    -- larger ones.
    rw [checkLines_cons, Findings.errors_append, List.pairwise_append]
    refine ⟨List.pairwise_of_forall_mem_list ?_, ih, ?_⟩
    · intro d hd e he
      exact b.ordered_of_below (hfirst d hd) (hfirst e he) (Nat.le_refl _)
    · intro d hd e he
      obtain ⟨j, hle, -, hj⟩ := checkLines_below lines b (index + 1) _ e he
      exact b.ordered_of_below (hfirst d hd) hj (by omega)

end Body

/-- **Verdicts are incremental and local.**  In any body, after any lines:

* A further line adds findings of its own, placed at that line or below it.
  They are the same after all lines with the same outlines.
* The diagnostics come in the order of the lines, each at or below exactly one
  line.
* Whatever lines follow, the findings so far stay as they are, and nothing is
  reported of these lines any more. -/
theorem verdicts_incremental_and_local (b : Body) (lines : List Line) :
    (∀ line, ∃ found : Findings,
        (∀ d ∈ found.errors, (b.place lines.length).Covers d.location) ∧
        ∀ others : List Line, others.map Line.outline = lines.map Line.outline →
          checkLines b 0 [] (others ++ [line]) =
            checkLines b 0 [] others ++ found) ∧
      (checkLines b 0 [] lines).errors.Pairwise (fun d e => ∀ i j,
        (b.place i).Covers d.location → (b.place j).Covers e.location → i ≤ j) ∧
      (∀ d ∈ (checkLines b 0 [] lines).errors,
        ∃! i, i < lines.length ∧ (b.place i).Covers d.location) ∧
      ∀ more : List Line, ∃ found : Findings,
        checkLines b 0 [] (lines ++ more) = checkLines b 0 [] lines ++ found ∧
        ∀ d ∈ found.errors,
          ∀ i < lines.length, ¬ (b.place i).Covers d.location := by
  refine ⟨fun line => ?_, b.checkLines_ordered, fun d hd => ?_, fun more => ?_⟩
  · let scope := b.scopeAfterAll [] 0 (lines.map Line.outline)
    refine ⟨checkLines b lines.length scope [line],
      b.checkLines_singleton_below, ?_⟩
    intro others hothers
    have hlength : others.length = lines.length := by
      simpa using congrArg List.length hothers
    rw [b.checkLines_append, hothers, hlength, Nat.zero_add]
  · obtain ⟨i, -, hlt, hi⟩ := checkLines_below lines b 0 [] d hd
    refine ⟨i, ⟨by omega, hi⟩, fun j hj => ?_⟩
    exact b.covers_place_unique hj.2 hi
  · refine ⟨_, b.checkLines_append, fun d hd i hi hcovers => ?_⟩
    obtain ⟨j, hle, -, hj⟩ := checkLines_below more b _ _ d hd
    have hij := b.covers_place_unique hcovers hj
    omega

end Deduction
