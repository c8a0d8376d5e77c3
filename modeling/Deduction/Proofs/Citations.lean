import Deduction.Proofs.Blocks

/-!
# What a label stands for

A label may be given more than once, and it may name lines, hypotheses and
proved formulas alike.  This file says which of them a line means when it cites
a label.

Within a block the nearest line before counts, as with a register that holds
what was written to it last (`Nearest.named?_before`).  The label of a line is
taken from earlier lines before the line is judged.  So a line that repeats a
label cannot cite the earlier line of that label; it cites what the label stands
for outside of the block.
-/

namespace Deduction

/-- The line can be cited by the label, and then it stands for the formula. -/
def Line.Gives (line : Line) (r : String) (A : Formula) : Prop :=
  line.label = some r ∧ line.formula = some A ∧ line.reason.isSome = true

namespace Scope

variable {scope : Scope} {l r : String} {entry : Citable}

/-- The first entry of a label counts. -/
theorem named?_append (first rest : Scope) (r : String) :
    Scope.named? (first ++ rest) r = (first.named? r).or (rest.named? r) :=
  List.find?_append

/-- A label that was taken out names nothing. -/
theorem named?_without_self (scope : Scope) (r : String) :
    (scope.without r).named? r = none := by
  simp [named?, without]

/-- All other labels keep their entries. -/
theorem named?_without_of_ne (scope : Scope) (hne : l ≠ r) :
    (scope.without l).named? r = scope.named? r := by
  have htest : ∀ entry : Citable,
      decide (decide (entry.label ≠ l) = true ∧
          decide (entry.label = r) = true) =
        decide (entry.label = r) := by
    intro entry
    by_cases hr : entry.label = r
    · simp [hr, hne.symm]
    · simp [hr]
  rw [named?, without, List.find?_filter, funext htest]
  rfl

end Scope

namespace Body

variable (b : Body) {here : Scope} {index : Nat} {line : Line} {r : String}
  {A : Formula}

/-- A line that gives the label is the nearest from then on. -/
theorem named?_scopeAfter (h : line.Gives r A) :
    (b.scopeAfter here index line.outline).named? r =
      some ⟨r, A, b.place index, false⟩ := by
  obtain ⟨label, formula, reason⟩ := line
  obtain ⟨rfl, rfl, hreason⟩ := h
  obtain ⟨reason, rfl⟩ := Option.isSome_iff_exists.1 hreason
  simp [Line.outline, scopeAfter, extend, Scope.named?]

/-- Any other line leaves the label alone. -/
theorem named?_scopeAfter_of_not_gives (h : ∀ A, ¬ line.Gives r A) :
    (b.scopeAfter here index line.outline).named? r = here.named? r := by
  obtain ⟨label, formula, reason⟩ := line
  cases formula with
  | none => rfl
  | some A =>
    cases reason with
    | none => rfl
    | some reason =>
      cases label with
      | none => rfl
      | some l =>
        have hne : l ≠ r := fun hl => h A ⟨congrArg some hl, rfl, rfl⟩
        simp [Line.outline, scopeAfter, extend, Scope.named?, hne]

end Body

namespace Block

variable {k k' : Block} {i j : Nat} {label : Option String} {r : String}
  {f A : Formula}

/-- No line before line `i` can be cited by the label. -/
def Unnamed (k : Block) (i : Nat) (r : String) : Prop :=
  ∀ j line A, j < i → k.lines[j]? = some line → ¬ line.Gives r A

/-- **The nearest line**: line `j` is the last before line `i` that can be cited
by the label. -/
structure Nearest (k : Block) (i : Nat) (r : String) (j : Nat) (A : Formula) :
    Prop where
  lt : j < i
  gives : ∃ line, k.lines[j]? = some line ∧ line.Gives r A
  last : ∀ j' line B, j < j' → j' < i → k.lines[j']? = some line →
    ¬ line.Gives r B

/-- Either the label is given before the line, and then there is a last time, or
it is not. -/
theorem unnamed_or_exists_nearest (k : Block) (i : Nat) (r : String) :
    k.Unnamed i r ∨ ∃ j A, k.Nearest i r j A := by
  induction i with
  | zero => exact .inl fun j line A hj => absurd hj (Nat.not_lt_zero j)
  | succ i ih =>
    by_cases hgives : ∃ line A, k.lines[i]? = some line ∧ line.Gives r A
    · obtain ⟨line, A, hline, hgives⟩ := hgives
      exact .inr ⟨i, A, by omega, ⟨line, hline, hgives⟩,
        fun j' _ _ hlt hle => by omega⟩
    · have hskip : ∀ j line A, j < i + 1 → (j < i → ¬ line.Gives r A) →
          k.lines[j]? = some line → ¬ line.Gives r A := by
        intro j line A hj hearlier hline
        by_cases hji : j = i
        · subst hji
          exact fun h => hgives ⟨line, A, hline, h⟩
        · exact hearlier (by omega)
      rcases ih with hunnamed | ⟨j, A, hlt, hline, hlast⟩
      · exact .inl fun j line A hj hline =>
          hskip j line A hj (fun hlt => hunnamed j line A hlt hline) hline
      · exact .inr ⟨j, A, by omega, hline, fun j' line B hjj' hj' hline' =>
          hskip j' line B hj'
            (fun hlt => hlast j' line B hjj' hlt hline') hline'⟩

/-- A line that does not give the label leaves what it stands for. -/
theorem named?_before_succ_of_not_gives
    (h : ∀ line A, k.lines[i]? = some line → ¬ line.Gives r A) :
    (k.before (i + 1)).named? r = (k.before i).named? r := by
  cases hline : k.lines[i]? with
  | none =>
    rw [before, List.take_add_one, hline, Option.toList_none,
      List.append_nil, ← before]
  | some line =>
    rw [before_succ hline]
    exact k.body.named?_scopeAfter_of_not_gives fun A => h line A hline

/-- A label is left alone by any stretch of lines that do not give it. -/
theorem named?_before_add (n : Nat)
    (h : ∀ j line A, i ≤ j → j < i + n → k.lines[j]? = some line →
      ¬ line.Gives r A) :
    (k.before (i + n)).named? r = (k.before i).named? r := by
  induction n with
  | zero => rfl
  | succ n ih =>
    have hskip : ∀ line A, k.lines[i + n]? = some line → ¬ line.Gives r A :=
      fun line A => h (i + n) line A (by omega) (by omega)
    calc (k.before (i + (n + 1))).named? r
        = (k.before (i + n)).named? r := named?_before_succ_of_not_gives hskip
      _ = (k.before i).named? r :=
        ih fun j line A hle hlt => h j line A hle (by omega)

/-- **The last line that gave the label is cited.** -/
theorem Nearest.named?_before (h : k.Nearest i r j A) :
    (k.before i).named? r = some ⟨r, A, k.body.place j, false⟩ := by
  obtain ⟨hlt, ⟨line, hline, hgives⟩, hlast⟩ := h
  obtain ⟨n, rfl⟩ : ∃ n, i = j + 1 + n := ⟨i - (j + 1), by omega⟩
  calc (k.before (j + 1 + n)).named? r
      = (k.before (j + 1)).named? r :=
        named?_before_add n fun j' line' B hle hj' =>
          hlast j' line' B (by omega) hj'
    _ = some ⟨r, A, k.body.place j, false⟩ := by
        rw [before_succ hline]
        exact k.body.named?_scopeAfter hgives

/-- A label that no line before gives names no line. -/
theorem Unnamed.named?_before (h : k.Unnamed i r) :
    (k.before i).named? r = none := by
  have hstretch : (k.before (0 + i)).named? r = (k.before 0).named? r :=
    named?_before_add i fun j line A _ hj => h j line A (by omega)
  rw [Nat.zero_add] at hstretch
  rw [hstretch]
  rfl

/-- At a line its own label does not stand for a line of the block. -/
theorem named?_site_self :
    (k.site i (some r) f).visible.named? r = k.body.outer.named? r := by
  show Scope.named? ((k.before i).without r ++ k.body.outer) r = _
  rw [Scope.named?_append, Scope.named?_without_self, Option.none_or]

/-- Any label but the line's own stands for the nearest line before, or for what
it stands for outside. -/
theorem named?_site_of_ne (hlabel : label ≠ some r) :
    (k.site i label f).visible.named? r =
      ((k.before i).named? r).or (k.body.outer.named? r) := by
  cases label with
  | none => exact Scope.named?_append _ _ _
  | some l =>
    have hne : l ≠ r := fun h => hlabel (congrArg some h)
    show Scope.named? ((k.before i).without l ++ k.body.outer) r = _
    rw [Scope.named?_append, Scope.named?_without_of_ne _ hne]

end Block

/-! ## Resolution -/

/-- The normalized formula that a label stands for at a line. -/
def Site.resolve? (s : Site) (r : String) : Option Formula :=
  (s.visible.named? r).map fun entry => s.normalize entry.formula

/-- The normalized formula that a label stands for around a block. -/
def Body.resolve? (b : Body) (r : String) : Option Formula :=
  (b.outer.named? r).map fun entry => b.setting.theory.normalize entry.formula

/-- A rule goes on with what its label stands for, and stops if that is
nothing. -/
theorem Site.citedLine_eq_ok_iff_resolve (s : Site) {r part : String}
    {A : Formula} :
    s.citedLine (some r) part = .ok A ↔ s.resolve? r = some A := by
  rw [citedLine_eq_ok_iff_entry, resolve?, Option.map_eq_some_iff]
  rfl

/-- Inside a conditional proof a label stands for the hypothesis, or for what it
stands for at the line with the conditional proof. -/
theorem Site.resolve?_conditionalBody (s : Site) (label : Option String)
    (H : Formula) (r : String) :
    (s.conditionalBody label H).resolve? r =
      if label = some r then some (s.normalize H) else s.resolve? r := by
  cases label with
  | none => rfl
  | some l =>
    by_cases hl : l = r
    · simp [Body.resolve?, conditionalBody, Scope.named?, hl, normalize]
    · simp [Body.resolve?, conditionalBody, Scope.named?, hl,
        resolve?, normalize]

/-- **Citations resolve to the nearest earlier line** unless the citing line
repeats the label.

* A line with formula and reason that agrees with the conditions is judged at
  its site, and the rules there go on with what the site resolves a label to.
* If the line has another label, the cited label resolves to the formula of the
  last line before it in the block that has the label, a formula and a reason.
* If there is no such line, or the label is the line's own, it resolves as it
  does around the block: to nothing for a whole proof, and for a conditional
  proof to the hypothesis or as at the line with the conditional proof. -/
theorem citation_resolves_to_nearest :
    (∀ (k : Block) (i : Nat) (label : Option String) (f : Formula)
      (reason : Reason),
      k.lines[i]? = some ⟨label, some f, some reason⟩ →
      k.body.disagreement? f = none →
        (∃ first rest, k.check =
          first ++ ((judge (k.site i label f) reason).found ++
            .note (.judged (k.body.place i) reason.rule
              (judge (k.site i label f) reason).passed)) ++ rest) ∧
        ∀ r, (k.Unnamed i r ∨ ∃ j A, k.Nearest i r j A) ∧
          (∀ part A, (k.site i label f).citedLine (some r) part = .ok A ↔
            (k.site i label f).resolve? r = some A) ∧
          (∀ j A, label ≠ some r → k.Nearest i r j A →
            (k.site i label f).resolve? r =
              some (k.body.setting.theory.normalize A)) ∧
          (label = some r ∨ k.Unnamed i r →
            (k.site i label f).resolve? r = k.body.resolve? r)) ∧
    (∀ setting location lines r,
      (Block.whole setting location lines).body.resolve? r = none) ∧
    ∀ (s : Site) (hypothesis : Hypothesis) (H : Formula) (lines : List Line)
      (r : String),
      (s.conditionalBlock hypothesis H lines).body.resolve? r =
        if hypothesis.label = some r then some (s.normalize H)
        else s.resolve? r := by
  refine ⟨?_, fun _ _ _ _ => rfl,
    fun s hypothesis H _ r => s.resolve?_conditionalBody hypothesis.label H r⟩
  intro k i label f reason hline hagrees
  refine ⟨?_, fun r => ⟨k.unnamed_or_exists_nearest i r,
    fun part A => Site.citedLine_eq_ok_iff_resolve _, ?_, ?_⟩⟩
  · obtain ⟨first, rest, hcheck⟩ := Block.check_split hline
    rw [hcheck, Block.checkLine_judged hagrees]
    refine ⟨first ++ k.body.checkLabel (k.before i) i label, rest, ?_⟩
    simp only [Findings.append_assoc]
  · intro j A hlabel hnearest
    rw [Site.resolve?, Block.named?_site_of_ne hlabel, hnearest.named?_before]
    rfl
  · intro houter
    have hnamed : (k.site i label f).visible.named? r =
        k.body.outer.named? r := by
      by_cases hlabel : label = some r
      · rw [hlabel, Block.named?_site_self]
      · have hunnamed := houter.resolve_left hlabel
        rw [Block.named?_site_of_ne hlabel, hunnamed.named?_before,
          Option.none_or]
    rw [Site.resolve?, hnamed]
    rfl

namespace RepeatedLabel

open Formula (letter)

/-- Proved are `A` and `A → B`. -/
def logic : Setting where
  policy := .basic
  rules := .allAt .basic
  theory :=
    (({} : Theory).prove "a" (letter "A") ⟨"m", "proved[a]"⟩).prove "ab"
      ((letter "A").implies (letter "B")) ⟨"m", "proved[ab]"⟩

/-- The last line repeats the label of the first and cites it. -/
def lines : List Line :=
  [⟨some "1", some ((letter "A").implies (letter "B")),
      some (.add (some "ab"))⟩,
    ⟨some "2", some (letter "A"), some (.add (some "a"))⟩,
    ⟨some "1", some (letter "B"), some (.modusPonens (some "1") (some "2"))⟩]

/-- The lines as a block. -/
def block : Block :=
  .whole logic ⟨"m", "p"⟩ lines

theorem nearest_first :
    block.Nearest 2 "1" 0 ((letter "A").implies (letter "B")) := by
  refine ⟨by decide, ⟨_, rfl, rfl, rfl, rfl⟩, ?_⟩
  intro j line B hlt hle hline hgives
  obtain rfl : j = 1 := by omega
  cases hline
  exact absurd hgives.1 (by decide)

theorem nearest_second : block.Nearest 2 "2" 1 (letter "A") :=
  ⟨by decide, ⟨_, rfl, rfl, rfl, rfl⟩, fun _ _ _ _ _ => by omega⟩

/-- The second line is cited by its label.  The label of the first is the line's
own, and stands for nothing outside. -/
theorem resolved_at_last_line :
    block.lines[2]? = some ⟨some "1", some (letter "B"),
        some (.modusPonens (some "1") (some "2"))⟩ ∧
      block.body.disagreement? (letter "B") = none ∧
      block.Nearest 2 "2" 1 (letter "A") ∧
      (block.site 2 (some "1") (letter "B")).resolve? "2" =
        some (logic.theory.normalize (letter "A")) ∧
      (block.site 2 (some "1") (letter "B")).resolve? "1" =
        block.body.resolve? "1" :=
  have hresolve :=
    (citation_resolves_to_nearest.1 block 2 (some "1") (letter "B")
      (.modusPonens (some "1") (some "2")) rfl rfl).2
  ⟨rfl, rfl, nearest_second,
    (hresolve "2").2.2.1 1 (letter "A") (by decide) nearest_second,
    (hresolve "1").2.2.2 (.inl rfl)⟩

/-- **A line that repeats a label cannot cite the earlier line.**  The first
line has the label, a formula and a reason, and it is the nearest, but to the
last line the label is unknown. -/
theorem earlier_line_hidden :
    block.Nearest 2 "1" 0 ((letter "A").implies (letter "B")) ∧
      (block.site 2 (some "1") (letter "B")).resolve? "1" = none ∧
      (checkProof logic ⟨"m", "p"⟩ (letter "B") lines).errors =
        [{ defect := .repeatedLabel
           location := ⟨"m", "p.line[2].label"⟩
           detail := some "1"
           reference := some ⟨"m", "p.line[0]"⟩ },
          { defect := .unknownLabel
            location := ⟨"m", "p.line[2].reason.reference1"⟩
            detail := some "1" }] :=
  ⟨nearest_first, rfl, by decide +kernel⟩

end RepeatedLabel

end Deduction
