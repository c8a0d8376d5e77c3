import Deduction.Proofs.Derivation
import Deduction.Proofs.Differences
import Mathlib.Data.List.Nodup

/-!
# The steps of a check

A rule is checked in steps, each of which stops with a diagnostic or goes on.
Here is said for each step exactly when it goes on and with what, and then, for
the substitution of a symbol, what all its steps together ask for
(`checkSubstSymbol_eq_ok_iff`).  None of the statements speaks of diagnostics:
whether a proof is accepted does not depend on how a defect is put into words.
-/

namespace Deduction

/-- Two steps go on when the first does, and the second does after it. -/
theorem bind_eq_ok_iff {ε α β : Type} {first : Except ε α}
    {next : α → Except ε β} {b : β} :
    (first >>= next) = .ok b ↔ ∃ a, first = .ok a ∧ next a = .ok b := by
  cases first with
  | error e =>
    constructor
    · intro h
      cases h
    · intro h
      obtain ⟨a, ha, -⟩ := h
      cases ha
  | ok a =>
    constructor
    · intro h
      exact ⟨a, rfl, h⟩
    · intro h
      obtain ⟨a', ha, hb⟩ := h
      cases ha
      exact hb

/-- A step that yields nothing goes on in one way only. -/
theorem exists_unit_iff {p : Unit → Prop} : (∃ a, p a) ↔ p () :=
  Unique.exists_iff

namespace Formula

/-- Formulas that are all variables are the variables of some names. -/
theorem forall_var?_isSome_iff {params : List Formula} :
    (∀ param ∈ params, param.var?.isSome) ↔
      ∃ xs : List String, params = xs.map var := by
  constructor
  · intro h
    induction params with
    | nil => exact ⟨[], rfl⟩
    | cons param params ih =>
      obtain ⟨xs, hxs⟩ := ih fun p hp => h p (List.mem_cons_of_mem _ hp)
      obtain ⟨x, hx⟩ := Option.isSome_iff_exists.1 (h param List.mem_cons_self)
      exact ⟨x :: xs, by rw [hxs, var?_eq_some_iff.1 hx, List.map_cons]⟩
  · intro h param hparam
    obtain ⟨xs, rfl⟩ := h
    obtain ⟨x, -, rfl⟩ := List.mem_map.1 hparam
    rfl

end Formula

theorem length_eraseDups_le {α : Type} [DecidableEq α] (l : List α) :
    l.eraseDups.length ≤ l.length := by
  induction hn : l.length using Nat.strongRecOn generalizing l with
  | ind n ih =>
    cases l with
    | nil => simp
    | cons a as =>
      have hfilter := List.length_filter_le (fun b => !b == a) as
      have hlength : as.length + 1 = n := by simpa using hn
      have hle := ih _ (by omega) (as.filter fun b => !b == a) rfl
      rw [List.eraseDups_cons, List.length_cons]
      omega

/-- Dropping repetitions leaves a list as long as it is when there are none. -/
theorem length_eraseDups_eq_iff {α : Type} [DecidableEq α] (l : List α) :
    l.eraseDups.length = l.length ↔ l.Nodup := by
  induction l with
  | nil => simp
  | cons a as ih =>
    have hfilter := List.length_filter_le (fun b => !b == a) as
    have hdups := length_eraseDups_le (as.filter fun b => !b == a)
    rw [List.eraseDups_cons, List.nodup_cons, ← ih]
    simp only [List.length_cons, Nat.add_right_cancel_iff]
    by_cases ha : a ∈ as
    · have hlt : (as.filter fun b => !b == a).length < as.length :=
        List.length_filter_lt_length_iff_exists.2 ⟨a, ha, by simp⟩
      constructor
      · intro h
        omega
      · intro h
        exact absurd ha h.1
    · have hself : (as.filter fun b => !b == a) = as := by
        rw [List.filter_eq_self]
        intro b hb
        have hba : b ≠ a := fun h => ha (h ▸ hb)
        simpa using hba
      rw [hself]
      simp [ha]

namespace Site

variable {s : Site}

/-- The formulas of the active conditions, as they are written. -/
def assumptions (s : Site) : List Formula :=
  s.conditions.map Condition.formula

theorem ensure_eq_ok_iff {test : Bool} {d : Diagnostic} :
    ensure test d = .ok () ↔ test = true := by
  cases test <;> simp [ensure]

/-- A variable is given if a variable is written there. -/
theorem givenVar_eq_ok_iff {given : Option Formula} {part x : String} :
    s.givenVar given part = .ok x ↔ given = some (.var x) := by
  unfold givenVar
  constructor
  · intro h
    split at h
    · rename_i y hy
      cases h
      obtain ⟨f, hf, hvar⟩ := Option.bind_eq_some_iff.1 hy
      rw [hf, Formula.var?_eq_some_iff.1 hvar]
    · cases h
  · intro h
    rw [h]
    rfl

/-- What is given to be substituted is normalized. -/
theorem givenSubstitute_eq_ok_iff {given : Option Formula} {part : String}
    {f : Formula} :
    s.givenSubstitute given part = .ok f ↔
      ∃ g, given = some g ∧ s.normalize g = f := by
  cases given <;> simp [givenSubstitute]

/-- A cited formula is taken apart if it is an implication. -/
theorem citedImplication_eq_ok_iff {f A B : Formula} {reference : Option String}
    {part : String} :
    s.citedImplication f reference part = .ok (A, B) ↔ f = A.implies B := by
  rw [← Formula.implication?_eq_some_iff, citedImplication]
  cases f.implication? <;> simp

/-- The line has to state what the rule yields. -/
theorem checkStatement_eq_ok_iff {defect : Defect} {expected : Formula}
    {cited : Option Location} :
    s.checkStatement defect expected cited = .ok () ↔
      s.statement = expected := by
  have hnone := Formula.firstDifference?_eq_none_iff expected s.statement
  unfold checkStatement
  cases hdiff : Formula.firstDifference? expected s.statement with
  | none => simp [hnone.1 hdiff]
  | some path =>
    have hne : s.statement ≠ expected := by
      intro heq
      rw [hnone.2 heq.symm] at hdiff
      cases hdiff
    simp [hne]

/-- What is changed must not occur in a condition. -/
theorem checkConditions_eq_ok_iff {subject : Formula} {part : String}
    {occurs : Formula → Bool} :
    s.checkConditions subject part occurs = .ok () ↔
      ∀ c ∈ s.assumptions, occurs (s.setting.theory.normalize c) = false := by
  unfold checkConditions
  cases hfind : s.conditions.find? fun c => occurs (s.normalize c.formula) with
  | none =>
    rw [List.find?_eq_none] at hfind
    simp only [true_iff]
    intro c hc
    obtain ⟨condition, hcondition, rfl⟩ := List.mem_map.1 hc
    simpa [normalize] using hfind condition hcondition
  | some condition =>
    have hoccurs := List.find?_some hfind
    have hmem := List.mem_of_find?_eq_some hfind
    simp only [reduceCtorEq, false_iff]
    intro h
    have hnot := h condition.formula (List.mem_map_of_mem hmem)
    rw [normalize, hnot] at hoccurs
    cases hoccurs

/-- A rule is used conditionally if conditions are in force or if it puts one in
force. -/
theorem isConditional_eq_true_iff {rule : Rule} :
    s.isConditional rule = true ↔
      s.assumptions ≠ [] ∨ rule = .conditionalProof := by
  simp [isConditional, assumptions]

/-- No later version is needed unless the rule is used conditionally and its
version is below the minimum for that. -/
theorem neededVersion?_eq_none_iff {rule : Rule} {version : Version} :
    s.neededVersion? rule version = none ↔
      ∀ minimum, s.setting.policy.conditionalMinimum = some minimum →
        s.assumptions ≠ [] ∨ rule = .conditionalProof →
        ¬ version < minimum := by
  rw [neededVersion?, Option.filter_eq_none_iff]
  simp only [Bool.and_eq_true, decide_eq_true_eq, not_and,
    isConditional_eq_true_iff]

/-- **Versions.**  The last step of every rule asks for what `Permits` says. -/
theorem checkRule_eq_ok_iff {rule : Rule} :
    s.checkRule rule = .ok () ↔ Permits s.setting s.assumptions rule := by
  unfold checkRule Permits
  cases hkey : s.setting.rules.find? rule.name with
  | none => simp
  | some key =>
    obtain ⟨version, -, rfl⟩ := Option.map_eq_some_iff.1 hkey
    simp only [Option.some.injEq, RuleKey.mk.injEq, true_and, exists_eq_left',
      ← neededVersion?_eq_none_iff]
    by_cases hsupported : version ∈ s.setting.policy.supported
    · cases s.neededVersion? rule version <;> simp [hsupported]
    · simp [hsupported]

/-- The new name must neither be free nor bound in the chosen binder, unless it
is the old one. -/
theorem checkRoom_eq_ok_iff {binder : Option Formula} {x y : String}
    {reference : Option String} :
    s.checkRoom binder x y reference = .ok () ↔
      ∀ b, binder = some b → x = y ∨ (y ∉ b.free ∧ y ∉ b.bound) := by
  cases binder with
  | none => simp [checkRoom]
  | some b => simp [checkRoom, ensure_eq_ok_iff]

/-- No free variable of the substitute, parameters apart, may be bound in the
formula. -/
theorem checkCapture_eq_ok_iff {source substitute : Formula} {xs : List String}
    {part : String} {reference : Option String} :
    s.checkCapture source substitute (xs.map .var) part reference = .ok () ↔
      ∀ z ∈ substitute.free, z ∉ xs → z ∉ source.bound := by
  have hparam : ∀ z, Formula.var z ∈ xs.map .var ↔ z ∈ xs := by
    intro z
    constructor
    · intro h
      obtain ⟨y, hy, hyz⟩ := List.mem_map.1 h
      exact Formula.var_injective hyz ▸ hy
    · intro h
      exact List.mem_map_of_mem h
  unfold checkCapture
  cases hfind : substitute.free.find? fun x =>
      !(xs.map Formula.var).contains (.var x) && source.bound.contains x with
  | none =>
    rw [List.find?_eq_none] at hfind
    simp only [true_iff]
    intro z hz hzx hbound
    have hnot := hfind z hz
    simp only [List.contains_eq_mem, Bool.and_eq_true, Bool.not_eq_true',
      decide_eq_false_iff_not, decide_eq_true_eq, hparam] at hnot
    exact hnot ⟨hzx, hbound⟩
  | some z =>
    have hcaptured := List.find?_some hfind
    simp only [List.contains_eq_mem, Bool.and_eq_true, Bool.not_eq_true',
      decide_eq_false_iff_not, decide_eq_true_eq, hparam] at hcaptured
    simp only [reduceCtorEq, false_iff]
    intro h
    exact h z (List.mem_of_find?_eq_some hfind) hcaptured.1 hcaptured.2

/-- A template is given if an application of the right operator is written
there. -/
theorem givenTemplate_eq_ok_iff {kind : Schematic} {given : Option Formula}
    {pattern : Formula} :
    s.givenTemplate kind given = .ok pattern ↔
      given = some pattern ∧
        ∃ name args, pattern = .application kind.operator name args := by
  have haccepts : ∀ f : Formula, kind.accepts f = true ↔
      ∃ name args, f = .application kind.operator name args := by
    intro f
    constructor
    · intro h
      cases f with
      | atom name => simp [Schematic.accepts, Formula.operator?] at h
      | node op cs =>
        simp only [Schematic.accepts, Formula.operator?, Bool.and_eq_true,
          decide_eq_true_eq, Option.some.injEq] at h
        obtain ⟨rfl, hname⟩ := h
        unfold Formula.name? at hname
        split at hname
        · rename_i name args heq
          cases heq
          exact ⟨_, _, rfl⟩
        · cases hname
    · intro h
      obtain ⟨name, args, rfl⟩ := h
      cases kind <;> rfl
  unfold givenTemplate
  cases hfilter : given.filter kind.accepts with
  | none =>
    simp only [reduceCtorEq, false_iff]
    intro h
    rw [h.1, Option.filter_some, if_pos ((haccepts pattern).2 h.2)] at hfilter
    cases hfilter
  | some found =>
    obtain ⟨hgiven, haccepted⟩ := Option.filter_eq_some_iff.1 hfilter
    simp only [Except.ok.injEq]
    constructor
    · intro h
      exact ⟨h ▸ hgiven, h ▸ (haccepts found).1 haccepted⟩
    · intro h
      exact Option.some.inj (hgiven.symm.trans h.1)

/-- Parameters have to be distinct variables. -/
theorem checkParameters_eq_ok_iff {part : String} {params : List Formula} :
    s.checkParameters part params = .ok () ↔
      ∃ xs : List String, params = xs.map .var ∧ xs.Nodup := by
  have hnodup :
      ∀ xs : List String, (xs.map Formula.var).Nodup ↔ xs.Nodup :=
    fun xs => List.nodup_map_iff Formula.var_injective
  rw [checkParameters, bind_eq_ok_iff]
  simp only [exists_unit_iff, ensure_eq_ok_iff, decide_eq_true_eq,
    length_eraseDups_eq_iff]
  cases hfind : params.zipIdx.find? fun param => param.1.var?.isNone with
  | none =>
    have hall : ∀ param ∈ params, param.var?.isSome := by
      intro param hparam
      obtain ⟨i, hi, rfl⟩ := List.mem_iff_getElem.1 hparam
      have hsome := List.find?_eq_none.1 hfind (params[i], i)
        (List.mem_zipIdx_iff_getElem?.2 (by simp [hi]))
      simpa [Option.isSome_iff_ne_none] using hsome
    obtain ⟨xs, rfl⟩ := Formula.forall_var?_isSome_iff.1 hall
    constructor
    · intro h
      exact ⟨xs, rfl, (hnodup xs).1 h.1⟩
    · intro h
      obtain ⟨ys, heq, hys⟩ := h
      rw [heq]
      exact ⟨(hnodup ys).2 hys, rfl⟩
  | some found =>
    obtain ⟨param, index⟩ := found
    have hmem : param ∈ params := by
      have hzip := List.mem_of_find?_eq_some hfind
      exact List.mem_of_getElem? (List.mem_zipIdx_iff_getElem?.1 hzip)
    have hnone := List.find?_some hfind
    constructor
    · intro h
      cases h.2
    · intro h
      obtain ⟨xs, rfl, -⟩ := h
      obtain ⟨x, -, rfl⟩ := List.mem_map.1 hmem
      cases hnone

/-- **Substitution for a symbol**, all steps together. -/
theorem checkSubstSymbol_eq_ok_iff {kind : Schematic}
    {reference : Option String} {given substitute : Option Formula} :
    s.checkSubstSymbol kind reference given substitute = .ok () ↔
      ∃ source p xs β, s.citedLine reference "reference" = .ok source ∧
        given = some (.template kind.operator p xs) ∧ substitute = some β ∧
        Replaceable s.setting.theory s.assumptions kind.operator p xs source
          (s.setting.theory.normalize β) ∧
        s.statement = source.replaceSymbol (.template kind.operator p xs)
          (s.setting.theory.normalize β) ∧
        Permits s.setting s.assumptions kind.rule := by
  have happ : kind.operator.isApplication := by cases kind <;> rfl
  rw [checkSubstSymbol]
  simp only [bind_eq_ok_iff, exists_unit_iff, givenTemplate_eq_ok_iff,
    givenSubstitute_eq_ok_iff, checkStatement_eq_ok_iff,
    checkParameters_eq_ok_iff, ensure_eq_ok_iff, checkConditions_eq_ok_iff,
    checkRule_eq_ok_iff]
  constructor
  · intro h
    obtain ⟨source, hsource, _, ⟨hgiven, p, args, rfl⟩, _, ⟨β, hβ, rfl⟩,
      hstatement, ⟨xs, hargs, hxs⟩, hcapture, hmeets, hconditions, hrule⟩ := h
    have htemplate :
        Formula.application kind.operator p args =
          .template kind.operator p xs := by
      have hargs' : args = xs.map .var := by
        simpa [Formula.application, Formula.arguments, happ] using hargs
      rw [hargs', Formula.template]
    rw [htemplate] at hgiven hstatement hcapture hmeets hconditions
    rw [Formula.arguments_template happ, checkCapture_eq_ok_iff] at hcapture
    rw [Bool.not_eq_true', Formula.applicationMeets_eq_false_iff happ] at hmeets
    refine ⟨source, p, xs, β, hsource, hgiven, hβ, ?_, hstatement, hrule⟩
    exact ⟨hxs, hcapture, fun zs args happlied => (hmeets zs args happlied).1,
      fun zs args happlied => (hmeets zs args happlied).2,
      fun c hc => (Formula.containsApplication_eq_false_iff happ).1
        (hconditions c hc)⟩
  · intro h
    obtain ⟨source, p, xs, β, hsource, hgiven, hβ, h, hstatement, hrule⟩ := h
    refine ⟨source, hsource, _, ⟨hgiven, p, _, rfl⟩, _, ⟨β, hβ, rfl⟩,
      hstatement, ⟨xs, Formula.arguments_template happ, h.distinct⟩,
      ?_, ?_, ?_, hrule⟩
    · rw [Formula.arguments_template happ, checkCapture_eq_ok_iff]
      exact h.keepsFree
    · rw [Bool.not_eq_true', Formula.applicationMeets_eq_false_iff happ]
      exact fun zs args happlied =>
        ⟨h.clearOfBinders zs args happlied, h.clearOfArguments zs args happlied⟩
    · intro c hc
      exact (Formula.containsApplication_eq_false_iff happ).2
        (h.unconditional c hc)

end Site

end Deduction
