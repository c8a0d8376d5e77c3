import Deduction.Proofs.Acceptance

/-!
# Acceptance is monotone

Whatever a setting accepts, a wider setting accepts too.  A wider policy
supports more versions, allows deeper conditional proofs and asks no more of the
rules in them.  A wider rule book declares more names and a wider theory proves
more labels, while all that was there keeps its meaning, and no definition
changes.

The conditional minimum has two roles: it allows conditional proofs, and below
conditions it raises the versions that a rule needs.  A policy without one may
therefore be widened to any minimum at all.  It has accepted no conditional
proof, so its proofs are never below a condition.  The run over the lines
carries this as an invariant.

A further label in the theory cannot be confused with the label of a line or of
a hypothesis: a proved formula is cited only when no hypothesis has its label.
-/

namespace Deduction

open Known

namespace Version

variable {a b c : Version}

/-- Versions are compared by their numbers, the first that differ being
decisive. -/
theorem lt_iff : a < b ↔ a.major < b.major ∨
    (a.major = b.major ∧
      (a.minor < b.minor ∨ (a.minor = b.minor ∧ a.patch < b.patch))) := by
  show a.order b = .lt ↔ _
  simp only [order, Ordering.then_eq_lt, Std.compare_eq_lt,
    Std.LawfulEqOrd.compare_eq_iff_eq]

/-- A version that is not below another is not below anything smaller. -/
theorem not_lt_trans (hab : ¬ a < b) (hbc : ¬ b < c) : ¬ a < c := by
  rw [lt_iff] at hab hbc ⊢
  grind

end Version

/-! ## Wider settings -/

/-- The wider policy supports more and asks for less. -/
structure Policy.Within (policy wider : Policy) : Prop where
  supported : ∀ version ∈ policy.supported, version ∈ wider.supported
  maxDepth : policy.maxDepth ≤ wider.maxDepth
  conditionalMinimum : ∀ minimum, policy.conditionalMinimum = some minimum →
    ∃ minimum', wider.conditionalMinimum = some minimum' ∧ ¬ minimum < minimum'

/-- What one rule book declares, the wider one declares alike. -/
def RuleBook.Within (book wider : RuleBook) : Prop :=
  ∀ name key, book.find? name = some key → wider.find? name = some key

/-- What one theory proves, the wider one proves alike, with the same
definitions. -/
structure Theory.Within (theory wider : Theory) : Prop where
  proved : ∀ label p, theory.find? label = some p → wider.find? label = some p
  definitions : wider.definitions = theory.definitions

/-- The wider setting accepts proofs, and all its parts are wider. -/
structure Setting.Within (setting wider : Setting) : Prop where
  acceptsProofs : wider.policy.acceptsProofs = true
  policy : setting.policy.Within wider.policy
  rules : setting.rules.Within wider.rules
  theory : setting.theory.Within wider.theory

theorem Policy.Within.refl (policy : Policy) : policy.Within policy where
  supported _ h := h
  maxDepth := Nat.le_refl _
  conditionalMinimum minimum h := ⟨minimum, h, by rw [Version.lt_iff]; grind⟩

theorem RuleBook.Within.refl (book : RuleBook) : book.Within book :=
  fun _ _ h => h

theorem Theory.Within.refl (theory : Theory) : theory.Within theory :=
  ⟨fun _ _ h => h, rfl⟩

/-- Whatever is allowed without conditional proofs is allowed with them. -/
theorem Policy.basic_within_conditional :
    Policy.basic.Within Policy.conditional where
  supported := by decide
  maxDepth := Nat.le_refl _
  conditionalMinimum := nofun

/-- A new rule changes nothing about the others. -/
theorem RuleBook.within_declare {book : RuleBook} {name : String}
    (version : Version) (hnew : book.find? name = none) :
    book.Within (book.declare name version) := by
  intro other key hkey
  have hne : other ≠ name := by
    rintro rfl
    rw [hnew] at hkey
    cases hkey
  rw [find?_declare_of_ne book version hne, hkey]

/-- A proved formula under a new label changes nothing about the others. -/
theorem Theory.within_prove {theory : Theory} {label : String}
    (formula : Formula) (location : Location)
    (hnew : theory.find? label = none) :
    theory.Within (theory.prove label formula location) := by
  refine ⟨fun other p hp => ?_, rfl⟩
  have hne : (other == label) = false := by
    rw [beq_eq_false_iff_ne]
    rintro rfl
    rw [hnew] at hp
    cases hp
  rw [find?, prove, List.lookup_cons, hne]
  exact hp

/-! ## One line -/

variable {setting wider : Setting} {theory theory' : Theory}
  {known : List Known} {conditions : List Formula} {A B : Formula}
  {reason : Reason} {rule : Rule}

/-- With the same definitions formulas have the same normal forms. -/
theorem Theory.Within.normalize_eq (h : theory.Within theory') (f : Formula) :
    theory'.normalize f = theory.normalize f := by
  rw [normalize, normalize, h.definitions]
  refine congrArg (fun step => settle step _ f) ?_
  funext g
  rw [expand, expand, h.definitions]

/-- What may be substituted may be in a richer theory. -/
theorem Replaceable.widen (htheory : theory.Within theory') {op : Operator}
    {name : String} {xs : List String} {source replacement : Formula}
    (h : Replaceable theory conditions op name xs source replacement) :
    Replaceable theory' conditions op name xs source replacement where
  distinct := h.distinct
  keepsFree := h.keepsFree
  clearOfBinders := h.clearOfBinders
  clearOfArguments := h.clearOfArguments
  unconditional c hc := by
    rw [htheory.normalize_eq]
    exact h.unconditional c hc

/-- What follows in a theory follows in a wider one. -/
theorem Follows.widen (htheory : theory.Within theory')
    (h : Follows theory known conditions reason B) :
    Follows theory' known conditions reason B := by
  have hconditions : ∀ x, (∀ c ∈ conditions, x ∉ (theory.normalize c).free) →
      ∀ c ∈ conditions, x ∉ (theory'.normalize c).free := by
    intro x hx c hc
    rw [htheory.normalize_eq]
    exact hx c hc
  cases h with
  | assumption h => exact .assumption h
  | proved hno h =>
    rw [← htheory.normalize_eq]
    exact .proved hno (htheory.proved _ _ h)
  | rename hA hroom => exact .rename hA hroom
  | modusPonens hAB hA => exact .modusPonens hAB hA
  | substFree hA hcapture hcond =>
    rw [← htheory.normalize_eq] at hcapture ⊢
    exact .substFree hA hcapture (hconditions _ hcond)
  | substPredicate hA h =>
    rw [← htheory.normalize_eq] at h ⊢
    exact .substPredicate hA (h.widen htheory)
  | substFunction hA h =>
    rw [← htheory.normalize_eq] at h ⊢
    exact .substFunction hA (h.widen htheory)
  | universal hAB hfree hcond =>
    exact .universal hAB hfree (hconditions _ hcond)
  | existential hAB hfree hcond =>
    exact .existential hAB hfree (hconditions _ hcond)

/-- A permitted rule stays permitted.  Without a conditional minimum it is used
below no condition and makes no conditional proof, and no minimum can hold it
up. -/
theorem Permits.widen (hwithin : setting.Within wider)
    (hconditional : conditions ≠ [] ∨ rule = .conditionalProof →
      setting.policy.conditionalMinimum.isSome)
    (h : Permits setting conditions rule) : Permits wider conditions rule := by
  obtain ⟨version, hdeclared, hsupported, hminimum⟩ := h
  refine ⟨version, hwithin.rules _ _ hdeclared,
    hwithin.policy.supported _ hsupported, ?_⟩
  intro minimum' hminimum' hneeded
  obtain ⟨minimum, hset⟩ := Option.isSome_iff_exists.1 (hconditional hneeded)
  obtain ⟨least, hleast, hle⟩ := hwithin.policy.conditionalMinimum minimum hset
  obtain rfl : least = minimum' := Option.some.inj (hleast.symm.trans hminimum')
  exact Version.not_lt_trans (hminimum minimum hset hneeded) hle

/-- No formula follows from others by a conditional proof. -/
theorem Follows.rule_ne_conditionalProof
    (h : Follows theory known conditions reason B) :
    reason.rule ≠ .conditionalProof := by
  cases h <;> nofun

/-- A conditional proof is justified only where such proofs are allowed. -/
theorem Justified.isSome_conditionalMinimum
    (h : Justified setting known conditions A reason)
    (hreason : reason.rule = .conditionalProof) :
    setting.policy.conditionalMinimum.isSome := by
  cases h with
  | rule h => exact absurd hreason h.rule_ne_conditionalProof
  | conditionalProof hallowed => exact hallowed

/-! ## All lines -/

/-- Conditions are active only where conditional proofs are allowed. -/
def Guarded (setting : Setting) (conditions : List Formula) : Prop :=
  conditions ≠ [] → setting.policy.conditionalMinimum.isSome

/-- The conditional proof: its lines stay correct below one more condition, and
its depth stays within the bound. -/
theorem Justified.widen_conditionalProof (hwithin : setting.Within wider)
    {hypothesis : Hypothesis} {lines : List Line}
    (hlines : ∀ known conditions, Guarded setting conditions →
      Correct setting known conditions lines →
      Correct wider known conditions lines)
    (h : Justified setting known conditions A
      (.conditionalProof hypothesis lines)) :
    Justified wider known conditions A
      (.conditionalProof hypothesis lines) := by
  cases h with
  | rule h => cases h
  | conditionalProof hallowed hdepth hlabel hcorrect hlast hconclusion =>
    obtain ⟨minimum, hset⟩ := Option.isSome_iff_exists.1 hallowed
    obtain ⟨least, hleast, -⟩ := hwithin.policy.conditionalMinimum minimum hset
    have hcorrect' := hlines _ _ (fun _ => hallowed) hcorrect
    rw [← hwithin.theory.normalize_eq] at hcorrect'
    refine .conditionalProof (by rw [hleast]; rfl)
      (Nat.lt_of_lt_of_le hdepth hwithin.policy.maxDepth) hlabel hcorrect'
      hlast ?_
    simp only [hwithin.theory.normalize_eq]
    exact hconclusion

mutual

/-- **A justified line stays justified.** -/
theorem Justified.widen (hwithin : setting.Within wider) :
    ∀ (reason : Reason) (known : List Known) (conditions : List Formula)
      (A : Formula), Guarded setting conditions →
    Justified setting known conditions A reason →
    Justified wider known conditions A reason
  | .conditionalProof _ lines, _, _, _, _, h =>
    Justified.widen_conditionalProof hwithin
      (fun known conditions hguarded hcorrect =>
        Correct.widen hwithin lines known conditions hguarded hcorrect) h
  | .add _, _, _, _, _, .rule h
  | .rename .., _, _, _, _, .rule h
  | .modusPonens .., _, _, _, _, .rule h
  | .substFree .., _, _, _, _, .rule h
  | .substPredicate .., _, _, _, _, .rule h
  | .substFunction .., _, _, _, _, .rule h
  | .universal .., _, _, _, _, .rule h
  | .existential .., _, _, _, _, .rule h =>
    .rule (by rw [hwithin.theory.normalize_eq]; exact h.widen hwithin.theory)

/-- **Correct lines stay correct.** -/
theorem Correct.widen (hwithin : setting.Within wider) :
    ∀ (lines : List Line) (known : List Known) (conditions : List Formula),
    Guarded setting conditions → Correct setting known conditions lines →
    Correct wider known conditions lines
  | [], _, _, _, _ => .nil
  | ⟨_, none, _⟩ :: _, _, _, _, h => by cases h
  | ⟨_, some _, none⟩ :: _, _, _, _, h => by cases h
  | ⟨label, some A, some reason⟩ :: rest, known, conditions, hguarded, h => by
    cases h with
    | cons hlabel hagrees hpermits hjustified hrest =>
      -- Where the wider minimum applies there was one before: below a condition
      -- by the invariant, for a conditional proof because it was allowed.
      have hpermits' : Permits wider conditions reason.rule :=
        hpermits.widen hwithin fun hneeded =>
          hneeded.elim hguarded hjustified.isSome_conditionalMinimum
      have hjustified' :=
        Justified.widen hwithin reason known conditions A hguarded hjustified
      have hrest' := Correct.widen hwithin rest _ conditions hguarded hrest
      rw [← hwithin.theory.normalize_eq] at hrest'
      exact .cons hlabel hagrees hpermits' hjustified' hrest'

end

/-- The last step looks at nothing but the lines, so only the lines need a wider
setting. -/
theorem accepted_widen {location : Location} {proposition : Formula}
    {lines : List Line} (hwithin : setting.Within wider)
    (haccepted : (checkProof setting location proposition lines).errors = []) :
    (checkProof wider location proposition lines).errors = [] := by
  obtain ⟨-, hbody, hlast⟩ := checkProof_errors_eq_nil_iff.1 haccepted
  have hcorrect := checkLines_wholeBody_errors_eq_nil_iff.1 hbody
  have hcorrect' := hcorrect.widen hwithin lines [] [] nofun
  exact checkProof_errors_eq_nil_iff.2
    ⟨hwithin.acceptsProofs,
      checkLines_wholeBody_errors_eq_nil_iff.2 hcorrect', hlast⟩

/-- **Acceptance is monotone.**  An accepted proof is accepted by every wider
setting.  In particular a proof by the basic rules is accepted where conditional
proofs are allowed, and a proof stays accepted when a formula is proved under a
new label or a rule is declared under a new name. -/
theorem acceptance_monotone (setting : Setting) (location : Location)
    (proposition : Formula) (lines : List Line)
    (haccepted : (checkProof setting location proposition lines).errors = []) :
    (∀ wider, setting.Within wider →
      (checkProof wider location proposition lines).errors = []) ∧
      (setting.policy = .basic →
        (checkProof { setting with policy := .conditional } location proposition
          lines).errors = []) ∧
      (∀ label formula place, setting.theory.find? label = none →
        (checkProof
          { setting with theory := setting.theory.prove label formula place }
          location proposition lines).errors = []) ∧
      (∀ name version, setting.rules.find? name = none →
        (checkProof
          { setting with rules := setting.rules.declare name version }
          location proposition lines).errors = []) := by
  have haccepts := (checkProof_errors_eq_nil_iff.1 haccepted).1
  have hpolicy := Policy.Within.refl setting.policy
  have hrules := RuleBook.Within.refl setting.rules
  have htheory := Theory.Within.refl setting.theory
  refine ⟨fun wider hwithin => accepted_widen hwithin haccepted, ?_, ?_, ?_⟩
  · intro hbasic
    have hconditional : setting.policy.Within .conditional :=
      hbasic ▸ Policy.basic_within_conditional
    exact accepted_widen ⟨rfl, hconditional, hrules, htheory⟩ haccepted
  · intro label formula place hnew
    have hricher := Theory.within_prove formula place hnew
    exact accepted_widen ⟨haccepts, hpolicy, hrules, hricher⟩ haccepted
  · intro name version hnew
    have hlonger := RuleBook.within_declare version hnew
    exact accepted_widen ⟨haccepts, hpolicy, hlonger, htheory⟩ haccepted

namespace AssumedIdentity

/-- A predicate constant without arguments. -/
def fact : Formula :=
  Formula.template .predicateConstant "p" []

/-- Conditional proofs are allowed, and nothing is proved. -/
def logic : Setting where
  policy := .conditional
  rules := .allAt .conditional
  theory := {}

/-- The proof of `p → p` assumes `p` under the label `h`. -/
def steps : List Line :=
  [⟨none, some (fact.implies fact),
      some (.conditionalProof ⟨some "h", some fact⟩
        [⟨none, some fact, some (.add (some "h"))⟩])⟩]

/-- Here `h` is also the label of another formula that is proved, there is one
more rule, and rules may be used in conditional proofs from an earlier version
on. -/
def richer : Setting where
  policy := .accepting [.conditional, .basic, ⟨0, 3, 0⟩] (some .basic) 100
  rules := logic.rules.declare "CASES" ⟨0, 3, 0⟩
  theory := logic.theory.prove "h" (fact.implies fact) ⟨"logic", "axiom"⟩

theorem logic_within_richer : logic.Within richer where
  acceptsProofs := rfl
  policy := by
    refine ⟨by decide, by decide, fun minimum hminimum => ?_⟩
    cases hminimum
    exact ⟨.basic, rfl, by decide⟩
  rules := RuleBook.within_declare _ (by decide)
  theory := Theory.within_prove _ _ rfl

end AssumedIdentity

/-- The label of the hypothesis is that of a proved formula in the richer
setting, and still the proof is accepted. -/
theorem assumed_identity_accepted_by_richer :
    AssumedIdentity.logic.Within AssumedIdentity.richer ∧
      (checkProof AssumedIdentity.logic ⟨"logic", "proof"⟩
        (AssumedIdentity.fact.implies AssumedIdentity.fact)
        AssumedIdentity.steps).errors = [] ∧
      (checkProof AssumedIdentity.richer ⟨"logic", "proof"⟩
        (AssumedIdentity.fact.implies AssumedIdentity.fact)
        AssumedIdentity.steps).errors = [] := by
  have haccepted : (checkProof AssumedIdentity.logic ⟨"logic", "proof"⟩
      (AssumedIdentity.fact.implies AssumedIdentity.fact)
      AssumedIdentity.steps).errors = [] := rfl
  exact ⟨AssumedIdentity.logic_within_richer, haccepted,
    (acceptance_monotone _ _ _ _ haccepted).1 _
      AssumedIdentity.logic_within_richer⟩

end Deduction
