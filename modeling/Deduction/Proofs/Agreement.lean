import Deduction.Proofs.Acceptance
import Deduction.Proofs.Grammar

/-!
# Agreement with conditions

Inside a conditional proof a line has to agree with the active conditions:
these, joined by a conjunction, have to imply its formula in a well-formed way.
Here is said what that asks of the formulas involved, and that being well formed
is **hereditary**: what stands in a well-formed tree where a formula or a term
is called for is well formed by itself.

The second is not obvious for the demand that no variable be both free and
bound.  On going below a binder its variable becomes free, and it must not be
bound further down; what excludes that is the other demand, that no binder lies
in the scope of a binder of the same variable.

For the first, well-formedness is taken as a property of a list of trees, which
are well formed **together** when each of them fits, names are applied to one
number of arguments in all of them, and no variable is free in one and bound in
another.  A connective is well formed when its children are so together
(`check_connective_eq_ok_iff`), and neither order nor nesting of conjunctions
matters.
-/

namespace Deduction

namespace Operator

/-- What an operator calls for at the place of its child of index `i`.  The name
that is applied, the variable that is bound and the inside of a variable are
neither formulas nor terms. -/
def callsFor? (op : Operator) (i : Nat) : Option Kind :=
  if op.isApplication then if i = 0 then none else some .term
  else if op.isBinder then if i = 0 then none else some .formula
  else if op.isConnective then some .formula
  else none

variable {op : Operator}

/-- All children of an application but the first are to be terms. -/
theorem callsFor?_application (hop : op.isApplication) (i : Nat) :
    op.callsFor? i = if i = 0 then none else some .term :=
  if_pos hop

theorem callsFor?_binder (hop : op.isBinder) (i : Nat) :
    op.callsFor? i = if i = 0 then none else some .formula := by
  cases op with
  | universal | existential | uniqueExistential | classTerm => rfl
  | _ => cases hop

/-- All children of a connective are to be formulas. -/
theorem callsFor?_connective (hop : op.isConnective) (i : Nat) :
    op.callsFor? i = some .formula := by
  cases op with
  | negation | conjunction | disjunction | implication | equivalence => rfl
  | _ => cases hop

end Operator

namespace Formula

variable {op : Operator} {cs fs gs : List Formula} {f c : Formula} {x : String}
  {k k' : Kind} {i : Nat}

/-- What the place at the end of a path calls for, in a tree that stands where a
tree of kind `k` is called for. -/
def callsFor? : Kind → Path → Formula → Option Kind
  | k, [], _ => some k
  | _, _ :: _, .atom _ => none
  | _, i :: path, .node op cs =>
    (op.callsFor? i).bind fun k => cs[i]?.bind (callsFor? k path)

/-- **Trees that are well formed together.** -/
@[mk_iff]
structure Together (k : Kind) (fs : List Formula) : Prop where
  fits : ∀ f ∈ fs, Fits k [] f
  arities : Set.InjOn Symbol.key (symbolsAll fs)
  apart : ∀ x, (∃ f ∈ fs, x ∈ f.free) → ¬ ∃ f ∈ fs, x ∈ f.bound

/-! ## Well formed together -/

theorem symbolsAll_singleton (f : Formula) : symbolsAll [f] = f.symbols := by
  rw [symbolsAll_cons, symbolsAll_nil, Set.union_empty]

/-- A tree passes the check when it is well formed together with nothing
else. -/
theorem check_eq_ok_iff_together : f.check k = .ok () ↔ Together k [f] := by
  rw [check_eq_ok_iff, exists_checkShape_iff, Arities.symbols_nil,
    Set.empty_union, together_iff, symbolsAll_singleton]
  simp [and_assoc]

/-- Of trees that are well formed together any may be left out or repeated, in
any order. -/
theorem Together.subset (h : Together k fs) (hsubset : gs ⊆ fs) :
    Together k gs := by
  refine ⟨fun f hf => h.fits f (hsubset hf), h.arities.mono ?_, ?_⟩
  · rintro s ⟨f, hf, hs⟩
    exact ⟨f, hsubset hf, hs⟩
  · rintro x ⟨f, hf, hfree⟩ ⟨g, hg, hbound⟩
    exact h.apart x ⟨f, hsubset hf, hfree⟩ ⟨g, hsubset hg, hbound⟩

/-- **A connective** may be taken apart. -/
theorem together_connective_cons (hop : op.isConnective)
    (htakes : op.takes cs.length) :
    Together .formula (.node op cs :: gs) ↔ Together .formula (cs ++ gs) := by
  have hfits : (∀ f ∈ Formula.node op cs :: gs, Fits .formula [] f) ↔
      ∀ f ∈ cs ++ gs, Fits .formula [] f := by
    rw [List.forall_mem_cons, List.forall_mem_append,
      fits_connective_iff hop htakes]
  have hsymbols : symbolsAll (.node op cs :: gs) = symbolsAll (cs ++ gs) := by
    rw [symbolsAll_cons, symbols_connective hop]
    ext s
    simp [symbolsAll, or_and_right, exists_or]
  have hfree : ∀ x, (∃ f ∈ Formula.node op cs :: gs, x ∈ f.free) ↔
      ∃ f ∈ cs ++ gs, x ∈ f.free := by
    intro x
    simp [mem_free_connective hop, or_and_right, exists_or]
  have hbound : ∀ x, (∃ f ∈ Formula.node op cs :: gs, x ∈ f.bound) ↔
      ∃ f ∈ cs ++ gs, x ∈ f.bound := by
    intro x
    simp [mem_bound_connective hop, or_and_right, exists_or]
  simp only [together_iff, hfits, hsymbols, hfree, hbound]

/-- **A connective passes the check** if its parts are well formed together. -/
theorem check_connective_eq_ok_iff (hop : op.isConnective)
    (htakes : op.takes cs.length) :
    (Formula.node op cs).check .formula = .ok () ↔ Together .formula cs := by
  rw [check_eq_ok_iff_together, together_connective_cons hop htakes,
    List.append_nil]

/-! ## Below the root -/

/-- A child that is to be of some kind follows the grammar of that kind. -/
theorem Grammatical.child (h : Grammatical k (.node op cs))
    (hc : cs[i]? = some c) (hk : op.callsFor? i = some k') :
    Grammatical k' c := by
  cases h.sorted with
  | subject x => cases hk
  | application name hop =>
    rw [Operator.callsFor?_application hop] at hk
    cases i with
    | zero => cases hk
    | succ i =>
      cases hk
      exact ((grammatical_application_iff hop).1 h).2.2.2 c
        (List.mem_of_getElem? hc)
  | binder x hop =>
    rw [Operator.callsFor?_binder hop] at hk
    cases i with
    | zero => cases hk
    | succ i =>
      cases hk
      exact ((grammatical_bind_iff hop).1 h).2.2 c (List.mem_of_getElem? hc)
  | connective hop =>
    rw [Operator.callsFor?_connective hop] at hk
    cases hk
    exact ((grammatical_connective_iff hop).1 h).2.2 c (List.mem_of_getElem? hc)

/-- **One step down.**  A child of a well-formed tree is well formed as what its
place calls for. -/
theorem check_child (h : (Formula.node op cs).check k = .ok ())
    (hc : cs[i]? = some c) (hk : op.callsFor? i = some k') :
    c.check k' = .ok () := by
  rw [check_eq_ok_iff_together] at h ⊢
  have hmem : c ∈ cs := List.mem_of_getElem? hc
  obtain ⟨hgrammar, hbinds, -⟩ := h.fits _ List.mem_cons_self
  obtain ⟨hbindsc, hscope⟩ := bindsApart_node_iff.1 hbinds c hmem
  have hv : (Formula.node op cs).var? = none := by
    cases op with
    | subjectVariable => cases hk
    | _ => rfl
  rw [together_iff] at h ⊢
  simp only [symbolsAll_singleton, List.mem_singleton, forall_eq,
    exists_eq_left] at h ⊢
  refine ⟨⟨hgrammar.child hc hk, hbindsc, by simp⟩,
    h.2.1.mono fun s hs => ?_, ?_⟩
  · exact containsSymbol_of_child hmem hs
  · -- A variable that is free in the child only is bound by the node, and then
    -- not below it.
    intro x hfree hbound
    by_cases hx : (Formula.node op cs).binder? = some x
    · exact hscope x hx hbound
    · exact h.2.2 x ((mem_free_node hv).2 ⟨hx, c, hmem, hfree⟩)
        (mem_bound_of_child hmem hbound)

/-- **Any number of steps down.** -/
theorem check_subformula? {path : Path} {g : Formula} (h : f.check k = .ok ())
    (hsub : f.subformula? path = some g) (hk : callsFor? k path f = some k') :
    g.check k' = .ok () := by
  induction path generalizing f k with
  | nil =>
    obtain rfl : f = g := by simpa using hsub
    obtain rfl : k = k' := by simpa [callsFor?] using hk
    exact h
  | cons i path ih =>
    cases f with
    | atom name => cases hsub
    | node op cs =>
      obtain ⟨c, hc, hsub⟩ := Option.bind_eq_some_iff.1 hsub
      obtain ⟨l, hl, hk⟩ := Option.bind_eq_some_iff.1 hk
      rw [hc, Option.bind_some] at hk
      exact ih (check_child h hc hl) hsub hk

/-! ## Conditions -/

/-- **The test for agreement.**  The conditions together imply the formula in a
well-formed way. -/
def Implied (cs : List Formula) (f : Formula) : Prop :=
  ∃ premise, conjunction? cs = some premise ∧
    (premise.implies f).check .formula = .ok ()

/-- Of any formulas there is a conjunction, if there are some. -/
theorem exists_conjunction? (h : cs ≠ []) :
    ∃ premise, conjunction? cs = some premise := by
  rcases cs with - | ⟨c, - | ⟨d, rest⟩⟩
  · exact absurd rfl h
  · exact ⟨c, rfl⟩
  · exact ⟨.node .conjunction (c :: d :: rest), rfl⟩

/-- Whether there is one condition or there are many, the test asks that they be
well formed together with the formula. -/
theorem implied_iff_together :
    Implied cs f ↔ cs ≠ [] ∧ Together .formula (cs ++ [f]) := by
  have himplies : ∀ premise, (premise.implies f).check .formula = .ok () ↔
      Together .formula [premise, f] :=
    fun _ => check_connective_eq_ok_iff rfl rfl
  match cs with
  | [] => simp [Implied, conjunction?]
  | [c] => simp [Implied, conjunction?, himplies]
  | c :: d :: rest =>
    have htakes : Operator.conjunction.takes (c :: d :: rest).length := by
      simp [Operator.takes]
    have hjoined : Together .formula [.node .conjunction (c :: d :: rest), f] ↔
        Together .formula ((c :: d :: rest) ++ [f]) :=
      together_connective_cons rfl htakes
    simp [Implied, conjunction?, himplies, hjoined]

/-- Of the conditions that a formula agrees with, any may be dropped or
repeated, in any order, as long as one is left. -/
theorem Implied.subset (h : Implied cs f) (hsubset : gs ⊆ cs) (hgs : gs ≠ []) :
    Implied gs f := by
  rw [implied_iff_together] at h ⊢
  have hwith : gs ++ [f] ⊆ cs ++ [f] :=
    List.append_subset.2
      ⟨List.subset_append_of_subset_left _ hsubset,
        List.subset_append_right _ _⟩
  exact ⟨hgs, h.2.subset hwith⟩

end Formula

open Formula

/-- Where there are conditions, it is this test that a line of the body has to
pass. -/
theorem Body.disagreement?_eq_none_iff_implied {b : Body} {f : Formula}
    (h : b.conditions ≠ []) :
    b.disagreement? f = none ↔ Implied b.assumptions f := by
  have hsome : b.assumptions ≠ [] := by simpa [assumptions] using h
  obtain ⟨premise, hpremise⟩ := exists_conjunction? hsome
  rw [disagreement?_eq_none_iff]
  simp [Agrees, Implied, hpremise]

/-- **Well-formedness is hereditary, and so is agreement with conditions.**
What stands in a well-formed tree where a formula or a term is called for is
well formed as such.  If a formula agrees with conditions, it is well formed by
itself and so is each of them, and it agrees with those that are left when some
are dropped, in any order.  This is the test that every line under conditions
has to pass. -/
theorem agreement_hereditary :
    (∀ (k : Kind) (f : Formula), f.check k = .ok () →
      ∀ (path : Path) (g : Formula) (k' : Kind), f.subformula? path = some g →
        callsFor? k path f = some k' → g.check k' = .ok ()) ∧
    (∀ (cs : List Formula) (f : Formula), Implied cs f →
      f.check .formula = .ok () ∧ (∀ c ∈ cs, c.check .formula = .ok ()) ∧
      ∀ kept order : List Formula, kept.Sublist cs → order.Perm kept →
        order ≠ [] → Implied order f) ∧
    ∀ (b : Body) (f : Formula), b.conditions ≠ [] →
      (b.disagreement? f = none ↔ Implied b.assumptions f) := by
  refine ⟨fun k f h path g k' => check_subformula? h,
    fun cs f h => ⟨?_, fun c hc => ?_, ?_⟩,
    fun b f => Body.disagreement?_eq_none_iff_implied⟩
  · rw [check_eq_ok_iff_together]
    exact (implied_iff_together.1 h).2.subset (by simp)
  · rw [check_eq_ok_iff_together]
    exact (implied_iff_together.1 h).2.subset (by simp [hc])
  · intro kept order hkept horder hne
    exact h.subset (List.Subset.trans horder.subset hkept.subset) hne

namespace Assumed

/-- The condition `Q(y)`. -/
def fact : Formula :=
  template .predicateConstant "Q" ["y"]

/-- The formula `∃w R(z, w)`. -/
def related : Formula :=
  quantify .existential "w" (template .predicateConstant "R" ["z", "w"])

/-- The condition `∀z ∃w R(z, w)`. -/
def total : Formula :=
  quantify .universal "z" related

end Assumed

/-- Below its binder the bound variable `z` is free, and the formula is still
well formed. -/
theorem assumed_total_agrees :
    Implied [Assumed.fact, Assumed.total] Assumed.fact ∧
      Assumed.related.check .formula = .ok () ∧
      Implied [Assumed.total, Assumed.fact] Assumed.fact ∧
      Implied [Assumed.total] Assumed.fact := by
  have himplied : Implied [Assumed.fact, Assumed.total] Assumed.fact :=
    ⟨_, rfl, rfl⟩
  obtain ⟨hbelow, hagree, -⟩ := agreement_hereditary
  obtain ⟨-, hconditions, hordered⟩ := hagree _ _ himplied
  have htotal : Assumed.total.check .formula = .ok () := hconditions _ (by simp)
  refine ⟨himplied, hbelow .formula Assumed.total htotal [1] _ .formula rfl rfl,
    ?_, ?_⟩
  · exact hordered _ _ (.refl _) (.swap _ _ _) (by simp)
  · exact hordered _ _ (.cons _ (.refl _)) (.refl _) (by simp)

end Deduction
