import Deduction.Proofs.Steps

/-!
# Capture in a substitution for a symbol

A substitution for a symbol puts the arguments of every application into the
replacement as they are.  Had the binders of the replacement been renamed apart
from the arguments, nothing could be captured.  This file says exactly when the
two results agree.

Applications inside arguments are replaced first, so an outer application
receives arguments that hold copies of the replacement already.  An application
is **exposed** when its instance shows in the result, that is when no
replacement around it drops it together with an unused parameter.  The results
agree exactly when no exposed application receives an argument in which a
variable is free that the replacement binds (`replaceAsIs_eq_replaceApart_iff`).

The rule compares the replacement with the arguments as they stand in the cited
line, before anything is put into them.  That leaves one gap
(`captureFree_iff_not_clashing`): a variable that is both free and bound in the
replacement and no parameter, together with an application inside an argument of
another.  Then the inner copy brings the variable in and the outer copy captures
it, and the line is accepted all the same.
-/

namespace Deduction

namespace Formula

variable {s : Symbol} {op : Operator} {cs args : List Formula} {f c β : Formula}
  {x z name : String} {xs zs : List String}

/-! ## One application -/

/-- The value that the instance gives to a parameter is its argument. -/
theorem substitute_var_zip_map (hnodup : xs.Nodup) (g : Formula → Formula)
    (h : (x, c) ∈ xs.zip args) :
    (var x).substitute (xs.zip (args.map g)) = g c := by
  have hmem : (x, g c) ∈ xs.zip (args.map g) := by
    rw [List.zip_map_right]
    exact List.mem_map.2 ⟨(x, c), h, rfl⟩
  rw [substitute_var, lookup_zip_of_mem hnodup hmem, Option.getD_some]

/-- Two instances, one with renaming and one without, are
the same when the replacement binds nothing that is free in an argument, and the
arguments of the parameters that occur are the same. -/
theorem instantiate_eq_instantiateApart_iff (hnodup : xs.Nodup)
    (hlength : args.length = xs.length) (g g' : Formula → Formula) :
    instantiate (xs.map var) β (args.map g) =
      instantiateApart (xs.map var) β (args.map g') ↔
      (∀ c ∈ args, ∀ z ∈ (g' c).free, z ∉ β.bound) ∧
        ∀ x c, (x, c) ∈ xs.zip args → x ∈ β.free → g c = g' c := by
  have hvariables : ∀ z, z ∈ argumentVariables (xs.map var) (args.map g') ↔
      ∃ c ∈ args, z ∈ (g' c).free := by
    intro z
    rw [mem_argumentVariables hnodup (by rw [List.length_map, hlength])]
    simp
  rw [instantiate_template hnodup, instantiateApart_template hnodup]
  by_cases hclear : ∀ c ∈ args, ∀ z ∈ (g' c).free, z ∉ β.bound
  · have hself :
        renameApart (argumentVariables (xs.map var) (args.map g')) β = β := by
      apply renameApart_eq_self
      intro z hbound hz
      obtain ⟨c, hc, hfree⟩ := (hvariables z).1 hz
      exact hclear c hc z hfree hbound
    rw [hself, substitute_eq_substitute_iff]
    constructor
    · intro h
      refine ⟨hclear, fun x c hxc hx => ?_⟩
      have hvalue := h x hx
      rwa [substitute_var_zip_map hnodup g hxc,
        substitute_var_zip_map hnodup g' hxc] at hvalue
    · intro h x hx
      by_cases hxs : x ∈ xs
      · obtain ⟨c, hpair⟩ := exists_mem_zip hlength hxs
        rw [substitute_var_zip_map hnodup g hpair,
          substitute_var_zip_map hnodup g' hpair]
        exact h.2 _ _ hpair hx
      · have hnone : ∀ k : Formula → Formula,
            (xs.zip (args.map k)).lookup x = none := by
          intro k
          have hk : (args.map k).length = xs.length := by
            rw [List.length_map, hlength]
          exact (lookup_zip_eq_none_iff hk).2 hxs
        rw [substitute_var, substitute_var, hnone g, hnone g']
  · constructor
    · intro h
      refine absurd ?_ hclear
      intro c hc z hfree hbound
      exact substitute_ne_substitute_renameApart hbound
        ((hvariables z).2 ⟨c, hc, hfree⟩) h
    · intro h
      exact absurd h.1 hclear

/-! ## Exposed applications -/

/-- The symbol is applied to the arguments in a place that shows in the result
of the replacement: below the arguments of another application only where the
parameter occurs in the replacement. -/
inductive Exposed (s : Symbol) (xs : List String) (β : Formula) :
    List Formula → Formula → Prop where
  | here {op : Operator} {cs : List Formula}
      (h : applies s (.node op cs) = true) :
      Exposed s xs β cs.tail (.node op cs)
  | child {op : Operator} {cs args : List Formula} {c : Formula}
      (hnot : applies s (.node op cs) = false) (hc : c ∈ cs)
      (h : Exposed s xs β args c) :
      Exposed s xs β args (.node op cs)
  | argument {op : Operator} {cs args : List Formula} {c : Formula} {x : String}
      (happlies : applies s (.node op cs) = true) (hc : (x, c) ∈ xs.zip cs.tail)
      (hx : x ∈ β.free) (h : Exposed s xs β args c) :
      Exposed s xs β args (.node op cs)

/-- No exposed application receives an argument, replaced already, in which a
variable is free that the replacement binds. -/
def CaptureFree (s : Symbol) (xs : List String) (β f : Formula) : Prop :=
  ∀ args, Exposed s xs β args f →
    ∀ arg ∈ args, ∀ z ∈ (replaceApart s xs β arg).free, z ∉ β.bound

/-- Where the symbol is not applied, nothing is captured if nothing is captured
below. -/
theorem captureFree_of_not_applies (hnot : applies s (.node op cs) = false) :
    CaptureFree s xs β (.node op cs) ↔ ∀ c ∈ cs, CaptureFree s xs β c := by
  constructor
  · intro h c hc args hexposed
    exact h args (.child hnot hc hexposed)
  · intro h args hexposed
    cases hexposed with
    | here happlies => exact absurd happlies (by simp [hnot])
    | child _ hc hexposed => exact h _ hc args hexposed
    | argument happlies => exact absurd happlies (by simp [hnot])

/-- **At an application** nothing is captured if no variable of a treated
argument is bound in the substitute, and if nothing is captured in the arguments
that the substitute makes use of. -/
theorem captureFree_of_applies (happlies : applies s (.node op cs) = true) :
    CaptureFree s xs β (.node op cs) ↔
      (∀ c ∈ cs.tail, ∀ z ∈ (replaceApart s xs β c).free, z ∉ β.bound) ∧
        ∀ x c, (x, c) ∈ xs.zip cs.tail → x ∈ β.free → CaptureFree s xs β c := by
  constructor
  · intro h
    exact ⟨h _ (.here happlies), fun x c hxc hx args hexposed =>
      h args (.argument happlies hxc hx hexposed)⟩
  · intro h args hexposed
    cases hexposed with
    | here => exact h.1
    | child hnot => exact absurd happlies (by simp [hnot])
    | argument _ hxc hx hexposed => exact h.2 _ _ hxc hx args hexposed

/-- **Where the two replacements agree.** -/
theorem replaceAsIs_eq_replaceApart_iff (hnodup : xs.Nodup)
    (harity : s.arity = xs.length) :
    replaceAsIs s xs β f = replaceApart s xs β f ↔ CaptureFree s xs β f := by
  induction f using induct with
  | atom name =>
    refine ⟨fun _ args hexposed => ?_, fun _ => rfl⟩
    cases hexposed
  | node op cs ih =>
    cases happlies : applies s (.node op cs) with
    | false =>
      rw [replaceAsIs, replaceApart, replaceApplications_node s _ happlies,
        replaceApplications_node s _ happlies,
        captureFree_of_not_applies happlies]
      simp only [Formula.node.injEq, true_and, List.map_inj_left]
      exact forall₂_congr ih
    | true =>
      have hlength : cs.tail.length = xs.length :=
        ((Applied.here happlies).length_eq).trans harity
      rw [replaceAsIs, replaceApart, replaceApplications_applied s _ happlies,
        replaceApplications_applied s _ happlies,
        instantiate_eq_instantiateApart_iff hnodup hlength,
        captureFree_of_applies happlies]
      refine and_congr_right fun _ => forall₂_congr fun x c => ?_
      refine forall₂_congr fun hxc _ => ih c ?_
      exact List.mem_of_mem_tail (List.of_mem_zip hxc).2

/-! ## The gap in the test -/

/-- The symbol is applied inside an argument of another application of it. -/
def Nested (s : Symbol) (f : Formula) : Prop :=
  ∃ zs args, Applied s zs args f ∧ ∃ arg ∈ args, containsSymbol s arg = true

/-- A variable other than a parameter is both free and bound. -/
def Clashing (xs : List String) (β : Formula) : Prop :=
  ∃ z ∈ β.free, z ∈ β.bound ∧ z ∉ xs

theorem Exposed.applied (h : Exposed s xs β args f) :
    ∃ zs, Applied s zs args f := by
  induction h with
  | here h => exact ⟨_, .here h⟩
  | child _ hc _ ih =>
    obtain ⟨zs, happlied⟩ := ih
    exact ⟨_, .inside hc happlied⟩
  | argument _ hc _ _ ih =>
    obtain ⟨zs, happlied⟩ := ih
    exact ⟨_, .inside (List.mem_of_mem_tail (List.of_mem_zip hc).2) happlied⟩

/-- What an argument binds, the whole formula binds. -/
theorem Applied.mem_bound (h : Applied s zs args f) {arg : Formula}
    (harg : arg ∈ args) (hz : z ∈ arg.bound) : z ∈ f.bound := by
  induction h with
  | here h => exact mem_bound_of_child (List.mem_of_mem_tail harg) hz
  | inside hc h ih => exact mem_bound_of_child hc (ih harg)

/-- The arguments of an application take no atoms where the formula takes
none. -/
theorem Applied.takesNoAtoms (h : Applied s zs args f)
    (hatoms : TakesNoAtoms s f) {arg : Formula} (harg : arg ∈ args) :
    TakesNoAtoms s arg := by
  induction h with
  | here h => exact hatoms.child (List.mem_of_mem_tail harg)
  | inside hc h ih => exact ih (hatoms.child hc) harg

/-- A name is not an application, so what contains one is an argument. -/
theorem mem_tail_of_containsSymbol (happlies : applies s (.node op cs) = true)
    (hc : c ∈ cs) (h : containsSymbol s c = true) : c ∈ cs.tail := by
  obtain ⟨args, -, -, heq⟩ := applies_eq_true_iff.1 happlies
  cases heq
  rcases List.mem_cons.1 hc with rfl | hc
  · cases h
  · exact hc

/-- The outermost of the applications with another one inside is exposed. -/
theorem Nested.exposed (xs : List String) (β : Formula) (h : Nested s f) :
    ∃ args, Exposed s xs β args f ∧
      ∃ arg ∈ args, containsSymbol s arg = true := by
  obtain ⟨zs, args, happlied, hnested⟩ := h
  induction happlied with
  | here h => exact ⟨_, .here h, hnested⟩
  | @inside op cs c zs args hc happlied ih =>
    cases happlies : applies s (.node op cs) with
    | true =>
      have hcontains : containsSymbol s c = true :=
        containsSymbol_eq_true_iff.2 ⟨zs, args, happlied⟩
      exact ⟨_, .here happlies, c,
        mem_tail_of_containsSymbol happlies hc hcontains, hcontains⟩
    | false =>
      obtain ⟨args', hexposed, hnested'⟩ := ih hnested
      exact ⟨args', .child happlies hc hexposed, hnested'⟩

section Shape

variable (hnodup : xs.Nodup) (harity : s.arity = xs.length)

include hnodup

/-- The substitute is no atom after instantiation if it was none before. -/
theorem atom?_instantiateApart (hβ : β.atom? = none)
    (hargs : ∀ arg ∈ args, arg.atom? = none) :
    (instantiateApart (xs.map var) β args).atom? = none := by
  rw [instantiateApart_template hnodup, atom?_substitute (noAtoms_zip hargs),
    atom?_renameApart, hβ]

theorem var?_instantiateApart (hβ : β.var? = none)
    (hargs : ∀ arg ∈ args, arg.atom? = none) :
    (instantiateApart (xs.map var) β args).var? = none := by
  rw [instantiateApart_template hnodup]
  exact var?_substitute_eq_none (noAtoms_zip hargs)
    (var?_renameApart_eq_none _ hβ)

/-- Expansion neither makes nor changes an atom. -/
theorem atom?_replaceApart (hβ : β.atom? = none) (hatoms : TakesNoAtoms s f) :
    (replaceApart s xs β f).atom? = f.atom? :=
  atom?_replaceApplications
    (fun _ _ hargs => atom?_instantiateApart hnodup hβ hargs) hatoms

/-- What a replacement is given as arguments are no atoms, if they were none
before. -/
theorem replaceApart_tail_atom? (hβ : β.atom? = none)
    (hatoms : TakesNoAtoms s (.node op cs))
    (happlies : applies s (.node op cs) = true) :
    ∀ arg ∈ cs.tail.map (replaceApart s xs β), arg.atom? = none := by
  intro arg' harg'
  obtain ⟨arg, harg, rfl⟩ := List.mem_map.1 harg'
  rw [atom?_replaceApart hnodup hβ (hatoms.child (List.mem_of_mem_tail harg))]
  exact hatoms _ _ (.here happlies) arg harg

/-- Expansion makes no variable of what is none. -/
theorem var?_replaceApart (hβ : β.atom? = none) (hβ' : β.var? = none)
    (hatoms : TakesNoAtoms s f) (h : f.var? = none) :
    (replaceApart s xs β f).var? = none := by
  cases f with
  | atom name => rfl
  | node op cs =>
    cases happlies : applies s (.node op cs) with
    | true =>
      rw [replaceApart, replaceApplications_applied s _ happlies]
      exact var?_instantiateApart hnodup hβ'
        (replaceApart_tail_atom? hnodup hβ hatoms happlies)
    | false =>
      rw [replaceApart, replaceApplications_node s _ happlies]
      exact var?_map_eq_none h fun c hc =>
        atom?_replaceApart hnodup hβ (hatoms.child hc)

include harity

/-- What is free after a replacement was free before, or it is free in `β` and
no parameter. -/
theorem mem_free_replaceApart (hβ : β.atom? = none) (hatoms : TakesNoAtoms s f)
    (hz : z ∈ (replaceApart s xs β f).free) :
    (z ∈ β.free ∧ z ∉ xs) ∨ z ∈ f.free := by
  refine mem_free_replaceApplications (F := fun z => z ∈ β.free ∧ z ∉ xs)
    (fun _ _ hargs => atom?_instantiateApart hnodup hβ hargs) ?_ hatoms hz
  intro args hlength hargs z hz
  rw [instantiateApart_template hnodup] at hz
  rcases mem_free_substitute_zip (hlength.trans harity) hargs hz with h | h
  · exact Or.inl ⟨mem_free_renameApart.1 h.1, h.2⟩
  · exact Or.inr h

/-- A replacement brings in the free variables of `β` that are no parameters,
unless a binder around an application catches them. -/
theorem mem_free_replaceApart_of_containsSymbol (hβ : β.atom? = none)
    (hβ' : β.var? = none) (hz : z ∈ β.free) (hzx : z ∉ xs)
    (hatoms : TakesNoAtoms s f) (hbound : z ∉ f.bound)
    (h : containsSymbol s f = true) : z ∈ (replaceApart s xs β f).free := by
  induction f using shapeInduct with
  | atom name => cases h
  | subject x => simp at h
  | binder op x rest hop ih =>
    obtain ⟨c, hc, hcontains⟩ :=
      exists_child_of_containsSymbol (applies_bind s hop) h
    have hrest : c ∈ rest := by
      rcases List.mem_cons.1 hc with rfl | hc
      · simp at hcontains
      · exact hc
    have hzx : z ≠ x := fun hzx => hbound ((mem_bound_bind hop).2 (Or.inl hzx))
    have hzc : z ∉ c.bound := fun hzc => hbound (mem_bound_of_child hc hzc)
    rw [replaceApart, replaceApplications_bind s _ hop, mem_free_bind hop]
    exact ⟨hzx, _, List.mem_map_of_mem hrest,
      ih c hrest (hatoms.child hc) hzc hcontains⟩
  | plain op cs hv hb ih =>
    cases happlies : applies s (.node op cs) with
    | true =>
      have hlength :
          (cs.tail.map (replaceApart s xs β)).length = xs.length := by
        rw [List.length_map]
        exact ((Applied.here happlies).length_eq).trans harity
      have hargs := replaceApart_tail_atom? hnodup hβ hatoms happlies
      rw [replaceApart, replaceApplications_applied s _ happlies,
        instantiateApart_template hnodup]
      exact mem_free_substitute_of_lookup_eq_none (noAtoms_zip hargs)
        (mem_free_renameApart.2 hz) ((lookup_zip_eq_none_iff hlength).2 hzx)
    | false =>
      obtain ⟨c, hc, hcontains⟩ := exists_child_of_containsSymbol happlies h
      have hzc : z ∉ c.bound := fun hzc => hbound (mem_bound_of_child hc hzc)
      have hv' := var?_map_eq_none hv fun c hc =>
        atom?_replaceApart hnodup hβ (hatoms.child hc)
      have hb' := binder?_map_eq_none hb fun c hc =>
        var?_replaceApart hnodup hβ hβ' (hatoms.child hc)
      rw [replaceApart, replaceApplications_node s _ happlies,
        mem_free_plain hv' hb']
      exact ⟨_, List.mem_map_of_mem hc, ih c hc (hatoms.child hc) hzc hcontains⟩

end Shape

/-- What binds a variable is neither an atom nor a variable. -/
theorem shape_of_mem_bound (h : z ∈ β.bound) :
    β.atom? = none ∧ β.var? = none := by
  cases β with
  | atom name => simp at h
  | node op cs =>
    refine ⟨rfl, ?_⟩
    cases hv : (Formula.node op cs).var? with
    | none => rfl
    | some x =>
      rw [var?_eq_some_iff.1 hv] at h
      simp at h

/-- **The gap.**  After the test for capture the two replacements differ exactly
where an application lies inside an argument of another, and the replacement has
a variable both free and bound that is no parameter. -/
theorem captureFree_iff_not_clashing (hnodup : xs.Nodup)
    (harity : s.arity = xs.length) (hatoms : TakesNoAtoms s f)
    (hkeeps : ∀ z ∈ β.free, z ∉ xs → z ∉ f.bound)
    (hclear : ∀ zs args, Applied s zs args f →
      ∀ arg ∈ args, ∀ z ∈ arg.free, z ∉ β.bound) :
    CaptureFree s xs β f ↔ ¬ (Nested s f ∧ Clashing xs β) := by
  constructor
  · intro hfree hgap
    obtain ⟨hnested, z, hz, hzb, hzx⟩ := hgap
    obtain ⟨args, hexposed, arg, harg, hcontains⟩ := hnested.exposed xs β
    obtain ⟨zs, happlied⟩ := hexposed.applied
    obtain ⟨hβ, hβ'⟩ := shape_of_mem_bound hzb
    -- The inner copy of the replacement brings `z` in, and the outer copy binds
    -- it.
    have hzarg : z ∉ arg.bound :=
      fun h => hkeeps z hz hzx (happlied.mem_bound harg h)
    have hbrought :=
      mem_free_replaceApart_of_containsSymbol hnodup harity hβ hβ' hz hzx
        (happlied.takesNoAtoms hatoms harg) hzarg hcontains
    exact hfree args hexposed arg harg z hbrought hzb
  · intro hgap args hexposed arg harg z hz hzb
    obtain ⟨zs, happlied⟩ := hexposed.applied
    by_cases hcontains : containsSymbol s arg = true
    · have hβ := (shape_of_mem_bound hzb).1
      rcases mem_free_replaceApart hnodup harity hβ
        (happlied.takesNoAtoms hatoms harg) hz with hclash | hzarg
      · exact hgap ⟨⟨zs, args, happlied, arg, harg, hcontains⟩,
          z, hclash.1, hzb, hclash.2⟩
      · exact hclear zs args happlied arg harg z hzarg hzb
    · rw [replaceApart,
        replaceApplications_eq_self _ (by simpa using hcontains)] at hz
      exact hclear zs args happlied arg harg z hz hzb

end Formula

/-! ## Accepted lines -/

open Formula

/-- **What an accepted substitution for a symbol amounts to.**  The accepted
line is the cited one with the arguments put into the replacement as they are.
It is what a replacement with binders renamed apart gives, exactly when no
exposed application captures a variable.  If no application takes a bare atom,
that is when no application lies inside an argument of another, or the
replacement has no variable, parameters aside, that is both free and bound. -/
theorem accepted_substitution_eq_expansion_iff (s : Site) (kind : Schematic)
    (reference : Option String) (given substitute : Option Formula)
    (haccepted : s.checkSubstSymbol kind reference given substitute = .ok ()) :
    ∃ source p xs β, s.citedLine reference "reference" = .ok source ∧
      given = some (template kind.operator p xs) ∧
      substitute.map s.normalize = some β ∧
      s.statement = source.replaceSymbol (template kind.operator p xs) β ∧
      (source.replaceSymbol (template kind.operator p xs) β =
          source.expandSymbol (template kind.operator p xs) β ↔
        CaptureFree (.ofTemplate kind.operator p xs) xs β source) ∧
      (TakesNoAtoms (.ofTemplate kind.operator p xs) source →
        (source.replaceSymbol (template kind.operator p xs) β =
            source.expandSymbol (template kind.operator p xs) β ↔
          ¬ (Nested (.ofTemplate kind.operator p xs) source ∧
            Clashing xs β))) := by
  have happ : kind.operator.isApplication := by cases kind <;> rfl
  obtain ⟨source, p, xs, β, hsource, hgiven, rfl,
    hreplaceable, hstatement, -⟩ :=
    Site.checkSubstSymbol_eq_ok_iff.1 haccepted
  have hiff :
      source.replaceSymbol (template kind.operator p xs) (s.normalize β) =
        source.expandSymbol (template kind.operator p xs) (s.normalize β) ↔
      CaptureFree (.ofTemplate kind.operator p xs) xs
        (s.normalize β) source := by
    rw [replaceSymbol_template happ, expandSymbol_template happ]
    exact replaceAsIs_eq_replaceApart_iff hreplaceable.distinct rfl
  refine ⟨source, p, xs, s.normalize β, hsource, hgiven, rfl, hstatement,
    hiff, ?_⟩
  intro hatoms
  rw [hiff]
  exact captureFree_iff_not_clashing hreplaceable.distinct rfl hatoms
    hreplaceable.keepsFree hreplaceable.clearOfArguments

namespace NestedCapture

/-- If `w` is `g(y)`, then `g(w)` is `g(g(y))`. -/
def congruence (g : Formula → Formula) : Formula :=
  (application .predicateConstant "equal" [var "w", g (var "y")]).implies
    (application .predicateConstant "equal" [g (var "w"), g (g (var "y"))])

/-- The class of all `z` with `Q(t, z)`. -/
def classOf (t : Formula) : Formula :=
  .node .classTerm [var "z", application .predicateConstant "Q" [t, var "z"]]

/-- The term `h(z, t)`. -/
def paired (t : Formula) : Formula :=
  application .functionConstant "h" [var "z", t]

/-- The constant that is defined as the class of all `z` with `Q(t, z)`. -/
def abbreviation (t : Formula) : Formula :=
  application .functionConstant "c" [t]

/-- A line that follows `congruence` for a function variable `f`.  It states
what comes of putting `h(z, c(x))` for `f(x)`: in the outer copy of the class
the variable `z` of the inner copy is captured. -/
def site : Site where
  setting :=
    { policy := .basic
      rules := .allAt .basic
      theory :=
        ({} : Theory).define (abbreviation (var "x")) (classOf (var "x")) }
  conditions := []
  depth := 0
  visible :=
    [{ label := "1"
       formula := congruence fun t => application .functionVariable "f" [t]
       location := ⟨"module", "proof.line[0]"⟩
       assumed := false }]
  location := ⟨"module", "proof.line[1]"⟩
  formula := congruence fun t => paired (classOf t)

end NestedCapture

open NestedCapture

/-- A substitution into nested applications is accepted, and it is the expansion
exactly if nothing is captured. -/
theorem nested_substitution_eq_expansion_iff :
    site.checkSubstSymbol .function (some "1")
        (some (template .functionVariable "f" ["x"]))
        (some (paired (abbreviation (var "x")))) = .ok () ∧
      ∃ source p xs β, site.citedLine (some "1") "reference" = .ok source ∧
        (source.replaceSymbol (template .functionVariable p xs) β =
            source.expandSymbol (template .functionVariable p xs) β ↔
          CaptureFree (.ofTemplate .functionVariable p xs) xs β source) := by
  have haccepted :
      site.checkSubstSymbol .function (some "1")
        (some (template .functionVariable "f" ["x"]))
        (some (paired (abbreviation (var "x")))) = .ok () := by rfl
  obtain ⟨source, p, xs, β, hsource, -, -, -, hiff, -⟩ :=
    accepted_substitution_eq_expansion_iff _ _ _ _ _ haccepted
  exact ⟨haccepted, source, p, xs, β, hsource, hiff⟩

/-- **An accepted line with a captured variable.** -/
theorem nested_substitution_captures :
    site.checkSubstSymbol .function (some "1")
        (some (template .functionVariable "f" ["x"]))
        (some (paired (abbreviation (var "x")))) = .ok () ∧
      (congruence fun t => application .functionVariable "f" [t]).replaceSymbol
          (template .functionVariable "f" ["x"]) (paired (classOf (var "x"))) ≠
        (congruence fun t => application .functionVariable "f" [t]).expandSymbol
          (template .functionVariable "f" ["x"])
          (paired (classOf (var "x"))) := by
  refine ⟨rfl, ?_⟩
  decide

end Deduction
