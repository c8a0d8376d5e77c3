import Deduction.Proofs.Substitution

/-!
# Applications of a symbol

`Applied s zs args f` says that the symbol `s` is applied to the arguments
`args` somewhere in the formula `f`, below binders of the variables `zs`.  The
two tests on the applications of a symbol are read through this relation:
`containsSymbol_eq_true_iff` and `symbolMeets_eq_true_iff`.

The second part is about **templates** `p(x₁, …, xₙ)` with distinct parameters.
Their arguments are put for the parameters by position (`instantiate_template`),
and what is free in the result of a replacement was free before, or it is free
in an argument, or in the replacement and no parameter
(`mem_free_replaceApplications`).

`replaceAsIs` and `replaceApart` are the two replacements of a template's
symbol, without and with renaming, and their arguments are the symbol, the
parameters and the replacement.
-/

universe u

namespace Deduction

/-- The symbol of the template that applies a name to variables. -/
def Symbol.ofTemplate (op : Operator) (name : String) (xs : List String) :
    Symbol :=
  ⟨op, name, xs.length⟩

namespace Formula

variable {s : Symbol} {op : Operator} {cs args : List Formula} {f c : Formula}
  {x z name : String} {xs zs : List String}

/-- The symbol is applied to the arguments in the formula, below binders of the
given variables, the outermost first. -/
inductive Applied (s : Symbol) :
    List String → List Formula → Formula → Prop where
  | here {op : Operator} {cs : List Formula}
      (h : applies s (.node op cs) = true) :
      Applied s [] cs.tail (.node op cs)
  | inside {op : Operator} {cs : List Formula} {c : Formula} {zs : List String}
      {args : List Formula} (hc : c ∈ cs) (h : Applied s zs args c) :
      Applied s ((Formula.node op cs).binder?.toList ++ zs) args (.node op cs)

/-! ## The tests -/

/-- The arguments of an application are all its children but the name. -/
theorem arguments_of_applies (h : applies s (.node op cs) = true) :
    (Formula.node op cs).arguments = cs.tail := by
  obtain ⟨args, happ, -, heq⟩ := applies_eq_true_iff.1 h
  cases heq
  simp [arguments, happ]

/-- An application of a symbol has as many arguments as the symbol takes. -/
theorem Applied.length_eq (h : Applied s zs args f) :
    args.length = s.arity := by
  induction h with
  | here h =>
    obtain ⟨args, -, harity, heq⟩ := applies_eq_true_iff.1 h
    cases heq
    simp [harity]
  | inside hc h ih => exact ih

/-- A symbol occurs exactly where it is applied to some arguments below some
binders. -/
theorem containsSymbol_eq_true_iff :
    containsSymbol s f = true ↔ ∃ zs args, Applied s zs args f := by
  induction f using induct with
  | atom name =>
    constructor
    · intro h
      cases h
    · intro h
      obtain ⟨zs, args, h⟩ := h
      cases h
  | node op cs ih =>
    rw [containsSymbol, anyContainsSymbol_eq_any, Bool.or_eq_true,
      List.any_eq_true]
    constructor
    · intro h
      rcases h with h | ⟨c, hc, h⟩
      · exact ⟨_, _, .here h⟩
      · obtain ⟨zs, args, happlied⟩ := (ih c hc).1 h
        exact ⟨_, _, .inside hc happlied⟩
    · intro h
      obtain ⟨zs, args, h⟩ := h
      cases h with
      | here h => exact Or.inl h
      | inside hc h => exact Or.inr ⟨_, hc, (ih _ hc).2 ⟨_, _, h⟩⟩

theorem containsSymbol_eq_false_iff :
    containsSymbol s f = false ↔ ∀ zs args, ¬ Applied s zs args f := by
  rw [← Bool.not_eq_true, containsSymbol_eq_true_iff]
  simp

theorem containsSymbol_of_applies (h : applies s (.node op cs) = true) :
    containsSymbol s (.node op cs) = true := by
  rw [containsSymbol, h, Bool.true_or]

/-- A node contains what a child contains. -/
theorem containsSymbol_of_child (hc : c ∈ cs) (h : containsSymbol s c = true) :
    containsSymbol s (.node op cs) = true := by
  rw [containsSymbol, anyContainsSymbol_eq_any, Bool.or_eq_true,
    List.any_eq_true]
  exact Or.inr ⟨c, hc, h⟩

/-- A symbol that does not occur in a node does not occur in its children. -/
theorem containsSymbol_eq_false_of_child
    (h : containsSymbol s (.node op cs) = false) (hc : c ∈ cs) :
    containsSymbol s c = false := by
  rw [containsSymbol_eq_false_iff] at h ⊢
  intro zs args happlied
  exact h _ _ (.inside hc happlied)

@[simp] theorem containsSymbol_var (s : Symbol) (x : String) :
    containsSymbol s (var x) = false := by
  simp [var, containsSymbol, anyContainsSymbol, applies, symbol?,
    Operator.isApplication]

/-- A symbol that occurs in a node without being applied there occurs in a
child. -/
theorem exists_child_of_containsSymbol (hnot : applies s (.node op cs) = false)
    (h : containsSymbol s (.node op cs) = true) :
    ∃ c ∈ cs, containsSymbol s c = true := by
  rwa [containsSymbol, hnot, anyContainsSymbol_eq_any, Bool.false_or,
    List.any_eq_true] at h

/-- The test looks for a variable that is free and on the list. -/
theorem mentionsFree_eq_true_iff :
    f.mentionsFree xs = true ↔ ∃ z ∈ f.free, z ∈ xs := by
  simp [mentionsFree]

/-- **What the test for capture sees.**  An application lies below a binder of
one of the variables, or one of them is free in an argument. -/
theorem symbolMeets_eq_true_iff {below : Bool} :
    symbolMeets s xs below f = true ↔ ∃ zs args, Applied s zs args f ∧
      ((below = true ∨ ∃ z ∈ zs, z ∈ xs) ∨
        ∃ arg ∈ args, ∃ z ∈ arg.free, z ∈ xs) := by
  induction f using induct generalizing below with
  | atom name =>
    constructor
    · intro h
      cases h
    · intro h
      obtain ⟨zs, args, h, -⟩ := h
      cases h
  | node op cs ih =>
    rw [symbolMeets, anySymbolMeets_eq_any, Bool.or_eq_true, List.any_eq_true]
    constructor
    · intro h
      rcases h with h | ⟨c, hc, h⟩
      · obtain ⟨happlies, hmeets⟩ := Bool.and_eq_true_iff.1 h
        refine ⟨[], cs.tail, .here happlies, ?_⟩
        rw [arguments_of_applies happlies, Bool.or_eq_true,
          List.any_eq_true] at hmeets
        obtain hbelow | ⟨arg, harg, hfree⟩ := hmeets
        · exact Or.inl (Or.inl hbelow)
        · exact Or.inr ⟨arg, harg, mentionsFree_eq_true_iff.1 hfree⟩
      · obtain ⟨zs, args, happlied, hmeets⟩ := (ih c hc).1 h
        refine ⟨_, args, .inside hc happlied, ?_⟩
        rw [Bool.or_eq_true] at hmeets
        simp only [Option.any_eq_true, List.contains_eq_mem,
          decide_eq_true_eq] at hmeets
        simp only [List.mem_append, Option.mem_toList]
        grind
    · intro h
      obtain ⟨zs, args, happlied, hmeets⟩ := h
      cases happlied with
      | here happlies =>
        left
        rw [Bool.and_eq_true]
        refine ⟨happlies, ?_⟩
        rw [arguments_of_applies happlies, Bool.or_eq_true, List.any_eq_true]
        obtain (hbelow | ⟨z, hz, -⟩) | ⟨arg, harg, hfree⟩ := hmeets
        · exact Or.inl hbelow
        · cases hz
        · exact Or.inr ⟨arg, harg, mentionsFree_eq_true_iff.2 hfree⟩
      | inside hc happlied =>
        right
        refine ⟨_, hc, (ih _ hc).2 ⟨_, _, happlied, ?_⟩⟩
        rw [Bool.or_eq_true]
        simp only [Option.any_eq_true, List.contains_eq_mem, decide_eq_true_eq]
        simp only [List.mem_append, Option.mem_toList] at hmeets
        grind

/-- Where the symbol does not occur there is nothing to replace. -/
theorem replaceApplications_eq_self (put : List Formula → Formula)
    (h : containsSymbol s f = false) : replaceApplications s put f = f := by
  induction f using induct with
  | atom name => rfl
  | node op cs ih =>
    have happlies : applies s (.node op cs) = false := by
      rw [containsSymbol, Bool.or_eq_false_iff] at h
      exact h.1
    have hcs : cs.map (replaceApplications s put) = cs.map id :=
      List.map_congr_left fun c hc =>
        ih c hc (containsSymbol_eq_false_of_child h hc)
    rw [replaceApplications_node s put happlies, hcs, List.map_id]

/-! ## Templates -/

/-- The application of a name to variables. -/
def template (op : Operator) (name : String) (xs : List String) : Formula :=
  application op name (xs.map var)

/-- A template applies its own symbol. -/
theorem symbol?_template (happ : op.isApplication) :
    (template op name xs).symbol? = some (.ofTemplate op name xs) := by
  simp [template, application, symbol?, happ, Symbol.ofTemplate]

theorem arguments_template (happ : op.isApplication) :
    (template op name xs).arguments = xs.map var := by
  simp [template, application, arguments, happ]

/-- A template is not applied exactly when its symbol is applied to nothing. -/
theorem containsApplication_eq_false_iff (happ : op.isApplication) :
    f.containsApplication (template op name xs) = false ↔
      ∀ zs args, ¬ Applied (.ofTemplate op name xs) zs args f := by
  rw [containsApplication, symbol?_template happ, Option.any_some]
  exact containsSymbol_eq_false_iff

/-- The applications of a template's symbol stay clear of given variables. -/
theorem applicationMeets_eq_false_iff (happ : op.isApplication)
    {bound : List String} :
    f.applicationMeets (template op name xs) bound = false ↔
      ∀ zs args, Applied (.ofTemplate op name xs) zs args f →
        (∀ z ∈ zs, z ∉ bound) ∧ ∀ arg ∈ args, ∀ z ∈ arg.free, z ∉ bound := by
  rw [applicationMeets, symbol?_template happ, Option.any_some,
    ← Bool.not_eq_true, symbolMeets_eq_true_iff]
  grind

/-- Pairs with distinct variables as keys all count. -/
theorem lastPairs_zip (hnodup : xs.Nodup) (args : List Formula) :
    Substitution.lastPairs ((xs.map var).zip args) = (xs.map var).zip args := by
  induction xs generalizing args with
  | nil => rfl
  | cons x xs ih =>
    cases args with
    | nil => rfl
    | cons arg args =>
      obtain ⟨hx, hxs⟩ := List.nodup_cons.1 hnodup
      have hkey :
          (((xs.map var).zip args).any fun pair => pair.1 = var x) = false := by
        rw [List.any_eq_false]
        intro pair hpair hkey
        obtain ⟨y, hy, hyx⟩ := List.mem_map.1 (List.of_mem_zip hpair).1
        have hxy : var y = var x := hyx.trans (by simpa using hkey)
        exact hx (var_injective hxy ▸ hy)
      simp only [List.map_cons, List.zip_cons_cons,
        Substitution.lastPairs, hkey]
      simp [ih hxs args]

/-- Pairs of distinct variables and their values are a substitution as they
stand. -/
theorem ofPairs_zip (hnodup : xs.Nodup) (args : List Formula) :
    Substitution.ofPairs ((xs.map var).zip args) = xs.zip args := by
  rw [Substitution.ofPairs, lastPairs_zip hnodup, List.zip_map_left,
    List.filterMap_map]
  induction xs generalizing args with
  | nil => rfl
  | cons x xs ih =>
    cases args with
    | nil => rfl
    | cons arg args => simp [ih (List.nodup_cons.1 hnodup).2 args]

/-- The pairs that count are some of those that are given. -/
theorem mem_of_mem_lastPairs {pairs : List (Formula × Formula)}
    {pair : Formula × Formula} (h : pair ∈ Substitution.lastPairs pairs) :
    pair ∈ pairs := by
  induction pairs with
  | nil => cases h
  | cons first pairs ih =>
    rw [Substitution.lastPairs] at h
    split at h
    · exact List.mem_cons_of_mem _ (ih h)
    · rcases List.mem_cons.1 h with rfl | h
      · exact List.mem_cons_self
      · exact List.mem_cons_of_mem _ (ih h)

/-- A value of the substitution that is given by pairs comes from one of
them. -/
theorem mem_of_lookup_ofPairs {pairs : List (Formula × Formula)} {t : Formula}
    (h : (Substitution.ofPairs pairs).lookup x = some t) :
    (var x, t) ∈ pairs := by
  obtain ⟨⟨key, value⟩, hpair, hentry⟩ :=
    List.mem_filterMap.1 (mem_of_lookup h)
  obtain ⟨y, hkey, hy⟩ := Option.map_eq_some_iff.1 hentry
  cases hy
  rw [← var?_eq_some_iff.1 hkey]
  exact mem_of_mem_lastPairs hpair

/-- **Arguments are put for parameters by position.** -/
theorem instantiate_template (hnodup : xs.Nodup) (f : Formula)
    (args : List Formula) :
    instantiate (xs.map var) f args = f.substitute (xs.zip args) := by
  rw [instantiate, ofPairs_zip hnodup]

theorem getElem_mem_zip {C : Type} {E : Type u} {cs : List C} {ds : List E}
    {i : Nat} (hi : i < cs.length) (hi' : i < ds.length) :
    (cs[i], ds[i]) ∈ cs.zip ds := by
  rw [List.mem_iff_getElem]
  exact ⟨i, by simp; omega, by simp⟩

/-- The variables of the arguments are those that are free in one of them. -/
theorem mem_argumentVariables (hnodup : xs.Nodup)
    (hlength : args.length = xs.length) :
    z ∈ argumentVariables (xs.map var) args ↔ ∃ arg ∈ args, z ∈ arg.free := by
  rw [argumentVariables, lastPairs_zip hnodup, List.mem_flatMap]
  constructor
  · intro h
    obtain ⟨pair, hpair, hz⟩ := h
    exact ⟨pair.2, (List.of_mem_zip hpair).2, hz⟩
  · intro h
    obtain ⟨arg, harg, hz⟩ := h
    obtain ⟨i, hi, rfl⟩ := List.mem_iff_getElem.1 harg
    have hi' : i < (xs.map var).length := by simp; omega
    exact ⟨((xs.map var)[i], args[i]), getElem_mem_zip hi' hi, hz⟩

/-- Among distinct variables each finds the value it was paired with. -/
theorem lookup_zip_of_mem {E : Type u} {d : E} {ds : List E} (hnodup : xs.Nodup)
    (h : (x, d) ∈ xs.zip ds) : (xs.zip ds).lookup x = some d := by
  induction xs generalizing ds with
  | nil => cases h
  | cons y xs ih =>
    cases ds with
    | nil => cases h
    | cons e ds =>
      obtain ⟨hy, hxs⟩ := List.nodup_cons.1 hnodup
      rw [List.zip_cons_cons] at h ⊢
      rcases List.mem_cons.1 h with heq | h
      · cases heq
        simp
      · have hne : (x == y) = false := by
          have hx : x ∈ xs := (List.of_mem_zip h).1
          simp only [beq_eq_false_iff_ne]
          exact fun hxy => hy (hxy ▸ hx)
        rw [List.lookup_cons, hne]
        exact ih hxs h

/-- Each variable is paired with a value if there are enough values. -/
theorem exists_mem_zip {E : Type u} {ds : List E}
    (hlength : ds.length = xs.length) (hx : x ∈ xs) :
    ∃ d, (x, d) ∈ xs.zip ds := by
  obtain ⟨i, hi, rfl⟩ := List.mem_iff_getElem.1 hx
  have hi' : i < ds.length := by omega
  exact ⟨ds[i], getElem_mem_zip hi hi'⟩

/-- Nothing is found exactly for a variable that is not on the list. -/
theorem lookup_zip_eq_none_iff {E : Type u} {ds : List E}
    (hlength : ds.length = xs.length) :
    (xs.zip ds).lookup x = none ↔ x ∉ xs := by
  rw [List.lookup_eq_none_iff]
  constructor
  · intro h hx
    obtain ⟨d, hpair⟩ := exists_mem_zip hlength hx
    simpa using h _ hpair
  · intro hx pair hpair
    have hmem := (List.of_mem_zip hpair).1
    simp only [bne_iff_ne]
    exact fun hxp => hx (hxp ▸ hmem)

/-- Arguments that are no atoms are a substitution without atoms. -/
theorem noAtoms_zip (h : ∀ arg ∈ args, arg.atom? = none) :
    Substitution.NoAtoms (xs.zip args) := fun _ _ ht =>
  h _ (List.of_mem_zip (mem_of_lookup ht)).2

/-- What is free in an instance of a formula is free in an argument, or in the
formula and no parameter. -/
theorem mem_free_substitute_zip (hlength : args.length = xs.length)
    (hargs : ∀ arg ∈ args, arg.atom? = none)
    (h : z ∈ (f.substitute (xs.zip args)).free) :
    (z ∈ f.free ∧ z ∉ xs) ∨ ∃ arg ∈ args, z ∈ arg.free := by
  obtain ⟨x, hx, hz⟩ := mem_free_substitute (noAtoms_zip hargs) h
  rw [substitute_var] at hz
  cases hlookup : (xs.zip args).lookup x with
  | none =>
    rw [hlookup] at hz
    obtain rfl : z = x := by simpa using hz
    exact Or.inl ⟨hx, (lookup_zip_eq_none_iff hlength).1 hlookup⟩
  | some t =>
    rw [hlookup] at hz
    exact Or.inr ⟨t, (List.of_mem_zip (mem_of_lookup hlookup)).2, hz⟩

/-! ## Two ways to replace -/

variable {β : Formula}

/-- Replaces every application of the symbol, with the arguments put for the
parameters as they are. -/
abbrev replaceAsIs (s : Symbol) (xs : List String) (β : Formula) :
    Formula → Formula :=
  replaceApplications s (instantiate (xs.map var) β)

/-- Replaces every application of the symbol, with the binders of `β` renamed
apart from the arguments. -/
abbrev replaceApart (s : Symbol) (xs : List String) (β : Formula) :
    Formula → Formula :=
  replaceApplications s (instantiateApart (xs.map var) β)

/-- Replacement by a template is replacement of its symbol, with the formula as
it is. -/
theorem replaceSymbol_template (happ : op.isApplication) :
    f.replaceSymbol (template op name xs) β =
      replaceAsIs (.ofTemplate op name xs) xs β f := by
  rw [replaceSymbol, symbol?_template happ, arguments_template happ]

/-- Expansion of a template is replacement of its symbol, with the formula
renamed apart. -/
theorem expandSymbol_template (happ : op.isApplication) :
    f.expandSymbol (template op name xs) β =
      replaceApart (.ofTemplate op name xs) xs β f := by
  rw [expandSymbol, symbol?_template happ, arguments_template happ]

/-- The renamed formula is instantiated by substituting the arguments for the
variables. -/
theorem instantiateApart_template (hnodup : xs.Nodup) (β : Formula)
    (args : List Formula) :
    instantiateApart (xs.map var) β args =
      (renameApart (argumentVariables (xs.map var) args) β).substitute
        (xs.zip args) := by
  rw [instantiateApart, instantiate_template hnodup]

/-! ## Variables after a replacement -/

/-- No application of the symbol takes a bare atom as an argument. -/
def TakesNoAtoms (s : Symbol) (f : Formula) : Prop :=
  ∀ zs args, Applied s zs args f → ∀ arg ∈ args, arg.atom? = none

/-- What holds of all applications in a node holds of those in a child. -/
theorem TakesNoAtoms.child (h : TakesNoAtoms s (.node op cs)) (hc : c ∈ cs) :
    TakesNoAtoms s c := fun _ args happlied => h _ args (.inside hc happlied)

variable {put : List Formula → Formula}

/-- Replacing applications by formulas that are no atoms neither makes nor
changes an atom. -/
theorem atom?_replaceApplications
    (hput : ∀ args, args.length = s.arity → (∀ arg ∈ args, arg.atom? = none) →
      (put args).atom? = none)
    (h : TakesNoAtoms s f) : (replaceApplications s put f).atom? = f.atom? := by
  induction f using induct with
  | atom name => rfl
  | node op cs ih =>
    cases happlies : applies s (.node op cs) with
    | false =>
      rw [replaceApplications_node s put happlies]
      rfl
    | true =>
      rw [replaceApplications_applied s put happlies]
      refine hput _ ?_ ?_
      · rw [List.length_map]
        exact (Applied.here happlies).length_eq
      · intro arg' harg'
        obtain ⟨arg, harg, rfl⟩ := List.mem_map.1 harg'
        rw [ih arg (List.mem_of_mem_tail harg)
          (h.child (List.mem_of_mem_tail harg))]
        exact h _ _ (.here happlies) arg harg

/-- **No variable comes from nowhere.**  If an instance has free only what is
free in its arguments, and the variables `F` besides, then a replacement makes
at most the variables `F` free. -/
theorem mem_free_replaceApplications {F : String → Prop}
    (hatom : ∀ args, args.length = s.arity → (∀ arg ∈ args, arg.atom? = none) →
      (put args).atom? = none)
    (hfree : ∀ args, args.length = s.arity → (∀ arg ∈ args, arg.atom? = none) →
      ∀ z ∈ (put args).free, F z ∨ ∃ arg ∈ args, z ∈ arg.free)
    (h : TakesNoAtoms s f) (hz : z ∈ (replaceApplications s put f).free) :
    F z ∨ z ∈ f.free := by
  induction f using shapeInduct with
  | atom name => simp at hz
  | subject x =>
    rw [replaceApplications_var] at hz
    exact Or.inr hz
  | binder op x rest hop ih =>
    rw [replaceApplications_bind s put hop, mem_free_bind hop] at hz
    obtain ⟨hzx, c', hc', hzc⟩ := hz
    obtain ⟨c, hc, rfl⟩ := List.mem_map.1 hc'
    rcases ih c hc (h.child (List.mem_cons_of_mem _ hc)) hzc with hF | hzc
    · exact Or.inl hF
    · exact Or.inr ((mem_free_bind hop).2 ⟨hzx, c, hc, hzc⟩)
  | plain op cs hv hb ih =>
    have hchildren : (∃ c ∈ cs, z ∈ (replaceApplications s put c).free) →
        F z ∨ z ∈ (Formula.node op cs).free := by
      intro h
      obtain ⟨c, hc, hzc⟩ := h
      rcases ih c hc (h.child hc) hzc with hF | hzc
      · exact Or.inl hF
      · exact Or.inr ((mem_free_plain hv hb).2 ⟨c, hc, hzc⟩)
    cases happlies : applies s (.node op cs) with
    | false =>
      have hv' := var?_map_eq_none hv fun c hc =>
        atom?_replaceApplications hatom (h.child hc)
      rw [replaceApplications_node s put happlies] at hz
      obtain ⟨-, c', hc', hzc⟩ := (mem_free_node hv').1 hz
      obtain ⟨c, hc, rfl⟩ := List.mem_map.1 hc'
      exact hchildren ⟨c, hc, hzc⟩
    | true =>
      rw [replaceApplications_applied s put happlies] at hz
      have hlength : (cs.tail.map (replaceApplications s put)).length =
          s.arity := by
        rw [List.length_map]
        exact (Applied.here happlies).length_eq
      have hatoms : ∀ arg ∈ cs.tail.map (replaceApplications s put),
          arg.atom? = none := by
        intro arg' harg'
        obtain ⟨arg, harg, rfl⟩ := List.mem_map.1 harg'
        rw [atom?_replaceApplications hatom
          (h.child (List.mem_of_mem_tail harg))]
        exact h _ _ (.here happlies) arg harg
      rcases hfree _ hlength hatoms z hz with hF | ⟨arg', harg', hzarg⟩
      · exact Or.inl hF
      · obtain ⟨arg, harg, rfl⟩ := List.mem_map.1 harg'
        exact hchildren ⟨arg, List.mem_of_mem_tail harg, hzarg⟩

end Formula

end Deduction
