import Deduction.Proofs.Sorts
import Deduction.Theory
import Mathlib.Logic.Function.Iterate
import Mathlib.Logic.Relation

/-!
# Normal forms

Normalization leaves no defined constant behind, provided that no definition
leads back to itself.  A pass applies the definitions in the order in which they
are listed, so a later definition may bring back a constant that an earlier one
has just removed, and one pass is not enough in general.

What a pass does achieve is seen from the **depth** of a symbol: `theory.Deep n
t` says that `t` stands at the end of a chain of `n + 1` defined symbols, each
of which is mentioned in the definiens of the one before.  Within a pass every
defined symbol of the formula is met once and removed, and what comes in instead
is mentioned in a definiens, so it lies one deeper (`settled_expandSymbol`).
After `n` passes all defined symbols that are left have depth `n`.  Without a
cycle the symbols of a chain are distinct, so no symbol is as deep as there are
definitions (`Deep.lt_length`).

The definitions may come in any order, a symbol may have several of them, and
the parameters of a template may be anything.
-/

namespace Deduction

namespace Formula

variable {s t : Symbol} {op : Operator} {cs args params : List Formula}
  {f β : Formula} {σ : Substitution}

/-! ## Symbols that occur -/

/-- A symbol occurs in a node if the node applies it or a child contains it. -/
theorem containsSymbol_node_iff :
    containsSymbol s (.node op cs) = true ↔
      applies s (.node op cs) = true ∨ ∃ c ∈ cs, containsSymbol s c = true := by
  rw [containsSymbol, anyContainsSymbol_eq_any, Bool.or_eq_true,
    List.any_eq_true]

/-- A change below a node that keeps the names among its children keeps the
symbol that the node applies. -/
theorem applies_map {g : Formula → Formula}
    (hg : ∀ c ∈ cs, (g c).atom? = c.atom?) :
    applies s (.node op (cs.map g)) = applies s (.node op cs) := by
  cases cs with
  | nil => rfl
  | cons c cs =>
    have hc := hg c List.mem_cons_self
    rw [List.map_cons, applies, applies]
    cases c with
    | atom name =>
      cases hgc : g (.atom name) with
      | node op' cs' =>
        rw [hgc] at hc
        cases hc
      | atom name' =>
        rw [hgc] at hc
        cases hc
        simp [symbol?]
    | node op' cs' =>
      cases hgc : g (.node op' cs') with
      | node => rfl
      | atom name' =>
        rw [hgc] at hc
        cases hc

/-- A change that keeps the names and the symbols of the children keeps the
symbols of the node. -/
theorem containsSymbol_map {g : Formula → Formula}
    (hg : ∀ c ∈ cs, (g c).atom? = c.atom?)
    (hcs : ∀ c ∈ cs, containsSymbol s (g c) = containsSymbol s c) :
    containsSymbol s (.node op (cs.map g)) =
      containsSymbol s (.node op cs) := by
  rw [Bool.eq_iff_iff, containsSymbol_node_iff, containsSymbol_node_iff,
    applies_map hg]
  simp only [List.mem_map, exists_exists_and_eq_and]
  refine or_congr_right (exists_congr fun c => and_congr_right fun hc => ?_)
  rw [hcs c hc]

/-- Renaming a variable leaves the symbols that occur. -/
theorem containsSymbol_replaceVar (x y : String) (f : Formula) :
    containsSymbol s (replaceVar x (var y) f) = containsSymbol s f := by
  induction f using induct with
  | atom name => rfl
  | node op cs ih =>
    by_cases hv : (Formula.node op cs).var? = some x
    · rw [var?_eq_some_iff.1 hv, replaceVar_var_self, containsSymbol_var,
        containsSymbol_var]
    · rw [replaceVar_node _ hv]
      exact containsSymbol_map (fun c _ => atom?_replaceVar x y c) ih

/-- Renaming apart leaves the symbols that occur. -/
theorem containsSymbol_renameApart (avoid : List String) (f : Formula) :
    containsSymbol s (renameApart avoid f) = containsSymbol s f := by
  induction f using induct with
  | atom name => rfl
  | node op cs ih =>
    have hinside : containsSymbol s (.node op (cs.map (renameApart avoid))) =
        containsSymbol s (.node op cs) :=
      containsSymbol_map (fun c _ => atom?_renameApart avoid c) ih
    simp only [renameApart, renameApartAll_eq_map]
    split
    · exact hinside
    · split
      · rw [containsSymbol_replaceVar]
        exact hinside
      · exact hinside

/-- A symbol of the result was there before, or it occurs in a value. -/
theorem containsSymbol_substitute (hσ : σ.NoAtoms)
    (h : containsSymbol s (f.substitute σ) = true) :
    containsSymbol s f = true ∨
      ∃ x u, σ.lookup x = some u ∧ containsSymbol s u = true := by
  induction f using shapeInduct generalizing σ with
  | atom name => cases h
  | subject x =>
    rw [substitute_var] at h
    cases hlookup : σ.lookup x with
    | none => simp [hlookup] at h
    | some u =>
      rw [hlookup, Option.getD_some] at h
      exact Or.inr ⟨x, u, hlookup, h⟩
  | binder op x rest hop ih =>
    rw [substitute_bind σ hop] at h
    obtain ⟨c', hc', h⟩ := exists_child_of_containsSymbol (applies_bind s hop) h
    rcases List.mem_cons.1 hc' with rfl | hc'
    · simp at h
    · obtain ⟨c, hc, rfl⟩ := List.mem_map.1 hc'
      rcases ih c hc (hσ.without x) h with h | ⟨y, u, hlookup, hu⟩
      · exact Or.inl (containsSymbol_of_child (List.mem_cons_of_mem _ hc) h)
      · have hyx : y ≠ x := by
          rintro rfl
          simp at hlookup
        rw [Substitution.lookup_without_of_ne σ hyx] at hlookup
        exact Or.inr ⟨y, u, hlookup, hu⟩
  | plain op cs hv hb ih =>
    rw [substitute_plain σ hv hb, containsSymbol_node_iff,
      applies_map fun c _ => atom?_substitute hσ c] at h
    rcases h with h | ⟨c', hc', h⟩
    · exact Or.inl (containsSymbol_of_applies h)
    · obtain ⟨c, hc, rfl⟩ := List.mem_map.1 hc'
      rcases ih c hc hσ h with h | h
      · exact Or.inl (containsSymbol_of_child hc h)
      · exact Or.inr h

/-! ## Symbols after an expansion -/

/-- Arguments that are no atoms are a substitution without atoms. -/
theorem noAtoms_ofPairs (hargs : ∀ arg ∈ args, arg.atom? = none) :
    (Substitution.ofPairs (params.zip args)).NoAtoms := fun _ u hu =>
  hargs u (List.of_mem_zip (mem_of_lookup_ofPairs hu)).2

/-- An instance has the symbols of the formula and those of the arguments
only. -/
theorem containsSymbol_instantiateApart (hargs : ∀ arg ∈ args, arg.atom? = none)
    (h : containsSymbol s (instantiateApart params β args) = true) :
    containsSymbol s β = true ∨ ∃ arg ∈ args, containsSymbol s arg = true := by
  rcases containsSymbol_substitute (noAtoms_ofPairs hargs) h with
    h | ⟨x, u, hu, h⟩
  · rw [containsSymbol_renameApart] at h
    exact Or.inl h
  · exact Or.inr ⟨u, (List.of_mem_zip (mem_of_lookup_ofPairs hu)).2, h⟩

/-- **What an expansion leaves and what it brings in.**  The expanded symbol
itself is gone, unless its replacement holds it again, and new symbols come from
the replacement. -/
theorem containsSymbol_expansion (hβ : β.atom? = none)
    (hatoms : TakesNoAtoms s f)
    (h : containsSymbol t
      (replaceApplications s (instantiateApart params β) f) = true) :
    (t ≠ s ∧ containsSymbol t f = true) ∨
      (containsSymbol s f = true ∧ containsSymbol t β = true) := by
  have hput : ∀ args, args.length = s.arity → (∀ arg ∈ args, arg.atom? = none) →
      (instantiateApart params β args).atom? = none := by
    intro args _ hargs
    rw [instantiateApart, instantiate, atom?_substitute (noAtoms_ofPairs hargs),
      atom?_renameApart, hβ]
  induction f using induct with
  | atom name => cases h
  | node op cs ih =>
    have hatom? : ∀ c ∈ cs,
        (replaceApplications s (instantiateApart params β) c).atom? = c.atom? :=
      fun c hc => atom?_replaceApplications hput (hatoms.child hc)
    -- Whatever shows in a child that was expanded, the node had or the
    -- replacement brings in.
    have hchild : ∀ c ∈ cs,
        containsSymbol t
          (replaceApplications s (instantiateApart params β) c) = true →
        (t ≠ s ∧ containsSymbol t (.node op cs) = true) ∨
          (containsSymbol s (.node op cs) = true ∧
            containsSymbol t β = true) := by
      intro c hc h
      rcases ih c hc (hatoms.child hc) h with ⟨hne, h⟩ | ⟨hs, h⟩
      · exact Or.inl ⟨hne, containsSymbol_of_child hc h⟩
      · exact Or.inr ⟨containsSymbol_of_child hc hs, h⟩
    cases happlies : applies s (.node op cs) with
    | false =>
      rw [replaceApplications_node s _ happlies, containsSymbol_node_iff,
        applies_map hatom?] at h
      rcases h with h | ⟨c', hc', h⟩
      · refine Or.inl ⟨?_, containsSymbol_of_applies h⟩
        rintro rfl
        rw [happlies] at h
        cases h
      · obtain ⟨c, hc, rfl⟩ := List.mem_map.1 hc'
        exact hchild c hc h
    | true =>
      rw [replaceApplications_applied s _ happlies] at h
      have hargs : ∀ arg ∈
          cs.tail.map (replaceApplications s (instantiateApart params β)),
          arg.atom? = none := by
        intro arg' harg'
        obtain ⟨arg, harg, rfl⟩ := List.mem_map.1 harg'
        rw [hatom? arg (List.mem_of_mem_tail harg)]
        exact hatoms _ _ (.here happlies) arg harg
      rcases containsSymbol_instantiateApart hargs h with h | ⟨arg', harg', h⟩
      · exact Or.inr ⟨containsSymbol_of_applies happlies, h⟩
      · obtain ⟨arg, harg, rfl⟩ := List.mem_map.1 harg'
        exact hchild arg (List.mem_of_mem_tail harg) h

end Formula

open Formula

/-- A definition gives its symbol a well-sorted definiens of the kind that the
symbol has. -/
def Definition.WellSorted (d : Definition) : Prop :=
  ∀ s, d.template.symbol? = some s → Sorted s.op.kind d.definiens

namespace Definition

variable {d : Definition} {t : Symbol} {k : Kind} {f : Formula}

/-- Expanding a well-sorted definition keeps a tree sorted. -/
theorem WellSorted.expandSymbol (hd : d.WellSorted) (hf : Sorted k f) :
    Sorted k (f.expandSymbol d.template d.definiens) := by
  unfold Formula.expandSymbol
  cases hs : d.template.symbol? with
  | none => exact hf
  | some s =>
    exact hf.replaceApplications fun _ hargs =>
      .instantiateApart (hd s hs) hargs

/-- What one definition leaves and what it brings in. -/
theorem WellSorted.containsSymbol_expandSymbol (hd : d.WellSorted)
    (hf : Sorted k f)
    (h : containsSymbol t (f.expandSymbol d.template d.definiens) = true) :
    (d.template.symbol? ≠ some t ∧ containsSymbol t f = true) ∨
      ∃ s, d.template.symbol? = some s ∧ containsSymbol s f = true ∧
        containsSymbol t d.definiens = true := by
  unfold Formula.expandSymbol at h
  cases hs : d.template.symbol? with
  | none =>
    rw [hs] at h
    exact Or.inl ⟨nofun, h⟩
  | some s =>
    rw [hs] at h
    rcases containsSymbol_expansion (hd s hs).atom?_eq_none
        hf.takesNoAtoms h with
      ⟨hne, h⟩ | ⟨hcontains, h⟩
    · exact Or.inl ⟨fun heq => hne (Option.some.inj heq).symm, h⟩
    · exact Or.inr ⟨s, rfl, hcontains, h⟩

end Definition

namespace Theory

variable {theory : Theory} {s t : Symbol} {k : Kind} {f : Formula} {n : Nat}

/-- Every definition is well sorted. -/
def WellSorted (theory : Theory) : Prop :=
  ∀ d ∈ theory.definitions, d.WellSorted

/-- Some definition is for the symbol. -/
def Defined (theory : Theory) (s : Symbol) : Prop :=
  ∃ d ∈ theory.definitions, d.template.symbol? = some s

/-- A definiens of the first symbol mentions the second, which is defined
too. -/
def Mentions (theory : Theory) (s t : Symbol) : Prop :=
  theory.Defined t ∧
    ∃ d ∈ theory.definitions, d.template.symbol? = some s ∧
      containsSymbol t d.definiens = true

/-- **No definition leads back to itself.** -/
def Acyclic (theory : Theory) : Prop :=
  ∀ s, ¬ Relation.TransGen theory.Mentions s s

/-- Definitions that lead from higher to lower ranks only are acyclic. -/
theorem acyclic_of_rank (rank : Symbol → Nat)
    (h : ∀ s t, theory.Mentions s t → rank t < rank s) : theory.Acyclic := by
  have hlt : ∀ s t, Relation.TransGen theory.Mentions s t →
      rank t < rank s := by
    intro s t hst
    induction hst with
    | single hst => exact h _ _ hst
    | tail _ hst ih => exact Nat.lt_trans (h _ _ hst) ih
  intro s hs
  exact Nat.lt_irrefl _ (hlt s s hs)

/-! ## Depth -/

/-- The defined symbol `t` ends a chain of `n` mentions. -/
def Deep (theory : Theory) : Nat → Symbol → Prop
  | 0, t => theory.Defined t
  | n + 1, t => ∃ s, theory.Deep n s ∧ theory.Mentions s t

theorem Deep.of_succ (h : theory.Deep (n + 1) t) : theory.Deep n t := by
  induction n generalizing t with
  | zero =>
    obtain ⟨s, -, hst⟩ := h
    exact hst.1
  | succ n ih =>
    obtain ⟨s, hs, hst⟩ := h
    exact ⟨s, ih hs, hst⟩

/-- Without cycles the symbols of a chain are distinct. -/
theorem Deep.exists_chain (hacyclic : theory.Acyclic) (h : theory.Deep n t) :
    ∃ chain : List Symbol, chain.length = n + 1 ∧ chain.Nodup ∧
      ∀ s ∈ chain, theory.Defined s ∧
        Relation.ReflTransGen theory.Mentions s t := by
  induction n generalizing t with
  | zero =>
    refine ⟨[t], rfl, by simp, fun s hs => ?_⟩
    obtain rfl := List.mem_singleton.1 hs
    exact ⟨h, .refl⟩
  | succ n ih =>
    obtain ⟨s, hs, hst⟩ := h
    obtain ⟨chain, hlength, hnodup, hchain⟩ := ih hs
    have ht : t ∉ chain := fun ht => hacyclic t (.tail' (hchain t ht).2 hst)
    refine ⟨t :: chain, by rw [List.length_cons, hlength],
      List.nodup_cons.2 ⟨ht, hnodup⟩, ?_⟩
    intro r hr
    rcases List.mem_cons.1 hr with rfl | hr
    · exact ⟨hst.1, .refl⟩
    · exact ⟨(hchain r hr).1, (hchain r hr).2.tail hst⟩

/-- **No symbol is as deep as there are definitions.** -/
theorem Deep.lt_length (hacyclic : theory.Acyclic) (h : theory.Deep n t) :
    n < theory.definitions.length := by
  obtain ⟨chain, hlength, hnodup, hchain⟩ := h.exists_chain hacyclic
  have hsubset :
      chain ⊆ theory.definitions.filterMap fun d => d.template.symbol? := by
    intro s hs
    obtain ⟨d, hd, hsymbol⟩ := (hchain s hs).1
    exact List.mem_filterMap.2 ⟨d, hd, hsymbol⟩
  have hle := hnodup.length_le_of_subset hsubset
  have hfilter := List.length_filterMap_le
    (fun d : Definition => d.template.symbol?) theory.definitions
  omega

/-! ## Passes -/

/-- All defined symbols of the formula have depth `n`, and those that a pass has
dealt with have depth `n + 1`. -/
def Settled (theory : Theory) (n : Nat) (done : Symbol → Prop) (f : Formula) :
    Prop :=
  ∀ t, theory.Defined t → containsSymbol t f = true →
    theory.Deep n t ∧ (done t → theory.Deep (n + 1) t)

/-- **One definition.**  Its symbol goes, and what comes instead lies deeper. -/
theorem settled_expandSymbol {d : Definition} {done : Symbol → Prop}
    (hd : d ∈ theory.definitions) (hsorted : d.WellSorted) (hf : Sorted k f)
    (h : theory.Settled n done f) :
    theory.Settled n (fun t => done t ∨ d.template.symbol? = some t)
      (f.expandSymbol d.template d.definiens) := by
  intro t ht hcontains
  rcases hsorted.containsSymbol_expandSymbol hf hcontains with
    ⟨hne, hcontains⟩ | ⟨s, hs, hsf, hcontains⟩
  · obtain ⟨hdeep, hdone⟩ := h t ht hcontains
    exact ⟨hdeep, fun hor => hdone (hor.resolve_right hne)⟩
  · have hdeeper : theory.Deep (n + 1) t :=
      ⟨s, (h s ⟨d, hd, hs⟩ hsf).1, ht, d, hd, hs, hcontains⟩
    exact ⟨hdeeper.of_succ, fun _ => hdeeper⟩

/-- One definition after the other. -/
theorem settled_foldl {ds : List Definition} {done : Symbol → Prop}
    (hds : ∀ d ∈ ds, d ∈ theory.definitions ∧ d.WellSorted) (hf : Sorted k f)
    (h : theory.Settled n done f) :
    theory.Settled n (fun t => done t ∨ ∃ d ∈ ds, d.template.symbol? = some t)
      (ds.foldl (fun f d => f.expandSymbol d.template d.definiens) f) := by
  induction ds generalizing f done with
  | nil =>
    intro t ht hcontains
    simpa using h t ht hcontains
  | cons d ds ih =>
    obtain ⟨hd, hsorted⟩ := hds d List.mem_cons_self
    have hnext := ih (fun e he => hds e (List.mem_cons_of_mem _ he))
      (hsorted.expandSymbol hf) (settled_expandSymbol hd hsorted hf h)
    intro t ht hcontains
    simpa only [List.mem_cons, exists_eq_or_imp, or_assoc]
      using hnext t ht hcontains

/-- **One pass.**  Every defined symbol that is left lies one deeper than
before. -/
theorem deep_of_containsSymbol_expand (hsorted : theory.WellSorted)
    (hf : Sorted k f)
    (h : ∀ t, theory.Defined t → containsSymbol t f = true → theory.Deep n t) :
    ∀ t, theory.Defined t → containsSymbol t (theory.expand f) = true →
      theory.Deep (n + 1) t := by
  intro t ht hcontains
  have hstart : theory.Settled n (fun _ => False) f := fun t ht hcontains =>
    ⟨h t ht hcontains, False.elim⟩
  have hpass := settled_foldl (fun d hd => ⟨hd, hsorted d hd⟩) hf hstart
  exact (hpass t ht hcontains).2 (Or.inr ht)

/-- A pass of well-sorted definitions keeps a tree sorted. -/
theorem WellSorted.expand (hsorted : theory.WellSorted) (hf : Sorted k f) :
    Sorted k (theory.expand f) := by
  obtain ⟨proved, definitions⟩ := theory
  rw [Theory.expand]
  induction definitions generalizing f with
  | nil => exact hf
  | cons d ds ih =>
    exact ih ((hsorted d List.mem_cons_self).expandSymbol hf)
      fun e he => hsorted e (List.mem_cons_of_mem _ he)

/-- **Pass after pass.**  After `n` passes the symbols that are left lie `n`
deeper. -/
theorem deep_of_containsSymbol_iterate (hsorted : theory.WellSorted) {m : Nat}
    (hf : Sorted k f)
    (h : ∀ t, theory.Defined t → containsSymbol t f = true → theory.Deep m t) :
    ∀ t, theory.Defined t → containsSymbol t (theory.expand^[n] f) = true →
      theory.Deep (m + n) t := by
  induction n generalizing f m with
  | zero => exact h
  | succ n ih =>
    have hnext :=
      ih (hsorted.expand hf) (deep_of_containsSymbol_expand hsorted hf h)
    rwa [Nat.add_assoc, Nat.add_comm 1 n] at hnext

/-! ## Normal forms -/

/-- No defined symbol occurs. -/
def Normal (theory : Theory) (f : Formula) : Prop :=
  ∀ t, theory.Defined t → containsSymbol t f = false

/-- No definition changes a normal formula. -/
theorem Normal.expandSymbol_eq_self (h : theory.Normal f) {d : Definition}
    (hd : d ∈ theory.definitions) :
    f.expandSymbol d.template d.definiens = f := by
  unfold Formula.expandSymbol
  cases hs : d.template.symbol? with
  | none => rfl
  | some s => exact replaceApplications_eq_self _ (h s ⟨d, hd, hs⟩)

/-- No pass changes a normal formula. -/
theorem Normal.expand_eq_self (h : theory.Normal f) : theory.expand f = f := by
  have hfold : ∀ ds : List Definition, (∀ d ∈ ds, d ∈ theory.definitions) →
      ds.foldl (fun f d => f.expandSymbol d.template d.definiens) f = f := by
    intro ds hds
    induction ds with
    | nil => rfl
    | cons d ds ih =>
      rw [List.foldl_cons, h.expandSymbol_eq_self (hds d List.mem_cons_self)]
      exact ih fun e he => hds e (List.mem_cons_of_mem _ he)
  exact hfold theory.definitions fun _ hd => hd

/-- **Stopping early is harmless.**  Once a step changes nothing, repeating it
changes nothing either. -/
theorem settle_eq_iterate (step : Formula → Formula) (n : Nat) (f : Formula) :
    settle step n f = step^[n] f := by
  induction n generalizing f with
  | zero => rfl
  | succ n ih =>
    rw [settle]
    split
    next hfixed => exact (Function.iterate_fixed hfixed (n + 1)).symm
    next => rw [ih, Function.iterate_succ_apply]

/-- As many passes as there are definitions leave no defined symbol. -/
theorem normal_iterate (hsorted : theory.WellSorted) (hacyclic : theory.Acyclic)
    (hf : Sorted k f) :
    theory.Normal (theory.expand^[theory.definitions.length] f) := by
  intro t ht
  rw [← Bool.not_eq_true]
  intro hcontains
  have hdeep := deep_of_containsSymbol_iterate (m := 0) hsorted hf
    (fun _ ht _ => ht) t ht hcontains
  have hlt := hdeep.lt_length hacyclic
  omega

/-- Passes beyond the number of definitions change nothing. -/
theorem iterate_eq_of_length_le (hsorted : theory.WellSorted)
    (hacyclic : theory.Acyclic) (hf : Sorted k f)
    (hn : theory.definitions.length ≤ n) :
    theory.expand^[n] f = theory.expand^[theory.definitions.length] f := by
  obtain ⟨extra, rfl⟩ := Nat.exists_eq_add_of_le' hn
  rw [Function.iterate_add_apply]
  exact Function.iterate_fixed
    (normal_iterate hsorted hacyclic hf).expand_eq_self extra

/-- **Normalization** makes as many passes as there are definitions, or stops
before where that makes no difference. -/
theorem normalize_eq_iterate (hsorted : theory.WellSorted)
    (hacyclic : theory.Acyclic) (hf : Sorted k f) :
    theory.normalize f = theory.expand^[theory.definitions.length] f := by
  rw [normalize, settle_eq_iterate]
  exact iterate_eq_of_length_le hsorted hacyclic hf (Nat.le_succ _)

/-- A normalized formula is normal. -/
theorem normal_normalize (hsorted : theory.WellSorted)
    (hacyclic : theory.Acyclic) (hf : Sorted k f) :
    theory.Normal (theory.normalize f) := by
  rw [normalize_eq_iterate hsorted hacyclic hf]
  exact normal_iterate hsorted hacyclic hf

/-- A normal formula is its own normal form. -/
theorem Normal.normalize_eq_self (h : theory.Normal f) :
    theory.normalize f = f := by
  rw [normalize, settle_eq_iterate]
  exact Function.iterate_fixed h.expand_eq_self _

/-- **Normalizing twice is normalizing once.** -/
theorem normalize_normalize (hsorted : theory.WellSorted)
    (hacyclic : theory.Acyclic) (hf : Sorted k f) :
    theory.normalize (theory.normalize f) = theory.normalize f :=
  (normal_normalize hsorted hacyclic hf).normalize_eq_self

/-- In a normal formula no definition finds anything to expand. -/
theorem Normal.containsApplication_eq_false (h : theory.Normal f)
    {d : Definition} (hd : d ∈ theory.definitions) :
    f.containsApplication d.template = false := by
  unfold Formula.containsApplication
  cases hs : d.template.symbol? with
  | none => rfl
  | some s => exact h s ⟨d, hd, hs⟩

/-- **Normalization reaches a normal form.**  If no definition leads back to
itself, a normalized formula contains no application of a defined constant.  So
no definition changes it any more, and what is free, bound or applied in it is
all there is to see.  Normalizing again changes nothing, and any number of
passes that is at least the number of definitions gives the same formula. -/
theorem normalize_reaches_normal_form (theory : Theory)
    (hsorted : theory.WellSorted) (hacyclic : theory.Acyclic) (k : Kind)
    (f : Formula) (hf : Sorted k f) :
    (∀ d ∈ theory.definitions,
        (theory.normalize f).containsApplication d.template = false ∧
          (theory.normalize f).expandSymbol d.template d.definiens =
            theory.normalize f) ∧
      theory.normalize (theory.normalize f) = theory.normalize f ∧
      ∀ passes, theory.definitions.length ≤ passes →
        theory.expand^[passes] f = theory.normalize f := by
  have hnormal := normal_normalize hsorted hacyclic hf
  refine ⟨fun d hd => ⟨hnormal.containsApplication_eq_false hd,
      hnormal.expandSymbol_eq_self hd⟩,
    hnormal.normalize_eq_self, fun passes hpasses => ?_⟩
  rw [normalize_eq_iterate hsorted hacyclic hf,
    iterate_eq_of_length_le hsorted hacyclic hf hpasses]

end Theory

namespace ProperSubset

/-- Defines `subset(x, y)` as `∀z (in(z, x) → in(z, y))`, and after it
`proper(x, y)` as `subset(x, y) ∧ ¬ subset(y, x)`. -/
def theory : Theory where
  definitions :=
    [⟨template .predicateConstant "subset" ["x", "y"],
      .quantify .universal "z"
        ((template .predicateConstant "in" ["z", "x"]).implies
          (template .predicateConstant "in" ["z", "y"]))⟩,
      ⟨template .predicateConstant "proper" ["x", "y"],
        .node .conjunction
          [template .predicateConstant "subset" ["x", "y"],
            .node .negation [template .predicateConstant "subset" ["y", "x"]]]⟩]

theorem wellSorted : theory.WellSorted := by
  intro d hd s hs
  simp only [theory, List.mem_cons, List.not_mem_nil, or_false] at hd
  rcases hd with rfl | rfl
  · cases hs
    exact sorted_of_check rfl
  · cases hs
    exact sorted_of_check rfl

theorem acyclic : theory.Acyclic := by
  refine Theory.acyclic_of_rank (fun s => if s.name = "proper" then 1 else 0) ?_
  intro s t h
  obtain ⟨⟨e, he, het⟩, d, hd, hds, hcontains⟩ := h
  simp only [theory, List.mem_cons, List.not_mem_nil, or_false] at he hd
  rcases hd with rfl | rfl <;> rcases he with rfl | rfl <;> cases hds <;>
    cases het
  · exact absurd hcontains (by decide)
  · exact absurd hcontains (by decide)
  · decide
  · exact absurd hcontains (by decide)

end ProperSubset

/-- The argument `z` is bound in the definiens of `subset`, and one pass is not
enough: the second definition brings `subset` back. -/
theorem proper_subset_reaches_normal_form :
    ProperSubset.theory.WellSorted ∧ ProperSubset.theory.Acyclic ∧
      Sorted .formula (template .predicateConstant "proper" ["z", "b"]) ∧
      (ProperSubset.theory.expand
          (template .predicateConstant "proper" ["z", "b"])).containsApplication
        (template .predicateConstant "subset" ["x", "y"]) = true ∧
      ∀ d ∈ ProperSubset.theory.definitions,
        (ProperSubset.theory.normalize
          (template .predicateConstant "proper"
            ["z", "b"])).containsApplication d.template = false := by
  have hsorted : Sorted .formula
      (template .predicateConstant "proper" ["z", "b"]) :=
    sorted_of_check rfl
  have hnormal := Theory.normalize_reaches_normal_form _ ProperSubset.wellSorted
    ProperSubset.acyclic _ _ hsorted
  exact ⟨ProperSubset.wellSorted, ProperSubset.acyclic, hsorted, by decide,
    fun d hd => (hnormal.1 d hd).1⟩

end Deduction
