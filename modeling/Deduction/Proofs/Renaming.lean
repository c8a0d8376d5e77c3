import Deduction.Proofs.Shape
import Mathlib.Logic.Basic

/-!
# Renaming apart: names

Renaming a formula apart from given names changes which names it binds and
nothing else that can be seen from outside.  Three facts carry this.

* `freshName_not_mem`: among one more candidates than there are taken names one
  is not taken, so the chosen name is new.
* `not_mem_of_mem_bound_renameApart`: no unwanted name is bound afterwards.
* `mem_free_renameApart`: the free variables stay what they were.

Where no unwanted name is bound in the first place, nothing happens at all
(`renameApart_eq_self`).

The last part is about one chosen binder: the paths to the binders of a variable
do lead to binders of it (`exists_binder_of_mem_binderPaths`).
-/

namespace Deduction

namespace Formula

variable {op : Operator} {cs rest : List Formula} {x y z : String}

/-! ## Fresh names -/

theorem length_primed (name : String) (n : Nat) :
    (primed name n).length = name.length + n := by
  simp [primed]

/-- Different numbers of primes give different names. -/
theorem primed_injective (name : String) {m n : Nat}
    (h : primed name m = primed name n) : m = n := by
  have hlen := congrArg String.length h
  rw [length_primed, length_primed] at hlen
  omega

/-- Some candidate for a fresh name is not taken. -/
theorem exists_primed_not_mem (name : String) (taken : List String) :
    ∃ n ∈ List.range (taken.length + 1), primed name (n + 1) ∉ taken := by
  apply Classical.byContradiction
  intro hnone
  have hsubset :
      (List.range (taken.length + 1)).map (fun n => primed name (n + 1)) ⊆
        taken := by
    intro candidate hcandidate
    obtain ⟨n, hn, rfl⟩ := List.mem_map.1 hcandidate
    exact Classical.byContradiction fun hfree => hnone ⟨n, hn, hfree⟩
  have hnodup : ((List.range (taken.length + 1)).map fun n =>
      primed name (n + 1)).Nodup := by
    refine List.Pairwise.map _ ?_ (List.nodup_range (n := taken.length + 1))
    intro m n hne heq
    have := primed_injective name heq
    omega
  have hlength := hnodup.length_le_of_subset hsubset
  simp only [List.length_map, List.length_range] at hlength
  omega

/-- **The fresh name is the first candidate that is not taken.** -/
theorem exists_freshName_eq_primed (name : String) (taken : List String) :
    ∃ n, freshName name taken = primed name (n + 1) ∧
      primed name (n + 1) ∉ taken ∧ ∀ m < n, primed name (m + 1) ∈ taken := by
  obtain ⟨n, hn, hfree⟩ := exists_primed_not_mem name taken
  unfold freshName
  cases hfind : (List.range (taken.length + 1)).find? fun n =>
      !taken.contains (primed name (n + 1)) with
  | none =>
    have hall := List.find?_eq_none.1 hfind n hn
    simp at hall
    exact absurd hall hfree
  | some m =>
    obtain ⟨hm, -, hbefore⟩ := List.find?_range_eq_some.1 hfind
    exact ⟨m, rfl, by simpa using hm, by simpa using hbefore⟩

/-- **A fresh name is not taken.** -/
theorem freshName_not_mem (name : String) (taken : List String) :
    freshName name taken ∉ taken := by
  obtain ⟨n, heq, hfree, -⟩ := exists_freshName_eq_primed name taken
  rwa [heq]

/-- The new name of a binder occurs nowhere in it, and it is not to be
avoided. -/
theorem apartName_not_mem (avoid : List String) (x : String)
    (renamed : Formula) :
    apartName avoid x renamed ∉ renamed.free ∧
      apartName avoid x renamed ∉ renamed.bound ∧
      apartName avoid x renamed ∉ avoid := by
  have h := freshName_not_mem x (renamed.free ++ renamed.bound ++ avoid)
  simp only [List.mem_append, not_or] at h
  exact ⟨h.1.1, h.1.2, h.2⟩

/-! ## Plain nodes stay plain -/

/-- A change of the children that makes no atom makes no variable of a node that
is none. -/
theorem var?_map_eq_none {g : Formula → Formula}
    (hv : (Formula.node op cs).var? = none)
    (hg : ∀ c ∈ cs, (g c).atom? = c.atom?) :
    (Formula.node op (cs.map g)).var? = none := by
  cases hvar : (Formula.node op (cs.map g)).var? with
  | none => rfl
  | some x =>
    have hnode := var?_eq_some_iff.1 hvar
    simp only [var, Formula.node.injEq, List.map_eq_singleton_iff] at hnode
    obtain ⟨rfl, c, rfl, hc⟩ := hnode
    have hatom : c.atom? = some x := by
      rw [← hg c (by simp), hc]
      rfl
    cases c with
    | node op cs => cases hatom
    | atom name => cases hv

/-- A change of the children that makes no variable makes no binder of a node
that is none. -/
theorem binder?_map_eq_none {g : Formula → Formula}
    (hb : (Formula.node op cs).binder? = none)
    (hg : ∀ c ∈ cs, c.var? = none → (g c).var? = none) :
    (Formula.node op (cs.map g)).binder? = none := by
  cases cs with
  | nil => rfl
  | cons c cs =>
    by_cases hop : op.isBinder
    · have hc : c.var? = none := by simpa [binder?, hop] using hb
      simp [binder?, hop, hg c (by simp) hc]
    · simp [binder?, hop]

/-- Renaming a variable neither makes nor changes an atom. -/
theorem atom?_replaceVar (x y : String) (f : Formula) :
    (replaceVar x (var y) f).atom? = f.atom? := by
  cases f with
  | atom name => rfl
  | node op cs =>
    rw [replaceVar]
    split <;> rfl

/-- Renaming a variable makes no variable of what is none. -/
theorem var?_replaceVar_eq_none (x y : String) {f : Formula}
    (h : f.var? = none) :
    (replaceVar x (var y) f).var? = none := by
  cases f with
  | atom name => rfl
  | node op cs =>
    rw [replaceVar_plain _ h]
    exact var?_map_eq_none h fun c _ => atom?_replaceVar x y c

/-! ## Replacing a variable everywhere -/

/-- Replacing the variable of a binder replaces it in the binder as well. -/
theorem replaceVar_bind_self (t : Formula) (hop : op.isBinder) :
    replaceVar x t (.node op (var x :: rest)) =
      .node op (t :: rest.map (replaceVar x t)) := by
  rw [replaceVar_plain t (var?_bind hop)]
  simp

/-- Replacing another variable leaves the variable of a binder. -/
theorem replaceVar_bind_of_ne (t : Formula) (hop : op.isBinder) (hne : z ≠ x) :
    replaceVar x t (.node op (var z :: rest)) =
      .node op (var z :: rest.map (replaceVar x t)) := by
  rw [replaceVar_plain t (var?_bind hop), List.map_cons,
    replaceVar_var_of_ne t hne]

/-- The binders of `x` become binders of `y`, all others stay. -/
theorem mem_bound_replaceVar (x y : String) (f : Formula) :
    z ∈ (replaceVar x (var y) f).bound ↔
      (z ≠ x ∧ z ∈ f.bound) ∨ (z = y ∧ x ∈ f.bound) := by
  induction f using shapeInduct with
  | atom name => simp [replaceVar]
  | subject w =>
    by_cases hw : w = x
    · simp [hw]
    · simp [replaceVar_var_of_ne _ hw]
  | binder op w rest hop ih =>
    by_cases hw : w = x
    · subst hw
      rw [replaceVar_bind_self _ hop, mem_bound_bind hop, mem_bound_bind hop,
        mem_bound_bind hop]
      simp only [List.mem_map, exists_exists_and_eq_and]
      grind
    · rw [replaceVar_bind_of_ne _ hop hw, mem_bound_bind hop,
        mem_bound_bind hop, mem_bound_bind hop]
      simp only [List.mem_map, exists_exists_and_eq_and]
      grind
  | plain op cs hv hb ih =>
    have hb' :=
      binder?_map_eq_none hb fun c _ => var?_replaceVar_eq_none x y (f := c)
    rw [replaceVar_plain _ hv, mem_bound_plain hb', mem_bound_plain hb,
      mem_bound_plain hb]
    simp only [List.mem_map, exists_exists_and_eq_and]
    grind

/-- Replacing `x` by a variable that does not occur turns the free occurrences
of `x` into free occurrences of it. -/
theorem mem_free_replaceVar {f : Formula} (hfree : y ∉ f.free)
    (hbound : y ∉ f.bound) :
    z ∈ (replaceVar x (var y) f).free ↔
      (z ≠ x ∧ z ∈ f.free) ∨ (z = y ∧ x ∈ f.free) := by
  induction f using shapeInduct with
  | atom name => simp [replaceVar]
  | subject w =>
    by_cases hw : w = x
    · subst hw
      simp
    · rw [replaceVar_var_of_ne _ hw]
      simp only [mem_free_var] at hfree ⊢
      grind
  | binder op w rest hop ih =>
    have hyw : y ≠ w := fun h => hbound ((mem_bound_bind hop).2 (Or.inl h))
    have hchild := not_mem_of_mem_parts hop hfree hbound
    have ih' := fun c hc => ih c hc (hchild c hc).1 (hchild c hc).2
    by_cases hw : w = x
    · subst hw
      rw [replaceVar_bind_self _ hop, mem_free_bind hop, mem_free_bind hop,
        mem_free_bind hop]
      simp only [List.mem_map, exists_exists_and_eq_and]
      grind
    · rw [replaceVar_bind_of_ne _ hop hw, mem_free_bind hop, mem_free_bind hop,
        mem_free_bind hop]
      simp only [List.mem_map, exists_exists_and_eq_and]
      grind
  | plain op cs hv hb ih =>
    have hv' := var?_map_eq_none hv fun c _ => atom?_replaceVar x y c
    have hb' :=
      binder?_map_eq_none hb fun c _ => var?_replaceVar_eq_none x y (f := c)
    have hchild : ∀ c ∈ cs, y ∉ c.free ∧ y ∉ c.bound := fun c hc =>
      ⟨fun h => hfree ((mem_free_plain hv hb).2 ⟨c, hc, h⟩),
        fun h => hbound ((mem_bound_plain hb).2 ⟨c, hc, h⟩)⟩
    have ih' := fun c hc => ih c hc (hchild c hc).1 (hchild c hc).2
    rw [replaceVar_plain _ hv, mem_free_plain hv' hb', mem_free_plain hv hb,
      mem_free_plain hv hb]
    simp only [List.mem_map, exists_exists_and_eq_and]
    grind

/-! ## Renaming apart -/

theorem atom?_renameApart (avoid : List String) (f : Formula) :
    (renameApart avoid f).atom? = f.atom? := by
  cases f with
  | atom name => rfl
  | node op cs =>
    simp only [renameApart]
    split
    · rfl
    · split
      · rw [atom?_replaceVar]
        rfl
      · rfl

theorem var?_renameApart_eq_none (avoid : List String) {f : Formula}
    (h : f.var? = none) :
    (renameApart avoid f).var? = none := by
  cases f with
  | atom name => rfl
  | node op cs =>
    have hrenamed :
        (Formula.node op (cs.map (renameApart avoid))).var? = none :=
      var?_map_eq_none h fun c _ => atom?_renameApart avoid c
    simp only [renameApart, renameApartAll_eq_map]
    split
    · exact hrenamed
    · split
      · exact var?_replaceVar_eq_none _ _ hrenamed
      · exact hrenamed

/-- **Nothing to rename.**  A formula that binds no name to be avoided stays as
it is. -/
theorem renameApart_eq_self {avoid : List String} {f : Formula}
    (h : ∀ x ∈ f.bound, x ∉ avoid) : renameApart avoid f = f := by
  induction f using shapeInduct with
  | atom name => rfl
  | subject x => rfl
  | binder op x rest hop ih =>
    have hx : x ∉ avoid := h x ((mem_bound_bind hop).2 (Or.inl rfl))
    rw [renameApart_bind_of_not_mem hop hx]
    have hrest : rest.map (renameApart avoid) = rest.map id :=
      List.map_congr_left fun c hc =>
        ih c hc fun z hz => h z ((mem_bound_bind hop).2 (Or.inr ⟨c, hc, hz⟩))
    rw [hrest, List.map_id]
  | plain op cs hv hb ih =>
    have hcs : cs.map (renameApart avoid) = cs.map id :=
      List.map_congr_left fun c hc =>
        ih c hc fun z hz => h z ((mem_bound_plain hb).2 ⟨c, hc, hz⟩)
    rw [renameApart_plain avoid hb, hcs, List.map_id]

/-- After renaming apart, what is bound was bound before or is a new name; in
either case it is not a name to be avoided. -/
theorem not_mem_of_mem_bound_renameApart {avoid : List String} {f : Formula} :
    x ∈ (renameApart avoid f).bound → x ∉ avoid := by
  induction f using shapeInduct with
  | atom name => simp [renameApart]
  | subject y => simp
  | binder op y rest hop ih =>
    have hrest : (∃ c ∈ rest.map (renameApart avoid), x ∈ c.bound) →
        x ∉ avoid := by
      intro h
      obtain ⟨c', hc', hx⟩ := h
      obtain ⟨c, hc, rfl⟩ := List.mem_map.1 hc'
      exact ih c hc hx
    by_cases hy : y ∈ avoid
    · rw [renameApart_bind_of_mem hop hy, mem_bound_replaceVar]
      intro h
      rcases h with ⟨hne, hx⟩ | ⟨rfl, -⟩
      · exact hrest (((mem_bound_bind hop).1 hx).resolve_left hne)
      · exact (apartName_not_mem _ _ _).2.2
    · rw [renameApart_bind_of_not_mem hop hy, mem_bound_bind hop]
      intro h
      rcases h with rfl | hx
      · exact hy
      · exact hrest hx
  | plain op cs hv hb ih =>
    have hb' :=
      binder?_map_eq_none hb fun c _ => var?_renameApart_eq_none avoid (f := c)
    rw [renameApart_plain avoid hb, mem_bound_plain hb']
    intro h
    obtain ⟨c', hc', hx⟩ := h
    obtain ⟨c, hc, rfl⟩ := List.mem_map.1 hc'
    exact ih c hc hx

/-- **Renaming apart keeps the free variables.** -/
theorem mem_free_renameApart {avoid : List String} {f : Formula} :
    x ∈ (renameApart avoid f).free ↔ x ∈ f.free := by
  induction f using shapeInduct with
  | atom name => rfl
  | subject y => rfl
  | binder op y rest hop ih =>
    have hrest :
        x ∈ (Formula.node op (var y :: rest.map (renameApart avoid))).free ↔
          x ∈ (Formula.node op (var y :: rest)).free := by
      rw [mem_free_bind hop, mem_free_bind hop]
      simp only [List.mem_map, exists_exists_and_eq_and]
      grind
    by_cases hy : y ∈ avoid
    · obtain ⟨hfree, hbound, -⟩ :=
        apartName_not_mem avoid y
          (.node op (var y :: rest.map (renameApart avoid)))
      rw [renameApart_bind_of_mem hop hy, mem_free_replaceVar hfree hbound,
        ← hrest]
      have hyfree :
          y ∉ (Formula.node op (var y :: rest.map (renameApart avoid))).free :=
        fun h => ((mem_free_bind hop).1 h).1 rfl
      constructor
      · intro h
        rcases h with ⟨-, h⟩ | ⟨-, h⟩
        · exact h
        · exact absurd h hyfree
      · intro h
        exact Or.inl ⟨fun hxy => hyfree (hxy ▸ h), h⟩
    · rw [renameApart_bind_of_not_mem hop hy]
      exact hrest
  | plain op cs hv hb ih =>
    have hv' := var?_map_eq_none hv fun c _ => atom?_renameApart avoid c
    have hb' :=
      binder?_map_eq_none hb fun c _ => var?_renameApart_eq_none avoid (f := c)
    rw [renameApart_plain avoid hb, mem_free_plain hv' hb',
      mem_free_plain hv hb]
    simp only [List.mem_map, exists_exists_and_eq_and]
    grind

/-! ## One chosen binder -/

/-- A path to a binder in a list of formulas begins with the index of one of
them and goes on in it. -/
theorem exists_of_mem_binderPathsFrom {path : Path} {i : Nat}
    {fs : List Formula} (h : path ∈ binderPathsFrom x i fs) :
    ∃ j c rest, fs[j]? = some c ∧ path = (i + j) :: rest ∧
      rest ∈ binderPaths x c := by
  induction fs generalizing i with
  | nil => cases h
  | cons f fs ih =>
    rw [binderPathsFrom, List.mem_append] at h
    rcases h with h | h
    · obtain ⟨rest, hrest, rfl⟩ := List.mem_map.1 h
      exact ⟨0, f, rest, rfl, rfl, hrest⟩
    · obtain ⟨j, c, rest, hc, rfl, hrest⟩ := ih h
      refine ⟨j + 1, c, rest, hc, ?_, hrest⟩
      rw [Nat.add_assoc, Nat.add_comm 1 j]

/-- The paths to the binders of a variable lead to binders of it. -/
theorem exists_binder_of_mem_binderPaths {path : Path} {f : Formula}
    (h : path ∈ binderPaths x f) :
    ∃ b, subformula? path f = some b ∧ b.binder? = some x := by
  induction f using induct generalizing path with
  | atom name => cases h
  | node op cs ih =>
    have hinside : path ∈ binderPathsFrom x 0 cs →
        ∃ b, subformula? path (.node op cs) = some b ∧ b.binder? = some x := by
      intro h
      obtain ⟨j, c, rest, hc, rfl, hrest⟩ := exists_of_mem_binderPathsFrom h
      obtain ⟨b, hb, hbinder⟩ := ih c (List.mem_of_getElem? hc) hrest
      refine ⟨b, ?_, hbinder⟩
      rw [Nat.zero_add, subformula?, hc, Option.bind_some, hb]
    rw [binderPaths] at h
    by_cases hbinder : (Formula.node op cs).binder? = some x
    · rw [if_pos hbinder] at h
      rcases List.mem_cons.1 h with rfl | h
      · exact ⟨_, subformula?_nil _, hbinder⟩
      · exact hinside h
    · rw [if_neg hbinder] at h
      exact hinside h

/-- Replacing a variable by itself changes nothing. -/
theorem replaceVar_self (x : String) (f : Formula) :
    replaceVar x (var x) f = f := by
  induction f using induct with
  | atom name => rfl
  | node op cs ih =>
    by_cases hv : (Formula.node op cs).var? = some x
    · rw [replaceVar, if_pos hv, var?_eq_some_iff.1 hv]
    · have hcs : cs.map (replaceVar x (var x)) = cs.map id :=
        List.map_congr_left ih
      rw [replaceVar_node _ hv, hcs, List.map_id]

end Formula

end Deduction
