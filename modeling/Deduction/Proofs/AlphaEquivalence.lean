import Deduction.Proofs.Renaming
import Mathlib.Order.Bounds.Basic

/-!
# Renaming apart: the same formula but for names

A formula is read **without the names of its bound variables**: in place of such
a variable stands the number of binders between it and its own, so that the
names of binders leave no trace.  Renaming apart keeps this reading, below
whatever binders the formula is put (`nameless_renameApart`).  What carries the
induction is `nameless_replaceVar`: a variable may be replaced throughout,
binders included, by one that does not occur, if after the change each name
refers to the same binder as before.

New names are found by a **search** that appends primes to a name until it is
not taken.  Nothing in it grows smaller; it ends because only finitely many
names are taken.  `PrimeSearch` is the search as it goes on, and
`primeSearch_iff` says that it ends, and where.
-/

namespace Deduction

/-- A formula or a term in which a bound variable is given by the number of
binders that lie between it and its binder. -/
inductive Nameless where
  | atom (name : String)
  | free (x : String)
  | bound (distance : Nat)
  | node (op : Operator) (children : List Nameless)

namespace Formula

variable {op : Operator} {cs rest : List Formula} {x y z name : String}
  {scope scope' : List String} {taken : List String}

/-! ## The search for a name -/

/-- **The search for a name that is not taken**, from a candidate to the name
that is found: a candidate that is taken gets one more prime. -/
inductive PrimeSearch (taken : List String) : String → String → Prop where
  | found {candidate : String} (hfree : candidate ∉ taken) :
      PrimeSearch taken candidate candidate
  | again {candidate result : String} (htaken : candidate ∈ taken)
      (hrest : PrimeSearch taken (candidate ++ "'") result) :
      PrimeSearch taken candidate result

theorem primed_succ (name : String) (n : Nat) :
    primed name (n + 1) = primed name n ++ "'" := by
  rw [← String.toList_inj]
  simp [primed, List.replicate_succ']

/-- A search has one result. -/
theorem PrimeSearch.unique {candidate first second : String}
    (hfirst : PrimeSearch taken candidate first)
    (hsecond : PrimeSearch taken candidate second) :
    first = second := by
  induction hfirst with
  | found hfree =>
    cases hsecond with
    | found => rfl
    | again htaken => exact absurd htaken hfree
  | again htaken _ ih =>
    cases hsecond with
    | found hfree => exact absurd htaken hfree
    | again _ hrest => exact ih hrest

/-- A search passes over candidates that are taken. -/
theorem PrimeSearch.of_taken {n d : Nat} {result : String}
    (htaken : ∀ m, n ≤ m → m < n + d → primed name m ∈ taken)
    (h : PrimeSearch taken (primed name (n + d)) result) :
    PrimeSearch taken (primed name n) result := by
  induction d generalizing n with
  | zero => exact h
  | succ d ih =>
    have hnext : PrimeSearch taken (primed name (n + 1)) result := by
      apply ih
      · intro m hle hlt
        exact htaken m (by omega) (by omega)
      · rwa [Nat.add_right_comm]
    rw [primed_succ] at hnext
    exact .again (htaken n (by omega) (by omega)) hnext

/-- **The search ends**, and the fresh name is what it finds. -/
theorem primeSearch_iff {result : String} :
    PrimeSearch taken (name ++ "'") result ↔ result = freshName name taken := by
  have hends : PrimeSearch taken (name ++ "'") (freshName name taken) := by
    obtain ⟨n, heq, hfree, hbefore⟩ := exists_freshName_eq_primed name taken
    have hsearch : PrimeSearch taken (primed name 1) (primed name (n + 1)) := by
      apply PrimeSearch.of_taken (d := n)
      · intro m hle hlt
        obtain ⟨j, rfl⟩ : ∃ j, m = j + 1 := ⟨m - 1, by omega⟩
        exact hbefore j (by omega)
      · rw [Nat.add_comm 1 n]
        exact .found hfree
    rw [heq]
    simpa [primed] using hsearch
  constructor
  · intro h
    exact h.unique hends
  · intro h
    rwa [h]

/-! ## Reading without names -/

/-- A variable below binders of the variables `scope`, of which the innermost
comes first. -/
def namelessVar (scope : List String) (x : String) : Nameless :=
  match scope.idxOf? x with
  | some distance => .bound distance
  | none => .free x

mutual

/-- A formula below binders of the variables `scope`, without the names of bound
variables.  The first child of a binder is the variable itself, which becomes
the distance zero. -/
def nameless (scope : List String) : Formula → Nameless
  | .atom name => .atom name
  | .node op cs =>
    match (Formula.node op cs).var? with
    | some x => namelessVar scope x
    | none =>
      match (Formula.node op cs).binder? with
      | some x => .node op (namelessAll (x :: scope) cs)
      | none => .node op (namelessAll scope cs)

/-- Reads every formula of a list without names. -/
def namelessAll (scope : List String) : List Formula → List Nameless
  | [] => []
  | f :: fs => nameless scope f :: namelessAll scope fs

end

theorem namelessAll_eq_map (scope : List String) (fs : List Formula) :
    namelessAll scope fs = fs.map (nameless scope) := by
  induction fs with
  | nil => rfl
  | cons f fs ih => simp [namelessAll, ih]

@[simp] theorem nameless_var (scope : List String) (x : String) :
    nameless scope (var x) = namelessVar scope x := rfl

/-- The variable of the innermost binder has the distance zero. -/
@[simp] theorem namelessVar_cons_self (scope : List String) (x : String) :
    namelessVar (x :: scope) x = .bound 0 := by
  simp [namelessVar, List.idxOf?_cons]

/-- Below a binder its variable is in scope. -/
theorem nameless_bind (scope : List String) (hop : op.isBinder) :
    nameless scope (.node op (var x :: rest)) =
      .node op (.bound 0 :: rest.map (nameless (x :: scope))) := by
  simp only [nameless, var?_bind hop, binder?_bind hop, namelessAll_eq_map,
    List.map_cons, nameless_var, namelessVar_cons_self]

/-- A node that is neither a variable nor a binder is read part by part. -/
theorem nameless_plain (scope : List String)
    (hv : (Formula.node op cs).var? = none)
    (hb : (Formula.node op cs).binder? = none) :
    nameless scope (.node op cs) = .node op (cs.map (nameless scope)) := by
  simp only [nameless, hv, hb, namelessAll_eq_map]

/-! ## Renaming -/

/-- Where `x` becomes `y`. -/
def renamed (x y z : String) : String :=
  if z = x then y else z

/-- **Below one more binder.**  Two names that refer to the same binder, or are
both free, do so below a further binder that either of them refers to if the
other does. -/
theorem namelessVar_cons_congr {z' w w' : String} (hsame : z' = w' ↔ z = w)
    (h : z ≠ w → namelessVar scope' z' = namelessVar scope z) :
    namelessVar (w' :: scope') z' = namelessVar (w :: scope) z := by
  by_cases hz : z = w
  · obtain rfl := hsame.2 hz
    rw [hz, namelessVar_cons_self, namelessVar_cons_self]
  · have hz' : z' ≠ w' := fun heq => hz (hsame.1 heq)
    have hne : (w == z) = false := by simpa using Ne.symm hz
    have hne' : (w' == z') = false := by simpa using Ne.symm hz'
    specialize h hz
    unfold namelessVar at h ⊢
    rw [List.idxOf?_cons, List.idxOf?_cons, hne, hne']
    cases hd : scope.idxOf? z <;> cases hd' : scope'.idxOf? z' <;> simp_all

/-- Replacing `x` throughout by a variable that does not occur changes names
only, where each name refers to the same binder as before. -/
theorem nameless_replaceVar {f : Formula} (hfree : y ∉ f.free)
    (hbound : y ∉ f.bound)
    (hscope : ∀ z ∈ f.free,
      namelessVar scope' (renamed x y z) = namelessVar scope z) :
    nameless scope' (replaceVar x (var y) f) = nameless scope f := by
  induction f using shapeInduct generalizing scope scope' with
  | atom name => rfl
  | subject w =>
    have hw := hscope w (by simp)
    by_cases heq : w = x
    · subst heq
      simpa [renamed] using hw
    · simpa [replaceVar_var_of_ne _ heq, renamed, heq] using hw
  | binder op w rest hop ih =>
    have hyw : y ≠ w := fun h => hbound ((mem_bound_bind hop).2 (Or.inl h))
    have hchild := not_mem_of_mem_parts hop hfree hbound
    have hnode : replaceVar x (var y) (.node op (var w :: rest)) =
        .node op (var (renamed x y w) :: rest.map (replaceVar x (var y))) := by
      by_cases hw : w = x
      · subst hw
        rw [replaceVar_bind_self _ hop, renamed, if_pos rfl]
      · rw [replaceVar_bind_of_ne _ hop hw, renamed, if_neg hw]
    rw [hnode, nameless_bind _ hop, nameless_bind _ hop, List.map_map]
    congr 2
    apply List.map_congr_left
    intro c hc
    refine ih c hc (hchild c hc).1 (hchild c hc).2 fun z hz =>
      namelessVar_cons_congr ?_ fun hzw => ?_
    · have hyz : z ≠ y := fun h => (hchild c hc).1 (h ▸ hz)
      unfold renamed
      grind
    · exact hscope z ((mem_free_bind hop).2 ⟨hzw, c, hc, hz⟩)
  | plain op cs hv hb ih =>
    have hv' := var?_map_eq_none hv fun c _ => atom?_replaceVar x y c
    have hb' :=
      binder?_map_eq_none hb fun c _ => var?_replaceVar_eq_none x y (f := c)
    rw [replaceVar_plain _ hv, nameless_plain _ hv' hb', nameless_plain _ hv hb,
      List.map_map]
    congr 1
    apply List.map_congr_left
    intro c hc
    refine ih c hc (fun h => ?_) (fun h => ?_) fun z hz => ?_
    · exact hfree ((mem_free_plain hv hb).2 ⟨c, hc, h⟩)
    · exact hbound ((mem_bound_plain hb).2 ⟨c, hc, h⟩)
    · exact hscope z ((mem_free_plain hv hb).2 ⟨c, hc, hz⟩)

/-- **Renaming apart changes the names of binders only.** -/
theorem nameless_renameApart (avoid scope : List String) (f : Formula) :
    nameless scope (renameApart avoid f) = nameless scope f := by
  induction f using shapeInduct generalizing scope with
  | atom name => rfl
  | subject x => rfl
  | binder op x rest hop ih =>
    have hinside :
        nameless scope (.node op (var x :: rest.map (renameApart avoid))) =
          nameless scope (.node op (var x :: rest)) := by
      rw [nameless_bind _ hop, nameless_bind _ hop, List.map_map]
      congr 2
      exact List.map_congr_left fun c hc => ih c hc _
    by_cases hx : x ∈ avoid
    · obtain ⟨hfree, hbound, -⟩ :=
        apartName_not_mem avoid x
          (.node op (var x :: rest.map (renameApart avoid)))
      rw [renameApart_bind_of_mem hop hx, nameless_replaceVar hfree hbound,
        hinside]
      -- The renamed variable is not free in its own binder, and all others keep
      -- their names.
      intro z hz
      rw [renamed, if_neg ((mem_free_bind hop).1 hz).1]
    · rw [renameApart_bind_of_not_mem hop hx, hinside]
  | plain op cs hv hb ih =>
    have hv' := var?_map_eq_none hv fun c _ => atom?_renameApart avoid c
    have hb' :=
      binder?_map_eq_none hb fun c _ => var?_renameApart_eq_none avoid (f := c)
    rw [renameApart_plain avoid hb, nameless_plain _ hv' hb',
      nameless_plain _ hv hb, List.map_map]
    congr 1
    exact List.map_congr_left fun c hc => ih c hc _

/-- Two formulas are the same but for the names of their binders, below whatever
binders they are put. -/
def AlphaEquivalent (f g : Formula) : Prop :=
  ∀ scope, nameless scope f = nameless scope g

/-- **Renaming apart.**  For every name and every formula in which it is to be
replaced, the search for a new name ends; it finds the name with the fewest
primes, at least one, that is neither free nor bound in the formula nor to be
avoided.  A formula that was renamed apart has the same free variables as before
and binds no name to be avoided, it is unchanged if it bound none, and it is the
same but for the names of its binders. -/
theorem renaming_apart_fresh (avoid : List String) :
    (∀ (x : String) (scope : Formula),
      (∀ result,
        PrimeSearch (scope.free ++ scope.bound ++ avoid) (x ++ "'") result ↔
          result = freshName x (scope.free ++ scope.bound ++ avoid)) ∧
      ∃ n, freshName x (scope.free ++ scope.bound ++ avoid) = primed x n ∧
        IsLeast {n | 0 < n ∧ primed x n ∉ scope.free ∧
          primed x n ∉ scope.bound ∧ primed x n ∉ avoid} n) ∧
    ∀ e : Formula,
      (∀ x, x ∈ (renameApart avoid e).free ↔ x ∈ e.free) ∧
      (∀ x ∈ avoid, x ∉ (renameApart avoid e).bound) ∧
      ((∀ x ∈ avoid, x ∉ e.bound) → renameApart avoid e = e) ∧
      AlphaEquivalent (renameApart avoid e) e := by
  refine ⟨fun x scope => ⟨fun result => primeSearch_iff, ?_⟩,
    fun e => ⟨?_, ?_, ?_, ?_⟩⟩
  · obtain ⟨n, heq, hfree, hbefore⟩ :=
      exists_freshName_eq_primed x (scope.free ++ scope.bound ++ avoid)
    simp only [List.mem_append, not_or, and_assoc] at hfree
    refine ⟨n + 1, heq, ⟨Nat.succ_pos n, hfree⟩, ?_⟩
    rintro m ⟨hpos, hm⟩
    by_contra hlt
    obtain ⟨j, rfl⟩ : ∃ j, m = j + 1 := ⟨m - 1, by omega⟩
    have htaken := hbefore j (by omega)
    simp only [List.mem_append] at htaken
    grind
  · intro x
    exact mem_free_renameApart
  · intro x hx hbound
    exact not_mem_of_mem_bound_renameApart hbound hx
  · intro h
    exact renameApart_eq_self fun x hx havoid => h x havoid hx
  · intro scope
    exact nameless_renameApart avoid scope e

namespace PrimedBelow

/-- The formula `∀z ∃z' P(z, z', y)`, in which the first new name for `z` is in
use. -/
def nested : Formula :=
  quantify .universal "z" (quantify .existential "z'"
    (application .predicateVariable "P" [var "z", var "z'", var "y"]))

/-- The formula `∀z'' ∃z' P(z'', z', y)`. -/
def apart : Formula :=
  quantify .universal "z''" (quantify .existential "z'"
    (application .predicateVariable "P" [var "z''", var "z'", var "y"]))

end PrimedBelow

/-- The outer binder gets two primes, and nothing happens when only a free
variable is to be avoided. -/
theorem primed_below_renamed_apart :
    renameApart ["z"] PrimedBelow.nested = PrimedBelow.apart ∧
      AlphaEquivalent PrimedBelow.apart PrimedBelow.nested ∧
      renameApart ["y"] PrimedBelow.nested = PrimedBelow.nested := by
  have happart : renameApart ["z"] PrimedBelow.nested = PrimedBelow.apart := by
    decide +kernel
  obtain ⟨-, -, -, halpha⟩ := (renaming_apart_fresh ["z"]).2 PrimedBelow.nested
  have hnone : ∀ x ∈ ["y"], x ∉ PrimedBelow.nested.bound := by decide +kernel
  obtain ⟨-, -, hsame, -⟩ := (renaming_apart_fresh ["y"]).2 PrimedBelow.nested
  rw [happart] at halpha
  exact ⟨happart, halpha, hsame hnone⟩

end Formula

end Deduction
