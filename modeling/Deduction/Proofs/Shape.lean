import Deduction.Formula.Symbol

/-!
# Formulas by shape

Every walk over a formula treats a subject variable and a binder in a way of its
own and goes through all other nodes alike.  So there are four **shapes**: an
atom, a variable, a binder of a variable with what lies below it, and a
**plain** node, which is neither a variable nor a binder.

`shapeInduct` is induction over these four shapes.  The other statements say for
each shape what is free and bound in it, and what substitution, replacement of a
variable, renaming apart and replacement of applications make of it.
-/

namespace Deduction

namespace Formula

variable {op : Operator} {cs rest : List Formula} {x y : String}

/-! ## The four shapes -/

/-- A binder is not a variable. -/
theorem var?_bind (hop : op.isBinder) :
    (Formula.node op (var x :: rest)).var? = none := by
  cases op <;> simp_all [var?, Operator.isBinder]

/-- A binder over a variable binds that variable. -/
theorem binder?_bind (hop : op.isBinder) :
    (Formula.node op (var x :: rest)).binder? = some x := by
  simp [binder?, hop]

/-- **Induction over the shapes of formulas.** -/
theorem shapeInduct {motive : Formula → Prop}
    (atom : ∀ name, motive (.atom name))
    (subject : ∀ x, motive (var x))
    (binder : ∀ op x rest, op.isBinder → (∀ c ∈ rest, motive c) →
      motive (.node op (var x :: rest)))
    (plain : ∀ op cs, (Formula.node op cs).var? = none →
      (Formula.node op cs).binder? = none → (∀ c ∈ cs, motive c) →
      motive (.node op cs)) :
    ∀ f, motive f := by
  intro f
  induction f using induct with
  | atom name => exact atom name
  | node op cs ih =>
    cases hv : (Formula.node op cs).var? with
    | some x =>
      rw [var?_eq_some_iff.1 hv]
      exact subject x
    | none =>
      cases hb : (Formula.node op cs).binder? with
      | none => exact plain op cs hv hb ih
      | some x =>
        obtain ⟨op', rest, hop, heq⟩ := binder?_eq_some_iff.1 hb
        cases heq
        exact binder op x rest hop fun c hc => ih c (List.mem_cons_of_mem _ hc)

/-- Variables of different names are different formulas. -/
theorem var_injective : Function.Injective var := by
  intro x y h
  simpa [var] using h

/-! ## Free and bound variables -/

@[simp] theorem free_atom (name : String) : (Formula.atom name).free = [] := rfl

@[simp] theorem bound_atom (name : String) :
    (Formula.atom name).bound = [] := rfl

@[simp] theorem mem_free_var : y ∈ (var x).free ↔ y = x := by
  simp [mem_free]

@[simp] theorem mem_bound_var : y ∈ (var x).bound ↔ False := by
  simp [mem_bound]

/-- Below a binder all is free that is free in a part, except its own
variable. -/
theorem mem_free_bind (hop : op.isBinder) :
    y ∈ (Formula.node op (var x :: rest)).free ↔
      y ≠ x ∧ ∃ c ∈ rest, y ∈ c.free := by
  rw [mem_free, freeOccurrences_binder (var?_bind hop) (binder?_bind hop)]
  simp only [List.flatMap_cons, freeOccurrences_var, List.mem_filter,
    List.mem_append, List.mem_singleton, List.mem_flatMap, mem_free, bne_iff_ne]
  constructor
  · intro h
    obtain ⟨hmem, hne⟩ := h
    exact ⟨hne, hmem.resolve_left hne⟩
  · intro h
    obtain ⟨hne, hmem⟩ := h
    exact ⟨Or.inr hmem, hne⟩

/-- In any other node all is free that is free in a child. -/
theorem mem_free_plain (hv : (Formula.node op cs).var? = none)
    (hb : (Formula.node op cs).binder? = none) :
    y ∈ (Formula.node op cs).free ↔ ∃ c ∈ cs, y ∈ c.free := by
  simp only [mem_free, freeOccurrences_plain hv hb, List.mem_flatMap]

/-- What is free in a node is free in a child and not bound by the node. -/
theorem mem_free_node (hv : (Formula.node op cs).var? = none) :
    y ∈ (Formula.node op cs).free ↔
      (Formula.node op cs).binder? ≠ some y ∧ ∃ c ∈ cs, y ∈ c.free := by
  cases hb : (Formula.node op cs).binder? with
  | none => simp [mem_free_plain hv hb]
  | some x =>
    rw [mem_free, freeOccurrences_binder hv hb]
    simp only [List.mem_filter, List.mem_flatMap, mem_free, bne_iff_ne, ne_eq,
      Option.some.injEq]
    rw [and_comm, eq_comm]

/-- A binder binds its own variable and whatever its parts bind. -/
theorem mem_bound_bind (hop : op.isBinder) :
    y ∈ (Formula.node op (var x :: rest)).bound ↔
      y = x ∨ ∃ c ∈ rest, y ∈ c.bound := by
  simp [mem_bound, boundOccurrences_node, binder?_bind hop]

/-- A variable that does not occur in a binder occurs in none of its parts. -/
theorem not_mem_of_mem_parts (hop : op.isBinder)
    (hfree : y ∉ (Formula.node op (var x :: rest)).free)
    (hbound : y ∉ (Formula.node op (var x :: rest)).bound) :
    ∀ c ∈ rest, y ∉ c.free ∧ y ∉ c.bound := by
  intro c hc
  have hyx : y ≠ x := fun h => hbound ((mem_bound_bind hop).2 (Or.inl h))
  exact ⟨fun h => hfree ((mem_free_bind hop).2 ⟨hyx, c, hc, h⟩),
    fun h => hbound ((mem_bound_bind hop).2 (Or.inr ⟨c, hc, h⟩))⟩

/-- A node that is no binder binds what its children bind. -/
theorem mem_bound_plain (hb : (Formula.node op cs).binder? = none) :
    y ∈ (Formula.node op cs).bound ↔ ∃ c ∈ cs, y ∈ c.bound := by
  simp [mem_bound, boundOccurrences_node, hb]

/-- What a child binds, the whole node binds. -/
theorem mem_bound_of_child {c : Formula} (hc : c ∈ cs) (h : y ∈ c.bound) :
    y ∈ (Formula.node op cs).bound := by
  rw [mem_bound] at h ⊢
  rw [boundOccurrences_node]
  exact List.mem_append_right _ (List.mem_flatMap.2 ⟨c, hc, h⟩)

/-! ## Substitution and replacement of a variable -/

/-- Below a binder its variable is left out of the substitution. -/
theorem substitute_bind (σ : Substitution) (hop : op.isBinder) :
    (Formula.node op (var x :: rest)).substitute σ =
      .node op (var x :: rest.map (substitute (σ.without x))) := by
  rw [substitute_binder σ (var?_bind hop) (binder?_bind hop)]
  simp

/-- Replacing a variable goes through every node that is not the variable. -/
theorem replaceVar_node (t : Formula)
    (hv : (Formula.node op cs).var? ≠ some x) :
    replaceVar x t (.node op cs) = .node op (cs.map (replaceVar x t)) := by
  rw [replaceVar, if_neg hv, replaceVarAll_eq_map]

/-- Another variable stays. -/
theorem replaceVar_var_of_ne (t : Formula) (h : y ≠ x) :
    replaceVar x t (var y) = var y := by
  have hv : (var y).var? ≠ some x := by simpa using h
  rw [var, replaceVar_node t hv]
  rfl

theorem replaceVar_plain (t : Formula) (hv : (Formula.node op cs).var? = none) :
    replaceVar x t (.node op cs) = .node op (cs.map (replaceVar x t)) :=
  replaceVar_node t (by simp [hv])

/-! ## Renaming apart -/

/-- The name that `renameApart` gives to a binder of `x`, after its inside was
renamed to `renamed`. -/
def apartName (avoid : List String) (x : String) (renamed : Formula) : String :=
  freshName x (renamed.free ++ renamed.bound ++ avoid)

@[simp] theorem renameApart_var (avoid : List String) (x : String) :
    renameApart avoid (var x) = var x := rfl

/-- Renaming apart goes through a node that is no binder. -/
theorem renameApart_plain (avoid : List String)
    (hb : (Formula.node op cs).binder? = none) :
    renameApart avoid (.node op cs) =
      .node op (cs.map (renameApart avoid)) := by
  simp only [renameApart, hb, renameApartAll_eq_map]

/-- A binder of a name that need not be avoided keeps it. -/
theorem renameApart_bind_of_not_mem {avoid : List String} (hop : op.isBinder)
    (hx : x ∉ avoid) :
    renameApart avoid (.node op (var x :: rest)) =
      .node op (var x :: rest.map (renameApart avoid)) := by
  simp [renameApart, binder?_bind hop, renameApartAll_eq_map, hx]

/-- **A binder of an unwanted name** gets a new one, which is chosen after its
parts were renamed. -/
theorem renameApart_bind_of_mem {avoid : List String} (hop : op.isBinder)
    (hx : x ∈ avoid) :
    renameApart avoid (.node op (var x :: rest)) =
      replaceVar x
        (var (apartName avoid x
          (.node op (var x :: rest.map (renameApart avoid)))))
        (.node op (var x :: rest.map (renameApart avoid))) := by
  simp [renameApart, binder?_bind hop, renameApartAll_eq_map, hx, apartName]

/-! ## Replacement of applications -/

@[simp] theorem replaceApplications_atom (s : Symbol)
    (put : List Formula → Formula) (name : String) :
    replaceApplications s put (.atom name) = .atom name := rfl

/-- Replacing applications goes through a node that does not apply the
symbol. -/
theorem replaceApplications_node (s : Symbol) (put : List Formula → Formula)
    (h : applies s (.node op cs) = false) :
    replaceApplications s put (.node op cs) =
      .node op (cs.map (replaceApplications s put)) := by
  simp [replaceApplications, h, replaceApplicationsAll_eq_map]

/-- An application of the symbol is replaced after its arguments were
treated. -/
theorem replaceApplications_applied (s : Symbol) (put : List Formula → Formula)
    (h : applies s (.node op cs) = true) :
    replaceApplications s put (.node op cs) =
      put (cs.tail.map (replaceApplications s put)) := by
  simp [replaceApplications, h, replaceApplicationsAll_eq_map]

/-- Only an application applies a symbol. -/
theorem applies_eq_true_iff {s : Symbol} {f : Formula} :
    applies s f = true ↔ ∃ args, s.op.isApplication ∧ s.arity = args.length ∧
      f = application s.op s.name args := by
  constructor
  · intro h
    have hs : f.symbol? = some s := by simpa [applies] using h
    unfold symbol? at hs
    split at hs
    · rename_i op name args
      split at hs
      · rename_i happ
        cases hs
        exact ⟨args, happ, rfl, rfl⟩
      · cases hs
    · cases hs
  · intro h
    obtain ⟨args, happ, harity, rfl⟩ := h
    obtain ⟨op, name, arity⟩ := s
    simp_all [applies, symbol?, application]

/-- A binder applies no symbol. -/
theorem applies_bind (s : Symbol) (hop : op.isBinder) :
    applies s (.node op (var x :: rest)) = false := by
  cases op <;> simp_all [applies, symbol?, var, Operator.isBinder]

/-- A variable contains no application to replace. -/
@[simp] theorem replaceApplications_var (s : Symbol)
    (put : List Formula → Formula) (x : String) :
    replaceApplications s put (var x) = var x := by
  have h : applies s (.node .subjectVariable [.atom x]) = false := by
    simp [applies, symbol?, Operator.isApplication]
  rw [var, replaceApplications_node s put h]
  rfl

/-- Replacing applications goes through a binder and keeps its variable. -/
theorem replaceApplications_bind (s : Symbol) (put : List Formula → Formula)
    (hop : op.isBinder) :
    replaceApplications s put (.node op (var x :: rest)) =
      .node op (var x :: rest.map (replaceApplications s put)) := by
  rw [replaceApplications_node s put (applies_bind s hop)]
  simp

end Formula

end Deduction
