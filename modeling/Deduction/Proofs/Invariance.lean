import Deduction.Proofs.Semantics

/-!
# Meaning under substitution, renaming and replacement

What a proof does to a formula is a change of names on paper.  Here is said what
it does to the meaning.

* `denote_substitute`: putting terms for variables is the same as letting the
  variables stand for what the terms mean, if no variable of a term is bound in
  the formula.
* `denote_renameApart` and `denote_renameBinder`: renaming what is bound changes
  nothing.
* `denote_replaceApart`: replacing a symbol is the same as letting the symbol
  mean what the replacement says of its parameters.

All of them go by induction over well-sorted trees, for all assignments at once,
since a binder passes on an assignment that has changed in one variable.
-/

universe u

namespace Deduction

variable {D : Type u} {M : Model D}

open Formula

/-! ## Substitution -/

/-- Lets every variable stand for the meaning of the term that is put for it. -/
def Assignment.substituted (M : Model D) (v : Assignment D) (σ : Substitution) :
    Assignment D :=
  { v with subject := fun x => M.value v ((var x).substitute σ) }

namespace Model

variable {op : Operator} {cs args parts : List Formula} {f t β : Formula}
  {x y z name : String} {xs : List String} {k : Kind} {v w : Assignment D}
  {σ : Substitution} {s : Symbol}

/-- In the changed assignment a variable has the value of what is put for it. -/
theorem subject_substituted :
    (v.substituted M σ).subject y = M.value v ((var y).substitute σ) := rfl

theorem apply_substituted : M.apply (v.substituted M σ) = M.apply v := by
  funext op
  cases op <;> rfl

/-- Below a binder of a variable that no term mentions, substitution and
assignment do not interfere. -/
theorem substituted_assign (hσ : ∀ y t, σ.lookup y = some t → Sorted .term t)
    (hx : ∀ y t, σ.lookup y = some t → x ∉ t.free) (d : D) :
    (v.assign x d).substituted M (σ.without x) =
      (v.substituted M σ).assign x d := by
  have hsubject : ∀ y,
      M.value (v.assign x d) ((var y).substitute (σ.without x)) =
      ((v.substituted M σ).assign x d).subject y := by
    intro y
    by_cases hyx : y = x
    · subst hyx
      rw [substitute_var, Substitution.lookup_without_self, Option.getD_none,
        Assignment.subject_assign_self]
      exact Assignment.subject_assign_self v y d
    · rw [substitute_var_without hyx, Assignment.subject_assign_of_ne _ hyx,
        subject_substituted, substitute_var]
      cases hy : σ.lookup y with
      | none => exact v.subject_assign_of_ne hyx d
      | some t =>
        exact congrArg Meaning.value
          (denote_assign_of_not_mem (hσ y t hy) (hx y t hy) d)
  exact Assignment.ext (funext hsubject) rfl rfl

/-- **Substitution lemma.** -/
theorem denote_substitute (h : Sorted k f)
    (hσ : ∀ x t, σ.lookup x = some t → Sorted .term t)
    (hcapture : ∀ x t, σ.lookup x = some t → ∀ z ∈ t.free, z ∉ f.bound) :
    M.denote (f.substitute σ) v = M.denote f (v.substituted M σ) := by
  induction h generalizing σ v with
  | subject x => exact denote_eq_ofValue ((Sorted.subject x).substitute hσ)
  | application name hop hkind htakes hargs ih =>
    rw [substitute_application σ hop]
    refine denote_application_map hop (fun ds _ => by rw [apply_substituted]) ?_
    intro arg harg
    refine ih arg harg hσ fun x t ht z hz hbound => ?_
    exact hcapture x t ht z hz
      ((mem_bound_application hop).2 ⟨arg, harg, hbound⟩)
  | @binder k op parts x hop hkind htakes hparts ih =>
    -- The binder takes `x` out of the substitution, and no term that is put
    -- mentions `x`.
    have hx : ∀ y t, σ.lookup y = some t → x ∉ t.free := fun y t ht hfree =>
      hcapture y t ht x hfree ((mem_bound_bind hop).2 (Or.inl rfl))
    have hlookup : ∀ y t, (σ.without x).lookup y = some t →
        σ.lookup y = some t := by
      intro y t ht
      by_cases hyx : y = x
      · subst hyx
        simp at ht
      · rwa [Substitution.lookup_without_of_ne σ hyx] at ht
    rw [substitute_bind σ hop]
    apply denote_bind_map hop
    intro d part hpart
    rw [← substituted_assign hσ hx d]
    refine ih part hpart (fun y t ht => hσ y t (hlookup y t ht)) ?_
    intro y t ht z hz hbound
    exact hcapture y t (hlookup y t ht) z hz
      ((mem_bound_bind hop).2 (Or.inr ⟨part, hpart, hbound⟩))
  | connective hop htakes hcs ih =>
    rw [substitute_plain σ (var?_connective hop) (binder?_connective hop)]
    apply denote_connective_map hop
    intro c hc
    refine ih c hc hσ fun x t ht z hz hbound => ?_
    exact hcapture x t ht z hz ((mem_bound_connective hop).2 ⟨c, hc, hbound⟩)

/-- Terms put for parameters let the parameters stand for what the terms
mean. -/
theorem substituted_zip :
    v.substituted M (xs.zip args) = v.assignAll xs (args.map (M.value v)) := by
  have hlookup : ∀ y, (xs.zip (args.map (M.value v))).lookup y =
      ((xs.zip args).lookup y).map (M.value v) := by
    intro y
    induction xs generalizing args with
    | nil => rfl
    | cons x xs ih =>
      cases args with
      | nil => rfl
      | cons arg args =>
        rw [List.map_cons, List.zip_cons_cons, List.zip_cons_cons,
          List.lookup_cons, List.lookup_cons]
        cases y == x with
        | true => rfl
        | false => exact ih
  have hsubject : ∀ y, M.value v ((var y).substitute (xs.zip args)) =
      ((xs.zip (args.map (M.value v))).lookup y).getD (v.subject y) := by
    intro y
    rw [substitute_var, hlookup]
    cases (xs.zip args).lookup y <;> rfl
  exact Assignment.ext (funext hsubject) rfl rfl

/-- One term put for one variable. -/
theorem denote_replaceFree (h : Sorted k f) (ht : Sorted .term t)
    (hcapture : ∀ z ∈ t.free, z ∉ f.bound) :
    M.denote (f.replaceFree (var x) t) v =
      M.denote f (v.assign x (M.value v t)) := by
  have hpair : Substitution.ofPairs [(var x, t)] = [x].zip [t] := rfl
  have hlookup : ∀ y t', ([x].zip [t]).lookup y = some t' → t' = t := by
    intro y t' ht'
    exact List.mem_singleton.1 (List.of_mem_zip (mem_of_lookup ht')).2
  rw [replaceFree, hpair,
    denote_substitute h (fun y t' ht' => hlookup y t' ht' ▸ ht)
      (fun y t' ht' => hlookup y t' ht' ▸ hcapture), substituted_zip]
  have hassign : v.assignAll [x] ([t].map (M.value v)) =
      v.assign x (M.value v t) := by
    refine Assignment.ext (funext fun y => ?_) rfl rfl
    by_cases hyx : y = x
    · simp [Assignment.assignAll, Assignment.assign, hyx]
    · have hne : (y == x) = false := by simpa using hyx
      simp [Assignment.assignAll, Assignment.assign, List.lookup_cons, hyx, hne]
  rw [hassign]

/-! ## Renaming -/

/-- `w` gives to `y` what `v` gives to `x`, and agrees with `v` on all else. -/
structure Renames (x y : String) (v w : Assignment D) : Prop where
  predicate : w.predicate = v.predicate
  function : w.function = v.function
  new : w.subject y = v.subject x
  others : ∀ z, z ≠ x → z ≠ y → w.subject z = v.subject z

namespace Renames

theorem apply_eq (h : Renames x y v w) : M.apply w = M.apply v := by
  funext op name ds
  cases op <;> simp only [apply, h.predicate, h.function]

/-- The element of a renamed variable is assigned to the new name. -/
theorem assign_self (h : ∀ z, z ≠ x → z ≠ y → w.subject z = v.subject z)
    (hpredicate : w.predicate = v.predicate)
    (hfunction : w.function = v.function) (d : D) :
    Renames x y (v.assign x d) (w.assign y d) where
  predicate := hpredicate
  function := hfunction
  new := by rw [Assignment.subject_assign_self, Assignment.subject_assign_self]
  others z hzx hzy := by
    rw [v.subject_assign_of_ne hzx, w.subject_assign_of_ne hzy, h z hzx hzy]

/-- A renaming stays one below a binder of a third variable. -/
theorem assign_of_ne (h : Renames x y v w) (hzx : z ≠ x) (hzy : z ≠ y) (d : D) :
    Renames x y (v.assign z d) (w.assign z d) where
  predicate := h.predicate
  function := h.function
  new := by
    rw [v.subject_assign_of_ne (Ne.symm hzx),
      w.subject_assign_of_ne (Ne.symm hzy), h.new]
  others u hux huy := by
    by_cases huz : u = z
    · rw [huz, Assignment.subject_assign_self, Assignment.subject_assign_self]
    · rw [v.subject_assign_of_ne huz, w.subject_assign_of_ne huz,
        h.others u hux huy]

end Renames

/-- **Renaming lemma.**  A variable may be renamed everywhere, free and bound,
to one that does not occur. -/
theorem denote_replaceVar (h : Sorted k f) (hfree : y ∉ f.free)
    (hbound : y ∉ f.bound) (hrenames : Renames x y v w) :
    M.denote (replaceVar x (var y) f) w = M.denote f v := by
  induction h generalizing v w with
  | subject z =>
    by_cases hz : z = x
    · subst hz
      rw [replaceVar_var_self, denote_var, denote_var, hrenames.new]
    · have hzy : z ≠ y := fun hzy => hfree (by simp [hzy])
      rw [replaceVar_var_of_ne _ hz, denote_var, denote_var,
        hrenames.others z hz hzy]
  | application name hop hkind htakes hargs ih =>
    rw [replaceVar_application _ hop]
    refine denote_application_map hop (fun ds _ => by rw [hrenames.apply_eq]) ?_
    intro arg harg
    refine ih arg harg ?_ ?_ hrenames
    · exact fun hy => hfree ((mem_free_application hop).2 ⟨arg, harg, hy⟩)
    · exact fun hy => hbound ((mem_bound_application hop).2 ⟨arg, harg, hy⟩)
  | @binder k op parts z hop hkind htakes hparts ih =>
    have hyz : y ≠ z := fun hyz => hbound ((mem_bound_bind hop).2 (Or.inl hyz))
    have hpart := not_mem_of_mem_parts hop hfree hbound
    by_cases hz : z = x
    · subst hz
      rw [replaceVar_bind_self _ hop]
      apply denote_bind_map hop
      intro d part hmem
      exact ih part hmem (hpart part hmem).1 (hpart part hmem).2
        (.assign_self hrenames.others hrenames.predicate hrenames.function d)
    · rw [replaceVar_bind_of_ne _ hop hz]
      apply denote_bind_map hop
      intro d part hmem
      exact ih part hmem (hpart part hmem).1 (hpart part hmem).2
        (hrenames.assign_of_ne hz (Ne.symm hyz) d)
  | connective hop htakes hcs ih =>
    rw [replaceVar_plain _ (var?_connective hop)]
    apply denote_connective_map hop
    intro c hc
    refine ih c hc ?_ ?_ hrenames
    · exact fun hy => hfree ((mem_free_connective hop).2 ⟨c, hc, hy⟩)
    · exact fun hy => hbound ((mem_bound_connective hop).2 ⟨c, hc, hy⟩)

/-- A binder may be given a new variable. -/
theorem denote_replaceVar_binder (h : Sorted k f) (hbinder : f.binder? = some x)
    (hfree : y ∉ f.free) (hbound : y ∉ f.bound) :
    M.denote (replaceVar x (var y) f) v = M.denote f v := by
  cases h with
  | subject z => cases hbinder
  | application name hop =>
    rw [binder?_application hop] at hbinder
    cases hbinder
  | connective hop =>
    rw [binder?_connective hop] at hbinder
    cases hbinder
  | @binder _ op parts z hop hkind htakes hparts =>
    rw [binder?_bind hop] at hbinder
    obtain rfl := Option.some.inj hbinder
    have hpart := not_mem_of_mem_parts hop hfree hbound
    rw [replaceVar_bind_self _ hop]
    apply denote_bind_map hop
    intro d part hmem
    exact denote_replaceVar (hparts part hmem) (hpart part hmem).1
      (hpart part hmem).2 (.assign_self (fun _ _ _ => rfl) rfl rfl d)

/-- **Renaming apart keeps the meaning.** -/
theorem denote_renameApart (h : Sorted k f) (avoid : List String) :
    M.denote (renameApart avoid f) v = M.denote f v := by
  induction h generalizing v with
  | subject x => rfl
  | application name hop hkind htakes hargs ih =>
    rw [renameApart_application avoid hop]
    exact denote_application_map hop (fun _ _ => rfl)
      fun arg harg => ih arg harg
  | @binder k op parts x hop hkind htakes hparts ih =>
    have hinside :
        M.denote (.node op (var x :: parts.map (renameApart avoid))) v =
          M.denote (.node op (var x :: parts)) v :=
      denote_bind_map hop fun d part hpart => ih part hpart
    by_cases hx : x ∈ avoid
    · have hsorted := Sorted.binder_map x hop hkind htakes fun part hpart =>
        (hparts part hpart).renameApart avoid
      obtain ⟨hfree, hbound, -⟩ :=
        apartName_not_mem avoid x
          (.node op (var x :: parts.map (renameApart avoid)))
      rw [renameApart_bind_of_mem hop hx,
        denote_replaceVar_binder hsorted (binder?_bind hop) hfree hbound,
        hinside]
    · rw [renameApart_bind_of_not_mem hop hx, hinside]
  | connective hop htakes hcs ih =>
    rw [renameApart_plain avoid (binder?_connective hop)]
    exact denote_connective_map hop fun c hc => ih c hc

/-! ## Renaming one binder -/

/-- What holds of all items and of the changed one holds after the change. -/
theorem forall_mem_modify {P : Formula → Prop} {g : Formula → Formula}
    {l : List Formula} {i : Nat} (hl : ∀ c ∈ l, P c)
    (hi : ∀ c, l[i]? = some c → P (g c)) :
    ∀ c ∈ l.modify i g, P c := by
  intro c hc
  obtain ⟨j, hj⟩ := List.mem_iff_getElem?.1 hc
  rw [List.getElem?_modify] at hj
  obtain ⟨b, hb, hbc⟩ := Option.map_eq_some_iff.1 hj
  by_cases hij : i = j
  · subst hij
    rw [if_pos rfl] at hbc
    exact hbc ▸ hi b hb
  · rw [if_neg hij] at hbc
    have hmem : b ∈ l := List.mem_of_getElem? hb
    exact hbc ▸ hl b hmem

/-- A change at one place that `h` does not see. -/
theorem map_modify {E : Type u} {g : Formula → Formula} {h : Formula → E}
    {l : List Formula} {i : Nat} (hi : ∀ c, l[i]? = some c → h (g c) = h c) :
    (l.modify i g).map h = l.map h := by
  apply List.ext_getElem?
  intro j
  rw [List.getElem?_map, List.getElem?_map, List.getElem?_modify]
  cases hj : l[j]? with
  | none => rfl
  | some c =>
    by_cases hij : i = j
    · subst hij
      simp [hi c hj]
    · simp [hij]

/-- A path goes to a child first. -/
theorem subformula?_cons {i : Nat} {path : Path} :
    subformula? (i :: path) f = f.children[i]?.bind (subformula? path) := by
  cases f <;> rfl

/-- Inside a variable there is no binder. -/
theorem binder?_of_subformula?_var {path : Path} {b : Formula}
    (h : subformula? path (var y) = some b) : b.binder? = none := by
  match path, h with
  | [], h =>
    obtain rfl : var y = b := by simpa using h
    rfl
  | [0], h =>
    obtain rfl : Formula.atom y = b := by simpa [var, subformula?] using h
    rfl
  | 0 :: _ :: _, h => simp [var, subformula?] at h
  | (_ + 1) :: _, h => simp [var, subformula?] at h

/-- A binder inside a formula may be changed in a way that keeps its meaning. -/
theorem denote_modifyAt {g : Formula → Formula} {path : Path} {b : Formula}
    (hsub : subformula? path f = some b) (hbinder : b.binder? = some x)
    (hg : ∀ k, Sorted k b →
      Sorted k (g b) ∧ ∀ v, M.denote (g b) v = M.denote b v)
    (h : Sorted k f) :
    Sorted k (modifyAt g path f) ∧
      ∀ v, M.denote (modifyAt g path f) v = M.denote f v := by
  induction path generalizing f k with
  | nil =>
    obtain rfl : f = b := by simpa using hsub
    rw [modifyAt_nil]
    exact hg k h
  | cons i path ih =>
    have hinside : ∀ c k, f.children[i]? = some c → Sorted k c →
        Sorted k (modifyAt g path c) ∧
          ∀ v, M.denote (modifyAt g path c) v = M.denote c v := by
      intro c k hc hsorted
      rw [subformula?_cons, hc, Option.bind_some] at hsub
      exact ih hsub hsorted
    cases h with
    | subject y =>
      rw [binder?_of_subformula?_var hsub] at hbinder
      cases hbinder
    | @application _ op args name hop hkind htakes hargs =>
      cases i with
      | zero =>
        have hatom : subformula? path (.atom name) = some b := hsub
        cases path with
        | nil =>
          obtain rfl : Formula.atom name = b := by simpa using hatom
          cases hbinder
        | cons => cases hatom
      | succ i =>
        have hpart : ∀ c, args[i]? = some c → Sorted .term (modifyAt g path c) ∧
            ∀ v, M.denote (modifyAt g path c) v = M.denote c v := by
          intro c hc
          exact hinside c .term hc (hargs c (List.mem_of_getElem? hc))
        have heq : modifyAt g ((i + 1) :: path) (application op name args) =
            application op name (args.modify i (modifyAt g path)) := by
          simp [application, modifyAt]
        rw [heq]
        refine ⟨.application name hop hkind (by simpa using htakes)
          (forall_mem_modify hargs fun c hc => (hpart c hc).1), fun v => ?_⟩
        rw [denote_application hop, denote_application hop,
          map_modify fun c hc => congrArg Meaning.value ((hpart c hc).2 v)]
    | @binder _ op parts y hop hkind htakes hparts =>
      cases i with
      | zero =>
        have hvar : subformula? path (var y) = some b := hsub
        rw [binder?_of_subformula?_var hvar] at hbinder
        cases hbinder
      | succ i =>
        have hpart : ∀ c, parts[i]? = some c →
            Sorted .formula (modifyAt g path c) ∧
            ∀ v, M.denote (modifyAt g path c) v = M.denote c v := by
          intro c hc
          exact hinside c .formula hc (hparts c (List.mem_of_getElem? hc))
        have heq : modifyAt g ((i + 1) :: path) (.node op (var y :: parts)) =
            .node op (var y :: parts.modify i (modifyAt g path)) := by
          simp [modifyAt]
        rw [heq]
        refine ⟨.binder y hop hkind (by simpa using htakes)
          (forall_mem_modify hparts fun c hc => (hpart c hc).1), fun v => ?_⟩
        rw [denote_bind hop, denote_bind hop]
        apply congrArg (M.bind op)
        funext d
        exact map_modify fun c hc => (hpart c hc).2 (v.assign y d)
    | @connective op cs hop htakes hcs =>
      have hpart : ∀ c, cs[i]? = some c → Sorted .formula (modifyAt g path c) ∧
          ∀ v, M.denote (modifyAt g path c) v = M.denote c v := by
        intro c hc
        exact hinside c .formula hc (hcs c (List.mem_of_getElem? hc))
      rw [modifyAt]
      refine ⟨.connective hop (by simpa using htakes)
        (forall_mem_modify hcs fun c hc => (hpart c hc).1), fun v => ?_⟩
      rw [denote_connective hop, denote_connective hop,
        map_modify fun c hc => (hpart c hc).2 v]

/-- **Renaming a binder keeps the meaning**, if there is room for the new
variable. -/
theorem denote_renameBinder {n : Nat} (h : Sorted k f)
    (hroom : ∀ b, f.nthBinder? (var x) n = some b →
      x = y ∨ (y ∉ b.free ∧ y ∉ b.bound)) :
    Sorted k (f.renameBinder (var x) (var y) n) ∧
      ∀ v, M.denote (f.renameBinder (var x) (var y) n) v = M.denote f v := by
  cases hpath : f.binderPath? (var x) n with
  | none =>
    rw [renameBinder, var?_var, hpath]
    exact ⟨h, fun _ => rfl⟩
  | some path =>
    have hmem : path ∈ binderPaths x f := by
      rw [binderPath?, var?_var, Option.bind_some] at hpath
      exact List.mem_of_getElem? hpath
    obtain ⟨b, hb, hbinder⟩ := exists_binder_of_mem_binderPaths hmem
    have hnth : f.nthBinder? (var x) n = some b := by
      rw [nthBinder?, hpath, Option.bind_some, hb]
    have hrename : f.renameBinder (var x) (var y) n =
        modifyAt (replaceVar x (var y)) path f := by
      rw [renameBinder, var?_var, hpath]
    rw [hrename]
    refine denote_modifyAt hb hbinder
      (fun k hsorted => ⟨hsorted.replaceVar x y, fun v => ?_⟩) h
    rcases hroom b hnth with rfl | ⟨hfree, hbound⟩
    · rw [replaceVar_self]
    · exact denote_replaceVar_binder hsorted hbinder hfree hbound

/-! ## Replacement of a symbol -/

/-- **An instance** means what the replacement means when its parameters stand
for what the arguments mean. -/
theorem denote_instantiateApart (hnodup : xs.Nodup)
    (hlength : args.length = xs.length) (hβ : Sorted k β)
    (hargs : ∀ arg ∈ args, Sorted .term arg) :
    M.denote (instantiateApart (xs.map var) β args) v =
      M.denote β (v.assignAll xs (args.map (M.value v))) := by
  have hmem : ∀ x t, (xs.zip args).lookup x = some t → t ∈ args := fun x t ht =>
    (List.of_mem_zip (mem_of_lookup ht)).2
  rw [instantiateApart_template hnodup, denote_substitute (hβ.renameApart _)
    (fun x t ht => hargs t (hmem x t ht)), substituted_zip,
    denote_renameApart hβ]
  intro x t ht z hz hbound
  exact not_mem_of_mem_bound_renameApart hbound
    ((mem_argumentVariables hnodup hlength).2 ⟨t, hmem x t ht, hz⟩)

/-- Under `w` the symbol means what `β` says of its parameters under `v`, and
`w` agrees with `v` on all else. -/
structure Replaces (M : Model D) (s : Symbol) (xs : List String) (β : Formula)
    (v w : Assignment D) : Prop where
  subject : w.subject = v.subject
  symbol : ∀ ds, ds.length = s.arity →
    M.apply w s.op s.name ds = M.denote β (v.assignAll xs ds)
  others : ∀ t : Symbol, t ≠ s → ∀ ds, ds.length = t.arity →
    M.apply w t.op t.name ds = M.apply v t.op t.name ds

/-- **Replacement lemma.**  Replacing a symbol is letting it mean what the
replacement says, if that stays so when the formula's binders change an
assignment. -/
theorem denote_replaceApart {R : Assignment D → Assignment D → Prop}
    (hnodup : xs.Nodup) (harity : s.arity = xs.length) (hβ : Sorted s.op.kind β)
    (h : Sorted k f) (hR : ∀ v w, R v w → Replaces M s xs β v w)
    (hassign : ∀ v w z d, z ∈ f.bound → R v w → R (v.assign z d) (w.assign z d))
    (hvw : R v w) : M.denote (replaceApart s xs β f) v = M.denote f w := by
  induction h generalizing v w with
  | subject x =>
    rw [replaceApart, replaceApplications_var, denote_var, denote_var,
      (hR v w hvw).subject]
  | @application k op args name hop hkind htakes hargs ih =>
    have hargument :
        ∀ arg ∈ args, M.denote (replaceApart s xs β arg) v = M.denote arg w :=
      fun arg harg => ih arg harg (fun v w z d hz =>
        hassign v w z d ((mem_bound_application hop).2 ⟨arg, harg, hz⟩)) hvw
    cases happlies : applies s (application op name args) with
    | true =>
      obtain rfl := (applies_application hop).1 happlies
      have hsorted :
          ∀ arg ∈ args.map (replaceApart ⟨op, name, args.length⟩ xs β),
            Sorted .term arg := by
        intro arg' harg'
        obtain ⟨arg, harg, rfl⟩ := List.mem_map.1 harg'
        exact (hargs arg harg).replaceApart hβ
      have hvalues :
          (args.map (replaceApart ⟨op, name, args.length⟩ xs β)).map
            (M.value v) = args.map (M.value w) := by
        rw [List.map_map]
        exact List.map_congr_left fun arg harg =>
          congrArg Meaning.value (hargument arg harg)
      rw [denote_application hop, replaceApart, application,
        replaceApplications_applied _ _ happlies, List.tail_cons,
        denote_instantiateApart hnodup (by rw [List.length_map]; exact harity)
          hβ hsorted, hvalues]
      exact ((hR v w hvw).symbol _ (by simp)).symm
    | false =>
      have hne : (⟨op, name, args.length⟩ : Symbol) ≠ s := by
        intro heq
        rw [(applies_application hop).2 heq.symm] at happlies
        cases happlies
      rw [replaceApart, replaceApplications_application _ happlies]
      refine denote_application_map hop ?_ hargument
      exact fun ds hds => ((hR v w hvw).others _ hne ds hds).symm
  | @binder k op parts x hop hkind htakes hparts ih =>
    rw [replaceApart, replaceApplications_bind s _ hop]
    apply denote_bind_map hop
    intro d part hpart
    refine ih part hpart ?_
      (hassign v w x d ((mem_bound_bind hop).2 (Or.inl rfl)) hvw)
    exact fun v w z d hz =>
      hassign v w z d ((mem_bound_bind hop).2 (Or.inr ⟨part, hpart, hz⟩))
  | connective hop htakes hcs ih =>
    rw [replaceApart, replaceApplications_node s _ (applies_connective s hop)]
    apply denote_connective_map hop
    intro c hc
    exact ih c hc (fun v w z d hz =>
      hassign v w z d ((mem_bound_connective hop).2 ⟨c, hc, hz⟩)) hvw

end Model

end Deduction
