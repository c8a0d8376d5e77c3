import Deduction.Proofs.Sorts

/-!
# Meaning of formulas

A **model** over a domain gives a relation to every predicate constant, a
function to every function constant, and an element to every class.  Since the
empty class is an element too, a domain has at least one.  An **assignment**
gives elements to subject variables, and relations and functions of any number
of arguments to predicate and function variables.

Formulas and terms are trees of one type, and so are their meanings: a meaning
has a truth value and an element, of which a formula uses the first and a term
the second.  The other one is a fixed default.  A quantifier with a restriction
speaks of the elements that satisfy the restriction.

Main statements: the clauses of `denote` for each kind of node, and
`denote_congr`, that the meaning of a formula depends on its free variables and
on the symbols that occur in it.
-/

universe u

namespace Deduction

/-- Relations, functions and classes over a domain. -/
structure Model (D : Type u) where
  relation : String → List D → Prop
  function : String → List D → D
  classOf : (D → Prop) → D

/-- What the variables stand for. -/
@[ext]
structure Assignment (D : Type u) where
  subject : String → D
  predicate : String → List D → Prop
  function : String → List D → D

/-- What a tree stands for: a truth value if it is a formula, and an element
if it is a term. -/
@[ext]
structure Meaning (D : Type u) where
  truth : Prop
  value : D

variable {D : Type u}

/-- The meaning of a term. -/
def Meaning.ofValue (d : D) : Meaning D :=
  ⟨False, d⟩

namespace Assignment

variable (v : Assignment D)

/-- Lets a subject variable stand for an element. -/
def assign (x : String) (d : D) : Assignment D :=
  { v with subject := fun y => if y = x then d else v.subject y }

/-- Lets subject variables stand for elements, one by one. -/
def assignAll (xs : List String) (ds : List D) : Assignment D :=
  { v with subject := fun y => ((xs.zip ds).lookup y).getD (v.subject y) }

@[simp] theorem subject_assign_self (x : String) (d : D) :
    (v.assign x d).subject x = d := by
  simp [assign]

/-- All other variables keep their values. -/
theorem subject_assign_of_ne {x y : String} (h : y ≠ x) (d : D) :
    (v.assign x d).subject y = v.subject y := by
  simp [assign, h]

end Assignment

namespace Model

variable (M : Model D)

/-- The element that stands in for what is no term. -/
def nothing : D :=
  M.classOf fun _ => False

/-- The meaning of a formula. -/
def ofTruth (p : Prop) : Meaning D :=
  ⟨p, M.nothing⟩

/-- The meaning of a symbol that is applied to elements. -/
def apply (v : Assignment D) : Operator → String → List D → Meaning D
  | .predicateVariable, name, ds => M.ofTruth (v.predicate name ds)
  | .functionVariable, name, ds => .ofValue (v.function name ds)
  | .predicateConstant, name, ds => M.ofTruth (M.relation name ds)
  | .functionConstant, name, ds => .ofValue (M.function name ds)
  | _, _, _ => M.ofTruth False

/-- Whether the restriction holds, of the parts below a binder. -/
def restriction : List (Meaning D) → Prop
  | [restriction, _] => restriction.truth
  | _ => True

/-- Whether the last of the parts below a binder holds. -/
def scope : List (Meaning D) → Prop
  | [body] => body.truth
  | [_, body] => body.truth
  | _ => False

/-- The meaning of a binder, from what its parts mean for each element. -/
def bind (op : Operator) (parts : D → List (Meaning D)) : Meaning D :=
  match op with
  | .universal => M.ofTruth (∀ d, restriction (parts d) → scope (parts d))
  | .existential => M.ofTruth (∃ d, restriction (parts d) ∧ scope (parts d))
  | .uniqueExistential =>
    M.ofTruth (∃ d, (restriction (parts d) ∧ scope (parts d)) ∧
      ∀ e, restriction (parts e) ∧ scope (parts e) → e = d)
  | .classTerm =>
    .ofValue (M.classOf fun d => restriction (parts d) ∧ scope (parts d))
  | _ => M.ofTruth False

/-- The truth of a connective, from the truth of its parts. -/
def connect : Operator → List (Meaning D) → Prop
  | .negation, [p] => ¬ p.truth
  | .conjunction, ps => ∀ p ∈ ps, p.truth
  | .disjunction, ps => ∃ p ∈ ps, p.truth
  | .implication, [p, q] => p.truth → q.truth
  | .equivalence, [p, q] => p.truth ↔ q.truth
  | _, _ => False

mutual

/-- **The meaning of a formula or a term** under an assignment. -/
def denote : Formula → Assignment D → Meaning D
  | .atom _, _ => M.ofTruth False
  | .node op cs, v =>
    match (Formula.node op cs).var? with
    | some x => .ofValue (v.subject x)
    | none =>
      match (Formula.node op cs).binder? with
      | some x => M.bind op fun d => (denoteAll cs (v.assign x d)).tail
      | none =>
        match (Formula.node op cs).name? with
        | some name =>
          M.apply v op name ((denoteAll cs v).tail.map Meaning.value)
        | none => M.ofTruth (connect op (denoteAll cs v))

/-- The meanings of a list of formulas or terms. -/
def denoteAll : List Formula → Assignment D → List (Meaning D)
  | [], _ => []
  | f :: fs, v => denote f v :: denoteAll fs v

end

/-- The formula is true under the assignment. -/
def Holds (v : Assignment D) (f : Formula) : Prop :=
  (M.denote f v).truth

/-- The element that a term stands for under the assignment. -/
def value (v : Assignment D) (t : Formula) : D :=
  (M.denote t v).value

/-- The formula is true under every assignment. -/
def Valid (f : Formula) : Prop :=
  ∀ v, M.Holds v f

variable {M} {op : Operator} {cs args parts : List Formula} {f t A B : Formula}
  {x name : String} {k : Kind} {v w : Assignment D}

/-! ## One clause for each kind of node -/

theorem denoteAll_eq_map (fs : List Formula) (v : Assignment D) :
    M.denoteAll fs v = fs.map fun f => M.denote f v := by
  induction fs with
  | nil => rfl
  | cons f fs ih => rw [denoteAll, ih, List.map_cons]

@[simp] theorem denote_var : M.denote (.var x) v = .ofValue (v.subject x) := rfl

/-- An application means what its name means at the values of the arguments. -/
theorem denote_application (hop : op.isApplication) :
    M.denote (.application op name args) v =
      M.apply v op name (args.map (M.value v)) := by
  have hvar : (Formula.node op (.atom name :: args)).var? = none :=
    Formula.var?_application hop
  have hbinder : (Formula.node op (.atom name :: args)).binder? = none :=
    Formula.binder?_application hop
  have hname : (Formula.node op (.atom name :: args)).name? = some name := by
    simp [Formula.name?, hop]
  rw [Formula.application, denote, hvar, hbinder, hname, denoteAll_eq_map,
    List.map_cons, List.tail_cons, List.map_map]
  rfl

/-- A binder takes the meanings of its parts at every value of its variable. -/
theorem denote_bind (hop : op.isBinder) :
    M.denote (.node op (.var x :: parts)) v =
      M.bind op fun d =>
        parts.map fun part => M.denote part (v.assign x d) := by
  rw [denote, Formula.var?_bind hop, Formula.binder?_bind hop]
  simp [denoteAll_eq_map]

/-- A connective takes the meanings of its parts. -/
theorem denote_connective (hop : op.isConnective) :
    M.denote (.node op cs) v =
      M.ofTruth (connect op (cs.map fun c => M.denote c v)) := by
  have hname : (Formula.node op cs).name? = none := by
    cases hname : (Formula.node op cs).name? with
    | none => rfl
    | some name =>
      unfold Formula.name? at hname
      split at hname
      · rename_i heq
        cases heq
        revert hop hname
        cases op <;> simp [Operator.isConnective, Operator.isApplication]
      · cases hname
  rw [denote, Formula.var?_connective hop, Formula.binder?_connective hop,
    hname, denoteAll_eq_map]

/-- Implication is implication. -/
theorem holds_implies :
    M.Holds v (A.implies B) ↔ (M.Holds v A → M.Holds v B) := by
  rw [Holds, Formula.implies, denote_connective rfl]
  rfl

/-- A universal formula holds if its body does at every value. -/
theorem holds_universal :
    M.Holds v (.quantify .universal x A) ↔ ∀ d, M.Holds (v.assign x d) A := by
  rw [Holds, Formula.quantify, denote_bind rfl]
  simp [bind, ofTruth, restriction, scope, Holds]

/-- An existential formula holds if its body does at some value. -/
theorem holds_existential :
    M.Holds v (.quantify .existential x A) ↔ ∃ d, M.Holds (v.assign x d) A := by
  rw [Holds, Formula.quantify, denote_bind rfl]
  simp [bind, ofTruth, restriction, scope, Holds]

/-! ## Formulas have a truth value, terms have an element -/

/-- A term means its value. -/
theorem denote_eq_ofValue (h : Formula.Sorted .term t) :
    M.denote t v = .ofValue (M.value v t) := by
  cases h with
  | subject x => rfl
  | @application _ op args name hop hkind =>
    rw [value, denote_application hop]
    cases op <;> first | rfl | cases hkind
  | @binder _ op parts x hop hkind =>
    rw [value, denote_bind hop]
    cases op <;> first | rfl | cases hkind

/-- A formula means whether it holds. -/
theorem denote_eq_ofTruth (h : Formula.Sorted .formula f) :
    M.denote f v = M.ofTruth (M.Holds v f) := by
  cases h with
  | @application _ op args name hop hkind =>
    rw [Holds, denote_application hop]
    cases op <;> first | rfl | cases hkind
  | @binder _ op parts x hop hkind =>
    rw [Holds, denote_bind hop]
    cases op <;> first | rfl | cases hkind
  | connective hop =>
    rw [Holds, denote_connective hop]
    rfl

/-! ## What a meaning depends on -/

/-- What names mean does not hang on the variables. -/
@[simp] theorem apply_assign (d : D) : M.apply (v.assign x d) = M.apply v := by
  funext op
  cases op <;> rfl

@[simp] theorem apply_assignAll (xs : List String) (ds : List D) :
    M.apply (v.assignAll xs ds) = M.apply v := by
  funext op
  cases op <;> rfl

/-! ## Nodes whose parts mean the same -/

variable {g : Formula → Formula} {y : String}

/-- Applications with arguments of the same meaning have the same meaning. -/
theorem denote_application_map (hop : op.isApplication)
    (happly : ∀ ds, ds.length = args.length →
      M.apply v op name ds = M.apply w op name ds)
    (hargs : ∀ arg ∈ args, M.denote (g arg) v = M.denote arg w) :
    M.denote (.application op name (args.map g)) v =
      M.denote (.application op name args) w := by
  have hvalues : (args.map g).map (M.value v) = args.map (M.value w) := by
    rw [List.map_map]
    exact List.map_congr_left fun arg harg =>
      congrArg Meaning.value (hargs arg harg)
  rw [denote_application hop, denote_application hop, hvalues]
  exact happly _ (List.length_map _)

/-- Binders with parts of the same meaning at every value have the same meaning,
whatever their variables are called. -/
theorem denote_bind_map (hop : op.isBinder)
    (hparts : ∀ d, ∀ part ∈ parts,
      M.denote (g part) (v.assign y d) = M.denote part (w.assign x d)) :
    M.denote (.node op (.var y :: parts.map g)) v =
      M.denote (.node op (.var x :: parts)) w := by
  rw [denote_bind hop, denote_bind hop]
  apply congrArg (M.bind op)
  funext d
  rw [List.map_map]
  exact List.map_congr_left (hparts d)

/-- Connectives with parts of the same meaning have the same meaning. -/
theorem denote_connective_map (hop : op.isConnective)
    (hcs : ∀ c ∈ cs, M.denote (g c) v = M.denote c w) :
    M.denote (.node op (cs.map g)) v = M.denote (.node op cs) w := by
  have hmeanings : (cs.map g).map (fun c => M.denote c v) =
      cs.map fun c => M.denote c w := by
    rw [List.map_map]
    exact List.map_congr_left hcs
  rw [denote_connective hop, denote_connective hop, hmeanings]

/-- **Coincidence.**  Assignments that agree on the free variables of a formula,
and give the same meaning to the symbols in it, give the same meaning to the
formula. -/
theorem denote_congr (h : Formula.Sorted k f)
    (hsubject : ∀ x ∈ f.free, v.subject x = w.subject x)
    (hsymbol : ∀ s : Symbol, Formula.containsSymbol s f = true →
      ∀ ds, ds.length = s.arity →
        M.apply v s.op s.name ds = M.apply w s.op s.name ds) :
    M.denote f v = M.denote f w := by
  induction h generalizing v w with
  | subject x => rw [denote_var, denote_var, hsubject x (by simp)]
  | @application k op args name hop hkind htakes hargs ih =>
    have hhere : Formula.containsSymbol ⟨op, name, args.length⟩
        (.application op name args) = true :=
      Formula.containsSymbol_of_applies
        ((Formula.applies_application hop).2 rfl)
    have hargs : ∀ arg ∈ args, M.denote arg v = M.denote arg w := by
      intro arg harg
      refine ih arg harg ?_ ?_
      · intro x hx
        exact hsubject x ((Formula.mem_free_application hop).2 ⟨arg, harg, hx⟩)
      · intro s hs
        exact hsymbol s
          (Formula.containsSymbol_of_child (List.mem_cons_of_mem _ harg) hs)
    have hmap := denote_application_map (g := id) hop (hsymbol _ hhere) hargs
    rwa [List.map_id] at hmap
  | @binder k op parts x hop hkind htakes hparts ih =>
    have hpart : ∀ d, ∀ part ∈ parts,
        M.denote part (v.assign x d) = M.denote part (w.assign x d) := by
      intro d part hpart
      refine ih part hpart ?_ ?_
      · intro y hy
        by_cases hyx : y = x
        · rw [hyx, Assignment.subject_assign_self,
            Assignment.subject_assign_self]
        · rw [v.subject_assign_of_ne hyx, w.subject_assign_of_ne hyx]
          exact hsubject y
            ((Formula.mem_free_bind hop).2 ⟨hyx, part, hpart, hy⟩)
      · intro s hs
        rw [apply_assign, apply_assign]
        exact hsymbol s (Formula.containsSymbol_of_child
          (List.mem_cons_of_mem _ hpart) hs)
    have hmap := denote_bind_map (g := id) hop hpart
    rwa [List.map_id] at hmap
  | @connective op cs hop htakes hcs ih =>
    have hmap := denote_connective_map (g := id) hop fun c hc => ih c hc
      (fun x hx => hsubject x ((Formula.mem_free_connective hop).2 ⟨c, hc, hx⟩))
      (fun s hs => hsymbol s (Formula.containsSymbol_of_child hc hs))
    rwa [List.map_id] at hmap

/-- An assignment to a variable that is not free does not matter. -/
theorem denote_assign_of_not_mem (h : Formula.Sorted k f) (hx : x ∉ f.free)
    (d : D) : M.denote f (v.assign x d) = M.denote f v := by
  apply denote_congr h
  · intro y hy
    have hyx : y ≠ x := fun hyx => hx (hyx ▸ hy)
    exact v.subject_assign_of_ne hyx d
  · intro s _ ds _
    rw [apply_assign]

end Model

end Deduction
