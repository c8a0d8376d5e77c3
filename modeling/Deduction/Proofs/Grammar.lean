import Deduction.Formula.Path
import Deduction.Proofs.Sorts
import Mathlib.Data.List.Basic
import Mathlib.Data.Set.Function

/-!
# What is well formed

The check for well-formedness walks a tree from left to right.  It carries the
variables bound around the place it has come to and a table of the numbers of
arguments met so far, and stops at the first offence.  Here is said without a
walk which trees pass it:

* the tree follows a **grammar** of two kinds (`Grammatical`);
* no variable is both free and bound;
* no binder lies in the scope of another binder of the same variable
  (`BindsApart`);
* a name is applied to one number of arguments throughout (`OneArity`).

The walk is taken apart into what it asks of each tree by itself, below the
binders around it (`Fits`), and what it asks of all applications together.  For
the latter the table stands for a set of symbols, to which a walk adds those of
the tree; the table being a function of operator and name, the order in which
they were met does not matter.
-/

namespace Deduction

/-- A symbol without its number of arguments. -/
def Symbol.key (s : Symbol) : Operator × String :=
  (s.op, s.name)

namespace Formula

variable {op : Operator} {cs args parts rest : List Formula} {f c : Formula}
  {x y name : String} {k : Kind} {outer : List String}
  {seen seen' : Arities} {s : Symbol}

/-! ## The conditions -/

/-- **The grammar** of formulas and terms.  A variable that stands for a term
has a name; of the variable of a binder nothing of the kind is asked. -/
inductive Grammatical : Kind → Formula → Prop where
  | subject {x : String} (hx : x ≠ "") : Grammatical .term (var x)
  | functionVariable {name : String} {args : List Formula} (hname : name ≠ "")
      (hsome : args ≠ []) (hargs : ∀ arg ∈ args, Grammatical .term arg) :
      Grammatical .term (application .functionVariable name args)
  | functionConstant {name : String} {args : List Formula} (hname : name ≠ "")
      (hargs : ∀ arg ∈ args, Grammatical .term arg) :
      Grammatical .term (application .functionConstant name args)
  | classTerm (x : String) {body : Formula}
      (hbody : Grammatical .formula body) :
      Grammatical .term (.node .classTerm [var x, body])
  | predicateVariable {name : String} {args : List Formula} (hname : name ≠ "")
      (hargs : ∀ arg ∈ args, Grammatical .term arg) :
      Grammatical .formula (application .predicateVariable name args)
  | predicateConstant {name : String} {args : List Formula} (hname : name ≠ "")
      (hargs : ∀ arg ∈ args, Grammatical .term arg) :
      Grammatical .formula (application .predicateConstant name args)
  | negation {f : Formula} (hf : Grammatical .formula f) :
      Grammatical .formula (.node .negation [f])
  | junction {op : Operator} {fs : List Formula}
      (hop : op = .conjunction ∨ op = .disjunction) (htwo : 2 ≤ fs.length)
      (hfs : ∀ f ∈ fs, Grammatical .formula f) :
      Grammatical .formula (.node op fs)
  | conditional {op : Operator} {f g : Formula}
      (hop : op = .implication ∨ op = .equivalence)
      (hf : Grammatical .formula f) (hg : Grammatical .formula g) :
      Grammatical .formula (.node op [f, g])
  | quantifier {op : Operator} {body : Formula}
      (hop : op = .universal ∨ op = .existential ∨ op = .uniqueExistential)
      (x : String) (hbody : Grammatical .formula body) :
      Grammatical .formula (.node op [var x, body])
  | restricted {op : Operator} {restriction body : Formula}
      (hop : op = .universal ∨ op = .existential ∨ op = .uniqueExistential)
      (x : String) (hrestriction : Grammatical .formula restriction)
      (hbody : Grammatical .formula body) :
      Grammatical .formula (.node op [var x, restriction, body])

/-- No binder lies in the scope of another binder of the same variable. -/
def BindsApart (f : Formula) : Prop :=
  ∀ (path inner : Path) (b c : Formula) (x : String),
    f.subformula? path = some b → b.binder? = some x → inner ≠ [] →
    b.subformula? inner = some c → c.binder? ≠ some x

/-- Each name is applied by an operator to one and the same number of
arguments. -/
def OneArity (f : Formula) : Prop :=
  ∀ op name m n, containsSymbol ⟨op, name, m⟩ f = true →
    containsSymbol ⟨op, name, n⟩ f = true → m = n

/-- What the walk asks of a tree by itself, below binders of the variables
`outer`. -/
def Fits (k : Kind) (outer : List String) (f : Formula) : Prop :=
  Grammatical k f ∧ f.BindsApart ∧ ∀ x ∈ outer, x ∉ f.bound

/-! ## The grammar by groups of operators -/

/-- A variable follows the grammar if it has a name. -/
theorem grammatical_var_iff : Grammatical .term (var x) ↔ x ≠ "" := by
  constructor
  · intro h
    cases h with
    | subject hx => exact hx
  · exact .subject

/-- An application follows the grammar of its kind if it has a name, a number of
arguments that its operator takes, and terms for arguments. -/
theorem grammatical_application_iff (hop : op.isApplication) :
    Grammatical k (application op name args) ↔
      op.kind = k ∧ op.takes (args.length + 1) ∧ name ≠ "" ∧
        ∀ arg ∈ args, Grammatical .term arg := by
  constructor
  · intro h
    cases h with
    | functionVariable hname hsome hargs =>
      have htakes : 1 ≤ args.length := List.length_pos_iff.2 hsome
      exact ⟨rfl, by simpa [Operator.takes] using htakes, hname, hargs⟩
    | functionConstant hname hargs => exact ⟨rfl, rfl, hname, hargs⟩
    | predicateVariable hname hargs => exact ⟨rfl, rfl, hname, hargs⟩
    | predicateConstant hname hargs => exact ⟨rfl, rfl, hname, hargs⟩
    | junction hop' => rcases hop' with rfl | rfl <;> cases hop
    | conditional hop' => rcases hop' with rfl | rfl <;> cases hop
    | subject | negation => cases hop
  · rintro ⟨rfl, htakes, hname, hargs⟩
    cases op with
    | functionVariable =>
      refine .functionVariable hname ?_ hargs
      rintro rfl
      cases htakes
    | functionConstant => exact .functionConstant hname hargs
    | predicateVariable => exact .predicateVariable hname hargs
    | predicateConstant => exact .predicateConstant hname hargs
    | _ => cases hop

/-- A binder over a variable follows the grammar of its kind if it has a number
of parts that its operator takes, and formulas for parts. -/
theorem grammatical_bind_iff (hop : op.isBinder) :
    Grammatical k (.node op (var x :: parts)) ↔
      op.kind = k ∧ op.takes (parts.length + 1) ∧
        ∀ part ∈ parts, Grammatical .formula part := by
  constructor
  · intro h
    cases h with
    | classTerm _ hbody => exact ⟨rfl, rfl, by simpa using hbody⟩
    | quantifier hop' _ hbody =>
      rcases hop' with rfl | rfl | rfl <;>
        exact ⟨rfl, rfl, by simpa using hbody⟩
    | restricted hop' _ hrestriction hbody =>
      rcases hop' with rfl | rfl | rfl <;>
        exact ⟨rfl, rfl, by simpa using ⟨hrestriction, hbody⟩⟩
    | junction hop' => rcases hop' with rfl | rfl <;> cases hop
    | conditional hop' => rcases hop' with rfl | rfl <;> cases hop
    | negation => cases hop
  · rintro ⟨rfl, htakes, hparts⟩
    have hgroup : op = .classTerm ∨
        op = .universal ∨ op = .existential ∨ op = .uniqueExistential := by
      cases op <;> simp_all [Operator.isBinder]
    rcases hgroup with rfl | hquantifier
    · have hlength : parts.length = 1 := by simpa [Operator.takes] using htakes
      obtain ⟨body, rfl⟩ := List.length_eq_one_iff.1 hlength
      exact .classTerm x (hparts body List.mem_cons_self)
    · have hkind : op.kind = .formula := by
        rcases hquantifier with rfl | rfl | rfl <;> rfl
      have hlength : parts.length = 1 ∨ parts.length = 2 := by
        rcases hquantifier with rfl | rfl | rfl <;>
          simpa [Operator.takes] using htakes
      rw [hkind]
      rcases hlength with hone | htwo
      · obtain ⟨body, rfl⟩ := List.length_eq_one_iff.1 hone
        exact .quantifier hquantifier x (hparts body List.mem_cons_self)
      · obtain ⟨restriction, body, rfl⟩ := List.length_eq_two.1 htwo
        exact .restricted hquantifier x (hparts restriction (by simp))
          (hparts body (by simp))

/-- A connective follows the grammar if it has a number of parts that its
operator takes, and formulas for parts. -/
theorem grammatical_connective_iff (hop : op.isConnective) :
    Grammatical k (.node op cs) ↔
      op.kind = k ∧ op.takes cs.length ∧ ∀ c ∈ cs, Grammatical .formula c := by
  constructor
  · intro h
    cases h with
    | negation hf => exact ⟨rfl, rfl, by simpa using hf⟩
    | junction hop' htwo hfs =>
      rcases hop' with rfl | rfl <;>
        exact ⟨rfl, by simpa [Operator.takes] using htwo, hfs⟩
    | conditional hop' hf hg =>
      rcases hop' with rfl | rfl <;> exact ⟨rfl, rfl, by simpa using ⟨hf, hg⟩⟩
    | quantifier hop' | restricted hop' =>
      rcases hop' with rfl | rfl | rfl <;> cases hop
    | _ => cases hop
  · rintro ⟨rfl, htakes, hcs⟩
    cases op with
    | negation =>
      have hlength : cs.length = 1 := by simpa [Operator.takes] using htakes
      obtain ⟨f, rfl⟩ := List.length_eq_one_iff.1 hlength
      exact .negation (hcs f List.mem_cons_self)
    | conjunction =>
      exact .junction (.inl rfl) (by simpa [Operator.takes] using htakes) hcs
    | disjunction =>
      exact .junction (.inr rfl) (by simpa [Operator.takes] using htakes) hcs
    | implication =>
      have hlength : cs.length = 2 := by simpa [Operator.takes] using htakes
      obtain ⟨f, g, rfl⟩ := List.length_eq_two.1 hlength
      exact .conditional (.inl rfl) (hcs f (by simp)) (hcs g (by simp))
    | equivalence =>
      have hlength : cs.length = 2 := by simpa [Operator.takes] using htakes
      obtain ⟨f, g, rfl⟩ := List.length_eq_two.1 hlength
      exact .conditional (.inr rfl) (hcs f (by simp)) (hcs g (by simp))
    | _ => cases hop

/-- What follows the grammar is well sorted. -/
theorem Grammatical.sorted (h : Grammatical k f) : Sorted k f := by
  induction h with
  | subject => exact .subject _
  | functionVariable hname hsome hargs ih =>
    have hop :=
      (grammatical_application_iff rfl).1 (.functionVariable hname hsome hargs)
    exact .application _ rfl rfl hop.2.1 ih
  | functionConstant hname hargs ih | predicateVariable hname hargs ih
  | predicateConstant hname hargs ih => exact .application _ rfl rfl rfl ih
  | classTerm x hbody ih => exact .binder x rfl rfl rfl (by simpa using ih)
  | negation hf ih => exact .connective rfl rfl (by simpa using ih)
  | junction hop htwo hfs ih =>
    rcases hop with rfl | rfl <;>
      exact .connective rfl (by simpa [Operator.takes] using htwo) ih
  | conditional hop hf hg ihf ihg =>
    rcases hop with rfl | rfl <;>
      exact .connective rfl rfl (by simpa using ⟨ihf, ihg⟩)
  | quantifier hop x hbody ih =>
    rcases hop with rfl | rfl | rfl <;>
      exact .binder x rfl rfl rfl (by simpa using ih)
  | restricted hop x hrestriction hbody ihr ihb =>
    rcases hop with rfl | rfl | rfl <;>
      exact .binder x rfl rfl rfl (by simpa using ⟨ihr, ihb⟩)

/-! ## Binders below binders -/

/-- A path ends at a node or goes on in one of its children. -/
theorem subformula?_eq_some_iff {path : Path} :
    (Formula.node op cs).subformula? path = some f ↔
      (path = [] ∧ f = .node op cs) ∨
        ∃ i inner c, path = i :: inner ∧ cs[i]? = some c ∧
          c.subformula? inner = some f := by
  cases path with
  | nil => simp [eq_comm]
  | cons i inner => simp [subformula?, Option.bind_eq_some_iff]

/-- The bound variables are those that some binder in the tree binds. -/
theorem mem_bound_iff_subformula? :
    x ∈ f.bound ↔
      ∃ path b, f.subformula? path = some b ∧ b.binder? = some x := by
  induction f using induct with
  | atom name =>
    constructor
    · intro h
      simp at h
    · rintro ⟨path, b, hb, hx⟩
      cases path with
      | nil =>
        cases hb
        cases hx
      | cons i inner => cases hb
  | node op cs ih =>
    rw [mem_bound, boundOccurrences_node, List.mem_append, List.mem_flatMap,
      Option.mem_toList]
    constructor
    · rintro (h | ⟨c, hc, h⟩)
      · exact ⟨[], _, subformula?_nil _, h⟩
      · obtain ⟨path, b, hb, hx⟩ := (ih c hc).1 (mem_bound.2 h)
        obtain ⟨i, hi⟩ := List.mem_iff_getElem?.1 hc
        exact ⟨i :: path, b,
          subformula?_eq_some_iff.2 (.inr ⟨i, path, c, rfl, hi, hb⟩), hx⟩
    · rintro ⟨path, b, hb, hx⟩
      rcases subformula?_eq_some_iff.1 hb with
        ⟨-, rfl⟩ | ⟨i, inner, c, -, hi, hb⟩
      · exact .inl hx
      · have hc := List.mem_of_getElem? hi
        exact .inr ⟨c, hc, mem_bound.1 ((ih c hc).2 ⟨inner, b, hb, hx⟩)⟩

/-- Binders are apart in a node when they are in its children, and none of these
binds what the node itself binds. -/
theorem bindsApart_node_iff :
    (Formula.node op cs).BindsApart ↔
      ∀ c ∈ cs, c.BindsApart ∧
        ∀ x, (Formula.node op cs).binder? = some x → x ∉ c.bound := by
  constructor
  · intro h c hc
    obtain ⟨i, hi⟩ := List.mem_iff_getElem?.1 hc
    refine ⟨?_, ?_⟩
    · intro path inner b d x hb
      exact h (i :: path) inner b d x
        (subformula?_eq_some_iff.2 (.inr ⟨i, path, c, rfl, hi, hb⟩))
    · intro x hx hbound
      obtain ⟨path, d, hd, hdx⟩ := mem_bound_iff_subformula?.1 hbound
      exact h [] (i :: path) _ d x (subformula?_nil _) hx (List.cons_ne_nil _ _)
        (subformula?_eq_some_iff.2 (.inr ⟨i, path, c, rfl, hi, hd⟩)) hdx
  · intro h path inner b d x hb hx hinner hd hdx
    rcases subformula?_eq_some_iff.1 hb with ⟨-, rfl⟩ | ⟨i, path', c, -, hi, hb⟩
    · rcases subformula?_eq_some_iff.1 hd with
        ⟨hnil, -⟩ | ⟨i, inner', c, -, hi, hd⟩
      · exact hinner hnil
      · exact (h c (List.mem_of_getElem? hi)).2 x hx
          (mem_bound_iff_subformula?.2 ⟨inner', d, hd, hdx⟩)
    · exact (h c (List.mem_of_getElem? hi)).1 path' inner b d x
        hb hx hinner hd hdx

/-- Binders lie apart in a node that is no binder if they do in its children. -/
theorem bindsApart_of_binder?_eq_none
    (hb : (Formula.node op cs).binder? = none) :
    (Formula.node op cs).BindsApart ↔ ∀ c ∈ cs, c.BindsApart := by
  simp [bindsApart_node_iff, hb]

theorem bindsApart_atom (name : String) : (Formula.atom name).BindsApart := by
  intro path inner b d x hb hx
  cases path with
  | nil =>
    cases hb
    cases hx
  | cons i path => cases hb

theorem bindsApart_var (x : String) : (var x).BindsApart := by
  rw [var, bindsApart_of_binder?_eq_none rfl]
  intro c hc
  obtain rfl := List.mem_singleton.1 hc
  exact bindsApart_atom x

/-! ## What the walk asks of a tree by itself -/

/-- A variable fits below any binders if it has a name. -/
theorem fits_var_iff : Fits .term outer (var x) ↔ x ≠ "" := by
  simp [Fits, grammatical_var_iff, bindsApart_var]

/-- An application fits where it has a name and its arguments fit as terms. -/
theorem fits_application_iff (hop : op.isApplication) (hkind : op.kind = k)
    (htakes : op.takes (args.length + 1)) :
    Fits k outer (application op name args) ↔
      name ≠ "" ∧ ∀ arg ∈ args, Fits .term outer arg := by
  have happart : (application op name args).BindsApart ↔
      ∀ arg ∈ args, arg.BindsApart := by
    rw [application, bindsApart_of_binder?_eq_none (binder?_application hop)]
    simp [bindsApart_atom]
  simp only [Fits, grammatical_application_iff hop, happart,
    mem_bound_application hop]
  grind

/-- A binder fits if its variable is not bound around it and its parts fit below
one binder more. -/
theorem fits_bind_iff (hop : op.isBinder) (hkind : op.kind = k)
    (htakes : op.takes (parts.length + 1)) :
    Fits k outer (.node op (var x :: parts)) ↔
      x ∉ outer ∧ ∀ part ∈ parts, Fits .formula (x :: outer) part := by
  have happart : (Formula.node op (var x :: parts)).BindsApart ↔
      ∀ part ∈ parts, part.BindsApart ∧ x ∉ part.bound := by
    rw [bindsApart_node_iff]
    simp [bindsApart_var, binder?_bind hop]
  simp only [Fits, grammatical_bind_iff hop, happart, mem_bound_bind hop]
  grind

/-- A connective fits where its parts do. -/
theorem fits_connective_iff (hop : op.isConnective)
    (htakes : op.takes cs.length) :
    Fits .formula outer (.node op cs) ↔ ∀ c ∈ cs, Fits .formula outer c := by
  have happart : (Formula.node op cs).BindsApart ↔ ∀ c ∈ cs, c.BindsApart :=
    bindsApart_of_binder?_eq_none (binder?_connective hop)
  have hkind : op.kind = .formula := by
    cases op <;> simp_all [Operator.isConnective, Operator.kind]
  simp only [Fits, grammatical_connective_iff hop, happart,
    mem_bound_connective hop]
  grind

/-! ## What the walk asks of all applications together -/

/-- The symbols applied somewhere in a tree. -/
def symbols (f : Formula) : Set Symbol :=
  {s | containsSymbol s f = true}

/-- The symbols applied somewhere in a list of trees. -/
def symbolsAll (fs : List Formula) : Set Symbol :=
  {s | ∃ f ∈ fs, containsSymbol s f = true}

/-- Each name has one arity if no two symbols agree in operator and name. -/
theorem oneArity_iff_injOn : f.OneArity ↔ Set.InjOn Symbol.key f.symbols := by
  constructor
  · rintro h ⟨op, name, m⟩ hm ⟨op', name', n⟩ hn hkey
    obtain ⟨rfl, rfl⟩ := Prod.mk.inj hkey
    rw [h op name m n hm hn]
  · intro h op name m n hm hn
    exact congrArg Symbol.arity (h hm hn rfl)

theorem symbols_var (x : String) : (var x).symbols = ∅ := by
  ext s
  simp [symbols]

/-- In an application occur its own symbol and those of its arguments. -/
theorem symbols_application (hop : op.isApplication) :
    (application op name args).symbols =
      insert ⟨op, name, args.length⟩ (symbolsAll args) := by
  ext s
  have hiff : containsSymbol s (application op name args) = true ↔
      s = ⟨op, name, args.length⟩ ∨
        ∃ arg ∈ args, containsSymbol s arg = true := by
    rw [application, containsSymbol, anyContainsSymbol_eq_any,
      Bool.or_eq_true, List.any_cons]
    simp [← applies_application hop, application, containsSymbol]
  simpa [symbols, symbolsAll] using hiff

/-- A binder applies the symbols of its parts. -/
theorem symbols_bind (hop : op.isBinder) :
    (Formula.node op (var x :: parts)).symbols = symbolsAll parts := by
  ext s
  simp [symbols, symbolsAll, containsSymbol, applies_bind s hop,
    anyContainsSymbol_eq_any]

theorem symbols_connective (hop : op.isConnective) :
    (Formula.node op cs).symbols = symbolsAll cs := by
  ext s
  simp [symbols, symbolsAll, containsSymbol, applies_connective s hop,
    anyContainsSymbol_eq_any]

theorem symbolsAll_nil : symbolsAll [] = ∅ := by
  ext s
  simp [symbolsAll]

/-- The symbols of a list are those of its first tree and those of the rest. -/
theorem symbolsAll_cons (f : Formula) (fs : List Formula) :
    symbolsAll (f :: fs) = f.symbols ∪ symbolsAll fs := by
  ext s
  simp [symbolsAll, symbols]

end Formula

namespace Arities

variable {seen seen' : Arities} {op : Operator} {name : String} {n : Nat}

/-- The symbols that a table has noted. -/
def symbols (seen : Arities) : Set Symbol :=
  {s | seen.lookup s.key = some s.arity}

theorem symbols_nil : symbols [] = ∅ := by
  ext s
  simp [symbols]

/-- A table notes one number of arguments for each operator and name. -/
theorem injOn_symbols (seen : Arities) : Set.InjOn Symbol.key seen.symbols := by
  rintro ⟨op, name, m⟩ hm ⟨op', name', n⟩ hn hkey
  obtain ⟨rfl, rfl⟩ := Prod.mk.inj hkey
  have heq : some m = some n := hm.symm.trans hn
  rw [Option.some.inj heq]

/-- Noting an application adds its symbol. -/
theorem symbols_of_note (h : seen.note op name n = .ok seen') :
    seen'.symbols = insert ⟨op, name, n⟩ seen.symbols := by
  rw [note] at h
  split at h
  next hnone =>
    cases h
    ext ⟨op', name', m⟩
    by_cases hkey : (op', name') = (op, name)
    · obtain ⟨rfl, rfl⟩ := Prod.mk.inj hkey
      simp [symbols, Symbol.key, hnone, eq_comm]
    · have hne : ((op', name') == (op, name)) = false := by simpa using hkey
      simp only [Prod.mk.injEq, not_and] at hkey
      simp only [symbols, Symbol.key, List.lookup_cons, hne, Set.mem_ofPred_eq,
        Set.mem_insert_iff, Symbol.mk.injEq]
      grind
  next first hsome =>
    split at h
    · rename_i hfirst
      cases h
      have hmem : (⟨op, name, n⟩ : Symbol) ∈ seen.symbols := by
        rw [← hfirst]
        exact hsome
      rw [Set.insert_eq_of_mem hmem]
    · cases h

/-- An application can be noted when the table does not note another number of
arguments. -/
theorem exists_note_iff : (∃ seen', seen.note op name n = .ok seen') ↔
    Set.InjOn Symbol.key (insert ⟨op, name, n⟩ seen.symbols) := by
  constructor
  · rintro ⟨seen', h⟩
    rw [← symbols_of_note h]
    exact injOn_symbols seen'
  · intro h
    rw [note]
    split
    · exact ⟨_, rfl⟩
    next first hsome =>
      have hnoted : (⟨op, name, first⟩ : Symbol) ∈ seen.symbols := hsome
      have heq := h (Set.mem_insert_of_mem _ hnoted) (Set.mem_insert _ _) rfl
      exact ⟨seen, if_pos (congrArg Symbol.arity heq)⟩

end Arities

namespace Formula

variable {op : Operator} {cs args parts fs : List Formula} {f : Formula}
  {x name : String} {k : Kind} {outer : List String} {seen seen' : Arities}

/-! ## The walk at each group of operators -/

/-- The walk accepts a variable that has a name, and notes nothing. -/
theorem checkShape_var_eq_ok_iff :
    checkShape .term outer seen (var x) = .ok seen' ↔
      x ≠ "" ∧ seen' = seen := by
  by_cases hx : x = "" <;>
    simp [var, checkShape, Operator.kind, Operator.takes, Operator.isBinder,
      Operator.isApplication, hx, eq_comm]

/-- The walk accepts an application that has a name, can be noted, and has
arguments that it accepts. -/
theorem checkShape_application_eq_ok_iff (hop : op.isApplication)
    (hkind : op.kind = k) (htakes : op.takes (args.length + 1)) :
    checkShape k outer seen (application op name args) = .ok seen' ↔
      name ≠ "" ∧ ∃ noted, seen.note op name args.length = .ok noted ∧
        checkShapes .term outer noted args = .ok seen' := by
  have hbinder : op.isBinder = false := by
    cases op <;> simp_all [Operator.isApplication, Operator.isBinder]
  by_cases hname : name = ""
  · simp [application, checkShape, hkind, htakes, hop, hbinder, hname]
  · cases hnote : seen.note op name args.length <;>
      simp [application, checkShape, hkind, htakes, hop, hbinder, hname, hnote]

/-- The walk accepts a binder of a variable that is not bound around it, with
parts that it accepts below. -/
theorem checkShape_bind_eq_ok_iff (hop : op.isBinder) (hkind : op.kind = k)
    (htakes : op.takes (parts.length + 1)) :
    checkShape k outer seen (.node op (var x :: parts)) = .ok seen' ↔
      x ∉ outer ∧ checkShapes .formula (x :: outer) seen parts = .ok seen' := by
  by_cases hx : x ∈ outer <;> simp [checkShape, hkind, htakes, hop, hx]

/-- Through a connective the walk goes on to the parts. -/
theorem checkShape_connective (hop : op.isConnective)
    (htakes : op.takes cs.length) :
    checkShape .formula outer seen (.node op cs) =
      checkShapes .formula outer seen cs := by
  have hgroup : op.kind = .formula ∧ op.isBinder = false ∧
      op.isApplication = false ∧ op ≠ .subjectVariable := by
    cases op <;>
      simp_all [Operator.isConnective, Operator.kind, Operator.isBinder,
        Operator.isApplication]
  obtain ⟨hkind, hbinder, happlication, hsubject⟩ := hgroup
  unfold checkShape
  simp only [hkind, htakes, hbinder, happlication, hsubject, ne_eq,
    not_true_eq_false, if_false, Bool.not_true, Bool.false_eq_true]

/-- The walk through a list takes the first tree and then the others, with what
it noted. -/
theorem checkShapes_cons_eq_ok_iff :
    checkShapes k outer seen (f :: fs) = .ok seen' ↔
      ∃ after, checkShape k outer seen f = .ok after ∧
        checkShapes k outer after fs = .ok seen' := by
  rw [checkShapes]
  cases checkShape k outer seen f <;> simp

/-! ## The whole walk -/

/-- A walk through a list notes the symbols of all its trees, if each of its
steps does. -/
theorem symbols_of_checkShapes
    (hwalk : ∀ f ∈ fs, ∀ outer seen seen',
      checkShape k outer seen f = .ok seen' →
        seen'.symbols = seen.symbols ∪ f.symbols)
    (h : checkShapes k outer seen fs = .ok seen') :
    seen'.symbols = seen.symbols ∪ symbolsAll fs := by
  induction fs generalizing seen with
  | nil =>
    cases h
    rw [symbolsAll_nil, Set.union_empty]
  | cons f fs ih =>
    obtain ⟨after, hf, hfs⟩ := checkShapes_cons_eq_ok_iff.1 h
    rw [ih (fun g hg => hwalk g (List.mem_cons_of_mem _ hg)) hfs,
      hwalk f List.mem_cons_self _ _ _ hf, symbolsAll_cons, Set.union_assoc]

/-- **A walk notes the symbols of its tree.** -/
theorem symbols_of_checkShape (h : checkShape k outer seen f = .ok seen') :
    seen'.symbols = seen.symbols ∪ f.symbols := by
  have hsorted := sorted_of_checkShape h
  induction hsorted generalizing outer seen seen' with
  | subject x =>
    obtain ⟨-, rfl⟩ := checkShape_var_eq_ok_iff.1 h
    rw [symbols_var, Set.union_empty]
  | application name hop hkind htakes hargs ih =>
    obtain ⟨-, noted, hnoted, hwalk⟩ :=
      (checkShape_application_eq_ok_iff hop hkind htakes).1 h
    rw [symbols_of_checkShapes
      (fun arg harg _ _ _ hshape => ih arg harg hshape) hwalk,
      Arities.symbols_of_note hnoted, symbols_application hop, Set.insert_union,
      Set.union_insert]
  | binder x hop hkind htakes hparts ih =>
    obtain ⟨-, hwalk⟩ := (checkShape_bind_eq_ok_iff hop hkind htakes).1 h
    rw [symbols_of_checkShapes
      (fun part hpart _ _ _ hshape => ih part hpart hshape) hwalk,
      symbols_bind hop]
  | connective hop htakes hcs ih =>
    rw [checkShape_connective hop htakes] at h
    rw [symbols_of_checkShapes (fun c hc _ _ _ hshape => ih c hc hshape) h,
      symbols_connective hop]

/-- A list passes the walk when each of its trees fits and the applications in
all of them agree, if that is so of single trees. -/
theorem exists_checkShapes_iff
    (hwalk : ∀ f ∈ fs, ∀ outer seen,
      (∃ seen', checkShape k outer seen f = .ok seen') ↔
        Fits k outer f ∧ Set.InjOn Symbol.key (seen.symbols ∪ f.symbols)) :
    (∃ seen', checkShapes k outer seen fs = .ok seen') ↔
      (∀ f ∈ fs, Fits k outer f) ∧
        Set.InjOn Symbol.key (seen.symbols ∪ symbolsAll fs) := by
  induction fs generalizing seen with
  | nil =>
    rw [symbolsAll_nil, Set.union_empty]
    exact ⟨fun _ => ⟨by simp, seen.injOn_symbols⟩, fun _ => ⟨seen, rfl⟩⟩
  | cons f fs ih =>
    have hfirst := hwalk f List.mem_cons_self outer seen
    have hrest := fun after =>
      @ih after fun g hg => hwalk g (List.mem_cons_of_mem _ hg)
    simp only [checkShapes_cons_eq_ok_iff, List.forall_mem_cons,
      symbolsAll_cons]
    constructor
    · rintro ⟨seen', after, hf, hfs⟩
      obtain ⟨hfits, harity⟩ := (hrest after).1 ⟨seen', hfs⟩
      rw [symbols_of_checkShape hf, Set.union_assoc] at harity
      exact ⟨⟨(hfirst.1 ⟨after, hf⟩).1, hfits⟩, harity⟩
    · rintro ⟨⟨hfits, hall⟩, harity⟩
      rw [← Set.union_assoc] at harity
      obtain ⟨after, hf⟩ := hfirst.2 ⟨hfits, harity.mono Set.subset_union_left⟩
      rw [← symbols_of_checkShape hf] at harity
      obtain ⟨seen', hfs⟩ := (hrest after).2 ⟨hall, harity⟩
      exact ⟨seen', after, hf, hfs⟩

/-- **What passes the walk.** -/
theorem exists_checkShape_iff :
    (∃ seen', checkShape k outer seen f = .ok seen') ↔
    Fits k outer f ∧ Set.InjOn Symbol.key (seen.symbols ∪ f.symbols) := by
  by_cases hsorted : Sorted k f
  case neg =>
    constructor
    · rintro ⟨seen', h⟩
      exact absurd (sorted_of_checkShape h) hsorted
    · rintro ⟨hfits, -⟩
      exact absurd hfits.1.sorted hsorted
  induction hsorted generalizing outer seen with
  | subject x =>
    simp only [checkShape_var_eq_ok_iff, fits_var_iff, symbols_var,
      Set.union_empty]
    exact ⟨fun ⟨_, hx, _⟩ => ⟨hx, seen.injOn_symbols⟩,
      fun ⟨hx, _⟩ => ⟨seen, hx, rfl⟩⟩
  | @application k op args name hop hkind htakes hargs ih =>
    simp only [checkShape_application_eq_ok_iff hop hkind htakes,
      fits_application_iff hop hkind htakes, symbols_application hop]
    have hlist : ∀ noted : Arities,
        (∃ seen', checkShapes .term outer noted args = .ok seen') ↔
        (∀ arg ∈ args, Fits .term outer arg) ∧
          Set.InjOn Symbol.key (noted.symbols ∪ symbolsAll args) :=
      fun _ => exists_checkShapes_iff fun arg harg _ _ => ih arg harg
    constructor
    · rintro ⟨seen', hname, noted, hnoted, hwalk⟩
      obtain ⟨hfits, harity⟩ := (hlist noted).1 ⟨seen', hwalk⟩
      rw [Arities.symbols_of_note hnoted, Set.insert_union,
        ← Set.union_insert] at harity
      exact ⟨⟨hname, hfits⟩, harity⟩
    · rintro ⟨⟨hname, hfits⟩, harity⟩
      rw [Set.union_insert, ← Set.insert_union] at harity
      obtain ⟨noted, hnoted⟩ :=
        Arities.exists_note_iff.2 (harity.mono Set.subset_union_left)
      rw [← Arities.symbols_of_note hnoted] at harity
      obtain ⟨seen', hwalk⟩ := (hlist noted).2 ⟨hfits, harity⟩
      exact ⟨seen', hname, noted, hnoted, hwalk⟩
  | binder x hop hkind htakes hparts ih =>
    simp only [checkShape_bind_eq_ok_iff hop hkind htakes,
      fits_bind_iff hop hkind htakes, symbols_bind hop, exists_and_left,
      and_assoc, exists_checkShapes_iff fun part hpart _ _ => ih part hpart]
  | connective hop htakes hcs ih =>
    simp only [checkShape_connective hop htakes, fits_connective_iff hop htakes,
      symbols_connective hop, exists_checkShapes_iff fun c hc _ _ => ih c hc]

/-- The check is the walk, and after it the test for variables that are free and
bound. -/
theorem check_eq_ok_iff :
    f.check k = .ok () ↔
      (∃ seen, checkShape k [] [] f = .ok seen) ∧
        ∀ x ∈ f.free, x ∉ f.bound := by
  have hfree : f.free.find? f.bound.contains = none ↔
      ∀ x ∈ f.free, x ∉ f.bound := by simp
  rw [check, ← hfree]
  cases checkShape k [] [] f with
  | error offence => simp
  | ok seen => cases f.free.find? f.bound.contains <;> simp

/-- **Well-formedness is its grammar.**  A tree passes the check for a kind
exactly when it follows the grammar of that kind, no variable is both free and
bound in it, no binder lies in the scope of another binder of the same variable,
and each name is applied to one number of arguments. -/
theorem check_eq_ok_iff_grammatical (k : Kind) (f : Formula) :
    f.check k = .ok () ↔
      Grammatical k f ∧ (∀ x ∈ f.free, x ∉ f.bound) ∧ f.BindsApart ∧
        f.OneArity := by
  rw [check_eq_ok_iff, exists_checkShape_iff, Arities.symbols_nil,
    Set.empty_union, ← oneArity_iff_injOn]
  simp only [Fits, List.not_mem_nil, IsEmpty.forall_iff, implies_true, and_true]
  tauto

end Formula

end Deduction
