import Deduction.Formula.Path

/-!
# The first difference

Two formulas **differ at the root** when they are different atoms, an atom and a
node, or nodes with different operators or different numbers of children.  The
first difference of two formulas is the path to such a place: above its end both
formulas have the same operator and the same number of children, and the
children to the left of the path are equal.

What `DiffersFirstAt` says about a whole path is taken apart at its first step
(`differsFirstAt_nil_iff`, `differsFirstAt_cons_iff`); the search goes down by
the same steps (`firstDifference?_eq_some_iff`).  So there is at most one such
path, and which of the two formulas comes first does not matter.
-/

namespace Deduction

namespace Formula

/-- **Different at the root.** -/
inductive RootsDiffer : Formula → Formula → Prop where
  | names {a b : String} (hne : a ≠ b) : RootsDiffer (.atom a) (.atom b)
  | atomNode (a : String) (op : Operator) (cs : List Formula) :
      RootsDiffer (.atom a) (.node op cs)
  | nodeAtom (op : Operator) (cs : List Formula) (a : String) :
      RootsDiffer (.node op cs) (.atom a)
  | operators {o p : Operator} (cs ds : List Formula) (hne : o ≠ p) :
      RootsDiffer (.node o cs) (.node p ds)
  | counts (o p : Operator) {cs ds : List Formula}
      (hne : cs.length ≠ ds.length) :
      RootsDiffer (.node o cs) (.node p ds)

/-- **The formulas differ first at the path.** -/
structure DiffersFirstAt (f g : Formula) (path : Path) : Prop where
  /-- The path leads to nodes of both formulas that differ at the root. -/
  found : ∃ f' g', f.subformula? path = some f' ∧ g.subformula? path = some g' ∧
    RootsDiffer f' g'
  /-- Above the end the nodes look the same, up to the child where the path
  goes on. -/
  above : ∀ upper i lower, path = upper ++ i :: lower →
    ∃ op cs ds, f.subformula? upper = some (.node op cs) ∧
      g.subformula? upper = some (.node op ds) ∧ cs.length = ds.length ∧
      ∀ j < i, cs[j]? = ds[j]?

variable {f g : Formula} {o p : Operator} {cs ds : List Formula} {i : Nat}
  {path : Path}

theorem RootsDiffer.symm (h : RootsDiffer f g) : RootsDiffer g f := by
  cases h with
  | names hne => exact .names hne.symm
  | atomNode a op cs => exact .nodeAtom op cs a
  | nodeAtom op cs a => exact .atomNode a op cs
  | operators cs ds hne => exact .operators ds cs hne.symm
  | counts o p hne => exact .counts p o hne.symm

/-- Nodes differ at the root if they differ in the operator or in the number of
children. -/
theorem rootsDiffer_node_iff :
    RootsDiffer (.node o cs) (.node p ds) ↔
      ¬ (o = p ∧ cs.length = ds.length) := by
  constructor
  · intro h hsame
    cases h with
    | operators _ _ hne => exact hne hsame.1
    | counts _ _ hne => exact hne hsame.2
  · intro h
    by_cases hop : o = p
    · exact .counts o p fun hlength => h ⟨hop, hlength⟩
    · exact .operators cs ds hop

/-- The first difference is the same either way. -/
theorem DiffersFirstAt.symm (h : DiffersFirstAt f g path) :
    DiffersFirstAt g f path where
  found := by
    obtain ⟨f', g', hf, hg, hroots⟩ := h.found
    exact ⟨g', f', hg, hf, hroots.symm⟩
  above := by
    intro upper i lower hpath
    obtain ⟨op, cs, ds, hf, hg, hlength, hleft⟩ := h.above upper i lower hpath
    exact ⟨op, ds, cs, hg, hf, hlength.symm, fun j hj => (hleft j hj).symm⟩

/-! ## One step of a path -/

/-- The empty path leads to a difference at the root. -/
theorem differsFirstAt_nil_iff : DiffersFirstAt f g [] ↔ RootsDiffer f g := by
  constructor
  · intro h
    obtain ⟨f', g', hf, hg, hroots⟩ := h.found
    rw [subformula?_nil, Option.some.injEq] at hf hg
    rwa [hf, hg]
  · intro hroots
    refine ⟨⟨f, g, subformula?_nil f, subformula?_nil g, hroots⟩, ?_⟩
    intro upper i lower hpath
    simp at hpath

/-- Two lists differ first at the members with the number, and these first at
the path. -/
def DiffersFirstIn (fs gs : List Formula) (n : Nat) (path : Path) : Prop :=
  (∀ j < n, fs[j]? = gs[j]?) ∧
    ∃ c d, fs[n]? = some c ∧ gs[n]? = some d ∧ DiffersFirstAt c d path

/-- **One step down.**  A path that goes on starts at two nodes that look the
same, passes equal children and then leads to the first difference of two
children. -/
theorem differsFirstAt_cons_iff :
    DiffersFirstAt f g (i :: path) ↔
      ∃ op cs ds, f = .node op cs ∧ g = .node op ds ∧ cs.length = ds.length ∧
        DiffersFirstIn cs ds i path := by
  constructor
  · intro h
    obtain ⟨op, cs, ds, hf, hg, hlength, hleft⟩ := h.above [] i path rfl
    rw [subformula?_nil, Option.some.injEq] at hf hg
    subst hf hg
    obtain ⟨f', g', hf', hg', hroots⟩ := h.found
    obtain ⟨c, hc, hf'⟩ := Option.bind_eq_some_iff.1 hf'
    obtain ⟨d, hd, hg'⟩ := Option.bind_eq_some_iff.1 hg'
    refine ⟨op, cs, ds, rfl, rfl, hlength, hleft, c, d, hc, hd,
      ⟨f', g', hf', hg', hroots⟩, ?_⟩
    intro upper k lower hpath
    have habove :=
      h.above (i :: upper) k lower (by rw [hpath, List.cons_append])
    simpa [subformula?, hc, hd] using habove
  · rintro ⟨op, cs, ds, rfl, rfl, hlength, hleft, c, d, hc, hd, h⟩
    constructor
    · simpa [subformula?, hc, hd] using h.found
    · intro upper k lower hpath
      cases upper with
      | nil =>
        obtain ⟨rfl, rfl⟩ := List.cons.inj hpath
        exact ⟨op, cs, ds, subformula?_nil _, subformula?_nil _, hlength, hleft⟩
      | cons m upper =>
        obtain ⟨rfl, hrest⟩ := List.cons.inj hpath
        simpa [subformula?, hc, hd] using h.above upper k lower hrest

/-- Below a difference at the root there is none to be found. -/
theorem RootsDiffer.differsFirstAt_iff (h : RootsDiffer f g) :
    DiffersFirstAt f g path ↔ path = [] := by
  constructor
  · intro hdiffers
    cases path with
    | nil => rfl
    | cons i path =>
      obtain ⟨op, cs, ds, rfl, rfl, hlength, -⟩ :=
        differsFirstAt_cons_iff.1 hdiffers
      exact absurd ⟨rfl, hlength⟩ (rootsDiffer_node_iff.1 h)
  · rintro rfl
    exact differsFirstAt_nil_iff.2 h

/-- A formula does not differ from itself. -/
theorem not_differsFirstAt_self : ¬ DiffersFirstAt f f path := by
  induction path generalizing f with
  | nil =>
    intro h
    cases differsFirstAt_nil_iff.1 h with
    | names hne | operators _ _ hne | counts _ _ hne => exact hne rfl
  | cons i path ih =>
    intro h
    obtain ⟨op, cs, ds, rfl, hg, -, -, c, d, hc, hd, hrest⟩ :=
      differsFirstAt_cons_iff.1 h
    obtain ⟨-, rfl⟩ := Formula.node.inj hg
    obtain rfl : c = d := Option.some.inj (hc.symm.trans hd)
    exact ih hrest

/-- The first difference of two lists is in their first formulas. -/
theorem differsFirstIn_cons_zero {fs gs : List Formula} :
    DiffersFirstIn (f :: fs) (g :: gs) 0 path ↔ DiffersFirstAt f g path := by
  simp [DiffersFirstIn]

/-- It is in later ones only if the first are equal. -/
theorem differsFirstIn_cons_succ {fs gs : List Formula} {n : Nat} :
    DiffersFirstIn (f :: fs) (g :: gs) (n + 1) path ↔
      f = g ∧ DiffersFirstIn fs gs n path := by
  constructor
  · rintro ⟨hleft, hat⟩
    have hfirst : f = g := by simpa using hleft 0 (by omega)
    refine ⟨hfirst, fun j hj => ?_, hat⟩
    simpa using hleft (j + 1) (by omega)
  · rintro ⟨rfl, hleft, hat⟩
    refine ⟨fun j hj => ?_, hat⟩
    cases j with
    | zero => rfl
    | succ j => simpa using hleft j (by omega)

/-! ## The search -/

mutual

/-- **No difference, no inequality.** -/
theorem firstDifference?_eq_none_iff :
    ∀ f g : Formula, firstDifference? f g = none ↔ f = g
  | .atom a, .atom b => by
    by_cases h : a = b <;> simp [firstDifference?, h]
  | .atom _, .node _ _ => by simp [firstDifference?]
  | .node _ _, .atom _ => by simp [firstDifference?]
  | .node o cs, .node p ds => by
    rw [firstDifference?]
    by_cases h : o = p ∧ cs.length = ds.length
    · rw [if_pos h, firstDifferenceFrom?_eq_none_iff 0 cs ds h.2]
      simp [h.1]
    · rw [if_neg h]
      simp only [reduceCtorEq, Formula.node.injEq, false_iff]
      intro heq
      exact h ⟨heq.1, congrArg List.length heq.2⟩

/-- Lists of the same length have no difference exactly when they are equal. -/
theorem firstDifferenceFrom?_eq_none_iff (i : Nat) : ∀ fs gs : List Formula,
    fs.length = gs.length → (firstDifferenceFrom? i fs gs = none ↔ fs = gs)
  | [], [], _ => by simp [firstDifferenceFrom?]
  | f :: fs, g :: gs, hlength => by
    have hhead := firstDifference?_eq_none_iff f g
    have htail :=
      firstDifferenceFrom?_eq_none_iff (i + 1) fs gs (by simpa using hlength)
    rw [firstDifferenceFrom?]
    cases hdiff : firstDifference? f g with
    | none => simp [htail, hhead.1 hdiff]
    | some path =>
      have hne : f ≠ g := fun heq => by simp [hhead.2 heq] at hdiff
      simp [hne]

end

mutual

/-- **The search finds the first difference**, and nothing else is one. -/
theorem firstDifference?_eq_some_iff : ∀ (f g : Formula) (path : Path),
    firstDifference? f g = some path ↔ DiffersFirstAt f g path
  | .atom a, .atom b, path => by
    rw [firstDifference?]
    by_cases hname : a = b
    · subst hname
      simp [not_differsFirstAt_self]
    · rw [if_neg hname, (RootsDiffer.names hname).differsFirstAt_iff,
        Option.some.injEq, eq_comm]
  | .atom a, .node op cs, path => by
    rw [(RootsDiffer.atomNode a op cs).differsFirstAt_iff, firstDifference?,
      Option.some.injEq, eq_comm]
    all_goals nofun
  | .node op cs, .atom a, path => by
    rw [(RootsDiffer.nodeAtom op cs a).differsFirstAt_iff, firstDifference?,
      Option.some.injEq, eq_comm]
    all_goals nofun
  | .node o cs, .node p ds, path => by
    rw [firstDifference?]
    by_cases hsame : o = p ∧ cs.length = ds.length
    · rw [if_pos hsame, firstDifferenceFrom?_eq_some_iff cs ds 0 path]
      obtain ⟨rfl, hlength⟩ := hsame
      constructor
      · rintro ⟨n, rest, rfl, h⟩
        rw [Nat.zero_add]
        exact differsFirstAt_cons_iff.2 ⟨o, cs, ds, rfl, rfl, hlength, h⟩
      · intro h
        cases path with
        | nil =>
          exact absurd ⟨rfl, hlength⟩
            (rootsDiffer_node_iff.1 (differsFirstAt_nil_iff.1 h))
        | cons n rest =>
          obtain ⟨op, _, _, hf, hg, -, hin⟩ := differsFirstAt_cons_iff.1 h
          obtain ⟨rfl, rfl⟩ := Formula.node.inj hf
          obtain ⟨-, rfl⟩ := Formula.node.inj hg
          exact ⟨n, rest, by rw [Nat.zero_add], hin⟩
    · rw [if_neg hsame, (rootsDiffer_node_iff.2 hsame).differsFirstAt_iff,
        Option.some.injEq, eq_comm]

/-- The search through two lists finds the first pair that differs. -/
theorem firstDifferenceFrom?_eq_some_iff :
    ∀ (fs gs : List Formula) (i : Nat) (path : Path),
    firstDifferenceFrom? i fs gs = some path ↔
      ∃ n rest, path = (i + n) :: rest ∧ DiffersFirstIn fs gs n rest
  | [], gs, i, path => by
    simp [firstDifferenceFrom?, DiffersFirstIn]
  | f :: fs, [], i, path => by
    simp [firstDifferenceFrom?, DiffersFirstIn]
  | f :: fs, g :: gs, i, path => by
    rw [firstDifferenceFrom?]
    cases hhead : firstDifference? f g with
    | some first =>
      have hdiffers := (firstDifference?_eq_some_iff f g first).1 hhead
      constructor
      · intro h
        cases h
        exact ⟨0, first, rfl, differsFirstIn_cons_zero.2 hdiffers⟩
      · rintro ⟨n, rest, rfl, h⟩
        cases n with
        | zero =>
          have hrest := (firstDifference?_eq_some_iff f g rest).2
            (differsFirstIn_cons_zero.1 h)
          obtain rfl : first = rest := Option.some.inj (hhead.symm.trans hrest)
          rfl
        | succ n =>
          -- The path would pass the first pair, which differs.
          obtain ⟨rfl, -⟩ := differsFirstIn_cons_succ.1 h
          exact absurd hdiffers not_differsFirstAt_self
    | none =>
      have hsame : f = g := (firstDifference?_eq_none_iff f g).1 hhead
      simp only [firstDifferenceFrom?_eq_some_iff fs gs (i + 1) path]
      constructor
      · rintro ⟨n, rest, rfl, h⟩
        exact ⟨n + 1, rest, by rw [Nat.add_right_comm, Nat.add_assoc],
          differsFirstIn_cons_succ.2 ⟨hsame, h⟩⟩
      · rintro ⟨n, rest, rfl, h⟩
        cases n with
        | zero =>
          subst hsame
          exact absurd (differsFirstIn_cons_zero.1 h) not_differsFirstAt_self
        | succ n =>
          exact ⟨n, rest, by rw [Nat.add_right_comm, Nat.add_assoc],
            (differsFirstIn_cons_succ.1 h).2⟩

end

/-- **The first difference is exact.**  It is missing exactly for equal
formulas.  Otherwise it is the path at which the formulas differ first: there is
only one, and it is the same for both orders of the formulas. -/
theorem first_difference_exact (f g : Formula) :
    (firstDifference? f g = none ↔ f = g) ∧
    (∀ path, firstDifference? f g = some path ↔ DiffersFirstAt f g path) ∧
    (∀ path path', DiffersFirstAt f g path → DiffersFirstAt f g path' →
      path = path') ∧
    firstDifference? g f = firstDifference? f g := by
  refine ⟨firstDifference?_eq_none_iff f g, firstDifference?_eq_some_iff f g,
    ?_, ?_⟩
  · intro path path' h h'
    have hfound := (firstDifference?_eq_some_iff f g path).2 h
    have hfound' := (firstDifference?_eq_some_iff f g path').2 h'
    exact Option.some.inj (hfound.symm.trans hfound')
  · apply Option.ext
    intro path
    rw [firstDifference?_eq_some_iff, firstDifference?_eq_some_iff]
    exact ⟨DiffersFirstAt.symm, DiffersFirstAt.symm⟩

/-- The implication from `A` to a conjunction of two predicate variables. -/
def toConjunction (first second : String) : Formula :=
  (letter "A").implies (.node .conjunction [letter first, letter second])

/-- `A → B ∧ C` and `A → B ∧ D` differ first in the name of the last
variable. -/
theorem conjunctions_differ_in_last_name :
    DiffersFirstAt (toConjunction "B" "C") (toConjunction "B" "D") [1, 1, 0] ∧
      ∀ path,
        DiffersFirstAt (toConjunction "B" "C") (toConjunction "B" "D") path →
          [1, 1, 0] = path := by
  obtain ⟨-, hfound, hunique, -⟩ :=
    first_difference_exact (toConjunction "B" "C") (toConjunction "B" "D")
  have hdiffers := (hfound [1, 1, 0]).1 (by decide)
  exact ⟨hdiffers, fun path hpath => hunique _ _ hdiffers hpath⟩

end Formula

end Deduction
