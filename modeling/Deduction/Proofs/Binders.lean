import Deduction.Proofs.Steps

/-!
# One chosen binder

A step of renaming picks a binder of a variable by its number and renames the
variable throughout it.  Here is said which binder that is, and that the step
can be taken back.

A **context** is a formula with a hole.  In `C.fill b` the subformula `b` stands
in the hole of `C`, and in passing from `C.fill b` to `C.fill b'` that one
subformula is exchanged and nothing else.  `C.met` lists the variables of the
binders that are met before the hole on reading.  The `n`-th binder of `x` is
then the binder of `x` before which `x` was met `n` times:
`nthBinder?_eq_some_iff` says this of the look-up, and `renameBinder_fill` says
that renaming works in the same hole.

The new variable is asked to have **room** in the binder, that is, neither to be
free nor to be bound in it.  Then the old variable has room in the renamed
binder, and renaming it once more gives the old binder back
(`replaceVar_replaceVar`).  The number of the way back is in general another
one, since binders of the new variable may stand before the hole.
-/

namespace Deduction

namespace Formula

variable {op : Operator} {cs before after : List Formula} {c : Formula}

/-! ## Nodes -/

/-- A node with a child that is no atom is no variable. -/
theorem var?_eq_none_of_child (hc : c ∈ cs) (hatom : c.atom? = none) :
    (Formula.node op cs).var? = none := by
  cases hvar : (Formula.node op cs).var? with
  | none => rfl
  | some x =>
    have hnode := var?_eq_some_iff.1 hvar
    simp only [var, Formula.node.injEq] at hnode
    obtain ⟨-, rfl⟩ := hnode
    obtain rfl := List.mem_singleton.1 hc
    cases hatom

/-- A child that is no variable does not decide what the node binds. -/
theorem binder?_append (hc : c.var? = none) :
    (Formula.node op (before ++ c :: after)).binder? =
      (Formula.node op before).binder? := by
  cases before with
  | nil => simp [binder?, hc]
  | cons => rfl

end Formula

open Formula

/-- A formula with a hole in it: the hole itself, or a node that has the hole in
one of its children. -/
inductive Context where
  | hole
  | inside (op : Operator) (before : List Formula) (inner : Context)
      (after : List Formula)

namespace Context

/-- The formula with `b` in the hole. -/
def fill (b : Formula) : Context → Formula
  | hole => b
  | inside op before inner after => .node op (before ++ inner.fill b :: after)

/-- The path to the hole. -/
def path : Context → Path
  | hole => []
  | inside _ before inner _ => before.length :: inner.path

/-- The variables of the binders met before the hole, one entry for each binder:
those of the binders around the hole and of the binders to the left of it. -/
def met : Context → List String
  | hole => []
  | inside op before inner _ =>
    (Formula.node op before).boundOccurrences ++ inner.met

/-- The hole is the place of the `n`-th binder of `x` in the formula `f`, and
`b` is that binder. -/
def Marks (C : Context) (x : String) (n : Nat) (b f : Formula) : Prop :=
  f = C.fill b ∧ b.binder? = some x ∧ C.met.count x = n

variable {C : Context} {f b b' : Formula} {x y z : String}

/-! ## Holes and paths -/

/-- The path of a context leads to what fills it. -/
theorem subformula?_fill (C : Context) (b : Formula) :
    subformula? C.path (C.fill b) = some b := by
  induction C with
  | hole => exact subformula?_nil b
  | inside op before inner after ih => simp [fill, path, subformula?, ih]

/-- A change at the path of a context changes what fills it. -/
theorem modifyAt_fill (g : Formula → Formula) (C : Context) (b : Formula) :
    modifyAt g C.path (C.fill b) = C.fill (g b) := by
  induction C with
  | hole => exact modifyAt_nil g b
  | inside op before inner after ih =>
    simp [fill, path, modifyAt, List.modify_eq_take_drop, ih]

/-- A subformula stands in the hole of a context. -/
theorem exists_fill_of_subformula? {path : Path}
    (h : subformula? path f = some b) :
    ∃ C : Context, C.path = path ∧ f = C.fill b := by
  induction path generalizing f with
  | nil =>
    have hf : f = b := by simpa using h
    exact ⟨hole, rfl, hf⟩
  | cons i path ih =>
    cases f with
    | atom name => cases h
    | node op cs =>
      obtain ⟨c, hc, hb⟩ := Option.bind_eq_some_iff.1 h
      obtain ⟨inner, hpath, hfill⟩ := ih hb
      obtain ⟨hi, hci⟩ := List.getElem?_eq_some_iff.1 hc
      refine ⟨inside op (cs.take i) inner (cs.drop (i + 1)), ?_, ?_⟩
      · have hlength : (cs.take i).length = i := by
          rw [List.length_take]
          omega
        rw [Context.path, hlength, hpath]
      · rw [fill, ← hfill, ← hci, ← List.drop_eq_getElem_cons hi,
          List.take_append_drop]

/-! ## What stands in a hole -/

/-- A binder in the hole makes the whole neither an atom nor a variable. -/
theorem atom?_fill (C : Context) (hb : b.binder? = some x) :
    (C.fill b).atom? = none := by
  cases C with
  | hole =>
    cases b with
    | atom name => cases hb
    | node op cs => rfl
  | inside op before inner after => rfl

/-- A context around a binder is no variable. -/
theorem var?_fill (C : Context) (hb : b.binder? = some x) :
    (C.fill b).var? = none := by
  cases C with
  | hole => exact var?_eq_none_of_binder? hb
  | inside op before inner after =>
    exact var?_eq_none_of_child (by simp) (inner.atom?_fill hb)

/-- Binders with the same free variables may be exchanged. -/
theorem mem_free_fill_congr (C : Context) (hb : b.binder? = some x)
    (hb' : b'.binder? = some y) (h : ∀ z, z ∈ b.free ↔ z ∈ b'.free) :
    z ∈ (C.fill b).free ↔ z ∈ (C.fill b').free := by
  induction C generalizing z with
  | hole => exact h z
  | inside op before inner after ih =>
    have hv := (inside op before inner after).var?_fill hb
    have hv' := (inside op before inner after).var?_fill hb'
    rw [fill] at hv hv'
    rw [fill, fill, mem_free_node hv, mem_free_node hv',
      binder?_append (inner.var?_fill hb), binder?_append (inner.var?_fill hb')]
    simp only [List.mem_append, List.mem_cons, or_and_right, exists_or,
      exists_eq_left, ih]

end Context

namespace Formula

variable {C : Context} {f b : Formula} {x y z : String} {n : Nat}

/-! ## The numbers of binders -/

/-- The binders in a node are the node itself, if it is one, and then those
below it. -/
theorem binderPaths_node (x : String) (op : Operator) (cs : List Formula) :
    binderPaths x (.node op cs) =
      (if (Formula.node op cs).binder? = some x then [[]] else []) ++
        binderPathsFrom x 0 cs := by
  rw [binderPaths]
  split <;> rfl

/-- The binders in a list are those of its first part and then those of the
second, numbered on. -/
theorem binderPathsFrom_append (x : String) (i : Nat) (fs gs : List Formula) :
    binderPathsFrom x i (fs ++ gs) =
      binderPathsFrom x i fs ++ binderPathsFrom x (i + fs.length) gs := by
  induction fs generalizing i with
  | nil => rfl
  | cons f fs ih =>
    have hindex : i + 1 + fs.length = i + (f :: fs).length := by
      rw [List.length_cons]
      omega
    rw [List.cons_append, binderPathsFrom, binderPathsFrom, ih, hindex,
      List.append_assoc]

/-- A variable has as many binders as it has bound occurrences. -/
theorem length_binderPaths (x : String) (f : Formula) :
    (binderPaths x f).length = f.boundOccurrences.count x := by
  induction f using induct with
  | atom name => rfl
  | node op cs ih =>
    have hinside : ∀ i,
        (binderPathsFrom x i cs).length =
          (cs.flatMap boundOccurrences).count x := by
      induction cs with
      | nil => exact fun _ => rfl
      | cons c cs ihcs =>
        intro i
        rw [binderPathsFrom, List.length_append, List.length_map,
          ih c List.mem_cons_self,
          ihcs (fun d hd => ih d (List.mem_cons_of_mem _ hd)),
          List.flatMap_cons, List.count_append]
    rw [binderPaths_node, List.length_append, hinside, boundOccurrences_node,
      List.count_append]
    cases hb : (Formula.node op cs).binder? with
    | none => simp
    | some z => by_cases hz : z = x <;> simp [hz]

/-- No binder has two numbers. -/
theorem nodup_binderPaths (x : String) (f : Formula) :
    (binderPaths x f).Nodup := by
  induction f using induct with
  | atom name => exact List.nodup_nil
  | node op cs ih =>
    have hinside : ∀ i, (binderPathsFrom x i cs).Nodup := by
      induction cs with
      | nil => exact fun _ => List.nodup_nil
      | cons c cs ihcs =>
        intro i
        rw [binderPathsFrom, List.nodup_append]
        refine ⟨?_,
          ihcs (fun d hd => ih d (List.mem_cons_of_mem _ hd)) (i + 1), ?_⟩
        · exact (List.nodup_map_iff (List.cons_injective)).2
            (ih c List.mem_cons_self)
        · -- Paths into different children begin with different indices.
          intro p hp q hq hpq
          obtain ⟨r, -, rfl⟩ := List.mem_map.1 hp
          obtain ⟨j, d, r', -, rfl, -⟩ := exists_of_mem_binderPathsFrom hq
          have hhead : i = i + 1 + j := (List.cons.inj hpq).1
          omega
    rw [binderPaths_node, List.nodup_append]
    refine ⟨by split <;> simp, hinside 0, ?_⟩
    intro p hp q hq hpq
    obtain ⟨j, d, r, -, rfl, -⟩ := exists_of_mem_binderPathsFrom hq
    split at hp
    · obtain rfl := List.mem_singleton.1 hp
      cases hpq
    · cases hp

/-- The binders met before a hole, then those in the hole, then the others. -/
theorem binderPaths_inside {op : Operator} {before after : List Formula}
    {c : Formula} (hc : c.var? = none) :
    binderPaths x (.node op (before ++ c :: after)) =
      binderPaths x (.node op before) ++
        ((binderPaths x c).map (before.length :: ·) ++
          binderPathsFrom x (before.length + 1) after) := by
  rw [binderPaths_node, binderPaths_node, binder?_append hc,
    binderPathsFrom_append, binderPathsFrom, List.append_assoc, Nat.zero_add]

/-- **A binder's number** is how often its variable was met before. -/
theorem binderPaths_fill (C : Context) (hb : b.binder? = some x) :
    (binderPaths x (C.fill b))[C.met.count x]? = some C.path := by
  induction C with
  | hole =>
    cases b with
    | atom name => cases hb
    | node op cs =>
      simp [Context.fill, Context.met, Context.path, binderPaths_node, hb]
  | inside op before inner after ih =>
    have hlength := length_binderPaths x (.node op before)
    obtain ⟨hlt, -⟩ := List.getElem?_eq_some_iff.1 ih
    rw [Context.fill, Context.met, Context.path,
      binderPaths_inside (inner.var?_fill hb), List.count_append, ← hlength,
      List.getElem?_append_right (Nat.le_add_right _ _),
      Nat.add_sub_cancel_left, List.getElem?_append_left (by simpa using hlt),
      List.getElem?_map, ih, Option.map_some]

/-- **Which binder is meant.**  The `n`-th binder of `x` is the binder of `x`
before which `n` binders of `x` are met. -/
theorem nthBinder?_eq_some_iff :
    f.nthBinder? (var x) n = some b ↔ ∃ C : Context, C.Marks x n b f := by
  rw [nthBinder?, binderPath?, var?_var, Option.bind_some]
  refine ⟨fun h => ?_, fun ⟨C, hf, hb, hn⟩ => ?_⟩
  · obtain ⟨path, hpath, hsub⟩ := Option.bind_eq_some_iff.1 h
    obtain ⟨b', hsub', hb⟩ :=
      exists_binder_of_mem_binderPaths (List.mem_of_getElem? hpath)
    obtain rfl : b' = b := Option.some.inj (hsub'.symm.trans hsub)
    obtain ⟨C, rfl, hf⟩ := Context.exists_fill_of_subformula? hsub
    have hnumber := binderPaths_fill C hb
    rw [← hf] at hnumber
    obtain ⟨hlt, -⟩ := List.getElem?_eq_some_iff.1 hnumber
    have hn := (List.getElem?_inj hlt (nodup_binderPaths x f)).1
      (hnumber.trans hpath.symm)
    exact ⟨C, hf, hb, hn⟩
  · rw [hf, ← hn, binderPaths_fill C hb, Option.bind_some, C.subformula?_fill]

/-- Without the binder that is meant nothing is renamed. -/
theorem renameBinder_eq_self (t : Formula) (h : f.nthBinder? (var x) n = none) :
    f.renameBinder (var x) t n = f := by
  cases hpath : f.binderPath? (var x) n with
  | none => rw [renameBinder, var?_var, hpath]
  | some path =>
    have hmem : path ∈ binderPaths x f := by
      rw [binderPath?, var?_var, Option.bind_some] at hpath
      exact List.mem_of_getElem? hpath
    obtain ⟨b, hb, -⟩ := exists_binder_of_mem_binderPaths hmem
    rw [nthBinder?, hpath, Option.bind_some, hb] at h
    cases h

/-- Renaming works in the hole of the binder that is meant. -/
theorem renameBinder_fill (C : Context) (t : Formula)
    (hb : b.binder? = some x) :
    (C.fill b).renameBinder (var x) t (C.met.count x) =
      C.fill (replaceVar x t b) := by
  rw [renameBinder, binderPath?, var?_var, Option.bind_some,
    binderPaths_fill C hb]
  exact C.modifyAt_fill _ b

/-! ## There and back -/

/-- The variable is neither free nor bound in the formula. -/
def HasRoom (y : String) (f : Formula) : Prop :=
  y ∉ f.free ∧ y ∉ f.bound

/-- A binder does not leave its own variable free. -/
theorem not_mem_free_of_binder? (hb : b.binder? = some x) : x ∉ b.free := by
  obtain ⟨op, rest, hop, rfl⟩ := binder?_eq_some_iff.1 hb
  exact fun h => ((mem_free_bind hop).1 h).1 rfl

theorem mem_bound_of_binder? (hb : b.binder? = some x) : x ∈ b.bound := by
  obtain ⟨op, rest, hop, rfl⟩ := binder?_eq_some_iff.1 hb
  exact (mem_bound_bind hop).2 (Or.inl rfl)

/-- A variable that does not occur in a node does not occur in its children. -/
theorem HasRoom.child {op : Operator} {cs : List Formula} {c : Formula}
    (hv : (Formula.node op cs).var? = none) (h : HasRoom y (.node op cs))
    (hc : c ∈ cs) : HasRoom y c := by
  refine ⟨fun hfree => h.1 ((mem_free_node hv).2 ⟨fun hb => ?_, c, hc, hfree⟩),
    fun hbound => h.2 (mem_bound_of_child hc hbound)⟩
  exact h.2 (mem_bound_of_binder? hb)

/-- **There and back.**  Replacing a variable by one that does not occur can be
undone. -/
theorem replaceVar_replaceVar (h : HasRoom y f) :
    replaceVar y (var x) (replaceVar x (var y) f) = f := by
  induction f using induct with
  | atom name => rfl
  | node op cs ih =>
    cases hv : (Formula.node op cs).var? with
    | none =>
      have hv' :
          (Formula.node op (cs.map (replaceVar x (var y)))).var? = none :=
        var?_map_eq_none hv fun c _ => atom?_replaceVar x y c
      have hcs : (cs.map (replaceVar x (var y))).map (replaceVar y (var x)) =
          cs.map id := by
        rw [List.map_map]
        exact List.map_congr_left fun c hc => ih c hc (h.child hv hc)
      rw [replaceVar_plain _ hv, replaceVar_plain _ hv', hcs, List.map_id]
    | some z =>
      rw [var?_eq_some_iff.1 hv] at h ⊢
      have hzy : z ≠ y := fun hzy => h.1 (mem_free_var.2 hzy.symm)
      by_cases hzx : z = x
      · rw [hzx, replaceVar_var_self, replaceVar_var_self]
      · rw [replaceVar_var_of_ne _ hzx, replaceVar_var_of_ne _ hzy]

/-- A binder of `x` becomes a binder of `y`. -/
theorem binder?_replaceVar (y : String) (hb : b.binder? = some x) :
    (replaceVar x (var y) b).binder? = some y := by
  obtain ⟨op, rest, hop, rfl⟩ := binder?_eq_some_iff.1 hb
  rw [replaceVar_bind_self _ hop, binder?_bind hop]

/-- A renamed binder has the free variables that it had before. -/
theorem mem_free_replaceVar_binder (hb : b.binder? = some x) (h : HasRoom y b) :
    z ∈ (replaceVar x (var y) b).free ↔ z ∈ b.free := by
  have hx := not_mem_free_of_binder? hb
  have hfree := mem_free_replaceVar (x := x) (z := z) h.1 h.2
  grind

/-- The old variable has room in a renamed binder. -/
theorem HasRoom.replaceVar (hb : b.binder? = some x) (h : HasRoom y b) :
    HasRoom x (replaceVar x (var y) b) := by
  have hxy : x ≠ y := fun hxy => h.2 (hxy ▸ mem_bound_of_binder? hb)
  constructor
  · intro hfree
    exact not_mem_free_of_binder? hb
      ((mem_free_replaceVar_binder hb h).1 hfree)
  · rw [mem_bound_replaceVar]
    rintro (⟨hne, -⟩ | ⟨heq, -⟩)
    · exact hne rfl
    · exact hxy heq

end Formula

/-- A line that states the target and cites the source passes as a renaming of
the `n`-th binder of `x` to `y`, wherever that rule may be used. -/
def RenamingPasses (source target : Formula) (x y : String) (n : Nat) : Prop :=
  ∀ (s : Site) (reference : Option String) (occurrence : UInt64),
    occurrence.toNat = n →
    s.citedLine reference "reference" = .ok source → s.statement = target →
    Permits s.setting s.assumptions .rename →
    s.checkRename reference (some (.var x)) (some (.var y)) occurrence = .ok ()

/-- **The rule accepts** a renaming of a binder that has room for the new
name. -/
theorem renamingPasses {source b : Formula} {x y : String} {n : Nat}
    (hb : source.nthBinder? (.var x) n = some b) (hroom : HasRoom y b) :
    RenamingPasses source (source.renameBinder (.var x) (.var y) n) x y n := by
  intro s reference occurrence hn hcited hstatement hrule
  subst hn
  rw [Site.checkRename]
  simp only [bind_eq_ok_iff, exists_unit_iff, Site.givenVar_eq_ok_iff,
    Site.checkRoom_eq_ok_iff, Site.checkStatement_eq_ok_iff,
    Site.checkRule_eq_ok_iff]
  refine ⟨source, hcited, x, rfl, y, rfl, fun b' hb' => ?_, hstatement, hrule⟩
  obtain rfl : b = b' := Option.some.inj (hb.symm.trans hb')
  exact Or.inr hroom

open Formula

/-- **Renaming one binder, there and back.**  The binder that is meant is the
one before which `n` binders of the variable are met.  Without it nothing
changes; otherwise the renamed binder takes its place and nothing else changes.
If the new variable has room in the binder, the free variables stay what they
were, and the step of renaming passes and so does a step back. -/
theorem binder_renaming_reversible (f r : Formula) (x y : String) (n : Nat)
    (hr : f.renameBinder (var x) (var y) n = r) :
    (∀ b, f.nthBinder? (var x) n = some b ↔ ∃ C : Context, C.Marks x n b f) ∧
    (f.nthBinder? (var x) n = none → r = f) ∧
    ∀ (b : Formula) (C : Context), C.Marks x n b f →
      r = C.fill (replaceVar x (var y) b) ∧
      (HasRoom y b →
        (∀ z, z ∈ r.free ↔ z ∈ f.free) ∧ RenamingPasses f r x y n ∧
        ∃ m, r.nthBinder? (var y) m = some (replaceVar x (var y) b) ∧
          HasRoom x (replaceVar x (var y) b) ∧
          r.renameBinder (var y) (var x) m = f ∧
          RenamingPasses r f y x m) := by
  subst hr
  refine ⟨fun b => nthBinder?_eq_some_iff, renameBinder_eq_self _,
    fun b C hmarks => ?_⟩
  have hnth := nthBinder?_eq_some_iff.2 ⟨C, hmarks⟩
  obtain ⟨rfl, hb, rfl⟩ := hmarks
  refine ⟨renameBinder_fill C _ hb, fun hroom => ?_⟩
  have hpasses := renamingPasses hnth hroom
  rw [renameBinder_fill C _ hb] at hpasses ⊢
  -- The way back goes through the same hole, now as the place of a binder of
  -- `y`.
  have hb' := binder?_replaceVar y hb
  have hroom' := hroom.replaceVar hb
  have hnth' :
      (C.fill (replaceVar x (var y) b)).nthBinder? (var y) (C.met.count y) =
        some (replaceVar x (var y) b) :=
    nthBinder?_eq_some_iff.2 ⟨C, rfl, hb', rfl⟩
  have hback :
      (C.fill (replaceVar x (var y) b)).renameBinder (var y) (var x)
        (C.met.count y) = C.fill b := by
    rw [renameBinder_fill C _ hb', replaceVar_replaceVar hroom]
  have hpasses' := renamingPasses hnth' hroom'
  rw [hback] at hpasses'
  have hfree : ∀ z, z ∈ (replaceVar x (var y) b).free ↔ z ∈ b.free :=
    fun z => mem_free_replaceVar_binder hb hroom
  exact ⟨fun z => C.mem_free_fill_congr hb' hb hfree,
    hpasses, C.met.count y, hnth', hroom', hback, hpasses'⟩

namespace Nested

/-- The binder `∀x (P(x) → ∃x Q(x))`, with another binder of its variable
inside. -/
def chosen (x : String) : Formula :=
  quantify .universal x
    ((template .predicateConstant "P" [x]).implies
      (quantify .existential x (template .predicateConstant "Q" [x])))

/-- The formula `∀y R(y) → (… → ∀x P(x))` with the chosen binder in the
middle. -/
def around (b : Formula) : Formula :=
  (quantify .universal "y" (template .predicateConstant "R" ["y"])).implies
    (b.implies (quantify .universal "x"
      (template .predicateConstant "P" ["x"])))

end Nested

/-- The first binder of `x` becomes the second binder of `y`. -/
theorem nested_binder_renamed_and_back :
    (Nested.around (Nested.chosen "x")).renameBinder (var "x") (var "y") 0 =
        Nested.around (Nested.chosen "y") ∧
      (Nested.around (Nested.chosen "x")).nthBinder? (var "x") 0 =
        some (Nested.chosen "x") ∧
      HasRoom "y" (Nested.chosen "x") ∧
      ∃ m,
        (Nested.around (Nested.chosen "y")).renameBinder (var "y") (var "x") m =
          Nested.around (Nested.chosen "x") ∧
        RenamingPasses (Nested.around (Nested.chosen "y"))
          (Nested.around (Nested.chosen "x")) "y" "x" m := by
  have hr :
      (Nested.around (Nested.chosen "x")).renameBinder (var "x") (var "y") 0 =
        Nested.around (Nested.chosen "y") := by decide
  have hnth : (Nested.around (Nested.chosen "x")).nthBinder? (var "x") 0 =
      some (Nested.chosen "x") := by decide
  have hroom : HasRoom "y" (Nested.chosen "x") := by
    rw [HasRoom]
    decide
  obtain ⟨hmeant, -, hrenamed⟩ := binder_renaming_reversible _ _ _ _ _ hr
  obtain ⟨C, hmarks⟩ := (hmeant _).1 hnth
  obtain ⟨-, -, m, -, -, hback, hpasses⟩ := (hrenamed _ C hmarks).2 hroom
  exact ⟨hr, hnth, hroom, m, hback, hpasses⟩

end Deduction
