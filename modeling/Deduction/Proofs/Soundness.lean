import Deduction.Proofs.Acceptance
import Deduction.Proofs.Capture
import Deduction.Proofs.Invariance

/-!
# Soundness

What the check of a proof accepts is true.  A formula is **sound** under
conditions when it is well sorted and holds under every assignment that
satisfies the conditions.  Each rule of inference leads from sound formulas to a
sound formula, and a conditional proof gives up a condition by making it the
antecedent.  So every line of a correct proof is sound, and the last line, which
stands under no condition, is valid.

A proof brings in formulas of its own: hypotheses and substitutes.  They are
asked to be well sorted after normalization (`Reason.Admissible`).  A formula
that is put for a symbol must also keep its free and bound variables apart,
parameters aside; without that a substitution may capture a variable of its own.
-/

universe u

namespace Deduction

variable {D : Type u} {M : Model D} {theory : Theory} {known : List Known}
  {conditions : List Formula} {A B H : Formula} {x : String}

open Formula Known

/-- **Sound under conditions.**  The formula is well sorted, and it holds where
all conditions do. -/
structure Sound (M : Model D) (theory : Theory) (conditions : List Formula)
    (B : Formula) : Prop where
  sorted : Sorted .formula B
  holds : ∀ v, (∀ c ∈ conditions, M.Holds v (theory.normalize c)) → M.Holds v B

/-- Every condition is well sorted after normalization. -/
def SortedConditions (theory : Theory) (conditions : List Formula) : Prop :=
  ∀ c ∈ conditions, Sorted .formula (theory.normalize c)

/-! ## Sorts of implications -/

/-- An implication is a formula if both sides are. -/
theorem sorted_implies_iff :
    Sorted .formula (A.implies B) ↔ Sorted .formula A ∧ Sorted .formula B := by
  constructor
  · intro h
    generalize hf : A.implies B = f at h
    cases h with
    | application name hop => cases hf; cases hop
    | binder y hop => cases hf; cases hop
    | connective hop htakes hcs =>
      cases hf
      exact ⟨hcs A (by simp), hcs B (by simp)⟩
  · intro h
    refine .connective rfl rfl fun c hc => ?_
    rcases List.mem_cons.1 hc with rfl | hc
    · exact h.1
    · obtain rfl := List.mem_singleton.1 hc
      exact h.2

theorem sorted_quantify {op : Operator}
    (hop : op = .universal ∨ op = .existential) (h : Sorted .formula A) :
    Sorted .formula (.quantify op x A) := by
  have hparts : ∀ part ∈ [A], Sorted .formula part := by
    intro part hpart
    obtain rfl := List.mem_singleton.1 hpart
    exact h
  rcases hop with rfl | rfl <;> exact .binder x rfl rfl rfl hparts

/-! ## Conditions under a changed assignment -/

/-- Conditions in which a variable is not free do not see what it stands for. -/
theorem holds_conditions_assign {v : Assignment D}
    (hconditions : SortedConditions theory conditions)
    (hx : ∀ c ∈ conditions, x ∉ (theory.normalize c).free) (d : D)
    (h : ∀ c ∈ conditions, M.Holds v (theory.normalize c)) :
    ∀ c ∈ conditions, M.Holds (v.assign x d) (theory.normalize c) := by
  intro c hc
  rw [Model.Holds, Model.denote_assign_of_not_mem (hconditions c hc) (hx c hc)]
  exact h c hc

/-- Conditions in which a symbol does not occur do not see what it means. -/
theorem holds_conditions_replaces {s : Symbol} {xs : List String} {β : Formula}
    {v w : Assignment D} (hconditions : SortedConditions theory conditions)
    (hs : ∀ c ∈ conditions, ∀ zs args, ¬ (theory.normalize c).Applied s zs args)
    (hreplaces : Model.Replaces M s xs β v w)
    (h : ∀ c ∈ conditions, M.Holds v (theory.normalize c)) :
    ∀ c ∈ conditions, M.Holds w (theory.normalize c) := by
  intro c hc
  have hsame :
      M.denote (theory.normalize c) w = M.denote (theory.normalize c) v := by
    apply Model.denote_congr (hconditions c hc)
    · intro y _
      rw [hreplaces.subject]
    · intro t ht ds hds
      have hts : t ≠ s := by
        intro hts
        obtain ⟨zs, args, happlied⟩ := containsSymbol_eq_true_iff.1 ht
        exact hs c hc zs args (hts ▸ happlied)
      exact hreplaces.others t hts ds hds
  rw [Model.Holds, hsame]
  exact h c hc

/-! ## What a replaced symbol means -/

/-- Lets a predicate or function variable mean something else, for the number of
arguments that the symbol takes. -/
def Assignment.reinterpret (v : Assignment D) (s : Symbol)
    (m : List D → Meaning D) : Assignment D where
  subject := v.subject
  predicate name ds :=
    if s.op = .predicateVariable ∧ name = s.name ∧ ds.length = s.arity then
      (m ds).truth
    else v.predicate name ds
  function name ds :=
    if s.op = .functionVariable ∧ name = s.name ∧ ds.length = s.arity then
      (m ds).value
    else v.function name ds

/-- The symbol means what the replacement says of its parameters. -/
theorem replaces_reinterpret {s : Symbol} {xs : List String} {β : Formula}
    (hs : s.op = .predicateVariable ∨ s.op = .functionVariable)
    (hβ : Sorted s.op.kind β) (v : Assignment D) :
    Model.Replaces M s xs β v
      (v.reinterpret s fun ds => M.denote β (v.assignAll xs ds)) where
  subject := rfl
  symbol ds hds := by
    rcases hs with hop | hop
    · rw [hop] at hβ ⊢
      simp only [Model.apply, Assignment.reinterpret, hop, hds,
        and_self, if_true]
      exact (Model.denote_eq_ofTruth hβ).symm
    · rw [hop] at hβ ⊢
      simp only [Model.apply, Assignment.reinterpret, hop, hds,
        and_self, if_true]
      exact (Model.denote_eq_ofValue hβ).symm
  others t hts ds hds := by
    obtain ⟨op, name, arity⟩ := t
    have hother : ¬ (s.op = op ∧ name = s.name ∧ ds.length = s.arity) := by
      intro h
      obtain ⟨hop, hname, harity⟩ := h
      have hds : ds.length = arity := hds
      exact hts (by rw [← hop, hname, ← hds, harity])
    cases op with
    | predicateVariable =>
      simp only [Model.apply, Assignment.reinterpret, if_neg hother]
    | functionVariable =>
      simp only [Model.apply, Assignment.reinterpret, if_neg hother]
    | _ => rfl

/-- A binder of a variable that the replacement does not mention, parameters
aside, leaves it at that. -/
theorem Model.Replaces.assign {s : Symbol} {xs : List String} {β : Formula}
    {v w : Assignment D} {z : String} {k : Kind}
    (h : Model.Replaces M s xs β v w) (hβ : Sorted k β)
    (harity : s.arity = xs.length) (hz : z ∈ β.free → z ∈ xs) (d : D) :
    Model.Replaces M s xs β (v.assign z d) (w.assign z d) where
  subject := by simp only [Assignment.assign, h.subject]
  symbol ds hds := by
    rw [Model.apply_assign, h.symbol ds hds]
    apply Model.denote_congr hβ
    · intro y hy
      show ((xs.zip ds).lookup y).getD (v.subject y) =
        ((xs.zip ds).lookup y).getD ((v.assign z d).subject y)
      cases hlookup : (xs.zip ds).lookup y with
      | some e => rfl
      | none =>
        have hyx : y ∉ xs :=
          (lookup_zip_eq_none_iff (hds.trans harity)).1 hlookup
        have hyz : y ≠ z := fun hyz => hyx (hyz ▸ hz (hyz ▸ hy))
        rw [Option.getD_none, Option.getD_none, v.subject_assign_of_ne hyz]
    · intro t _ es _
      rw [Model.apply_assignAll, Model.apply_assignAll, Model.apply_assign]
  others t hts ds hds := by
    rw [Model.apply_assign, Model.apply_assign]
    exact h.others t hts ds hds

/-! ## The rules -/

namespace Sound

/-- **Renaming** a bound variable is sound where there is room for the new
name. -/
theorem rename {y : String} {n : Nat} (hA : Sound M theory conditions A)
    (hroom : ∀ b, A.nthBinder? (var x) n = some b →
      x = y ∨ (y ∉ b.free ∧ y ∉ b.bound)) :
    Sound M theory conditions (A.renameBinder (var x) (var y) n) := by
  obtain ⟨hsorted, hmeaning⟩ :=
    Model.denote_renameBinder (M := M) hA.sorted hroom
  refine ⟨hsorted, fun v hv => ?_⟩
  rw [Model.Holds, hmeaning v]
  exact hA.holds v hv

/-- **Modus ponens** is sound. -/
theorem modusPonens (hAB : Sound M theory conditions (A.implies B))
    (hA : Sound M theory conditions A) : Sound M theory conditions B :=
  ⟨(sorted_implies_iff.1 hAB.sorted).2, fun v hv =>
    Model.holds_implies.1 (hAB.holds v hv) (hA.holds v hv)⟩

/-- **Substitution for a free variable** is sound if it captures nothing and no
condition mentions the variable. -/
theorem substFree {t : Formula} (hA : Sound M theory conditions A)
    (hconditions : SortedConditions theory conditions) (ht : Sorted .term t)
    (hcapture : ∀ z ∈ t.free, z ∉ A.bound)
    (hx : ∀ c ∈ conditions, x ∉ (theory.normalize c).free) :
    Sound M theory conditions (A.replaceFree (var x) t) := by
  have hvalues : ∀ y t',
      (Substitution.ofPairs [(var x, t)]).lookup y = some t' →
      Sorted .term t' := by
    intro y t' ht'
    have hpair : (y, t') ∈ [x].zip [t] := mem_of_lookup ht'
    obtain rfl := List.mem_singleton.1 (List.of_mem_zip hpair).2
    exact ht
  refine ⟨hA.sorted.substitute hvalues, fun v hv => ?_⟩
  rw [Model.Holds, Model.denote_replaceFree hA.sorted ht hcapture]
  exact hA.holds _ (holds_conditions_assign hconditions hx _ hv)

/-- A substitution for a symbol, if no variable clashes in the replacement.
Then nothing is captured, and the symbol may be taken to mean what the
replacement says. -/
theorem substSymbol {op : Operator} {p : String} {xs : List String}
    {β : Formula} (hA : Sound M theory conditions A)
    (hconditions : SortedConditions theory conditions)
    (hop : op = .predicateVariable ∨ op = .functionVariable)
    (hβ : Sorted op.kind β) (hclash : ¬ Clashing xs β)
    (h : Replaceable theory conditions op p xs A β) :
    Sound M theory conditions (A.replaceSymbol (template op p xs) β) := by
  have happ : op.isApplication := by rcases hop with rfl | rfl <;> rfl
  -- The line was made without renaming; as nothing is captured, renaming gives
  -- the same.
  have hfree : CaptureFree (.ofTemplate op p xs) xs β A :=
    (captureFree_iff_not_clashing h.distinct rfl hA.sorted.takesNoAtoms
      h.keepsFree h.clearOfArguments).2 fun hboth => hclash hboth.2
  have hapart : A.replaceSymbol (template op p xs) β =
      replaceApart (.ofTemplate op p xs) xs β A := by
    rw [replaceSymbol_template happ]
    exact (replaceAsIs_eq_replaceApart_iff h.distinct rfl).2 hfree
  rw [hapart]
  refine ⟨hA.sorted.replaceApart hβ, fun v hv => ?_⟩
  obtain ⟨w, hreplaces⟩ :
      ∃ w, Model.Replaces M (.ofTemplate op p xs) xs β v w :=
    ⟨_, replaces_reinterpret hop hβ v⟩
  have hassign : ∀ v w z d, z ∈ A.bound →
      Model.Replaces M (.ofTemplate op p xs) xs β v w →
      Model.Replaces M (.ofTemplate op p xs) xs β (v.assign z d)
        (w.assign z d) := by
    intro v w z d hz hvw
    refine hvw.assign hβ rfl (fun hzβ => ?_) d
    exact Classical.byContradiction fun hzx => h.keepsFree z hzβ hzx hz
  rw [Model.Holds, Model.denote_replaceApart h.distinct rfl hβ hA.sorted
    (fun _ _ => id) hassign hreplaces]
  exact hA.holds _
    (holds_conditions_replaces hconditions h.unconditional hreplaces hv)

/-- From `A → B` follows `A → ∀x B`. -/
theorem universal (hAB : Sound M theory conditions (A.implies B))
    (hconditions : SortedConditions theory conditions) (hfree : x ∉ A.free)
    (hx : ∀ c ∈ conditions, x ∉ (theory.normalize c).free) :
    Sound M theory conditions (A.implies (.quantify .universal x B)) := by
  obtain ⟨hA, hB⟩ := sorted_implies_iff.1 hAB.sorted
  refine ⟨sorted_implies_iff.2 ⟨hA, sorted_quantify (Or.inl rfl) hB⟩,
    fun v hv => ?_⟩
  refine Model.holds_implies.2 fun hholds => Model.holds_universal.2 fun d => ?_
  have hA' : M.Holds (v.assign x d) A := by
    rw [Model.Holds, Model.denote_assign_of_not_mem hA hfree]
    exact hholds
  exact Model.holds_implies.1
    (hAB.holds _ (holds_conditions_assign hconditions hx d hv)) hA'

/-- From `A → B` follows `∃x A → B`. -/
theorem existential (hAB : Sound M theory conditions (A.implies B))
    (hconditions : SortedConditions theory conditions) (hfree : x ∉ B.free)
    (hx : ∀ c ∈ conditions, x ∉ (theory.normalize c).free) :
    Sound M theory conditions
      ((Formula.quantify .existential x A).implies B) := by
  obtain ⟨hA, hB⟩ := sorted_implies_iff.1 hAB.sorted
  refine ⟨sorted_implies_iff.2 ⟨sorted_quantify (Or.inr rfl) hA, hB⟩,
    fun v hv => ?_⟩
  refine Model.holds_implies.2 fun hexists => ?_
  obtain ⟨d, hd⟩ := Model.holds_existential.1 hexists
  have hB' := Model.holds_implies.1
    (hAB.holds _ (holds_conditions_assign hconditions hx d hv)) hd
  rwa [Model.Holds, Model.denote_assign_of_not_mem hB hfree] at hB'

/-- The last condition becomes an antecedent. -/
theorem discharge (hB : Sound M theory (conditions ++ [H]) (theory.normalize B))
    (hH : Sorted .formula (theory.normalize H)) :
    Sound M theory conditions
      ((theory.normalize H).implies (theory.normalize B)) := by
  refine ⟨sorted_implies_iff.2 ⟨hH, hB.sorted⟩,
    fun v hv => Model.holds_implies.2 fun hholds => ?_⟩
  refine hB.holds v fun c hc => ?_
  rcases List.mem_append.1 hc with hc | hc
  · exact hv c hc
  · obtain rfl := List.mem_singleton.1 hc
    exact hholds

/-- One more condition does no harm. -/
theorem weaken (hB : Sound M theory conditions B) :
    Sound M theory (conditions ++ [H]) B :=
  ⟨hB.sorted,
    fun v hv => hB.holds v fun c hc => hv c (List.mem_append_left _ hc)⟩

end Sound

/-! ## What a proof brings in -/

/-- Only parameters of the template are both free and bound. -/
def Separated (given : Option Formula) (β : Formula) : Prop :=
  ∀ z ∈ β.free, z ∈ β.bound →
    ∃ pattern, given = some pattern ∧ var z ∈ pattern.arguments

mutual

/-- The hypotheses and substitutes of a reason, and of the lines inside it, are
well sorted after normalization, and what is put for a symbol has no variable
but parameters both free and bound. -/
def Reason.Admissible (theory : Theory) : Reason → Prop
  | .substFree _ _ substitute =>
    ∀ t, substitute = some t → Sorted .term (theory.normalize t)
  | .substPredicate _ given substitute => ∀ β, substitute = some β →
      Sorted .formula (theory.normalize β) ∧
        Separated given (theory.normalize β)
  | .substFunction _ given substitute => ∀ t, substitute = some t →
      Sorted .term (theory.normalize t) ∧ Separated given (theory.normalize t)
  | .conditionalProof hypothesis lines =>
    (∀ H, hypothesis.formula = some H → Sorted .formula (theory.normalize H)) ∧
      AdmissibleLines theory lines
  | _ => True

/-- All reasons of the lines are admissible. -/
def AdmissibleLines (theory : Theory) : List Line → Prop
  | [] => True
  | ⟨_, _, none⟩ :: rest => AdmissibleLines theory rest
  | ⟨_, _, some reason⟩ :: rest =>
    reason.Admissible theory ∧ AdmissibleLines theory rest

end

/-- In a separated formula no variable but a parameter is both free and
bound. -/
theorem not_clashing_of_separated {op : Operator} {p : String}
    {xs : List String} {β : Formula} (happ : op.isApplication)
    (h : Separated (some (template op p xs)) β) : ¬ Clashing xs β := by
  intro hclash
  obtain ⟨z, hz, hzb, hzx⟩ := hclash
  obtain ⟨pattern, hpattern, hmem⟩ := h z hz hzb
  cases hpattern
  rw [arguments_template happ] at hmem
  obtain ⟨y, hy, hyz⟩ := List.mem_map.1 hmem
  exact hzx (var_injective hyz ▸ hy)

/-! ## Lines and proofs -/

/-- Every proved formula is well sorted and valid after normalization. -/
def ValidTheory (M : Model D) (theory : Theory) : Prop :=
  ∀ label p, theory.find? label = some p →
    Sorted .formula (theory.normalize p.formula) ∧
      M.Valid (theory.normalize p.formula)

/-- **Each rule leads from sound formulas to a sound formula.** -/
theorem Follows.sound {reason : Reason} (htheory : ValidTheory M theory)
    (hconditions : SortedConditions theory conditions)
    (hknown : ∀ entry ∈ known, Sound M theory conditions entry.formula)
    (hreason : reason.Admissible theory)
    (h : Follows theory known conditions reason B) :
    Sound M theory conditions B := by
  have hcited : ∀ {r A}, Cites known r A → Sound M theory conditions A := by
    intro r A hcites
    obtain ⟨assumed, hmem⟩ := hcites
    exact hknown _ hmem
  cases h with
  | assumption hmem => exact hknown _ hmem
  | proved hno hp => exact ⟨(htheory _ _ hp).1, fun v _ => (htheory _ _ hp).2 v⟩
  | rename hA hroom => exact (hcited hA).rename hroom
  | modusPonens hAB hA => exact (hcited hAB).modusPonens (hcited hA)
  | substFree hA hcapture hx =>
    exact (hcited hA).substFree hconditions (hreason _ rfl) hcapture hx
  | substPredicate hA hβ =>
    obtain ⟨hsorted, hseparated⟩ := hreason _ rfl
    exact (hcited hA).substSymbol hconditions (Or.inl rfl) hsorted
      (not_clashing_of_separated rfl hseparated) hβ
  | substFunction hA hβ =>
    obtain ⟨hsorted, hseparated⟩ := hreason _ rfl
    exact (hcited hA).substSymbol hconditions (Or.inr rfl) hsorted
      (not_clashing_of_separated rfl hseparated) hβ
  | universal hAB hfree hx => exact (hcited hAB).universal hconditions hfree hx
  | existential hAB hfree hx =>
    exact (hcited hAB).existential hconditions hfree hx

/-- What is known stays sound if a sound formula is added. -/
theorem sound_add {label : Option String} {assumed : Bool}
    (hknown : ∀ entry ∈ known, Sound M theory conditions entry.formula)
    (hA : Sound M theory conditions A) :
    ∀ entry ∈ add known label A assumed,
      Sound M theory conditions entry.formula := by
  cases label with
  | none => exact hknown
  | some label =>
    intro entry hentry
    rcases List.mem_cons.1 hentry with rfl | hentry
    · exact hA
    · exact hknown entry hentry

variable {setting : Setting}

/-- A conditional proof is sound when its lines are, given that the recursion
has settled the lines. -/
theorem sound_of_conditionalProof {hypothesis : Hypothesis} {lines : List Line}
    (hconditions : SortedConditions setting.theory conditions)
    (hknown : ∀ entry ∈ known, Sound M setting.theory conditions entry.formula)
    (hreason : (Reason.conditionalProof hypothesis lines).Admissible
      setting.theory)
    (hlines : ∀ (known : List Known) (conditions : List Formula),
      SortedConditions setting.theory conditions →
      (∀ entry ∈ known, Sound M setting.theory conditions entry.formula) →
      Correct setting known conditions lines →
      ∀ line ∈ lines, ∀ B, line.formula = some B →
        Sound M setting.theory conditions (setting.theory.normalize B))
    (h : Justified setting known conditions A
      (.conditionalProof hypothesis lines)) :
    Sound M setting.theory conditions (setting.theory.normalize A) := by
  cases h with
  | rule h => cases h
  | @conditionalProof _ _ _ H B label _ _ _ hlabel hcorrect hlast hconclusion =>
    have hH : Sorted .formula (setting.theory.normalize H) := hreason.1 H rfl
    have hconditions' :
        SortedConditions setting.theory (conditions ++ [H]) := by
      intro c hc
      rcases List.mem_append.1 hc with hc | hc
      · exact hconditions c hc
      · obtain rfl := List.mem_singleton.1 hc
        exact hH
    have hassumed : Sound M setting.theory (conditions ++ [H])
        (setting.theory.normalize H) :=
      ⟨hH, fun v hv => hv H (by simp)⟩
    have hknown' : ∀ entry ∈ add known label (setting.theory.normalize H) true,
        Sound M setting.theory (conditions ++ [H]) entry.formula :=
      sound_add (fun entry hentry => (hknown entry hentry).weaken) hassumed
    obtain ⟨line, hline, hB⟩ := Option.bind_eq_some_iff.1 hlast
    have hsound := hlines _ _ hconditions' hknown' hcorrect line
      (List.mem_of_getLast? hline) B hB
    rw [hconclusion]
    exact hsound.discharge hH

mutual

/-- **A justified line is sound.** -/
theorem sound_of_justified (htheory : ValidTheory M setting.theory) :
    ∀ (reason : Reason) (known : List Known) (conditions : List Formula)
      (A : Formula),
    SortedConditions setting.theory conditions →
    (∀ entry ∈ known, Sound M setting.theory conditions entry.formula) →
    reason.Admissible setting.theory →
    Justified setting known conditions A reason →
    Sound M setting.theory conditions (setting.theory.normalize A)
  | .conditionalProof _ lines, _, _, _, hconditions, hknown, hreason, h =>
    sound_of_conditionalProof hconditions hknown hreason
      (fun known conditions hconditions hknown hcorrect =>
        sound_of_correct htheory lines known conditions hconditions hknown
          hreason.2 hcorrect) h
  | .add _, _, _, _, hconditions, hknown, hreason, .rule h
  | .rename .., _, _, _, hconditions, hknown, hreason, .rule h
  | .modusPonens .., _, _, _, hconditions, hknown, hreason, .rule h
  | .substFree .., _, _, _, hconditions, hknown, hreason, .rule h
  | .substPredicate .., _, _, _, hconditions, hknown, hreason, .rule h
  | .substFunction .., _, _, _, hconditions, hknown, hreason, .rule h
  | .universal .., _, _, _, hconditions, hknown, hreason, .rule h
  | .existential .., _, _, _, hconditions, hknown, hreason, .rule h =>
    h.sound htheory hconditions hknown hreason

/-- **All lines of a correct proof are sound.** -/
theorem sound_of_correct (htheory : ValidTheory M setting.theory) :
    ∀ (lines : List Line) (known : List Known) (conditions : List Formula),
    SortedConditions setting.theory conditions →
    (∀ entry ∈ known, Sound M setting.theory conditions entry.formula) →
    AdmissibleLines setting.theory lines →
    Correct setting known conditions lines →
    ∀ line ∈ lines, ∀ B, line.formula = some B →
      Sound M setting.theory conditions (setting.theory.normalize B)
  | [], _, _, _, _, _, _ => by simp
  | ⟨_, none, _⟩ :: _, _, _, _, _, _, h => by cases h
  | ⟨_, some _, none⟩ :: _, _, _, _, _, _, h => by cases h
  | ⟨label, some A, some reason⟩ :: rest,
      known, conditions, hconditions, hknown, hlines, h => by
    cases h with
    | cons hlabel hagrees hpermits hjustified hrest =>
      have hreason : reason.Admissible setting.theory := hlines.1
      have hrestlines : AdmissibleLines setting.theory rest := hlines.2
      have hA := sound_of_justified htheory reason known conditions A
        hconditions hknown hreason hjustified
      intro line hline B hB
      rcases List.mem_cons.1 hline with rfl | hline
      · cases hB
        exact hA
      · exact sound_of_correct htheory rest _ conditions hconditions
          (sound_add hknown hA) hrestlines hrest line hline B hB

end

/-- **Soundness.**  If every proved formula is valid in a model and a proof
brings in nothing ill-sorted or ambiguous, then what the check accepts is valid
in the model. -/
theorem accepted_proposition_valid (M : Model D) (setting : Setting)
    (location : Location) (proposition : Formula) (lines : List Line)
    (htheory : ValidTheory M setting.theory)
    (hlines : AdmissibleLines setting.theory lines)
    (haccepted : (checkProof setting location proposition lines).errors = []) :
    Sorted .formula (setting.theory.normalize proposition) ∧
      M.Valid (setting.theory.normalize proposition) := by
  obtain ⟨-, hbody, hend⟩ := checkProof_errors_eq_nil_iff.1 haccepted
  have hcorrect := checkLines_wholeBody_errors_eq_nil_iff.1 hbody
  have hlast := (checkLast_errors_eq_nil_iff hcorrect).1 hend
  obtain ⟨line, hline, hformula⟩ := Option.bind_eq_some_iff.1 hlast
  have hsound :
      Sound M setting.theory [] (setting.theory.normalize proposition) :=
    sound_of_correct htheory lines [] [] (by simp [SortedConditions]) (by simp)
      hlines hcorrect line (List.mem_of_getLast? hline) proposition hformula
  exact ⟨hsound.sorted, fun v => hsound.holds v (by simp)⟩

namespace ConditionalIdentity

/-- The formula `∃z q(x, z)`. -/
def image : Formula :=
  .quantify .existential "z" (template .predicateConstant "q" ["x", "z"])

/-- The condition of the proof. -/
def condition : Formula :=
  template .predicateConstant "r" []

/-- The formula `P(x) → P(x)`, for a predicate variable `P`. -/
def identity : Formula :=
  (template .predicateVariable "P" ["x"]).implies
    (template .predicateVariable "P" ["x"])

/-- Conditional proofs are allowed, and `identity` is proved. -/
def logic : Setting where
  policy := .conditional
  rules := .allAt .conditional
  theory := ({} : Theory).prove "identity" identity ⟨"logic", "axiom"⟩

/-- What the proof proves, `r → (∃z q(x, z) → ∃z q(x, z))`. -/
def proposition : Formula :=
  condition.implies (image.implies image)

/-- The proof substitutes for `P` below the condition `r`. -/
def lines : List Line :=
  [⟨some "1", some identity, some (.add (some "identity"))⟩,
    ⟨none, some proposition,
      some (.conditionalProof ⟨some "h", some condition⟩
        [⟨none, some (image.implies image),
          some (.substPredicate (some "1")
            (some (template .predicateVariable "P" ["x"])) (some image))⟩])⟩]

/-- A model over the natural numbers. -/
def model : Model Nat where
  relation _ ds := ds.length = 2
  function _ ds := ds.length
  classOf _ := 0

theorem validTheory : ValidTheory model logic.theory := by
  intro label p hp
  have hmem : (label, p) ∈ logic.theory.proved := mem_of_lookup hp
  obtain ⟨rfl, rfl⟩ : label = "identity" ∧
      p = ⟨identity, ⟨"logic", "axiom"⟩⟩ := by
    simpa [logic, Theory.prove] using hmem
  refine ⟨sorted_of_check rfl, fun v => Model.holds_implies.2 id⟩

theorem admissibleLines : AdmissibleLines logic.theory lines := by
  have himage : ∀ β, some image = some β →
      Sorted .formula (logic.theory.normalize β) ∧
        Separated (some (template .predicateVariable "P" ["x"]))
          (logic.theory.normalize β) := by
    intro β hβ
    cases hβ
    refine ⟨sorted_of_check rfl, fun z hz hzb => ?_⟩
    have hx : z = "x" := List.mem_singleton.1 hz
    have hz : z = "z" := List.mem_singleton.1 hzb
    exact absurd (hx.symm.trans hz) (by decide)
  have hcondition : ∀ H, some condition = some H →
      Sorted .formula (logic.theory.normalize H) := by
    intro H hH
    cases hH
    exact sorted_of_check rfl
  exact ⟨trivial, ⟨hcondition, himage, trivial⟩, trivial⟩

end ConditionalIdentity

/-- The proof makes a conditional proof, and what it proves is valid. -/
theorem conditional_identity_valid :
    ValidTheory ConditionalIdentity.model ConditionalIdentity.logic.theory ∧
      AdmissibleLines ConditionalIdentity.logic.theory
        ConditionalIdentity.lines ∧
      (checkProof ConditionalIdentity.logic ⟨"logic", "proof"⟩
        ConditionalIdentity.proposition ConditionalIdentity.lines).errors = [] ∧
      ConditionalIdentity.model.Valid
        (ConditionalIdentity.logic.theory.normalize
          ConditionalIdentity.proposition) := by
  have haccepted : (checkProof ConditionalIdentity.logic ⟨"logic", "proof"⟩
      ConditionalIdentity.proposition ConditionalIdentity.lines).errors = [] :=
    rfl
  refine ⟨ConditionalIdentity.validTheory, ConditionalIdentity.admissibleLines,
    haccepted, ?_⟩
  exact (accepted_proposition_valid _ _ _ _ _ ConditionalIdentity.validTheory
    ConditionalIdentity.admissibleLines haccepted).2

end Deduction
