import Deduction.Check.Proof

/-!
# Displayed formulas

The displayed form of a formula can be read from the left in one way only, as
long as no name has a quote in it: a name ends at the next quote, a tag at the
next parenthesis, and after a child comes a comma or the parenthesis that closes
the list.  So two formulas that are displayed alike, whatever follows them, are
equal and are followed by the same (`text_append_inj`).

A diagnostic that says which formula was expected displays it.  There are three
of them, and none can be about two different formulas.
-/

namespace Deduction

/-- What stands up to the first `x` is determined, and what follows. -/
theorem append_cons_inj {α : Type} {x : α} {a b rest rest' : List α}
    (ha : x ∉ a) (hb : x ∉ b) (h : a ++ x :: rest = b ++ x :: rest') :
    a = b ∧ rest = rest' := by
  induction a generalizing b with
  | nil =>
    cases b with
    | nil => exact ⟨rfl, (List.cons.inj h).2⟩
    | cons y b =>
      obtain ⟨rfl, -⟩ := List.cons.inj h
      exact absurd List.mem_cons_self hb
  | cons y a ih =>
    cases b with
    | nil =>
      obtain ⟨rfl, -⟩ := List.cons.inj h
      exact absurd List.mem_cons_self ha
    | cons z b =>
      obtain ⟨rfl, htail⟩ := List.cons.inj h
      obtain ⟨rfl, hrest⟩ := ih (fun hmem => ha (List.mem_cons_of_mem _ hmem))
        (fun hmem => hb (List.mem_cons_of_mem _ hmem)) htail
      exact ⟨rfl, hrest⟩

namespace Operator

/-- A tag is made of capital letters. -/
theorem isUpper_of_mem_tag (op : Operator) :
    ∀ c ∈ op.tag.toList, c.isUpper = true := by
  have hall : op.tag.toList.all Char.isUpper = true := by
    cases op <;> decide +kernel
  exact List.all_eq_true.mp hall

/-- A tag begins with a capital letter. -/
theorem exists_tag (op : Operator) :
    ∃ c cs, op.tag.toList = c :: cs ∧ c.isUpper = true := by
  have hne : op.tag.toList ≠ [] := by cases op <;> decide +kernel
  obtain ⟨c, cs, htag⟩ := List.exists_cons_of_ne_nil hne
  exact ⟨c, cs, htag,
    op.isUpper_of_mem_tag c (by rw [htag]; exact List.mem_cons_self)⟩

theorem paren_not_mem_tag (op : Operator) : '(' ∉ op.tag.toList := by
  intro hmem
  have hparen := op.isUpper_of_mem_tag '(' hmem
  revert hparen
  decide

end Operator

namespace Formula

/-- **No name has a quote in it.** -/
inductive Unquoted : Formula → Prop where
  | atom {name : String} (hname : '"' ∉ name.toList) : Unquoted (.atom name)
  | node (op : Operator) {cs : List Formula}
      (hchildren : ∀ c ∈ cs, Unquoted c) :
      Unquoted (.node op cs)

variable {f g : Formula} {rest rest' : List Char}

theorem toList_text_atom (name : String) :
    (text (.atom name)).toList = '"' :: (name.toList ++ ['"']) := by
  simp [text]

/-- The displayed characters of a node. -/
theorem toList_text_node (op : Operator) (cs : List Formula) :
    (text (.node op cs)).toList =
      op.tag.toList ++ '(' :: ((textAll cs).toList ++ [')']) := by
  simp [text]

/-- A displayed formula begins with a quote or with a capital letter. -/
theorem exists_toList_text (f : Formula) :
    ∃ c cs, f.text.toList = c :: cs ∧ c ≠ ')' := by
  cases f with
  | atom name => exact ⟨_, _, toList_text_atom name, by decide⟩
  | node op cs =>
    obtain ⟨c, tag, htag, hupper⟩ := op.exists_tag
    refine ⟨c, tag ++ '(' :: ((textAll cs).toList ++ [')']), ?_, ?_⟩
    · rw [toList_text_node, htag, List.cons_append]
    · rintro rfl
      revert hupper
      decide

/-- An atom and a node are displayed differently from the first character on. -/
theorem text_atom_append_ne (name : String) (op : Operator)
    (cs : List Formula) :
    (text (.atom name)).toList ++ rest ≠
      (text (.node op cs)).toList ++ rest' := by
  intro h
  obtain ⟨c, tag, htag, hupper⟩ := op.exists_tag
  rw [toList_text_atom, toList_text_node, htag] at h
  obtain ⟨rfl, -⟩ := List.cons.inj h
  revert hupper
  decide

theorem toList_textAll_cons (f : Formula) (fs : List Formula) :
    (textAll (f :: fs)).toList = f.text.toList ++ (textRest fs).toList := by
  simp [textAll]

/-- The displayed characters of further children, each after a comma. -/
theorem toList_textRest_cons (f : Formula) (fs : List Formula) :
    (textRest (f :: fs)).toList =
      ',' :: ' ' :: (f.text.toList ++ (textRest fs).toList) := by
  simp [textRest]

/-- A first child does not begin with the parenthesis that closes an empty
list. -/
theorem textAll_cons_append_ne (f : Formula) (fs : List Formula) :
    (textAll (f :: fs)).toList ++ rest ≠ ')' :: rest' := by
  intro h
  obtain ⟨c, cs, hf, hc⟩ := f.exists_toList_text
  rw [toList_textAll_cons, hf] at h
  exact hc (List.cons.inj h).1

/-- Where a child follows, no parenthesis is closed. -/
theorem textRest_cons_append_ne (f : Formula) (fs : List Formula) :
    (textRest (f :: fs)).toList ++ rest ≠ ')' :: rest' := by
  intro h
  rw [toList_textRest_cons] at h
  exact absurd (List.cons.inj h).1 (by decide)

mutual

/-- **Displayed formulas are read in one way.** -/
theorem text_append_inj :
    ∀ {f g : Formula} {rest rest' : List Char}, Unquoted f → Unquoted g →
    f.text.toList ++ rest = g.text.toList ++ rest' → f = g ∧ rest = rest'
  | .atom a, .atom b, rest, rest', .atom ha, .atom hb, h => by
    rw [toList_text_atom, toList_text_atom] at h
    have hquoted : a.toList ++ '"' :: rest = b.toList ++ '"' :: rest' := by
      simpa using h
    obtain ⟨hname, hrest⟩ := append_cons_inj ha hb hquoted
    exact ⟨by rw [String.toList_inj.1 hname], hrest⟩
  | .atom a, .node op cs, rest, rest', _, _, h =>
    absurd h (text_atom_append_ne a op cs)
  | .node op cs, .atom a, rest, rest', _, _, h =>
    absurd h.symm (text_atom_append_ne a op cs)
  | .node o cs, .node p ds, rest, rest', .node _ hcs, .node _ hds, h => by
    rw [toList_text_node, toList_text_node] at h
    have htagged : o.tag.toList ++ '(' :: ((textAll cs).toList ++ ')' :: rest) =
        p.tag.toList ++ '(' :: ((textAll ds).toList ++ ')' :: rest') := by
      simpa using h
    obtain ⟨htag, hbody⟩ :=
      append_cons_inj o.paren_not_mem_tag p.paren_not_mem_tag htagged
    obtain ⟨rfl, hrest⟩ := textAll_append_inj hcs hds hbody
    exact ⟨by rw [Operator.tag_injective (String.toList_inj.1 htag)], hrest⟩

/-- Displayed children, up to the parenthesis. -/
theorem textAll_append_inj : ∀ {fs gs : List Formula} {rest rest' : List Char},
    (∀ f ∈ fs, Unquoted f) → (∀ g ∈ gs, Unquoted g) →
    (textAll fs).toList ++ ')' :: rest = (textAll gs).toList ++ ')' :: rest' →
      fs = gs ∧ rest = rest'
  | [], [], rest, rest', _, _, h => ⟨rfl, (List.cons.inj h).2⟩
  | [], g :: gs, rest, rest', _, _, h =>
    absurd h.symm (textAll_cons_append_ne g gs)
  | f :: fs, [], rest, rest', _, _, h => absurd h (textAll_cons_append_ne f fs)
  | f :: fs, g :: gs, rest, rest', hfs, hgs, h => by
    obtain ⟨hf, hfs'⟩ := List.forall_mem_cons.1 hfs
    obtain ⟨hg, hgs'⟩ := List.forall_mem_cons.1 hgs
    rw [toList_textAll_cons, toList_textAll_cons, List.append_assoc,
      List.append_assoc] at h
    obtain ⟨rfl, hafter⟩ := text_append_inj hf hg h
    obtain ⟨rfl, hrest⟩ := textRest_append_inj hfs' hgs' hafter
    exact ⟨rfl, hrest⟩

/-- Displayed children after the first, up to the parenthesis. -/
theorem textRest_append_inj : ∀ {fs gs : List Formula} {rest rest' : List Char},
    (∀ f ∈ fs, Unquoted f) → (∀ g ∈ gs, Unquoted g) →
    (textRest fs).toList ++ ')' :: rest = (textRest gs).toList ++ ')' :: rest' →
      fs = gs ∧ rest = rest'
  | [], [], rest, rest', _, _, h => ⟨rfl, (List.cons.inj h).2⟩
  | [], g :: gs, rest, rest', _, _, h =>
    absurd h.symm (textRest_cons_append_ne g gs)
  | f :: fs, [], rest, rest', _, _, h => absurd h (textRest_cons_append_ne f fs)
  | f :: fs, g :: gs, rest, rest', hfs, hgs, h => by
    obtain ⟨hf, hfs'⟩ := List.forall_mem_cons.1 hfs
    obtain ⟨hg, hgs'⟩ := List.forall_mem_cons.1 hgs
    rw [toList_textRest_cons, toList_textRest_cons] at h
    have hbody : f.text.toList ++ ((textRest fs).toList ++ ')' :: rest) =
        g.text.toList ++ ((textRest gs).toList ++ ')' :: rest') := by
      simpa using h
    obtain ⟨rfl, hafter⟩ := text_append_inj hf hg hbody
    obtain ⟨rfl, hrest⟩ := textRest_append_inj hfs' hgs' hafter
    exact ⟨rfl, hrest⟩

end

/-- Formulas without quotes in their names are told apart by how they are
displayed. -/
theorem text_inj (hf : Unquoted f) (hg : Unquoted g) (h : f.text = g.text) :
    f = g :=
  (text_append_inj hf hg (congrArg (fun s : String => s.toList ++ []) h)).1

end Formula

/-! ## Expected formulas -/

/-- **A formula was expected**, and the diagnostic says so: the line does not
state what its rule yields, the premise is not what the cited implication calls
for, or the last line is not the proposition. -/
inductive Expects : Diagnostic → Formula → Prop where
  | statement {s : Site} {defect : Defect} {expected : Formula}
      {cited : Option Location} {d : Diagnostic}
      (h : s.checkStatement defect expected cited = .error d) :
      Expects d expected
  | premise {s : Site} {implication premise : Option String}
      {antecedent consequent found : Formula} {d : Diagnostic}
      (himplication : s.citedLine implication "reference1" =
        .ok (antecedent.implies consequent))
      (hpremise : s.citedLine premise "reference2" = .ok found)
      (hdiffers : found ≠ antecedent)
      (h : s.checkModusPonens implication premise = .error d) :
      Expects d antecedent
  | proposition {location : Location} {proposition : Formula}
      {lines : List Line} {d : Diagnostic} (hlines : lines ≠ [])
      (h : d ∈ (checkLast location proposition lines).errors) :
      Expects d proposition

/-- The detail displays the formula that was expected. -/
theorem Expects.detail_eq {d : Diagnostic} {f : Formula} (h : Expects d f) :
    d.detail = some ("expected " ++ f.text) := by
  cases h with
  | statement h =>
    rw [Site.checkStatement] at h
    split at h
    · cases h
    · cases h
      rfl
  | @premise s implication premise _ consequent found _
      himplication hpremise hdiffers h =>
    have hsides :
        s.citedImplication (f.implies consequent) implication "reference1" =
          .ok (f, consequent) := rfl
    have htest : decide (found = f) = false := decide_eq_false hdiffers
    rw [Site.checkModusPonens, himplication, hpremise] at h
    simp only [bind, Except.bind, hsides, htest] at h
    cases h
    rfl
  | proposition hlines h =>
    rw [checkLast] at h
    split at h
    next hlast => exact absurd (List.getLast?_eq_none_iff.1 hlast) hlines
    · split at h
      · cases h
      · obtain rfl := List.mem_singleton.1 h
        rfl

/-- **Displayed formulas are unambiguous.**  Formulas without quotes in their
names that are displayed alike are equal.  So two diagnostics that expect
different formulas never say the same about what was expected. -/
theorem display_unambiguous :
    (∀ f g : Formula, f.Unquoted → g.Unquoted → f.text = g.text → f = g) ∧
    ∀ (d d' : Diagnostic) (f g : Formula), Expects d f → Expects d' g →
      f.Unquoted → g.Unquoted → d.detail = d'.detail → f = g := by
  refine ⟨fun f g hf hg htext => Formula.text_inj hf hg htext, ?_⟩
  intro d d' f g hexpects hexpects' hf hg hdetail
  rw [hexpects.detail_eq, hexpects'.detail_eq, Option.some.injEq] at hdetail
  have htext : f.text = g.text := by
    have hlist := congrArg String.toList hdetail
    rw [String.toList_append, String.toList_append] at hlist
    exact String.toList_inj.1 (List.append_cancel_left hlist)
  exact Formula.text_inj hf hg htext

-- A quote in a name spoils it.
example : Formula.text (.node .conjunction [.atom "a\", \"b"]) =
    Formula.text (.node .conjunction [.atom "a", .atom "b"]) := by
  decide

namespace CommaInName

/-- One name with a comma in it. -/
def joined : Formula :=
  .node .conjunction [.atom "a, b"]

/-- Two names. -/
def separate : Formula :=
  .node .conjunction [.atom "a", .atom "b"]

/-- What is reported when the last line differs from the proposition at the
root. -/
def complaint (expected : Formula) : Diagnostic where
  defect := .propositionDiffers
  location := ⟨"m", "p.line[0].formula"⟩
  detail := some ("expected " ++ expected.text)

/-- One name with a comma and two names are displayed differently, and so are
the complaints that expect them. -/
theorem told_apart :
    joined.Unquoted ∧ separate.Unquoted ∧ joined.text ≠ separate.text ∧
      Expects (complaint joined) joined ∧
      Expects (complaint separate) separate ∧
      (complaint joined).detail ≠ (complaint separate).detail := by
  have hne : joined ≠ separate := by decide
  have hjoined : joined.Unquoted := .node _ (by simpa using .atom (by decide))
  have hseparate : separate.Unquoted :=
    .node _ (by simpa using ⟨.atom (by decide), .atom (by decide)⟩)
  have hexpects : Expects (complaint joined) joined :=
    @Expects.proposition ⟨"m", "p"⟩ joined [⟨none, some separate, none⟩] _
      (by simp) (by decide +kernel)
  have hexpects' : Expects (complaint separate) separate :=
    @Expects.proposition ⟨"m", "p"⟩ separate [⟨none, some joined, none⟩] _
      (by simp) (by decide +kernel)
  obtain ⟨htext, hdetail⟩ := display_unambiguous
  exact ⟨hjoined, hseparate,
    fun h => hne (htext _ _ hjoined hseparate h), hexpects, hexpects',
    fun h => hne (hdetail _ _ _ _ hexpects hexpects' hjoined hseparate h)⟩

end CommaInName

end Deduction
