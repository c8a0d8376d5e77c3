import Deduction.Formula.Document
import Mathlib.Algebra.Order.Ring.Int
import Mathlib.Algebra.Order.Ring.WithTop
import Mathlib.Data.List.Forall2
import Mathlib.Data.List.Lex

/-!
# Reading formulas from documents

A document that describes a formula describes one only (`Describes`), and
reading finds it.  A document that describes none has offences, perhaps many of
them, and reading reports the first.

To say which comes first, each offence has a **place**.  The place of an offence
of a node itself is empty, one in the child with index `i` begins with `i`, and
a surplus key is found when all children are done: its place is `⊤`.  Places are
ordered like words in a dictionary, so the order is that of a walk depth first
and from left to right (`OffenceAt`).

A document is either an object with the tag of an operator over an array, the
only form that has others below it, or a **leaf** of the walk.
-/

namespace Deduction

/-- The document describes the formula. -/
inductive Describes : Document → Formula → Prop where
  | string (text : String) : Describes (.string text) (.atom text)
  | integer {n : Int} (hlow : -2 ^ 63 ≤ n) (hhigh : n ≤ 2 ^ 64 - 1) :
      Describes (.integer n) (.atom (toString n))
  | node {op : Operator} {tag : String} {items : List Document}
      {children : List Formula} (htag : op.tag = tag)
      (hitems : List.Forall₂ Describes items children) :
      Describes (.object [(tag, .array items)]) (.node op children)

/-- What is wrong with a document as a formula, and at which place of the
walk. -/
inductive OffenceAt : Document → List (WithTop ℕ) → FormulaFault → Prop where
  | null : OffenceAt .null [] .null
  | bool (value : Bool) : OffenceAt (.bool value) [] (.notElement (.bool value))
  | integer {n : Int} (h : n < -2 ^ 63 ∨ 2 ^ 64 - 1 < n) :
      OffenceAt (.integer n) [] (.notElement (.integer n))
  | decimal (text : String) :
      OffenceAt (.decimal text) [] (.notElement (.decimal text))
  | array (items : List Document) : OffenceAt (.array items) [] .bareSequence
  | empty : OffenceAt (.object []) [] .emptyMapping
  | unknownTag {tag : String} {body : Document}
      {rest : List (String × Document)} (h : ∀ op : Operator, op.tag ≠ tag) :
      OffenceAt (.object ((tag, body) :: rest)) [] (.unknownTag tag)
  | notSequence {op : Operator} {tag : String} {body : Document}
      {rest : List (String × Document)} (htag : op.tag = tag)
      (h : ∀ items, body ≠ .array items) :
      OffenceAt (.object ((tag, body) :: rest)) [] (.notSequence body)
  | child {op : Operator} {tag : String} {items : List Document}
      {rest : List (String × Document)} {i : ℕ} {d : Document}
      {place : List (WithTop ℕ)} {fault : FormulaFault} (htag : op.tag = tag)
      (hd : items[i]? = some d) (h : OffenceAt d place fault) :
      OffenceAt (.object ((tag, .array items) :: rest)) (i :: place) fault
  | surplusKey {op : Operator} {tag : String} {body : Document}
      {field : String × Document} {rest : List (String × Document)}
      (htag : op.tag = tag) :
      OffenceAt (.object ((tag, body) :: field :: rest)) [⊤] (.surplusKey op)

/-- The offence that the walk meets first. -/
def FirstOffence (d : Document) (place : List (WithTop ℕ))
    (fault : FormulaFault) : Prop :=
  OffenceAt d place fault ∧
    ∀ place' fault', OffenceAt d place' fault' → place ≤ place'

namespace Document

/-- **Induction along the walk**, which goes down only from a tag to the items
of an array. -/
theorem walkInduct {motive : Document → Prop}
    (leaf : ∀ d, (∀ (op : Operator) items rest,
      d ≠ .object ((op.tag, .array items) :: rest)) → motive d)
    (node : ∀ (op : Operator) items rest, (∀ d ∈ items, motive d) →
      motive (.object ((op.tag, .array items) :: rest))) : ∀ d, motive d
  | .object ((tag, .array items) :: rest) => by
    have hitems : ∀ d ∈ items, motive d := fun d _ => walkInduct leaf node d
    by_cases h : ∃ op : Operator, op.tag = tag
    · obtain ⟨op, rfl⟩ := h
      exact node op items rest hitems
    · refine leaf _ fun op items' rest' heq => h ⟨op, ?_⟩
      cases heq
      rfl
  | .null | .bool _ | .integer _ | .decimal _ | .string _ | .array _
  | .object [] | .object ((_, .null) :: _) | .object ((_, .bool _) :: _)
  | .object ((_, .integer _) :: _) | .object ((_, .decimal _) :: _)
  | .object ((_, .string _) :: _) | .object ((_, .object _) :: _) =>
    leaf _ (by simp)

end Document

namespace Formula

variable {d : Document} {f : Formula} {fault fault' : FormulaFault}
  {op : Operator} {items : List Document} {rest : List (String × Document)}
  {place : List (WithTop ℕ)}

/-! ## A list of documents -/

/-- A list is read when each of its documents is. -/
theorem ofDocuments_eq_ok_iff {R : Document → Formula → Prop}
    {ds : List Document} {fs : List Formula}
    (hR : ∀ d ∈ ds, ∀ f, ofDocument d = .ok f ↔ R d f) :
    ofDocuments ds = .ok fs ↔ List.Forall₂ R ds fs := by
  induction ds generalizing fs with
  | nil => simp [ofDocuments, eq_comm]
  | cons d ds ih =>
    have hfirst := hR d List.mem_cons_self
    have hrest := fun gs =>
      @ih gs fun d' hd' => hR d' (List.mem_cons_of_mem _ hd')
    simp only [ofDocuments, List.forall₂_cons_left_iff, ← hfirst, ← hrest]
    cases ofDocument d with
    | error fault => simp
    | ok f =>
      cases ofDocuments ds with
      | error fault => simp
      | ok gs => simp [eq_comm]

/-- If a list is read, so is each of its documents. -/
theorem exists_of_mem_of_ofDocuments_eq_ok {ds : List Document}
    {fs : List Formula} (h : ofDocuments ds = .ok fs) (hd : d ∈ ds) :
    ∃ f, ofDocument d = .ok f := by
  have hall := (ofDocuments_eq_ok_iff fun d _ f => Iff.rfl).1 h
  obtain ⟨i, hi, rfl⟩ := List.mem_iff_getElem.1 hd
  exact ⟨_, hall.get hi (hall.length_eq ▸ hi)⟩

/-- A list is rejected for the first of its documents that is. -/
theorem exists_of_ofDocuments_eq_error {ds : List Document}
    (h : ofDocuments ds = .error fault) :
    ∃ (i : ℕ) (d : Document), ds[i]? = some d ∧ ofDocument d = .error fault ∧
      ∀ j < i, ∀ d', ds[j]? = some d' → ∃ f, ofDocument d' = .ok f := by
  induction ds with
  | nil => cases h
  | cons d ds ih =>
    rw [ofDocuments] at h
    cases hd : ofDocument d with
    | error fault' =>
      rw [hd] at h
      cases h
      exact ⟨0, d, rfl, hd, by simp⟩
    | ok f =>
      have hds : ofDocuments ds = .error fault := by
        rw [hd] at h
        cases hds : ofDocuments ds with
        | error fault' => simpa [hds] using h
        | ok fs => simp [hds] at h
      obtain ⟨i, d', hi, hfault, hbefore⟩ := ih hds
      refine ⟨i + 1, d', hi, hfault, fun j hj e he => ?_⟩
      cases j with
      | zero =>
        cases he
        exact ⟨f, hd⟩
      | succ j => exact hbefore j (by omega) e he

/-! ## What is read -/

/-- **A node is read** if its children are and the operator is the only key. -/
theorem ofDocument_node_eq_ok_iff :
    ofDocument (.object ((op.tag, .array items) :: rest)) = .ok f ↔
      rest = [] ∧ ∃ children, ofDocuments items = .ok children ∧
        f = .node op children := by
  simp only [ofDocument, Operator.ofTag?_tag, childrenOfDocument]
  cases ofDocuments items with
  | error fault => simp
  | ok children => cases rest <;> simp [eq_comm]

/-- **A node is rejected** for the first fault of its children, and only then
for a further key. -/
theorem ofDocument_node_eq_error_iff :
    ofDocument (.object ((op.tag, .array items) :: rest)) = .error fault ↔
      ofDocuments items = .error fault ∨
        (∃ children, ofDocuments items = .ok children) ∧ rest ≠ [] ∧
          fault = .surplusKey op := by
  simp only [ofDocument, Operator.ofTag?_tag, childrenOfDocument]
  cases ofDocuments items with
  | error fault => simp
  | ok children => cases rest <;> simp [eq_comm]

/-- The integers that fit are those of 64 bits, with or without a sign. -/
theorem fits_iff {n : Int} :
    Document.fits n = true ↔ -2 ^ 63 ≤ n ∧ n ≤ 2 ^ 64 - 1 := by
  simp [Document.fits]

/-- A leaf of the walk is read at once, or it offends at once. -/
theorem ofDocument_leaf
    (hleaf : ∀ (op : Operator) items rest,
      d ≠ .object ((op.tag, .array items) :: rest)) :
    (∃ f, ofDocument d = .ok f ∧ Describes d f ∧
      ∀ place fault, ¬ OffenceAt d place fault) ∨
      ∃ fault, ofDocument d = .error fault ∧ OffenceAt d [] fault := by
  match d with
  | .null => exact .inr ⟨_, rfl, .null⟩
  | .bool value => exact .inr ⟨_, rfl, .bool value⟩
  | .decimal text => exact .inr ⟨_, rfl, .decimal text⟩
  | .array items => exact .inr ⟨_, rfl, .array items⟩
  | .object [] => exact .inr ⟨_, rfl, .empty⟩
  | .string text => exact .inl ⟨_, rfl, .string text, fun _ _ h => by cases h⟩
  | .integer n =>
    rw [ofDocument]
    by_cases hn : Document.fits n = true
    · rw [if_pos hn]
      obtain ⟨hlow, hhigh⟩ := fits_iff.1 hn
      refine .inl ⟨_, rfl, .integer hlow hhigh, fun place fault h => ?_⟩
      cases h
      omega
    · rw [if_neg hn]
      rw [fits_iff] at hn
      exact .inr ⟨_, rfl, .integer (by omega)⟩
  | .object ((tag, body) :: rest) =>
    rw [ofDocument]
    cases htag : Operator.ofTag? tag with
    | none =>
      refine .inr ⟨_, rfl, .unknownTag fun op hop => ?_⟩
      rw [← hop, Operator.ofTag?_tag] at htag
      cases htag
    | some op =>
      obtain rfl := Operator.tag_of_ofTag? htag
      have hbody : ∀ items, body ≠ .array items := by
        rintro items rfl
        exact hleaf op items rest rfl
      have hchildren :
          childrenOfDocument body = .error (.notSequence body) := by
        unfold childrenOfDocument
        split
        · exact absurd rfl (hbody _)
        · rfl
      rw [hchildren]
      exact .inr ⟨_, rfl, .notSequence rfl hbody⟩

/-- **What reading gives.** -/
theorem ofDocument_eq_ok_iff : ofDocument d = .ok f ↔ Describes d f := by
  induction d using Document.walkInduct generalizing f with
  | leaf d hleaf =>
    constructor
    · intro h
      rcases ofDocument_leaf hleaf with
        ⟨f', hf', hdescribes, -⟩ | ⟨fault, hfault, -⟩
      · rw [h] at hf'
        cases hf'
        exact hdescribes
      · rw [h] at hfault
        cases hfault
    · intro h
      cases h with
      | string text => rfl
      | integer hlow hhigh =>
        rw [ofDocument, if_pos (fits_iff.2 ⟨hlow, hhigh⟩)]
        rfl
      | node htag hitems =>
        subst htag
        exact absurd rfl (hleaf _ _ _)
  | node op items rest ih =>
    rw [ofDocument_node_eq_ok_iff]
    constructor
    · rintro ⟨rfl, children, hchildren, rfl⟩
      exact .node rfl
        ((ofDocuments_eq_ok_iff fun d hd f => ih d hd).1 hchildren)
    · intro h
      cases h with
      | @node op' _ _ children htag hitems =>
        obtain rfl := Operator.tag_injective htag
        exact ⟨rfl, children,
          (ofDocuments_eq_ok_iff fun d hd f => ih d hd).2 hitems, rfl⟩

/-- What is written can be read. -/
theorem describes_toDocument (f : Formula) : Describes f.toDocument f := by
  induction f using induct with
  | atom name => exact .string name
  | node op children ih =>
    rw [toDocument, toDocuments_eq_map]
    refine .node rfl (List.forall₂_map_left_iff.2 ?_)
    exact List.forall₂_same.2 ih

/-! ## What is reported -/

/-- At one place there is one thing wrong. -/
theorem offence_unique (h : OffenceAt d place fault)
    (h' : OffenceAt d place fault') : fault = fault' := by
  induction h with
  | null | bool | integer | decimal | array | empty => cases h'; rfl
  | unknownTag hnone =>
    cases h' with
    | unknownTag => rfl
    | notSequence htag => exact absurd htag (hnone _)
  | notSequence htag hbody =>
    cases h' with
    | unknownTag hnone => exact absurd htag (hnone _)
    | notSequence => rfl
  | child htag hd h ih =>
    cases h' with
    | child htag' hd' h' =>
      rw [hd] at hd'
      cases hd'
      exact ih h'
  | surplusKey htag =>
    cases h' with
    | surplusKey htag' => rw [Operator.tag_injective (htag.trans htag'.symm)]

theorem nil_le_place (place : List (WithTop ℕ)) : [] ≤ place := by
  cases place with
  | nil => exact le_rfl
  | cons => exact le_of_lt .nil

/-- What lies in an earlier child comes first. -/
theorem cons_le_cons_of_lt {i j : WithTop ℕ} (h : i < j)
    (place place' : List (WithTop ℕ)) :
    i :: place ≤ j :: place' :=
  le_of_lt (.rel h)

/-- The offences of a node are those of its children, and a surplus key. -/
theorem offenceAt_node_iff :
    OffenceAt (.object ((op.tag, .array items) :: rest)) place fault ↔
      (∃ (i : ℕ) (d : Document) (inner : List (WithTop ℕ)), items[i]? = some d ∧
        OffenceAt d inner fault ∧ place = (i : WithTop ℕ) :: inner) ∨
      rest ≠ [] ∧ place = [⊤] ∧ fault = .surplusKey op := by
  constructor
  · intro h
    cases h with
    | unknownTag hnone => exact absurd rfl (hnone op)
    | notSequence _ hbody => exact absurd rfl (hbody items)
    | child _ hd h => exact .inl ⟨_, _, _, hd, h, rfl⟩
    | surplusKey htag =>
      exact .inr ⟨List.cons_ne_nil _ _, rfl,
        by rw [Operator.tag_injective htag]⟩
  · rintro (⟨i, d, inner, hd, h, rfl⟩ | ⟨hrest, rfl, rfl⟩)
    · exact .child rfl hd h
    · obtain ⟨field, more, rfl⟩ := List.exists_cons_of_ne_nil hrest
      exact .surplusKey rfl

/-- What is read has no offence, and what is not read is reported for its
first. -/
theorem ofDocument_offence (d : Document) :
    (∀ f, ofDocument d = .ok f → ∀ place fault, ¬ OffenceAt d place fault) ∧
      ∀ fault, ofDocument d = .error fault →
        ∃ place, FirstOffence d place fault := by
  induction d using Document.walkInduct with
  | leaf d hleaf =>
    rcases ofDocument_leaf hleaf with
      ⟨f, hf, -, hnone⟩ | ⟨fault, hfault, hoffence⟩
    · refine ⟨fun _ _ => hnone, fun fault hfault => ?_⟩
      rw [hf] at hfault
      cases hfault
    · refine ⟨fun f hf => ?_, fun fault' hfault' =>
        ⟨[], ?_, fun place _ _ => nil_le_place place⟩⟩
      · rw [hfault] at hf
        cases hf
      · rw [hfault] at hfault'
        cases hfault'
        exact hoffence
  | node op items rest ih =>
    -- Once all items are read, none of them has an offence.
    have hchildren : ∀ children, ofDocuments items = .ok children →
        ∀ (i : ℕ) d, items[i]? = some d →
          ∀ place fault, ¬ OffenceAt d place fault := by
      intro children hchildren i d hi
      have hd := List.mem_of_getElem? hi
      obtain ⟨f, hf⟩ := exists_of_mem_of_ofDocuments_eq_ok hchildren hd
      exact (ih d hd).1 f hf
    constructor
    · intro f hf place fault h
      obtain ⟨rfl, children, hok, -⟩ := ofDocument_node_eq_ok_iff.1 hf
      rcases offenceAt_node_iff.1 h with ⟨i, d, inner, hi, h, -⟩ | ⟨hrest, -⟩
      · exact hchildren children hok i d hi inner fault h
      · exact hrest rfl
    · intro fault hfault
      rcases ofDocument_node_eq_error_iff.1 hfault with
        hlist | ⟨⟨children, hok⟩, hrest, rfl⟩
      · obtain ⟨i, d, hi, hd, hbefore⟩ := exists_of_ofDocuments_eq_error hlist
        obtain ⟨inner, hoffence, hfirst⟩ :=
          (ih d (List.mem_of_getElem? hi)).2 fault hd
        refine ⟨i :: inner, .child rfl hi hoffence, fun place' fault' h' => ?_⟩
        rcases offenceAt_node_iff.1 h' with
          ⟨j, e, inner', hj, he, rfl⟩ | ⟨-, rfl, -⟩
        · rcases Nat.lt_trichotomy j i with hlt | rfl | hgt
          · obtain ⟨g, hg⟩ := hbefore j hlt e hj
            exact absurd he ((ih e (List.mem_of_getElem? hj)).1 g hg _ _)
          · rw [hi] at hj
            cases hj
            exact List.cons_le_cons _ (hfirst inner' fault' he)
          · exact cons_le_cons_of_lt (WithTop.coe_lt_coe.2 hgt) _ _
        · exact cons_le_cons_of_lt (WithTop.coe_lt_top i) _ _
      · refine ⟨[⊤], offenceAt_node_iff.2 (.inr ⟨hrest, rfl, rfl⟩), ?_⟩
        intro place' fault' h'
        rcases offenceAt_node_iff.1 h' with
          ⟨i, d, inner, hi, hd, -⟩ | ⟨-, rfl, -⟩
        · exact absurd hd (hchildren children hok i d hi inner fault')
        · exact le_rfl

/-- **What reading reports.** -/
theorem ofDocument_eq_error_iff :
    ofDocument d = .error fault ↔ ∃ place, FirstOffence d place fault := by
  constructor
  · exact (ofDocument_offence d).2 fault
  · rintro ⟨place, hoffence, hfirst⟩
    cases hd : ofDocument d with
    | ok f => exact absurd hoffence ((ofDocument_offence d).1 f hd place fault)
    | error fault' =>
      obtain ⟨place', hoffence', hfirst'⟩ := (ofDocument_offence d).2 fault' hd
      obtain rfl := le_antisymm (hfirst place' fault' hoffence')
        (hfirst' place fault hoffence)
      rw [offence_unique hoffence hoffence']

end Formula

/-- **Reading accepts exactly its format.**  What is written is read back; a
document is read as a formula exactly when it describes that formula; and it is
rejected with a fault exactly when that is the first of its offences. -/
theorem formula_reading_exact :
    (∀ f : Formula, Formula.ofDocument f.toDocument = .ok f) ∧
      (∀ d f, Formula.ofDocument d = .ok f ↔ Describes d f) ∧
      ∀ d fault, Formula.ofDocument d = .error fault ↔
        ∃ place, OffenceAt d place fault ∧
          ∀ place' fault', OffenceAt d place' fault' → place ≤ place' := by
  refine ⟨fun f => ?_, fun d f => Formula.ofDocument_eq_ok_iff,
    fun d fault => ?_⟩
  · exact Formula.ofDocument_eq_ok_iff.2 f.describes_toDocument
  · exact Formula.ofDocument_eq_error_iff

end Deduction
