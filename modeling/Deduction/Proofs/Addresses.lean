import Deduction.Line.Document
import Deduction.Proofs.Blocks
import Mathlib.Data.List.Nodup

/-!
# Every node has a place of its own

An **address** leads from the place of a proof to one of its nodes, in steps to
fields and items: to a line, inside any number of conditional proofs, to a field
of it, a part of its reason, or a subformula of a formula in it.  The addresses
of all nodes are listed by going through the proof (`proofNodes`).

Below a node the addresses **branch**: they go on with one of the steps to its
children.  If no two children have the same step, and their addresses are
distinct, then so are those of the node (`apart_branch`).  For a proof this is
checked one kind of line, reason and formula at a time, and since steps can be
read off the text of a location, no two nodes are located by the same text.
-/

namespace Deduction

open Location (Step Clear)

/-- Steps from a node to one below it. -/
abbrev Address := List Step

/-- The addresses of a node and of all that is below it, from the steps to its
children and the addresses below each of them. -/
def branch (children : List (Step × List Address)) : List Address :=
  [] :: children.flatMap fun child => child.2.map (child.1 :: ·)

/-- The children that are fields. -/
def fields (parts : List (String × List Address)) :
    List (Step × List Address) :=
  parts.map fun part => (.field part.1, part.2)

/-- The children that are the items of an indexed field. -/
def numbered (name : String) (items : List (List Address)) :
    List (Step × List Address) :=
  items.zipIdx.map fun item => (.item name item.2, item.1)

/-! ## The nodes of a proof -/

mutual

/-- The addresses of the subformulas of a formula. -/
def Formula.nodes : Formula → List Address
  | .atom _ => branch []
  | .node _ cs => branch (numbered "element" (Formula.nodesAll cs))

/-- The addresses in each formula of a list. -/
def Formula.nodesAll : List Formula → List (List Address)
  | [] => []
  | f :: fs => f.nodes :: Formula.nodesAll fs

end

/-- The addresses in a part that may hold a formula. -/
def Formula.nodes? : Option Formula → List Address
  | none => branch []
  | some f => f.nodes

/-- The addresses in a hypothesis. -/
def Hypothesis.nodes (h : Hypothesis) : List Address :=
  branch (fields [("label", branch []), ("formula", Formula.nodes? h.formula)])

mutual

/-- The parts of a reason, and the lines of a conditional proof. -/
def Reason.branches : Reason → List (Step × List Address)
  | .add _ => fields [("reference", branch [])]
  | .rename _ current replacement _ =>
    fields [("reference", branch []), ("original", Formula.nodes? current),
      ("replacement", Formula.nodes? replacement), ("occurrence", branch [])]
  | .modusPonens _ _ =>
    fields [("reference1", branch []), ("reference2", branch [])]
  | .substFree _ subject substitute =>
    fields [("reference", branch []),
      ("subject_variable", Formula.nodes? subject),
      ("substitute_term", Formula.nodes? substitute)]
  | .substPredicate _ template substitute =>
    fields [("reference", branch []),
      ("predicate_variable", Formula.nodes? template),
      ("substitute_formula", Formula.nodes? substitute)]
  | .substFunction _ template substitute =>
    fields [("reference", branch []),
      ("function_variable", Formula.nodes? template),
      ("substitute_term", Formula.nodes? substitute)]
  | .universal _ subject | .existential _ subject =>
    fields [("reference", branch []),
      ("subject_variable", Formula.nodes? subject)]
  | .conditionalProof hypothesis lines =>
    fields [("hypothesis", hypothesis.nodes), ("lines", branch [])] ++
      numbered "line" (Line.nodesAll lines)

/-- The addresses in a reason, if there is one. -/
def Reason.nodes? : Option Reason → List Address
  | none => branch []
  | some reason => branch reason.branches

/-- The addresses in a line. -/
def Line.nodes : Line → List Address
  | ⟨_, formula, reason⟩ =>
    branch (fields [("label", branch []), ("formula", Formula.nodes? formula),
      ("reason", Reason.nodes? reason)])

/-- The addresses in each line of a list. -/
def Line.nodesAll : List Line → List (List Address)
  | [] => []
  | line :: lines => line.nodes :: Line.nodesAll lines

end

/-- **The addresses of all nodes of a proof.** -/
def proofNodes (lines : List Line) : List Address :=
  branch (numbered "line" (Line.nodesAll lines))

theorem Formula.nodesAll_eq_map (fs : List Formula) :
    Formula.nodesAll fs = fs.map nodes := by
  induction fs with
  | nil => rfl
  | cons f fs ih => rw [nodesAll, ih, List.map_cons]

theorem Line.nodesAll_eq_map (lines : List Line) :
    Line.nodesAll lines = lines.map nodes := by
  induction lines with
  | nil => rfl
  | cons line lines ih => rw [nodesAll, ih, List.map_cons]

/-! ## Branches -/

/-- An address below a node ends there or goes on to a child. -/
theorem mem_branch {children : List (Step × List Address)} {address : Address} :
    address ∈ branch children ↔
      address = [] ∨ ∃ s below, (s, below) ∈ children ∧
        ∃ rest ∈ below, address = s :: rest := by
  simp [branch, eq_comm]

/-- The items of an indexed field are reached by their numbers. -/
theorem mem_numbered {name : String} {items : List (List Address)} {s : Step}
    {below : List Address} :
    (s, below) ∈ numbered name items ↔
      ∃ i, items[i]? = some below ∧ s = .item name i := by
  simp only [numbered, List.mem_map, Prod.exists,
    List.mk_mem_zipIdx_iff_getElem?, Prod.mk.injEq]
  constructor
  · rintro ⟨below', i, hi, rfl, rfl⟩
    exact ⟨i, hi, rfl⟩
  · rintro ⟨i, hi, rfl⟩
    exact ⟨below, i, hi, rfl, rfl⟩

/-- With more children there are more addresses. -/
theorem branch_subset {children children' : List (Step × List Address)}
    (h : children ⊆ children') :
    branch children ⊆ branch children' := by
  intro address haddress
  rw [mem_branch] at haddress ⊢
  rcases haddress with hroot | ⟨s, below, hchild, hrest⟩
  · exact .inl hroot
  · exact .inr ⟨s, below, h hchild, hrest⟩

/-- An address in a part goes on from the field of that name. -/
theorem cons_mem_branch_fields {parts : List (String × List Address)}
    {name : String} {below : List Address} {rest : Address}
    (hpart : (name, below) ∈ parts) (hrest : rest ∈ below) :
    .field name :: rest ∈ branch (fields parts) :=
  mem_branch.2 (.inr ⟨_, below, List.mem_map_of_mem hpart, rest, hrest, rfl⟩)

/-- An address in an item goes on from its number. -/
theorem cons_mem_branch_numbered {items : List (List Address)} {name : String}
    {i : Nat} {below : List Address} {rest : Address}
    (hitem : items[i]? = some below) (hrest : rest ∈ below) :
    .item name i :: rest ∈ branch (numbered name items) :=
  mem_branch.2 (.inr
    ⟨_, below, mem_numbered.2 ⟨i, hitem, rfl⟩, rest, hrest, rfl⟩)

/-- The node itself has the empty address. -/
theorem nil_mem_branch (children : List (Step × List Address)) :
    [] ∈ branch children :=
  List.mem_cons_self

/-- Distinct addresses, whose steps can be read off the text of a location. -/
structure Apart (addresses : List Address) : Prop where
  distinct : addresses.Nodup
  clear : ∀ address ∈ addresses, ∀ s ∈ address, Clear s.name

/-- Children with a step of their own. -/
structure ApartBelow (children : List (Step × List Address)) : Prop where
  distinct : (children.map Prod.fst).Nodup
  clear : ∀ child ∈ children, Clear child.1.name
  below : ∀ child ∈ children, Apart child.2

/-- **Addresses are apart below a node** if they are below its children, and the
steps to these are distinct. -/
theorem apart_branch {children : List (Step × List Address)}
    (h : ApartBelow children) :
    Apart (branch children) := by
  refine ⟨List.nodup_cons.2 ⟨by simp, List.nodup_flatMap.2 ⟨?_, ?_⟩⟩, ?_⟩
  · intro child hchild
    exact (h.below child hchild).distinct.map fun a b hab =>
      (List.cons.inj hab).2
  · have hdistinct := h.distinct
    rw [List.Nodup, List.pairwise_map] at hdistinct
    refine hdistinct.imp ?_
    intro child child' hne address hfirst hsecond
    obtain ⟨rest, -, rfl⟩ := List.mem_map.1 hfirst
    obtain ⟨rest', -, heq⟩ := List.mem_map.1 hsecond
    exact hne (List.cons.inj heq).1.symm
  · intro address haddress s hs
    rcases mem_branch.1 haddress with rfl | ⟨t, below, hchild, rest, hrest, rfl⟩
    · cases hs
    · rcases List.mem_cons.1 hs with rfl | hs
      · exact h.clear _ hchild
      · exact (h.below _ hchild).clear rest hrest s hs

theorem apartBelow_nil : ApartBelow [] :=
  ⟨List.nodup_nil, by simp, by simp⟩

/-- Two groups of children are apart if no step leads into both. -/
theorem ApartBelow.append {first second : List (Step × List Address)}
    (hfirst : ApartBelow first) (hsecond : ApartBelow second)
    (hdisjoint : (first.map Prod.fst).Disjoint (second.map Prod.fst)) :
    ApartBelow (first ++ second) := by
  refine ⟨?_, ?_, ?_⟩
  · rw [List.map_append]
    exact hfirst.distinct.append hsecond.distinct hdisjoint
  · exact List.forall_mem_append.2 ⟨hfirst.clear, hsecond.clear⟩
  · exact List.forall_mem_append.2 ⟨hfirst.below, hsecond.below⟩

/-- Fields are told apart by their names, which are to be given. -/
theorem apartBelow_fields {parts : List (String × List Address)}
    (names : List String) (hparts : parts.map Prod.fst = names)
    (hnames : names.Nodup ∧ ∀ name ∈ names, Clear name)
    (hbelow : ∀ below ∈ parts.map Prod.snd, Apart below) :
    ApartBelow (fields parts) := by
  subst hparts
  refine ⟨?_, ?_, ?_⟩
  · have hsteps : (fields parts).map Prod.fst =
        (parts.map Prod.fst).map Step.field := by
      rw [fields, List.map_map, List.map_map]
      rfl
    rw [hsteps]
    exact hnames.1.map fun a b hab => Step.field.inj hab
  · intro child hchild
    obtain ⟨part, hpart, rfl⟩ := List.mem_map.1 hchild
    exact hnames.2 _ (List.mem_map_of_mem hpart)
  · intro child hchild
    obtain ⟨part, hpart, rfl⟩ := List.mem_map.1 hchild
    exact hbelow _ (List.mem_map_of_mem hpart)

/-- Items are told apart by their numbers. -/
theorem apartBelow_numbered {name : String} {items : List (List Address)}
    (hname : Clear name) (h : ∀ below ∈ items, Apart below) :
    ApartBelow (numbered name items) := by
  refine ⟨?_, ?_, ?_⟩
  · have hsteps : (numbered name items).map Prod.fst =
        (List.range' 0 items.length).map (Step.item name) := by
      rw [numbered, List.map_map, ← List.zipIdx_map_snd, List.map_map]
      rfl
    rw [hsteps]
    exact (List.nodup_range' 1).map fun i j hij => (Step.item.inj hij).2
  · rintro ⟨s, below⟩ hchild
    obtain ⟨i, -, rfl⟩ := mem_numbered.1 hchild
    exact hname
  · rintro ⟨s, below⟩ hchild
    obtain ⟨i, hi, -⟩ := mem_numbered.1 hchild
    exact h below (List.mem_of_getElem? hi)

/-- No step leads to a field and to an item as well. -/
theorem disjoint_fields_numbered (parts : List (String × List Address))
    (name : String) (items : List (List Address)) :
    ((fields parts).map Prod.fst).Disjoint
      ((numbered name items).map Prod.fst) := by
  intro s hfield hitem
  simp only [fields, numbered, List.map_map, List.mem_map,
    Function.comp_apply] at hfield hitem
  obtain ⟨part, -, rfl⟩ := hfield
  obtain ⟨item, -, heq⟩ := hitem
  cases heq

/-! ## Formulas, reasons and lines -/

theorem apart_leaf : Apart (branch []) :=
  apart_branch apartBelow_nil

/-- Subformulas have addresses of their own. -/
theorem Formula.apart_nodes (f : Formula) : Apart f.nodes := by
  induction f using Formula.induct with
  | atom name => exact apart_leaf
  | node op cs ih =>
    rw [nodes, nodesAll_eq_map]
    refine apart_branch (apartBelow_numbered (by decide) ?_)
    intro below hbelow
    obtain ⟨c, hc, rfl⟩ := List.mem_map.1 hbelow
    exact ih c hc

/-- The same holds where a formula may be missing. -/
theorem Formula.apart_nodes? (f : Option Formula) : Apart (nodes? f) := by
  cases f with
  | none => exact apart_leaf
  | some f => exact f.apart_nodes

/-- The parts of a hypothesis have addresses of their own. -/
theorem Hypothesis.apart_nodes (h : Hypothesis) : Apart h.nodes :=
  apart_branch (apartBelow_fields ["label", "formula"] rfl (by decide)
    (by simp [apart_leaf, Formula.apart_nodes?]))

mutual

/-- **Reasons.**  Whatever its kind, the parts of a reason have steps of their
own. -/
theorem Reason.apartBelow_branches :
    ∀ reason : Reason, ApartBelow reason.branches
  | .add _ =>
    apartBelow_fields ["reference"] rfl (by decide) (by simp [apart_leaf])
  | .rename .. =>
    apartBelow_fields ["reference", "original", "replacement", "occurrence"]
      rfl (by decide) (by simp [apart_leaf, Formula.apart_nodes?])
  | .modusPonens .. =>
    apartBelow_fields ["reference1", "reference2"] rfl (by decide)
      (by simp [apart_leaf])
  | .substFree .. =>
    apartBelow_fields ["reference", "subject_variable", "substitute_term"]
      rfl (by decide) (by simp [apart_leaf, Formula.apart_nodes?])
  | .substPredicate .. =>
    apartBelow_fields ["reference", "predicate_variable", "substitute_formula"]
      rfl (by decide) (by simp [apart_leaf, Formula.apart_nodes?])
  | .substFunction .. =>
    apartBelow_fields ["reference", "function_variable", "substitute_term"]
      rfl (by decide) (by simp [apart_leaf, Formula.apart_nodes?])
  | .universal .. | .existential .. =>
    apartBelow_fields ["reference", "subject_variable"] rfl (by decide)
      (by simp [apart_leaf, Formula.apart_nodes?])
  | .conditionalProof hypothesis lines => by
    have hparts : ApartBelow
        (fields [("hypothesis", hypothesis.nodes), ("lines", branch [])]) :=
      apartBelow_fields ["hypothesis", "lines"] rfl (by decide)
        (by simp [apart_leaf, hypothesis.apart_nodes])
    rw [Reason.branches]
    exact hparts.append
      (apartBelow_numbered (by decide) (Line.apart_nodesAll lines))
      (disjoint_fields_numbered _ _ _)

/-- The parts of a reason have addresses of their own, if there is one. -/
theorem Reason.apart_nodes? :
    ∀ reason : Option Reason, Apart (Reason.nodes? reason)
  | none => apart_leaf
  | some reason => apart_branch reason.apartBelow_branches

/-- **Lines.**  All nodes of a line have addresses of their own. -/
theorem Line.apart_nodes : ∀ line : Line, Apart line.nodes
  | ⟨_, _, reason⟩ =>
    apart_branch (apartBelow_fields ["label", "formula", "reason"] rfl
      (by decide)
      (by simp [apart_leaf, Formula.apart_nodes?, Reason.apart_nodes? reason]))

/-- All nodes of each line of a list have addresses of their own. -/
theorem Line.apart_nodesAll :
    ∀ lines : List Line, ∀ below ∈ Line.nodesAll lines, Apart below
  | [], below, hbelow => by
    rw [Line.nodesAll] at hbelow
    cases hbelow
  | line :: lines, below, hbelow => by
    rw [Line.nodesAll] at hbelow
    rcases List.mem_cons.1 hbelow with rfl | hbelow
    · exact line.apart_nodes
    · exact Line.apart_nodesAll lines below hbelow

end

/-- **The addresses of all nodes of a proof are apart.** -/
theorem apart_proofNodes (lines : List Line) : Apart (proofNodes lines) :=
  apart_branch (apartBelow_numbered (by decide) (Line.apart_nodesAll lines))

/-! ## Nothing is left out -/

/-- Every subformula has an address, given by its path. -/
theorem Formula.mem_nodes_of_subformula? {f g : Formula} {path : Path}
    (h : f.subformula? path = some g) :
    path.map (.item "element") ∈ f.nodes := by
  induction path generalizing f with
  | nil => cases f <;> exact nil_mem_branch _
  | cons i path ih =>
    cases f with
    | atom name => cases h
    | node op cs =>
      obtain ⟨c, hc, hsub⟩ := Option.bind_eq_some_iff.1 h
      have hitem : (Formula.nodesAll cs)[i]? = some c.nodes := by
        rw [nodesAll_eq_map, List.getElem?_map, hc]
        rfl
      rw [nodes]
      exact cons_mem_branch_numbered hitem (ih hsub)

theorem Formula.nil_mem_nodes? (f : Option Formula) : [] ∈ nodes? f := by
  cases f with
  | none => exact nil_mem_branch _
  | some f => exact mem_nodes_of_subformula? (subformula?_nil f)

theorem Reason.nil_mem_nodes? (reason : Option Reason) :
    [] ∈ nodes? reason := by
  cases reason <;> exact nil_mem_branch _

/-- **The places of a line**: the line itself, its fields, the parts of its
reason, the fields of a hypothesis, and the subformulas of what is stated or
assumed. -/
inductive Line.HasPlace (line : Line) (place : Location) : Location → Prop where
  | line : HasPlace line place place
  | field {name : String} (hname : name ∈ ["label", "formula", "reason"]) :
      HasPlace line place (place.field name)
  | stated {f g : Formula} {path : Path} (hformula : line.formula = some f)
      (hpath : f.subformula? path = some g) :
      HasPlace line place ((place.field "formula").follow path)
  | part {reason : Reason} {name : String} (hreason : line.reason = some reason)
      (hname : name ∈ reason.parts.map Prod.fst) :
      HasPlace line place ((place.field "reason").field name)
  | hypothesis {h : Hypothesis} {lines : List Line} {name : String}
      (hreason : line.reason = some (.conditionalProof h lines))
      (hname : name ∈ ["label", "formula"]) :
      HasPlace line place
        (((place.field "reason").field "hypothesis").field name)
  | assumed {h : Hypothesis} {lines : List Line} {f g : Formula} {path : Path}
      (hreason : line.reason = some (.conditionalProof h lines))
      (hformula : h.formula = some f) (hpath : f.subformula? path = some g) :
      HasPlace line place
        ((((place.field "reason").field "hypothesis").field
          "formula").follow path)

/-- The fields of a conditional proof are among its branches. -/
theorem Reason.mem_of_fields {h : Hypothesis} {lines : List Line}
    {node : Address}
    (hnode : node ∈ branch
      (fields [("hypothesis", h.nodes), ("lines", branch [])])) :
    node ∈ branch (conditionalProof h lines).branches := by
  rw [branches]
  exact branch_subset (List.subset_append_left _ _) hnode

/-- So is what lies in its hypothesis. -/
theorem Reason.cons_mem_of_hypothesis {h : Hypothesis} {lines : List Line}
    {rest : Address} (hrest : rest ∈ h.nodes) :
    .field "hypothesis" :: rest ∈ branch (conditionalProof h lines).branches :=
  mem_of_fields (cons_mem_branch_fields (by simp) hrest)

/-- Below a conditional proof its lines have the addresses of a proof. -/
theorem Reason.mem_of_proofNodes {h : Hypothesis} {lines : List Line}
    {node : Address} (hnode : node ∈ proofNodes lines) :
    node ∈ branch (conditionalProof h lines).branches := by
  rw [branches]
  exact branch_subset (List.subset_append_right _ _) hnode

/-- The parts that a reason is written with are among its branches. -/
theorem Reason.part_mem_branches {reason : Reason} {name : String}
    (hname : name ∈ reason.parts.map Prod.fst) :
    [.field name] ∈ branch reason.branches := by
  have hfields : ∀ {parts : List (String × List Address)},
      name ∈ parts.map Prod.fst →
      (∀ below ∈ parts.map Prod.snd, [] ∈ below) →
      [.field name] ∈ branch (fields parts) := by
    intro parts hmem hbelow
    obtain ⟨⟨name, below⟩, hpart, rfl⟩ := List.mem_map.1 hmem
    exact cons_mem_branch_fields hpart
      (hbelow below (List.mem_map_of_mem hpart))
  cases reason with
  | conditionalProof h lines =>
    exact mem_of_fields
      (hfields hname (by simp [Hypothesis.nodes, nil_mem_branch]))
  | _ =>
    rw [branches]
    exact hfields hname (by simp [nil_mem_branch, Formula.nil_mem_nodes?])

theorem Line.nil_mem_nodes (line : Line) : [] ∈ line.nodes := by
  obtain ⟨label, formula, reason⟩ := line
  rw [nodes]
  exact nil_mem_branch _

/-- What lies in the formula of a line has an address that begins with it. -/
theorem Line.cons_mem_of_formula {line : Line} {f : Formula} {rest : Address}
    (hformula : line.formula = some f) (hrest : rest ∈ f.nodes) :
    .field "formula" :: rest ∈ line.nodes := by
  obtain ⟨label, formula, reason⟩ := line
  obtain rfl : formula = some f := hformula
  have hmem : rest ∈ Formula.nodes? (some f) := hrest
  rw [nodes]
  exact cons_mem_branch_fields (by simp) hmem

/-- What lies in the reason of a line lies in the line. -/
theorem Line.cons_mem_of_reason {line : Line} {reason : Reason} {rest : Address}
    (hreason : line.reason = some reason)
    (hrest : rest ∈ branch reason.branches) :
    .field "reason" :: rest ∈ line.nodes := by
  obtain ⟨label, formula, given⟩ := line
  obtain rfl : given = some reason := hreason
  have hmem : rest ∈ Reason.nodes? (some reason) := by
    rw [Reason.nodes?]
    exact hrest
  rw [nodes]
  exact cons_mem_branch_fields (by simp) hmem

/-- The three fields of a line have addresses, filled or not. -/
theorem Line.field_mem_nodes (line : Line) {name : String}
    (hname : name ∈ ["label", "formula", "reason"]) :
    [.field name] ∈ line.nodes := by
  obtain ⟨label, formula, reason⟩ := line
  rw [nodes]
  simp only [List.mem_cons, List.not_mem_nil, or_false] at hname
  rcases hname with rfl | rfl | rfl
  · exact cons_mem_branch_fields (by simp) (nil_mem_branch [])
  · exact cons_mem_branch_fields (by simp) (Formula.nil_mem_nodes? formula)
  · exact cons_mem_branch_fields (by simp) (Reason.nil_mem_nodes? reason)

/-- The two fields of a hypothesis have addresses, filled or not. -/
theorem Hypothesis.field_mem_nodes (h : Hypothesis) {name : String}
    (hname : name ∈ ["label", "formula"]) : [.field name] ∈ h.nodes := by
  simp only [List.mem_cons, List.not_mem_nil, or_false] at hname
  rcases hname with rfl | rfl
  · exact cons_mem_branch_fields (by simp) (nil_mem_branch [])
  · exact cons_mem_branch_fields (by simp) (Formula.nil_mem_nodes? h.formula)

/-- The same holds of the formula of a hypothesis. -/
theorem Hypothesis.cons_mem_of_formula {h : Hypothesis} {f : Formula}
    {rest : Address} (hformula : h.formula = some f) (hrest : rest ∈ f.nodes) :
    .field "formula" :: rest ∈ h.nodes := by
  have hmem : rest ∈ Formula.nodes? h.formula := by
    rw [hformula]
    exact hrest
  exact cons_mem_branch_fields (by simp) hmem

/-- Each place of a line is reached by one of its addresses. -/
theorem Line.HasPlace.exists_node {line : Line} {place target : Location}
    (h : line.HasPlace place target) :
    ∃ node ∈ line.nodes, place.walk node = target := by
  cases h with
  | line => exact ⟨[], line.nil_mem_nodes, rfl⟩
  | field hname => exact ⟨_, line.field_mem_nodes hname, rfl⟩
  | stated hformula hpath =>
    refine ⟨_, cons_mem_of_formula hformula
      (Formula.mem_nodes_of_subformula? hpath), ?_⟩
    rw [Location.follow_eq_walk]
    rfl
  | part hreason hname =>
    exact ⟨_, cons_mem_of_reason hreason (Reason.part_mem_branches hname), rfl⟩
  | @hypothesis h _ _ hreason hname =>
    exact ⟨_, cons_mem_of_reason hreason
      (Reason.cons_mem_of_hypothesis (h.field_mem_nodes hname)), rfl⟩
  | assumed hreason hformula hpath =>
    refine ⟨_, cons_mem_of_reason hreason (Reason.cons_mem_of_hypothesis
      (Hypothesis.cons_mem_of_formula hformula
        (Formula.mem_nodes_of_subformula? hpath))), ?_⟩
    rw [Location.follow_eq_walk]
    rfl

/-- Each line of a proof, however deep, has an address, and what is below it is
below it there. -/
theorem LineAt.exists_address {base place : Location} {lines : List Line}
    {line : Line} (h : LineAt base lines place line) :
    ∃ address, base.walk address = place ∧
      ∀ node ∈ line.nodes, address ++ node ∈ proofNodes lines := by
  have hitem : ∀ {lines : List Line} {line : Line} {i : Nat},
      lines[i]? = some line →
      (Line.nodesAll lines)[i]? = some line.nodes := by
    intro lines line i hline
    rw [Line.nodesAll_eq_map, List.getElem?_map, hline]
    rfl
  induction h with
  | @here base lines i line hline =>
    exact ⟨[.item "line" i], rfl, fun node hnode =>
      cons_mem_branch_numbered (hitem hline) hnode⟩
  | @inside base lines i _ _ _ _ _ _ hline _ ih =>
    obtain ⟨address, hwalk, hnodes⟩ := ih
    refine ⟨.item "line" i :: .field "reason" :: address, hwalk, ?_⟩
    intro node hnode
    exact cons_mem_branch_numbered (hitem hline)
      (Line.cons_mem_of_reason rfl
        (Reason.mem_of_proofNodes (hnodes node hnode)))

/-- **Locations are unambiguous.**  Below any place, the empty position
included, steps whose names are neither empty nor contain a dot or a bracket can
be read off the text of the location that they lead to; so the subformulas of a
formula are located by different texts.  In a proof no two nodes are located by
the same text, and among these nodes are all lines, inside any number of
conditional proofs, with all places of each line. -/
theorem locations_unambiguous (base : Location) :
    (∀ steps steps' : List Step, (∀ s ∈ steps, Clear s.name) →
      (∀ s ∈ steps', Clear s.name) →
      (base.walk steps).text = (base.walk steps').text → steps = steps') ∧
    (Function.Injective fun path => (base.follow path).text) ∧
    ∀ lines : List Line,
      ((proofNodes lines).map fun node => (base.walk node).text).Nodup ∧
      ∀ place line target, LineAt base lines place line →
        line.HasPlace place target →
        ∃ node ∈ proofNodes lines, base.walk node = target := by
  refine ⟨fun steps steps' => base.walk_text_injective,
    base.follow_text_injective, fun lines => ⟨?_, ?_⟩⟩
  · obtain ⟨hdistinct, hclear⟩ := apart_proofNodes lines
    refine hdistinct.map_on fun node hnode node' hnode' heq => ?_
    exact base.walk_text_injective (hclear node hnode) (hclear node' hnode') heq
  · intro place line target hline htarget
    obtain ⟨address, rfl, hnodes⟩ := hline.exists_address
    obtain ⟨node, hnode, rfl⟩ := htarget.exists_node
    exact ⟨address ++ node, hnodes node hnode, base.walk_append address node⟩

namespace NestedIdentity

open Formula (letter)

/-- The line `A`, by the hypothesis. -/
def inner : Line :=
  ⟨none, some (letter "A"), some (.add (some "h"))⟩

/-- A proof of `A → A` from the hypothesis `A`. -/
def lines : List Line :=
  [⟨none, some ((letter "A").implies (letter "A")),
    some (.conditionalProof ⟨some "h", some (letter "A")⟩ [inner])⟩]

/-- A module without a position in it. -/
def root : Location :=
  ⟨"m", ""⟩

/-- The place of the inner line. -/
def place : Location :=
  ((root.item "line" 0).field "reason").item "line" 0

/-- The inner line stands in the reason of the outer one. -/
theorem lineAt_inner : LineAt root lines place inner :=
  .inside rfl (.here rfl)

end NestedIdentity

/-- The name `A` in the inner line is a node of the proof, and numbers of
several digits are told from several numbers. -/
theorem nested_identity_located :
    (∃ node ∈ proofNodes NestedIdentity.lines,
      NestedIdentity.root.walk node =
        ⟨"m", "line[0].reason.line[0].formula.element[0]"⟩) ∧
    (NestedIdentity.root.walk [.item "line" 1, .item "line" 1]).text ≠
      (NestedIdentity.root.walk [.item "line" 11]).text := by
  obtain ⟨hread, -, hnodes⟩ := locations_unambiguous NestedIdentity.root
  refine ⟨?_, fun heq => ?_⟩
  · have hname : NestedIdentity.inner.HasPlace NestedIdentity.place
        ((NestedIdentity.place.field "formula").follow [0]) := .stated rfl rfl
    obtain ⟨node, hnode, hwalk⟩ :=
      (hnodes NestedIdentity.lines).2 _ _ _ NestedIdentity.lineAt_inner hname
    exact ⟨node, hnode, hwalk.trans (by decide +kernel)⟩
  · have hsteps := hread _ _ (by decide) (by decide) heq
    cases hsteps

end Deduction
