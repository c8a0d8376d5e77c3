import Deduction.Line.Document
import Deduction.Proofs.FormulaReading
import Deduction.Proofs.Steps

/-!
# Reading proof lines from documents

`Line.WrittenAs` is the written form of a line, said without the reader.  An
object is described by its **slots**: for each key that it may have, what may be
found there.  The fields stand in any order, and a part that is absent is left
out or null.  Three parts are never null, but have a default for which they may
be left out: the occurrence of a renaming, and the hypothesis and the lines of a
conditional proof.

Reading accepts exactly the written forms.  A document with a stray key, however
deep, is none of them (`Stray`).
-/

namespace Deduction

/-! ## The written form -/

/-- What may be found under a key, if anything is. -/
abbrev Slot := Option Document → Prop

namespace Slot

/-- A part that may be absent: it is then left out or null. -/
def optional {α : Type} (written : α → Document → Prop) : Option α → Slot
  | none, found => found = none ∨ found = some .null
  | some a, found => ∃ d, found = some d ∧ written a d

/-- A part that is a text. -/
def text : Option String → Slot :=
  optional fun text d => d = .string text

/-- A part that is a formula. -/
def formula : Option Formula → Slot :=
  optional fun f d => Describes d f

/-- A part that is not null, but may be left out if it is the default. -/
def defaulted (written : Document → Prop) (isDefault : Prop) : Slot :=
  fun found => (∃ d, found = some d ∧ written d) ∨ isDefault ∧ found = none

end Slot

/-- The fields are those of an object with the given slots. -/
structure Fields.Fill (fields : Fields) (slots : List (String × Slot)) :
    Prop where
  known : ∀ field ∈ fields, field.1 ∈ slots.map Prod.fst
  distinct : (fields.map Prod.fst).Nodup
  filled : ∀ slot ∈ slots, slot.2 (fields.lookup slot.1)

/-- The document writes the hypothesis. -/
def Hypothesis.WrittenAs (h : Hypothesis) (d : Document) : Prop :=
  ∃ fields : Fields, d = .object fields ∧
    fields.Fill [("label", .text h.label), ("formula", .formula h.formula)]

mutual

/-- The fields are the parts of a reason. -/
def Reason.WrittenAs : Reason → Fields → Prop
  | .add reference, parts => parts.Fill [("reference", .text reference)]
  | .rename reference current replacement occurrence, parts =>
    parts.Fill [("reference", .text reference), ("original", .formula current),
      ("replacement", .formula replacement),
      ("occurrence", .defaulted (· = .integer occurrence.toNat)
        (occurrence = 0))]
  | .modusPonens implication premise, parts =>
    parts.Fill [("reference1", .text implication),
      ("reference2", .text premise)]
  | .substFree reference subject substitute, parts =>
    parts.Fill [("reference", .text reference),
      ("subject_variable", .formula subject),
      ("substitute_term", .formula substitute)]
  | .substPredicate reference template substitute, parts =>
    parts.Fill [("reference", .text reference),
      ("predicate_variable", .formula template),
      ("substitute_formula", .formula substitute)]
  | .substFunction reference template substitute, parts =>
    parts.Fill [("reference", .text reference),
      ("function_variable", .formula template),
      ("substitute_term", .formula substitute)]
  | .universal reference subject, parts
  | .existential reference subject, parts =>
    parts.Fill [("reference", .text reference),
      ("subject_variable", .formula subject)]
  | .conditionalProof hypothesis lines, parts =>
    parts.Fill [
      ("hypothesis", .defaulted hypothesis.WrittenAs (hypothesis = {})),
      ("lines", .defaulted
        (fun d => ∃ items, d = .array items ∧ Line.AllWrittenAs lines items)
        (lines = []))]

/-- A reason is an object with one field: its kind, and the object of its
parts. -/
def Reason.slot : Option Reason → Slot
  | none, found => found = none ∨ found = some .null
  | some reason, found => ∃ parts,
    found = some (.object [(reason.kind, .object parts)]) ∧
      reason.WrittenAs parts

/-- The document writes the line. -/
def Line.WrittenAs : Line → Document → Prop
  | ⟨label, formula, reason⟩, d => ∃ fields : Fields, d = .object fields ∧
    fields.Fill [("label", .text label), ("formula", .formula formula),
      ("reason", Reason.slot reason)]

/-- The documents write the lines, one by one. -/
def Line.AllWrittenAs : List Line → List Document → Prop
  | [], ds => ds = []
  | line :: lines, ds =>
    ∃ d rest, ds = d :: rest ∧ line.WrittenAs d ∧ Line.AllWrittenAs lines rest

end

/-! ## Fields -/

namespace Fields

variable {fields : Fields} {slots : List (String × Slot)} {key : String}
  {d : Document}

/-- No key comes again exactly when the keys are distinct. -/
theorem repeated?_eq_none_iff :
    fields.repeated? = none ↔ (fields.map Prod.fst).Nodup := by
  induction fields with
  | nil => simp [repeated?]
  | cons field rest ih =>
    obtain ⟨key, d⟩ := field
    rw [repeated?, List.map_cons, List.nodup_cons, ← ih]
    by_cases h : rest.any (·.1 = key) = true
    · have hmem : key ∈ rest.map Prod.fst := by simpa using h
      simp [h, hmem]
    · have hmem : key ∉ rest.map Prod.fst := by simpa using h
      simp [h, hmem]

/-- Fields are accepted if their keys are known and distinct. -/
theorem restrict_eq_ok_iff {keys : List String} :
    fields.restrict keys = .ok () ↔
      (∀ field ∈ fields, field.1 ∈ keys) ∧ (fields.map Prod.fst).Nodup := by
  rw [restrict, ← repeated?_eq_none_iff]
  cases hfind : fields.find? (!keys.contains ·.1) with
  | some field =>
    have hfield := List.find?_some hfind
    have hmem := List.mem_of_find?_eq_some hfind
    constructor
    · intro h
      cases h
    · rintro ⟨hknown, -⟩
      simp [hknown field hmem] at hfield
  | none =>
    have hknown : ∀ field ∈ fields, field.1 ∈ keys := by simpa using hfind
    cases fields.repeated? with
    | some key => simp
    | none => simpa using hknown

/-- The keys of an object are checked first, and then its slots one by one. -/
theorem fill_iff :
    fields.Fill slots ↔ fields.restrict (slots.map Prod.fst) = .ok () ∧
      ∀ slot ∈ slots, slot.2 (fields.lookup slot.1) := by
  rw [restrict_eq_ok_iff]
  exact ⟨fun h => ⟨⟨h.known, h.distinct⟩, h.filled⟩,
    fun h => ⟨h.1.1, h.1.2, h.2⟩⟩

/-- Among distinct keys each finds its own field. -/
theorem lookup_of_mem (hdistinct : (fields.map Prod.fst).Nodup)
    (h : (key, d) ∈ fields) :
    fields.lookup key = some d := by
  have hzip : (fields.map Prod.fst).zip (fields.map Prod.snd) = fields := by
    simp [List.zip_map']
  rw [← hzip] at h ⊢
  exact Formula.lookup_zip_of_mem hdistinct h

/-- A field that is there fills its slot. -/
theorem Fill.slot_of_mem {slot : Slot} (h : fields.Fill slots)
    (hslot : (key, slot) ∈ slots) (hmem : (key, d) ∈ fields) :
    slot (some d) := by
  rw [← lookup_of_mem h.distinct hmem]
  exact h.filled _ hslot

/-- **A part that may be absent** is read exactly from what fills its slot. -/
theorem optional_eq_ok_iff {α : Type} {read : Document → Except ReadError α}
    {written : α → Document → Prop} {value : Option α}
    (hread : ∀ d a, read d = .ok a ↔ written a d)
    (hnull : ∀ a, ¬ written a .null) :
    fields.optional key read = .ok value ↔
      Slot.optional written value (fields.lookup key) := by
  rw [optional]
  cases fields.lookup key with
  | none => cases value <;> simp [Slot.optional]
  | some d =>
    by_cases hd : d = .null
    · subst hd
      cases value <;> simp [Slot.optional, hnull]
    · cases hresult : read d with
      | error e => cases value <;> simp [Slot.optional, hd, hresult, ← hread]
      | ok a => cases value <;> simp [Slot.optional, hd, hresult, ← hread]

/-- **A part with a default** is read exactly from what fills its slot. -/
theorem defaulted_eq_ok_iff {α : Type} {read : Document → Except ReadError α}
    {written : Document → Prop} {default value : α}
    (hread : ∀ d, read d = .ok value ↔ written d) :
    fields.defaulted key default read = .ok value ↔
      Slot.defaulted written (value = default) (fields.lookup key) := by
  rw [defaulted]
  cases fields.lookup key with
  | none => simp [Slot.defaulted, eq_comm]
  | some d => simp [Slot.defaulted, hread]

/-- The first field with the key counts. -/
theorem defaulted_cons {α : Type} {read : Document → Except ReadError α}
    {default : α} {field : String × Document} :
    defaulted (field :: fields) key default read =
      if field.1 = key then read field.2
      else fields.defaulted key default read := by
  rw [defaulted, defaulted, List.lookup_cons]
  by_cases hkey : field.1 = key
  · simp [hkey]
  · simp [hkey, beq_eq_false_iff_ne.2 (Ne.symm hkey)]

theorem text_eq_ok_iff {value : Option String} :
    fields.optional key Document.asString = .ok value ↔
      Slot.text value (fields.lookup key) := by
  refine optional_eq_ok_iff (fun d text => ?_) (by simp)
  cases d <;> simp [Document.asString]

theorem formula_eq_ok_iff {value : Option Formula} :
    fields.optional key Document.asFormula = .ok value ↔
      Slot.formula value (fields.lookup key) := by
  refine optional_eq_ok_iff (fun d f => ?_) (fun f h => by cases h)
  rw [← Formula.ofDocument_eq_ok_iff, Document.asFormula]
  cases Formula.ofDocument d <;> simp

end Fields

/-- Natural numbers of 64 bits are read from integers. -/
theorem Document.asNatural_eq_ok_iff {d : Document} {n : ℕ} :
    d.asNatural = .ok n ↔ d = .integer n ∧ n < 2 ^ 64 := by
  cases d with
  | integer i =>
    simp only [asNatural, Formula.fits_iff]
    split
    · simp only [Except.ok.injEq, Document.integer.injEq]
      omega
    · simp only [reduceCtorEq, false_iff, Document.integer.injEq]
      omega
  | _ => simp [asNatural]

/-- A word is read from the integer of the same value. -/
theorem Document.asWord_eq_ok_iff {d : Document} {word : UInt64} :
    d.asWord = .ok word ↔ d = .integer word.toNat := by
  have hword : d.asWord = .ok word ↔
      ∃ n, d.asNatural = .ok n ∧ UInt64.ofNat n = word := by
    rw [asWord]
    cases d.asNatural <;> simp
  simp only [hword, asNatural_eq_ok_iff]
  constructor
  · rintro ⟨n, ⟨rfl, hn⟩, rfl⟩
    rw [UInt64.toNat_ofNat_of_lt' hn]
  · rintro rfl
    exact ⟨word.toNat, ⟨rfl, word.toNat_lt⟩, UInt64.ofNat_toNat⟩

/-! ## Reading -/

/-- A hypothesis is read exactly from its written forms. -/
theorem Hypothesis.ofDocument_eq_ok_iff {d : Document} {h : Hypothesis} :
    Hypothesis.ofDocument d = .ok h ↔ h.WrittenAs d := by
  cases d with
  | object fields =>
    obtain ⟨label, formula⟩ := h
    simp [ofDocument, Document.asFields, bind_eq_ok_iff, exists_unit_iff, pure,
      Except.pure, Fields.text_eq_ok_iff, Fields.formula_eq_ok_iff, WrittenAs,
      Fields.fill_iff]
  | _ => simp [ofDocument, Document.asFields, WrittenAs, bind, Except.bind]

/-- A reason is read under its own kind only. -/
theorem Reason.kind_of_ofParts {kind : String} {parts : Fields}
    {reason : Reason} (h : Reason.ofParts kind parts = .ok reason) :
    reason.kind = kind := by
  unfold Reason.ofParts at h
  split at h
  case h_9 => cases h
  all_goals
    simp only [bind_eq_ok_iff, exists_unit_iff, pure, Except.pure,
      Except.ok.injEq] at h
    grind [Reason.kind]

/-- **A reason without lines** is read exactly from its written parts. -/
theorem Reason.ofParts_eq_ok_iff {parts : Fields} (reason : Reason)
    (hbasic : reason.kind ≠ "conditional_proof") :
    Reason.ofParts reason.kind parts = .ok reason ↔ reason.WrittenAs parts := by
  cases reason with
  | conditionalProof => exact absurd rfl hbasic
  | rename reference current replacement occurrence =>
    simp [Reason.kind, Reason.ofParts, Reason.WrittenAs, bind_eq_ok_iff,
      exists_unit_iff, pure, Except.pure, Fields.fill_iff,
      Fields.text_eq_ok_iff, Fields.formula_eq_ok_iff,
      Fields.defaulted_eq_ok_iff fun d => Document.asWord_eq_ok_iff]
  | _ =>
    simp [Reason.kind, Reason.ofParts, Reason.WrittenAs, bind_eq_ok_iff,
      exists_unit_iff, pure, Except.pure, Fields.fill_iff,
      Fields.text_eq_ok_iff, Fields.formula_eq_ok_iff]

namespace Line

variable {fields parts : Fields} {kind : String} {reason : Reason}
  {d : Document}

/-- The reason of a line is the field of that key. -/
theorem reasonOfFields_eq :
    reasonOfFields fields =
      fields.defaulted "reason" none reasonOfDocument := by
  induction fields with
  | nil => rfl
  | cons field rest ih => rw [reasonOfFields, ih, Fields.defaulted_cons]

theorem listOfFields_eq :
    listOfFields parts = parts.defaulted "lines" [] listOfDocument := by
  induction parts with
  | nil => rfl
  | cons field rest ih => rw [listOfFields, ih, Fields.defaulted_cons]

/-- A kind of reason without lines is read from its parts. -/
theorem reasonOfDocument_basic (hkind : kind ≠ "conditional_proof") :
    reasonOfDocument (.object [(kind, .object parts)]) = .ok (some reason) ↔
      Reason.ofParts kind parts = .ok reason := by
  rw [reasonOfDocument, if_neg hkind]
  simp [bind_eq_ok_iff, pure, Except.pure]

/-- A conditional proof is read from its hypothesis and its lines. -/
theorem reasonOfDocument_conditionalProof :
    reasonOfDocument (.object [("conditional_proof", .object parts)]) =
        .ok (some reason) ↔
      parts.restrict ["hypothesis", "lines"] = .ok () ∧
        ∃ hypothesis,
          parts.defaulted "hypothesis" {} Hypothesis.ofDocument =
            .ok hypothesis ∧
          ∃ lines, parts.defaulted "lines" [] listOfDocument = .ok lines ∧
            .conditionalProof hypothesis lines = reason := by
  rw [reasonOfDocument, if_pos rfl]
  simp only [bind_eq_ok_iff, exists_unit_iff, listOfFields_eq, pure,
    Except.pure, Except.ok.injEq, Option.some.injEq]

/-- A reason is read only from an object that has its kind as the only key. -/
theorem exists_parts_of_reasonOfDocument
    (h : reasonOfDocument d = .ok (some reason)) :
    ∃ parts, d = .object [(reason.kind, .object parts)] := by
  unfold reasonOfDocument at h
  split at h
  · cases h
  · rename_i kind parts
    refine ⟨parts, ?_⟩
    by_cases hkind : kind = "conditional_proof"
    · subst hkind
      obtain ⟨-, hypothesis, -, lines, -, rfl⟩ :=
        reasonOfDocument_conditionalProof.1 h
      rfl
    · have hparts := (reasonOfDocument_basic hkind).1 h
      rw [Reason.kind_of_ofParts hparts]
  · cases h

/-- Only null is no reason. -/
theorem reasonOfDocument_eq_none_iff :
    reasonOfDocument d = .ok none ↔ d = .null := by
  constructor
  · intro h
    unfold reasonOfDocument at h
    split at h
    · rfl
    · split at h <;> simp [bind_eq_ok_iff, pure, Except.pure] at h
    · cases h
  · rintro rfl
    rfl

end Line

-- The induction is on the line rather than on the document: the written form is
-- defined along the line, and the documents of its parts are found by a
-- look-up, not by going down one constructor.
mutual

/-- **A reason of any kind** is read exactly from its written parts. -/
theorem Line.reasonOfDocument_eq_some_iff :
    ∀ (reason : Reason) (parts : Fields),
    Line.reasonOfDocument (.object [(reason.kind, .object parts)]) =
      .ok (some reason) ↔ reason.WrittenAs parts
  | .conditionalProof hypothesis lines, parts => by
    have hlines : ∀ d, Line.listOfDocument d = .ok lines ↔
        ∃ items, d = .array items ∧ Line.AllWrittenAs lines items := by
      intro d
      cases d with
      | array items =>
        rw [Line.listOfDocument, Line.ofDocuments_eq_ok_iff lines items]
        simp
      | _ => simp [Line.listOfDocument]
    rw [Reason.kind, Line.reasonOfDocument_conditionalProof, Reason.WrittenAs,
      Fields.fill_iff]
    simp [Fields.defaulted_eq_ok_iff hlines,
      Fields.defaulted_eq_ok_iff fun d => Hypothesis.ofDocument_eq_ok_iff]
  | .add _, parts | .rename .., parts | .modusPonens .., parts
  | .substFree .., parts | .substPredicate .., parts
  | .substFunction .., parts | .universal .., parts
  | .existential .., parts => by
    refine (Line.reasonOfDocument_basic ?_).trans
      (Reason.ofParts_eq_ok_iff _ ?_)
    all_goals simp [Reason.kind]

/-- The reason of a line is read exactly from what fills its slot. -/
theorem Line.reasonOfFields_eq_ok_iff :
    ∀ (reason : Option Reason) (fields : Fields),
    Line.reasonOfFields fields = .ok reason ↔
      Reason.slot reason (fields.lookup "reason")
  | none, fields => by
    rw [Line.reasonOfFields_eq,
      Fields.defaulted_eq_ok_iff fun d => Line.reasonOfDocument_eq_none_iff]
    simp [Slot.defaulted, Reason.slot, or_comm]
  | some reason, fields => by
    rw [Line.reasonOfFields_eq, Fields.defaulted_eq_ok_iff (fun d => Iff.rfl),
      Slot.defaulted, Reason.slot]
    constructor
    · rintro (⟨d, hd, hread⟩ | ⟨h, -⟩)
      · obtain ⟨parts, rfl⟩ := Line.exists_parts_of_reasonOfDocument hread
        exact ⟨parts, hd,
          (Line.reasonOfDocument_eq_some_iff reason parts).1 hread⟩
      · cases h
    · rintro ⟨parts, hfound, hparts⟩
      exact .inl ⟨_, hfound,
        (Line.reasonOfDocument_eq_some_iff reason parts).2 hparts⟩

/-- **What reading gives.** -/
theorem Line.ofDocument_eq_ok_iff : ∀ (line : Line) (d : Document),
    Line.ofDocument d = .ok line ↔ line.WrittenAs d
  | ⟨label, formula, reason⟩, .object fields => by
    simp [Line.ofDocument, bind_eq_ok_iff, exists_unit_iff, pure, Except.pure,
      Fields.text_eq_ok_iff, Fields.formula_eq_ok_iff, Line.WrittenAs,
      Fields.fill_iff, Line.reasonOfFields_eq_ok_iff reason fields]
  | ⟨label, formula, reason⟩, .null | ⟨label, formula, reason⟩, .bool _
  | ⟨label, formula, reason⟩, .integer _ | ⟨label, formula, reason⟩, .decimal _
  | ⟨label, formula, reason⟩, .string _
  | ⟨label, formula, reason⟩, .array _ => by
    simp [Line.ofDocument, Line.WrittenAs]

/-- A list of lines is read exactly from their written forms. -/
theorem Line.ofDocuments_eq_ok_iff : ∀ (lines : List Line) (ds : List Document),
    Line.ofDocuments ds = .ok lines ↔ Line.AllWrittenAs lines ds
  | [], ds => by
    cases ds with
    | nil => simp [Line.ofDocuments, Line.AllWrittenAs]
    | cons d ds =>
      simp [Line.ofDocuments, Line.AllWrittenAs, bind_eq_ok_iff,
        pure, Except.pure]
  | line :: lines, ds => by
    cases ds with
    | nil => simp [Line.ofDocuments, Line.AllWrittenAs]
    | cons d ds =>
      simp [Line.ofDocuments, Line.AllWrittenAs, bind_eq_ok_iff, pure,
        Except.pure, Line.ofDocument_eq_ok_iff line d,
        Line.ofDocuments_eq_ok_iff lines ds]

end

/-! ## Writing -/

@[simp] theorem Slot.text_ofString? (value : Option String) :
    Slot.text value (some (.ofString? value)) := by
  cases value <;> simp [Slot.text, Slot.optional, Document.ofString?]

@[simp] theorem Slot.formula_ofFormula? (value : Option Formula) :
    Slot.formula value (some (.ofFormula? value)) := by
  cases value <;> simp [Slot.formula, Slot.optional, Document.ofFormula?,
    Formula.describes_toDocument]

@[simp] theorem Slot.defaulted_some {written : Document → Prop}
    {isDefault : Prop} {d : Document} :
    Slot.defaulted written isDefault (some d) ↔ written d := by
  simp [Slot.defaulted]

/-- What is written for a hypothesis is a written form of it. -/
theorem Hypothesis.writtenAs_toDocument (h : Hypothesis) :
    h.WrittenAs h.toDocument :=
  ⟨_, rfl, ⟨by simp, by simp, by simp [List.lookup_cons]⟩⟩

mutual

/-- What is written for a reason are its written parts. -/
theorem Reason.writtenAs_parts :
    ∀ reason : Reason, reason.WrittenAs reason.parts
  | .conditionalProof hypothesis lines => by
    have hlines := Line.allWrittenAs_toDocuments lines
    rw [Reason.WrittenAs, Reason.parts]
    exact ⟨by simp, by simp,
      by simp [List.lookup_cons, hypothesis.writtenAs_toDocument, hlines]⟩
  | .add _ | .rename .. | .modusPonens .. | .substFree .. | .substPredicate ..
  | .substFunction .. | .universal .. | .existential .. => by
    rw [Reason.WrittenAs, Reason.parts]
    exact ⟨by simp, by simp, by simp [List.lookup_cons]⟩

/-- What is written for a line is a written form of it. -/
theorem Line.writtenAs_toDocument :
    ∀ line : Line, line.WrittenAs line.toDocument
  | ⟨label, formula, none⟩ => by
    rw [Line.WrittenAs, Line.toDocument]
    exact ⟨_, rfl, by simp, by simp, by simp [List.lookup_cons, Reason.slot]⟩
  | ⟨label, formula, some reason⟩ => by
    have hparts := reason.writtenAs_parts
    rw [Line.WrittenAs, Line.toDocument]
    exact ⟨_, rfl, by simp, by simp,
      by simp [List.lookup_cons, Reason.slot, hparts]⟩

theorem Line.allWrittenAs_toDocuments :
    ∀ lines : List Line, Line.AllWrittenAs lines (Line.toDocuments lines)
  | [] => rfl
  | line :: lines =>
    ⟨_, _, rfl, line.writtenAs_toDocument, Line.allWrittenAs_toDocuments lines⟩

end

/-! ## Stray keys -/

/-- The keys that the parts of a reason may have. -/
def Reason.keys : String → List String
  | "add" => ["reference"]
  | "rename" => ["reference", "original", "replacement", "occurrence"]
  | "modus_ponens" => ["reference1", "reference2"]
  | "subst_free" => ["reference", "subject_variable", "substitute_term"]
  | "subst_pred" => ["reference", "predicate_variable", "substitute_formula"]
  | "subst_func" => ["reference", "function_variable", "substitute_term"]
  | "universal" | "existential" => ["reference", "subject_variable"]
  | "conditional_proof" => ["hypothesis", "lines"]
  | _ => []

/-- Among the fields of a line there is a reason of a kind, with its parts. -/
def Fields.HasReason (fields : Fields) (kind : String) (parts : Fields) :
    Prop :=
  ∃ kinds, ("reason", .object kinds) ∈ fields ∧ (kind, .object parts) ∈ kinds

/-- A line, the parts of a reason, a hypothesis, or such an object of an inner
line, has a key that it should not have. -/
inductive Stray : Document → Prop where
  | line {fields : Fields} {key : String} {d : Document}
      (hfield : (key, d) ∈ fields)
      (hkey : key ∉ ["label", "formula", "reason"]) : Stray (.object fields)
  | reason {fields parts : Fields} {kind key : String} {d : Document}
      (hreason : fields.HasReason kind parts) (hpart : (key, d) ∈ parts)
      (hkey : key ∉ Reason.keys kind) : Stray (.object fields)
  | hypothesis {fields parts assumption : Fields} {key : String} {d : Document}
      (hreason : fields.HasReason "conditional_proof" parts)
      (hassumption : ("hypothesis", .object assumption) ∈ parts)
      (hfield : (key, d) ∈ assumption) (hkey : key ∉ ["label", "formula"]) :
      Stray (.object fields)
  | inner {fields parts : Fields} {items : List Document} {d : Document}
      (hreason : fields.HasReason "conditional_proof" parts)
      (hlines : ("lines", .array items) ∈ parts) (hitem : d ∈ items)
      (hd : Stray d) : Stray (.object fields)

/-- A line is written by an object whose fields fill its three slots. -/
theorem Line.writtenAs_object_iff {line : Line} {fields : Fields} :
    line.WrittenAs (.object fields) ↔
      fields.Fill [("label", .text line.label),
        ("formula", .formula line.formula),
        ("reason", Reason.slot line.reason)] := by
  obtain ⟨label, formula, reason⟩ := line
  simp [Line.WrittenAs]

/-- The reason that is found in a written line is one that is written there. -/
theorem Line.WrittenAs.exists_reason {line : Line} {fields parts : Fields}
    {kind : String} (h : line.WrittenAs (.object fields))
    (hreason : fields.HasReason kind parts) :
    ∃ reason : Reason, reason.kind = kind ∧ reason.WrittenAs parts := by
  obtain ⟨kinds, hkinds, hparts⟩ := hreason
  have hfill := Line.writtenAs_object_iff.1 h
  have hslot : Reason.slot line.reason (some (.object kinds)) :=
    hfill.slot_of_mem (by simp) hkinds
  cases hline : line.reason with
  | none => simp [hline, Reason.slot] at hslot
  | some reason =>
    rw [hline, Reason.slot] at hslot
    obtain ⟨parts', heq, hwritten⟩ := hslot
    cases heq
    cases List.mem_singleton.1 hparts
    exact ⟨reason, rfl, hwritten⟩

/-- The written parts of a reason have no other keys than its kind knows. -/
theorem Reason.WrittenAs.mem_keys {reason : Reason} {parts : Fields}
    {key : String} {d : Document} (h : reason.WrittenAs parts)
    (hpart : (key, d) ∈ parts) : key ∈ Reason.keys reason.kind := by
  cases reason <;> rw [Reason.WrittenAs] at h <;> exact h.known _ hpart

/-- Each document of a written list writes a line. -/
theorem Line.AllWrittenAs.exists_line {d : Document} :
    ∀ {lines : List Line} {ds : List Document},
    Line.AllWrittenAs lines ds → d ∈ ds → ∃ line : Line, line.WrittenAs d
  | [], ds, h, hd => by
    rw [Line.AllWrittenAs] at h
    rw [h] at hd
    cases hd
  | line :: lines, ds, h, hd => by
    rw [Line.AllWrittenAs] at h
    obtain ⟨d', rest, rfl, hline, hrest⟩ := h
    rcases List.mem_cons.1 hd with rfl | hd
    · exact ⟨line, hline⟩
    · exact hrest.exists_line hd

/-- Only conditional proofs are of that kind. -/
theorem Reason.exists_of_kind_eq {reason : Reason}
    (h : reason.kind = "conditional_proof") :
    ∃ hypothesis lines, reason = .conditionalProof hypothesis lines := by
  cases reason with
  | conditionalProof hypothesis lines => exact ⟨hypothesis, lines, rfl⟩
  | _ => simp [Reason.kind] at h

/-- The parts of a written conditional proof. -/
theorem Line.WrittenAs.exists_conditionalProof {line : Line}
    {fields parts : Fields} (h : line.WrittenAs (.object fields))
    (hreason : fields.HasReason "conditional_proof" parts) :
    ∃ (hypothesis : Hypothesis) (lines : List Line),
      (Reason.conditionalProof hypothesis lines).WrittenAs parts := by
  obtain ⟨reason, hkind, hwritten⟩ := h.exists_reason hreason
  obtain ⟨hypothesis, lines, rfl⟩ := Reason.exists_of_kind_eq hkind
  exact ⟨hypothesis, lines, hwritten⟩

/-- No line is written with a stray key. -/
theorem Stray.not_writtenAs {d : Document} (h : Stray d) (line : Line) :
    ¬ line.WrittenAs d := by
  -- The induction follows the way down to the stray key; each line on it has to
  -- be written.
  induction h generalizing line with
  | line hfield hkey =>
    intro hline
    exact hkey ((Line.writtenAs_object_iff.1 hline).known _ hfield)
  | reason hreason hpart hkey =>
    intro hline
    obtain ⟨reason, rfl, hwritten⟩ := hline.exists_reason hreason
    exact hkey (hwritten.mem_keys hpart)
  | @hypothesis fields parts assumption key d hreason hassumption hfield hkey =>
    intro hline
    obtain ⟨hypothesis, lines, hwritten⟩ :=
      hline.exists_conditionalProof hreason
    rw [Reason.WrittenAs] at hwritten
    obtain ⟨fields', heq, hfill⟩ := Slot.defaulted_some.1
      (hwritten.slot_of_mem List.mem_cons_self hassumption)
    cases heq
    exact hkey (hfill.known _ hfield)
  | @inner fields parts items d hreason hlines hitem hd ih =>
    intro hline
    obtain ⟨hypothesis, lines, hwritten⟩ :=
      hline.exists_conditionalProof hreason
    rw [Reason.WrittenAs] at hwritten
    obtain ⟨items', heq, hall⟩ := Slot.defaulted_some.1
      (hwritten.slot_of_mem (List.mem_cons_of_mem _ List.mem_cons_self) hlines)
    cases heq
    obtain ⟨inner, hinner⟩ := hall.exists_line hitem
    exact ih inner hinner

/-- **Lines are read from their written forms.**  What is written for a line is
read back; a document is read as a line exactly when it is a written form of
that line; and a document with a stray key is rejected. -/
theorem line_reading_exact :
    (∀ line : Line, Line.ofDocument line.toDocument = .ok line) ∧
      (∀ (line : Line) (d : Document),
        Line.ofDocument d = .ok line ↔ line.WrittenAs d) ∧
      ∀ d : Document, Stray d → ∃ e, Line.ofDocument d = .error e := by
  refine ⟨fun line => ?_, Line.ofDocument_eq_ok_iff, fun d hd => ?_⟩
  · exact (Line.ofDocument_eq_ok_iff line _).2 line.writtenAs_toDocument
  · cases hresult : Line.ofDocument d with
    | error e => exact ⟨e, rfl⟩
    | ok line =>
      exact absurd ((Line.ofDocument_eq_ok_iff line d).1 hresult)
        (hd.not_writtenAs line)

namespace NestedLine

/-- A renaming of nothing, within a conditional proof without a hypothesis. -/
def line : Line :=
  ⟨some "outer", none,
    some (.conditionalProof {} [⟨none, none, some (.rename none none none 0)⟩])⟩

/-- The line with other parts of the renaming, and the fields not in the usual
order. -/
def document (parts : Fields) : Document :=
  .object [
    ("reason", .object [("conditional_proof", .object [
      ("lines", .array
        [.object [("reason", .object [("rename", .object parts)])]])])]),
    ("label", .string "outer")]

end NestedLine

open NestedLine in
/-- The parts of an inner renaming may be left out, but none may be misspelt. -/
theorem nested_line_read :
    line.WrittenAs (document [("original", .null)]) ∧
      Line.ofDocument (document [("original", .null)]) = .ok line ∧
      Stray (document [("orginal", .null)]) ∧
      ∃ e, Line.ofDocument (document [("orginal", .null)]) = .error e := by
  have hwritten : line.WrittenAs (document [("original", .null)]) := by
    simp [line, document, Line.WrittenAs, Line.AllWrittenAs, Reason.WrittenAs,
      Reason.slot, Reason.kind, Fields.fill_iff, Fields.restrict,
      Fields.repeated?, List.lookup_cons, Slot.text, Slot.formula,
      Slot.optional, Slot.defaulted, -List.lookup_eq_none_iff]
  have hinner : Stray (.object
      [("reason", .object [("rename", .object [("orginal", .null)])])]) :=
    .reason ⟨_, List.mem_singleton_self _, List.mem_singleton_self _⟩
      (List.mem_singleton_self _) (by decide +kernel)
  have hstray : Stray (document [("orginal", .null)]) :=
    .inner ⟨_, List.mem_cons_self, List.mem_singleton_self _⟩
      (List.mem_singleton_self _) (List.mem_singleton_self _) hinner
  exact ⟨hwritten, (line_reading_exact.2.1 _ _).2 hwritten, hstray,
    line_reading_exact.2.2 _ hstray⟩

end Deduction
