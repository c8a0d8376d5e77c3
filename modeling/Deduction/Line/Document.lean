import Deduction.Document.Reading
import Deduction.Line

/-!
# Proof lines as documents

A line is an object with the optional fields `label`, `formula` and `reason`.  A
reason is an object with a single field, which names its kind and holds its
parts; a part may be left out or be null.  Only the occurrence of a renaming and
the two parts of a conditional proof must not be null: left out they are zero
and empty.

`Line.toDocument` writes the same form, with null for what is absent.
-/

namespace Deduction

namespace Hypothesis

/-- Reads a hypothesis. -/
def ofDocument (d : Document) : Except ReadError Hypothesis := do
  let fields ← d.asFields
  fields.restrict ["label", "formula"]
  let label ← fields.optional "label" Document.asString
  let formula ← fields.optional "formula" Document.asFormula
  return ⟨label, formula⟩

end Hypothesis

namespace Reason

/-- Reads a reason that holds no further lines, from its kind and its parts. -/
def ofParts (kind : String) (fields : Fields) : Except ReadError Reason :=
  match kind with
  | "add" => do
    fields.restrict ["reference"]
    return .add (← fields.optional "reference" Document.asString)
  | "rename" => do
    fields.restrict ["reference", "original", "replacement", "occurrence"]
    return .rename (← fields.optional "reference" Document.asString)
      (← fields.optional "original" Document.asFormula)
      (← fields.optional "replacement" Document.asFormula)
      (← fields.defaulted "occurrence" 0 Document.asWord)
  | "modus_ponens" => do
    fields.restrict ["reference1", "reference2"]
    return .modusPonens (← fields.optional "reference1" Document.asString)
      (← fields.optional "reference2" Document.asString)
  | "subst_free" => do
    fields.restrict ["reference", "subject_variable", "substitute_term"]
    return .substFree (← fields.optional "reference" Document.asString)
      (← fields.optional "subject_variable" Document.asFormula)
      (← fields.optional "substitute_term" Document.asFormula)
  | "subst_pred" => do
    fields.restrict ["reference", "predicate_variable", "substitute_formula"]
    return .substPredicate (← fields.optional "reference" Document.asString)
      (← fields.optional "predicate_variable" Document.asFormula)
      (← fields.optional "substitute_formula" Document.asFormula)
  | "subst_func" => do
    fields.restrict ["reference", "function_variable", "substitute_term"]
    return .substFunction (← fields.optional "reference" Document.asString)
      (← fields.optional "function_variable" Document.asFormula)
      (← fields.optional "substitute_term" Document.asFormula)
  | "universal" => do
    fields.restrict ["reference", "subject_variable"]
    return .universal (← fields.optional "reference" Document.asString)
      (← fields.optional "subject_variable" Document.asFormula)
  | "existential" => do
    fields.restrict ["reference", "subject_variable"]
    return .existential (← fields.optional "reference" Document.asString)
      (← fields.optional "subject_variable" Document.asFormula)
  | other => .error (.unknownWord other)

end Reason

mutual

/-- Reads a line. -/
def Line.ofDocument : Document → Except ReadError Line
  | .object fields => do
    Fields.restrict fields ["label", "formula", "reason"]
    let label ← Fields.optional fields "label" Document.asString
    let formula ← Fields.optional fields "formula" Document.asFormula
    let reason ← Line.reasonOfFields fields
    return ⟨label, formula, reason⟩
  | _ => .error (.expected "a proof line")

/-- Reads the reason among the fields of a line. -/
def Line.reasonOfFields : List (String × Document) → Except ReadError (Option Reason)
  | [] => .ok none
  | (key, d) :: rest =>
    if key = "reason" then Line.reasonOfDocument d else Line.reasonOfFields rest

/-- Reads a reason, which may be null. -/
def Line.reasonOfDocument : Document → Except ReadError (Option Reason)
  | .null => .ok none
  | .object [(kind, .object parts)] =>
    if kind = "conditional_proof" then do
      Fields.restrict parts ["hypothesis", "lines"]
      let hypothesis ← Fields.defaulted parts "hypothesis" {} Hypothesis.ofDocument
      let lines ← Line.listOfFields parts
      return some (.conditionalProof hypothesis lines)
    else do
      return some (← Reason.ofParts kind parts)
  | _ => .error (.expected "a reason")

/-- Reads the lines among the parts of a conditional proof. -/
def Line.listOfFields : List (String × Document) → Except ReadError (List Line)
  | [] => .ok []
  | (key, d) :: rest =>
    if key = "lines" then Line.listOfDocument d else Line.listOfFields rest

/-- Reads an array of lines. -/
def Line.listOfDocument : Document → Except ReadError (List Line)
  | .array items => Line.ofDocuments items
  | _ => .error (.expected "an array of proof lines")

/-- Reads a list of lines. -/
def Line.ofDocuments : List Document → Except ReadError (List Line)
  | [] => .ok []
  | d :: ds => do
    let line ← Line.ofDocument d
    let lines ← Line.ofDocuments ds
    return line :: lines

end

/-! ## Writing -/

namespace Hypothesis

/-- Writes a hypothesis, with null for what is absent. -/
def toDocument (h : Hypothesis) : Document :=
  .object [("label", .ofString? h.label),
    ("formula", .ofFormula? h.formula)]

end Hypothesis

namespace Reason

/-- The word for the kind of a reason. -/
def kind : Reason → String
  | add .. => "add"
  | rename .. => "rename"
  | modusPonens .. => "modus_ponens"
  | substFree .. => "subst_free"
  | substPredicate .. => "subst_pred"
  | substFunction .. => "subst_func"
  | universal .. => "universal"
  | existential .. => "existential"
  | conditionalProof .. => "conditional_proof"

end Reason

mutual

/-- Writes the parts of a reason, with null for what is absent. -/
def Reason.parts : Reason → List (String × Document)
  | .add reference => [("reference", .ofString? reference)]
  | .rename reference current replacement occurrence =>
    [("reference", .ofString? reference), ("original", .ofFormula? current),
      ("replacement", .ofFormula? replacement), ("occurrence", .integer occurrence.toNat)]
  | .modusPonens implication premise =>
    [("reference1", .ofString? implication), ("reference2", .ofString? premise)]
  | .substFree reference subject substitute =>
    [("reference", .ofString? reference), ("subject_variable", .ofFormula? subject),
      ("substitute_term", .ofFormula? substitute)]
  | .substPredicate reference template substitute =>
    [("reference", .ofString? reference), ("predicate_variable", .ofFormula? template),
      ("substitute_formula", .ofFormula? substitute)]
  | .substFunction reference template substitute =>
    [("reference", .ofString? reference), ("function_variable", .ofFormula? template),
      ("substitute_term", .ofFormula? substitute)]
  | .universal reference subject =>
    [("reference", .ofString? reference), ("subject_variable", .ofFormula? subject)]
  | .existential reference subject =>
    [("reference", .ofString? reference), ("subject_variable", .ofFormula? subject)]
  | .conditionalProof hypothesis lines =>
    [("hypothesis", hypothesis.toDocument), ("lines", .array (Line.toDocuments lines))]

/-- Writes a line, with null for what is absent. -/
def Line.toDocument : Line → Document
  | ⟨label, formula, none⟩ =>
    .object [("label", .ofString? label), ("formula", .ofFormula? formula),
      ("reason", .null)]
  | ⟨label, formula, some reason⟩ =>
    .object [("label", .ofString? label), ("formula", .ofFormula? formula),
      ("reason", .object [(reason.kind, .object reason.parts)])]

/-- Writes a list of lines. -/
def Line.toDocuments : List Line → List Document
  | [] => []
  | line :: lines => line.toDocument :: Line.toDocuments lines

end

end Deduction
