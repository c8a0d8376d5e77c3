import Deduction.Formula.Document
import Deduction.Version

/-!
# Reading records from documents

The readers of proof lines, rules and settings share the same rules for
objects: only the known keys, each at most once, and an optional field may be
left out or be null.
-/

namespace Deduction

/-- Why a document could not be read as what was asked for. -/
inductive ReadError where
  | expected (what : String)
  | missing (key : String)
  | unknownKey (key : String)
  | repeatedKey (key : String)
  | unknownWord (text : String)
  | version (error : VersionError)
  | formula (fault : FormulaFault)

/-- The fields of an object. -/
abbrev Fields := List (String × Document)

namespace Fields

/-- The first key that comes again. -/
def repeated? : Fields → Option String
  | [] => none
  | (key, _) :: rest => if rest.any (·.1 = key) then some key else repeated? rest

/-- Only the given keys may occur, each at most once. -/
def restrict (fields : Fields) (keys : List String) : Except ReadError Unit :=
  match fields.find? (!keys.contains ·.1) with
  | some (key, _) => .error (.unknownKey key)
  | none =>
    match fields.repeated? with
    | some key => .error (.repeatedKey key)
    | none => .ok ()

/-- A field that has to be there. -/
def required {α : Type} (fields : Fields) (key : String)
    (read : Document → Except ReadError α) : Except ReadError α :=
  match fields.lookup key with
  | none => .error (.missing key)
  | some d => read d

/-- A field that has a default value, which stands for a missing field only. -/
def defaulted {α : Type} (fields : Fields) (key : String) (default : α)
    (read : Document → Except ReadError α) : Except ReadError α :=
  match fields.lookup key with
  | none => .ok default
  | some d => read d

/-- A field that may be missing or null. -/
def optional {α : Type} (fields : Fields) (key : String)
    (read : Document → Except ReadError α) : Except ReadError (Option α) :=
  match fields.lookup key with
  | none => .ok none
  | some .null => .ok none
  | some d =>
    match read d with
    | .ok a => .ok (some a)
    | .error e => .error e

end Fields

namespace Document

/-- The fields of a document that is an object. -/
def asFields : Document → Except ReadError Fields
  | .object fields => .ok fields
  | _ => .error (.expected "an object")

/-- The only field of an object that has one. -/
def asSingleton : Document → Except ReadError (String × Document)
  | .object [field] => .ok field
  | _ => .error (.expected "an object with one key")

/-- The items of a document that is an array. -/
def asItems : Document → Except ReadError (List Document)
  | .array items => .ok items
  | _ => .error (.expected "an array")

/-- The items of an array, each read in the same way. -/
def asList {α : Type} (read : Document → Except ReadError α) (d : Document) :
    Except ReadError (List α) := do
  (← d.asItems).mapM read

/-- The two items of an array that has two. -/
def asPair {α β : Type} (first : Document → Except ReadError α)
    (second : Document → Except ReadError β) : Document → Except ReadError (α × β)
  | .array [a, b] => do return (← first a, ← second b)
  | _ => .error (.expected "a pair")

/-- The text of a document that is a string. -/
def asString : Document → Except ReadError String
  | .string text => .ok text
  | _ => .error (.expected "a string")

/-- The value of a document that is a truth value. -/
def asBool : Document → Except ReadError Bool
  | .bool value => .ok value
  | _ => .error (.expected "a boolean")

/-- The value of a document that is a natural number of 64 bits. -/
def asNatural : Document → Except ReadError Nat
  | .integer n =>
    if 0 ≤ n ∧ fits n then .ok n.toNat else .error (.expected "a natural number")
  | _ => .error (.expected "a natural number")

/-- The same number as a word. -/
def asWord (d : Document) : Except ReadError UInt64 :=
  match d.asNatural with
  | .ok n => .ok (UInt64.ofNat n)
  | .error e => .error e

/-- The version that a string names. -/
def asVersion (d : Document) : Except ReadError Version := do
  match Version.parse (← d.asString) with
  | .ok version => .ok version
  | .error e => .error (.version e)

/-- The formula that a document describes. -/
def asFormula (d : Document) : Except ReadError Formula :=
  match Formula.ofDocument d with
  | .ok f => .ok f
  | .error fault => .error (.formula fault)

end Document

end Deduction
