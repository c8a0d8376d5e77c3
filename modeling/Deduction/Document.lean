import Deduction.Text.Quoted

/-!
# Documents

A document is a tree of plain data, the form in which formulas, proofs and
settings are written down.  It may come from a JSON text or from a YAML text;
what the tree means is decided by the readers of the single types.

Numbers come in two sorts: **integers**, and **decimals** with a fraction or an
exponent, of which only the text is kept.  The fields of an object are a list;
a reader of JSON text gives them in ascending order of their keys.
-/

namespace Deduction

/-- A tree of plain data. -/
inductive Document where
  | null
  | bool (value : Bool)
  | integer (value : Int)
  | decimal (text : String)
  | string (text : String)
  | array (items : List Document)
  | object (fields : List (String × Document))
  deriving Repr, Inhabited

namespace Document

/-- Whether an integer fits into 64 bits, with or without a sign.  Integers
beyond that are treated like decimals. -/
def fits (n : Int) : Bool :=
  -9223372036854775808 ≤ n && n ≤ 18446744073709551615

/-- What kind of value a document is, in words. -/
def describe : Document → String
  | null => "null"
  | bool value => "boolean `" ++ toString value ++ "`"
  | integer n => if fits n then "integer `" ++ n.repr ++ "`" else "floating point"
  | decimal _ => "floating point"
  | string text => "string " ++ Text.quoted text
  | array _ => "sequence"
  | object _ => "map"

/-- Puts a field into an object in its place by the order of keys.  A field of
the same key is replaced. -/
def insertField (key : String) (value : Document) :
    List (String × Document) → List (String × Document)
  | [] => [(key, value)]
  | (k, v) :: rest =>
    if key < k then (key, value) :: (k, v) :: rest
    else if key = k then (key, value) :: rest
    else (k, v) :: insertField key value rest

/-- The object with the given fields in ascending order of keys, of which the
last one of each key counts. -/
def ofFields (fields : List (String × Document)) : Document :=
  .object (fields.foldl (fun done field => insertField field.1 field.2 done) [])

/-- The string, or null if there is none. -/
def ofString? (text : Option String) : Document :=
  (text.map string).getD null

end Document

end Deduction
