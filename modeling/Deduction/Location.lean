/-!
# Locations

A location says where in a document something stands: the name of a module
and a position inside it, such as `proof.line[2].reason.reference`.  A position
grows by fields and by indexed fields, separated by dots.
-/

namespace Deduction

/-- A place in a module. -/
structure Location where
  moduleName : String
  position : String
  deriving DecidableEq, Repr, Inhabited

namespace Location

/-- The place of a field. -/
def field (place : Location) (name : String) : Location :=
  { place with
    position := if place.position = "" then name else place.position ++ "." ++ name }

/-- The place of an element of an indexed field. -/
def item (place : Location) (name : String) (index : Nat) : Location :=
  place.field (name ++ "[" ++ index.repr ++ "]")

/-- The place of a subformula, one step for each index of the path. -/
def follow (place : Location) (path : List Nat) : Location :=
  path.foldl (fun place index => place.item "element" index) place

/-- Module and position, separated by a colon. -/
def text (place : Location) : String :=
  place.moduleName ++ ":" ++ place.position

end Location

end Deduction
