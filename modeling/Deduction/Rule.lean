import Deduction.Version

/-!
# Inference rules

The nine rules that a proof line can appeal to, and the **rule book** in which
a module declares the rules it uses with their versions.  A rule book may
declare any name; a later declaration of a name replaces an earlier one.
-/

namespace Deduction

/-- An inference rule. -/
inductive Rule where
  | add
  | rename
  | modusPonens
  | substFree
  | substPredicate
  | substFunction
  | universal
  | existential
  | conditionalProof
  deriving DecidableEq, Repr

namespace Rule

/-- Every rule. -/
def all : List Rule :=
  [add, rename, modusPonens, substFree, substPredicate, substFunction, universal,
    existential, conditionalProof]

/-- The name under which a rule is declared. -/
def name : Rule → String
  | add => "ADD"
  | rename => "RENAME"
  | modusPonens => "MP"
  | substFree => "SUBST_FREE"
  | substPredicate => "SUBST_PRED"
  | substFunction => "SUBST_FUN"
  | universal => "UNIVERSAL"
  | existential => "EXISTENTIAL"
  | conditionalProof => "CP"

end Rule

/-- A rule name together with the version it is declared at. -/
structure RuleKey where
  name : String
  version : Version
  deriving DecidableEq, Repr

namespace RuleKey

/-- Name and version, separated by a blank. -/
def text (key : RuleKey) : String :=
  key.name ++ " " ++ key.version.text

end RuleKey

/-- Declared rules, the latest declaration first. -/
structure RuleBook where
  declarations : List (String × Version) := []
  deriving DecidableEq, Repr, Inhabited

namespace RuleBook

/-- Declares a rule name at a version. -/
def declare (book : RuleBook) (name : String) (version : Version) : RuleBook :=
  ⟨(name, version) :: book.declarations⟩

/-- The rule book with the given declarations, of which a later one counts. -/
def ofList (declarations : List (String × Version)) : RuleBook :=
  declarations.foldl (fun book entry => book.declare entry.1 entry.2) {}

/-- The rule book that declares every rule at one version. -/
def allAt (version : Version) : RuleBook :=
  ofList (Rule.all.map fun rule => (rule.name, version))

/-- The declaration of a name that counts. -/
def find? (book : RuleBook) (name : String) : Option RuleKey :=
  (book.declarations.lookup name).map fun version => ⟨name, version⟩

/-- A rule that was declared is found with its new version. -/
@[simp] theorem find?_declare_self (book : RuleBook) (name : String) (version : Version) :
    (book.declare name version).find? name = some ⟨name, version⟩ := by
  simp [find?, declare]

/-- Declaring a rule leaves all others as they were. -/
theorem find?_declare_of_ne (book : RuleBook) {name other : String} (version : Version)
    (hne : other ≠ name) : (book.declare name version).find? other = book.find? other := by
  have h : (other == name) = false := by simpa using hne
  simp [find?, declare, List.lookup_cons, h]

end RuleBook

end Deduction
