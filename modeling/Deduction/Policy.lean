import Deduction.Version

/-!
# Policies

A policy fixes what a proof check accepts: whether formal proofs are accepted
at all, at which versions rules may be declared, from which version on rules
may be used in conditional proofs, and how deeply those may be nested.  Without
a conditional minimum there are no conditional proofs.
-/

namespace Deduction

/-- What a proof check accepts. -/
structure Policy where
  acceptsProofs : Bool
  supported : List Version
  conditionalMinimum : Option Version
  maxDepth : Nat
  deriving DecidableEq, Repr

namespace Policy

/-- How deeply conditional proofs may be nested unless said otherwise. -/
def defaultDepth : Nat := 64

/-- A policy that accepts proofs.  Each supported version counts once, at its
first place. -/
def accepting (supported : List Version) (conditionalMinimum : Option Version)
    (maxDepth : Nat) : Policy where
  acceptsProofs := true
  supported := supported.eraseDups
  conditionalMinimum := conditionalMinimum
  maxDepth := maxDepth

/-- The basic rules only, without conditional proofs. -/
def basic : Policy :=
  accepting [Version.basic] none defaultDepth

/-- The basic rules and conditional proofs. -/
def conditional : Policy :=
  accepting [Version.basic, Version.conditional] (some Version.conditional) defaultDepth

/-- The policy that rejects every proof. -/
def disabled : Policy where
  acceptsProofs := false
  supported := []
  conditionalMinimum := none
  maxDepth := 0

/-- The policy for a module that declares its rules at a version. -/
def forVersion (version : Version) : Policy :=
  if version = Version.basic then basic
  else if version = Version.conditional then conditional
  else disabled

end Policy

end Deduction
