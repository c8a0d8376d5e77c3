import Deduction.Check.Proof
import Deduction.Document.Json
import Deduction.Document.Yaml
import Deduction.Line.Document
import Deduction.Policy.Settings
import Deduction.Proofs.Shape
import Deduction.Rule.Document
import Deduction.Proofs.Differences
import Deduction.Proofs.Renaming
import Deduction.Proofs.Substitution
import Deduction.Proofs.Applications
import Deduction.Proofs.Derivation
import Deduction.Proofs.Steps
import Deduction.Proofs.Acceptance
import Deduction.Proofs.Capture
import Deduction.Proofs.Sorts
import Deduction.Proofs.Semantics
import Deduction.Proofs.Invariance
import Deduction.Proofs.Definitions
import Deduction.Proofs.Soundness
import Deduction.Proofs.Normalization
import Deduction.Proofs.Transparency
import Deduction.Proofs.Locality
import Deduction.Proofs.Monotonicity
import Deduction.Proofs.Grammar
import Deduction.Proofs.FormulaReading
import Deduction.Proofs.Log
import Deduction.Proofs.LineReading
import Deduction.Proofs.Binders
import Deduction.Proofs.Detachment
import Deduction.Proofs.Agreement
import Deduction.Proofs.Faults
import Deduction.Proofs.Blocks
import Deduction.Proofs.Verdicts
import Deduction.Proofs.Citations
import Deduction.Proofs.References
import Deduction.Proofs.Mismatches
import Deduction.Proofs.Nesting
import Deduction.Proofs.VersionText
import Deduction.Proofs.Display
import Deduction.Proofs.AlphaEquivalence
import Deduction.Proofs.VariableNames
import Deduction.Proofs.Addresses
