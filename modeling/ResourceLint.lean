import ResourceLint.Check
import ResourceLint.Proofs.BuiltOnce
import ResourceLint.Proofs.Closed
import ResourceLint.Proofs.DefaultOverride
import ResourceLint.Proofs.DrawnNames
import ResourceLint.Proofs.LoadOrder
import ResourceLint.Proofs.Members
import ResourceLint.Proofs.MethodLookup
import ResourceLint.Proofs.Positions
import ResourceLint.Proofs.Preorder
import ResourceLint.Proofs.QualifiedNames
import ResourceLint.Proofs.Qualifiers
import ResourceLint.Proofs.Reading
import ResourceLint.Proofs.Retry
import ResourceLint.Proofs.SetterCheck
import ResourceLint.Proofs.SetterLines
import ResourceLint.Proofs.Settled
import ResourceLint.Proofs.Sharing
import ResourceLint.Proofs.Stability
import ResourceLint.Proofs.SymbolTable
import ResourceLint.Proofs.Termination
import ResourceLint.Proofs.Unreferenced
import ResourceLint.Proofs.Views
import ResourceLint.SetterScan
import ResourceLint.Settings.File
import ResourceLint.SyntaxTree.Describe
