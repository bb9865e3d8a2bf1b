import CheckedIR.Main
import CheckedIR.Text.Template
import CheckedIR.Proofs.Meaning.Compiled
import CheckedIR.Proofs.Construction
import CheckedIR.Proofs.Memory
import CheckedIR.Proofs.Naming
import CheckedIR.Proofs.Program.Loading
import CheckedIR.Proofs.Provenance
import CheckedIR.Proofs.Voids
import CheckedIR.Proofs.Leftovers
import CheckedIR.Proofs.Crashes
import CheckedIR.Proofs.Scope.Owners
import CheckedIR.Proofs.Scope.Resolution
import CheckedIR.Proofs.Layout.Exact
import CheckedIR.Proofs.Restoration
import CheckedIR.Proofs.Freezing
import CheckedIR.Proofs.Loads
import CheckedIR.Proofs.Scope.Paths
import CheckedIR.Proofs.Ir.Acceptance
import CheckedIR.Proofs.Program.NameTrees
import CheckedIR.Proofs.Scope.Chains
import CheckedIR.Proofs.Literals
import CheckedIR.Proofs.Walks
import CheckedIR.Proofs.Jobs
import CheckedIR.Proofs.Scope.Filled
import CheckedIR.Proofs.Command.Watching
