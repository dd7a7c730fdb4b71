import ApiReport.Main
import ApiReport.Proofs.Generate.Recheck
import ApiReport.Proofs.Route.Annotation
import ApiReport.Proofs.Generate.Check
import ApiReport.Proofs.FileTree.Reach
import ApiReport.Proofs.Route.Coverage
import ApiReport.Proofs.Verb
import ApiReport.Proofs.Value.Proper
import ApiReport.Proofs.Spec.Operations
import ApiReport.Proofs.Route.Pattern
import ApiReport.Proofs.Route.Canonical
import ApiReport.Proofs.Route.Registration
import ApiReport.Proofs.Spec.Agreement
import ApiReport.Proofs.Spec.KeyOrder
import ApiReport.Proofs.Spec.Stray
import ApiReport.Proofs.Settings.Load
import ApiReport.Proofs.Path.Spelling
import ApiReport.Proofs.Route.Exclusion
import ApiReport.Proofs.Generate.Arrangement
import ApiReport.Proofs.Generate.Counts
import ApiReport.Proofs.Spec.Outline
import ApiReport.Proofs.Environment
import ApiReport.Proofs.CommandLine
import ApiReport.Proofs.Script.Precedence
import ApiReport.Proofs.FileTree.Difference
import ApiReport.Proofs.Route.Isolation
import ApiReport.Proofs.Script.ExitCode
import ApiReport.Proofs.Route.Margin
import ApiReport.Proofs.Route.Commented
import ApiReport.Proofs.CommandLine.Grammar
import ApiReport.Proofs.Route.Section
import ApiReport.Proofs.FileTree.Subtree
import ApiReport.Proofs.Route.Description
import ApiReport.Proofs.Route.Source
import ApiReport.Proofs.Settings.Reload
import ApiReport.Proofs.Settings.Problem
import ApiReport.Proofs.Spec.Body
import ApiReport.Proofs.Generate.Failure
import ApiReport.Proofs.Route.Lossy
import ApiReport.Proofs.Route.Middleware
import ApiReport.Proofs.Route.Literal
import ApiReport.Proofs.Verb.Recognition
