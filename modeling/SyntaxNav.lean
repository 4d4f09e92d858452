import SyntaxNav.Main
import SyntaxNav.Tree.Outline
import SyntaxNav.Workspace.Disk
import SyntaxNav.Proofs.Editor.SafeCuts
import SyntaxNav.Proofs.Script.Layout
import SyntaxNav.Proofs.Editor.AtomicSteps
import SyntaxNav.Proofs.Script.TokenLeaves
import SyntaxNav.Proofs.Navigation.Identity
import SyntaxNav.Proofs.Editor.PlainSession
import SyntaxNav.Proofs.Script.Printing
import SyntaxNav.Proofs.Script.FormedExpressions
import SyntaxNav.Proofs.Script.FormedStatements
import SyntaxNav.Proofs.Script.WrittenForms
import SyntaxNav.Proofs.Script.Balance
import SyntaxNav.Proofs.Script.Operands
import SyntaxNav.Proofs.Script.RereadExpressions
import SyntaxNav.Proofs.Script.RereadStatements
import SyntaxNav.Proofs.Script.RereadPrograms
import SyntaxNav.Proofs.Script.RoundTrip
import SyntaxNav.Proofs.Tree.Forest
import SyntaxNav.Proofs.Script.NoOrphans
import SyntaxNav.Proofs.Script.TextBrackets
import SyntaxNav.Proofs.Script.ArrowLookahead
import SyntaxNav.Proofs.Navigation.Crossing
import SyntaxNav.Proofs.Editor.ShownNode
import SyntaxNav.Proofs.Script.JoinedPrograms
import SyntaxNav.Proofs.Navigation.Locating
import SyntaxNav.Proofs.Navigation.PreciseLocation
import SyntaxNav.Proofs.Script.Precedence
import SyntaxNav.Proofs.Script.Tiling
import SyntaxNav.Proofs.Text.Deletion
import SyntaxNav.Proofs.Script.ErrorPlaces
import SyntaxNav.Proofs.Script.RightChains
import SyntaxNav.Proofs.Tree.Traversals
import SyntaxNav.Proofs.Navigation.SilentSteps
import SyntaxNav.Proofs.Navigation.ListSteps
import SyntaxNav.Proofs.Tree.PathIdentity
import SyntaxNav.Proofs.FieldOrder.Cycle
import SyntaxNav.Proofs.Workspace.Contents
import SyntaxNav.Proofs.Journal.Latest
import SyntaxNav.Proofs.CommandLine.AllOrNothing
import SyntaxNav.Proofs.Script.Runs
import SyntaxNav.Proofs.Text.WrittenPositions
import SyntaxNav.Proofs.FieldOrder.EarliestFlaw
