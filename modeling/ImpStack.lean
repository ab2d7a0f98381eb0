import ImpStack.Number.Binary64
import ImpStack.Number.Decimal
import ImpStack.Text.Unicode
import ImpStack.Text.Quote
import ImpStack.Json.Value
import ImpStack.Json.Cursor
import ImpStack.Json.Number
import ImpStack.Json.Parse
import ImpStack.Json.Schema
import ImpStack.Lang.Type
import ImpStack.Lang.Operator
import ImpStack.Error
import ImpStack.Lang.Typing
import ImpStack.Lang.Syntax
import ImpStack.Lang.Codec
import ImpStack.Stack.Code
import ImpStack.Log
import ImpStack.Check.Scope
import ImpStack.Check.Operations
import ImpStack.Rewrite.Fold
import ImpStack.Rewrite.Prune
import ImpStack.Rewrite.Optimizer
import ImpStack.Check.Analyzer
import ImpStack.Stack.Lower
import ImpStack.Stack.Listing
import ImpStack.Jvm.Assembly
import ImpStack.Stack.Machine
import ImpStack.Compile
import ImpStack.Cli.Similarity
import ImpStack.Cli.Arguments
import ImpStack.Cli.Host
import ImpStack.Cli.Sandbox
import ImpStack.Cli.Run
import ImpStack.Main
import ImpStack.Proofs.Resolution
import ImpStack.Proofs.Judgment
import ImpStack.Proofs.LowerLogic
import ImpStack.Proofs.Rendering
import ImpStack.Proofs.Alignment
import ImpStack.Proofs.LowerExpr
import ImpStack.Proofs.CheckExpr
import ImpStack.Proofs.Agreement
import ImpStack.Proofs.Behaviour
import ImpStack.Proofs.CheckStmt
import ImpStack.Proofs.CheckWalk
import ImpStack.Proofs.Recheck
import ImpStack.Proofs.Folding
import ImpStack.Proofs.Reanalysis
import ImpStack.Proofs.LowerRun
import ImpStack.Proofs.References
import ImpStack.Proofs.Linking
import ImpStack.Proofs.FreshValues
import ImpStack.Proofs.Labels
import ImpStack.Proofs.Returns
import ImpStack.Proofs.CheckedReturns
import ImpStack.Proofs.Slots
import ImpStack.Proofs.AliasChains
import ImpStack.Proofs.ExprMeaning
import ImpStack.Proofs.FoldingMeaning
import ImpStack.Proofs.CountingLoops
import ImpStack.Proofs.OperandKinds
import ImpStack.Proofs.Conversions
import ImpStack.Proofs.IndexLoops
import ImpStack.Proofs.WideningCopies
import ImpStack.Proofs.JvmInstructions
import ImpStack.Proofs.JvmLines
import ImpStack.Proofs.ScopeMaps
import ImpStack.Proofs.OptimizerRounds
import ImpStack.Proofs.FoldedTyping
import ImpStack.Proofs.FreshCode
import ImpStack.Proofs.FreshObjects
import ImpStack.Proofs.FreshPaths
import ImpStack.Proofs.StringConstants
import ImpStack.Proofs.ScopeDependence
import ImpStack.Proofs.InferredTypes
import ImpStack.Proofs.LoopBounds
import ImpStack.Proofs.AcceptedLowering
import ImpStack.Proofs.StatementLowering
import ImpStack.Proofs.ModuleLowering
import ImpStack.Proofs.ExprStack
import ImpStack.Proofs.StmtStack
import ImpStack.Proofs.DeadDeclarations
import ImpStack.Proofs.StackLimits
