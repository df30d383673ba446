import SessionShell.Arguments
import SessionShell.CommandLine
import SessionShell.Compile
import SessionShell.Failure
import SessionShell.Frontend
import SessionShell.Host.Files
import SessionShell.Host.Input
import SessionShell.Host.IoError
import SessionShell.Host.Lookup
import SessionShell.Host.Machine
import SessionShell.Host.Path
import SessionShell.Language.Lexer
import SessionShell.Language.Parse
import SessionShell.Language.Parser
import SessionShell.Language.Program
import SessionShell.Language.Token
import SessionShell.Main
import SessionShell.Programs.Escape
import SessionShell.Programs.Format
import SessionShell.Programs.Installed
import SessionShell.Programs.Load
import SessionShell.Programs.Numeral
import SessionShell.Programs.Options
import SessionShell.Programs.Quoting
import SessionShell.Programs.Raw
import SessionShell.Programs.Real
import SessionShell.Programs.Run
import SessionShell.Programs.Script.Arithmetic
import SessionShell.Programs.Script.Basic
import SessionShell.Programs.Script.Children
import SessionShell.Programs.Script.Command
import SessionShell.Programs.Script.Commands.Arguments
import SessionShell.Programs.Script.Commands.Control
import SessionShell.Programs.Script.Commands.Jobs
import SessionShell.Programs.Script.Commands.Meaning
import SessionShell.Programs.Script.Commands.Naming
import SessionShell.Programs.Script.Commands.Output
import SessionShell.Programs.Script.Condition
import SessionShell.Programs.Script.Evaluate
import SessionShell.Programs.Script.Expansion
import SessionShell.Programs.Script.Glyph
import SessionShell.Programs.Script.Lookup
import SessionShell.Programs.Script.Parser
import SessionShell.Programs.Script.PathPattern
import SessionShell.Programs.Script.Redirect
import SessionShell.Programs.Script.Settings
import SessionShell.Programs.Script.Start
import SessionShell.Programs.Script.State
import SessionShell.Programs.Script.Word
import SessionShell.Programs.Signal
import SessionShell.Programs.Tool
import SessionShell.Programs.Tools.Cat
import SessionShell.Programs.Tools.Env
import SessionShell.Programs.Tools.Printf
import SessionShell.Programs.Tools.Sort
import SessionShell.Programs.Tools.Tr
import SessionShell.Programs.Tools.Wc
import SessionShell.Programs.World
import SessionShell.Prompt
import SessionShell.Proofs.Compile.Containment
import SessionShell.Proofs.Compile.Destination
import SessionShell.Proofs.Compile.Failures
import SessionShell.Proofs.Compile.Jobs
import SessionShell.Proofs.Compile.NoWrite
import SessionShell.Proofs.Compile.Preorder
import SessionShell.Proofs.Compile.Products
import SessionShell.Proofs.Compile.Recompiled
import SessionShell.Proofs.Compile.Repetition
import SessionShell.Proofs.Compile.Simulation
import SessionShell.Proofs.Compile.Walk
import SessionShell.Proofs.Compile.Writes
import SessionShell.Proofs.Frontend.Course
import SessionShell.Proofs.Frontend.Debugging
import SessionShell.Proofs.Frontend.InStep
import SessionShell.Proofs.Frontend.Inline
import SessionShell.Proofs.Frontend.OneSession
import SessionShell.Proofs.Host.Children
import SessionShell.Proofs.Host.FileName
import SessionShell.Proofs.Host.Lookup
import SessionShell.Proofs.Host.Plain
import SessionShell.Proofs.Host.Trail
import SessionShell.Proofs.Host.Ways
import SessionShell.Proofs.Host.Writing
import SessionShell.Proofs.Language.Assignments
import SessionShell.Proofs.Language.Blanks
import SessionShell.Proofs.Language.Brackets
import SessionShell.Proofs.Language.Completion
import SessionShell.Proofs.Language.Content
import SessionShell.Proofs.Language.Emission
import SessionShell.Proofs.Language.Finality
import SessionShell.Proofs.Language.Grammar
import SessionShell.Proofs.Language.Modes
import SessionShell.Proofs.Language.Nesting
import SessionShell.Proofs.Language.Nodes
import SessionShell.Proofs.Language.Progress
import SessionShell.Proofs.Language.Reading
import SessionShell.Proofs.Language.Spelling
import SessionShell.Proofs.Language.Surroundings
import SessionShell.Proofs.Language.Tokens
import SessionShell.Proofs.Language.Variables
import SessionShell.Proofs.Prompt.Dialogue
import SessionShell.Proofs.Prompt.Evaluations
import SessionShell.Proofs.Prompt.Lines
import SessionShell.Proofs.Prompt.Loop
import SessionShell.Proofs.Prompt.Protocol
import SessionShell.Proofs.Session.Isolation
import SessionShell.Proofs.Session.LastSeen
import SessionShell.Proofs.Session.Promotion
import SessionShell.Proofs.Session.Reconciliation
import SessionShell.Proofs.Session.Rejection
import SessionShell.Proofs.Shell.Arguments
import SessionShell.Proofs.Shell.Builtins
import SessionShell.Proofs.Shell.Commands
import SessionShell.Proofs.Shell.Copying
import SessionShell.Proofs.Shell.Depth
import SessionShell.Proofs.Shell.Evaluation
import SessionShell.Proofs.Shell.Flag
import SessionShell.Proofs.Shell.Lasting
import SessionShell.Proofs.Shell.Naming
import SessionShell.Proofs.Shell.Nodes
import SessionShell.Proofs.Shell.Output
import SessionShell.Proofs.Shell.Pipelines
import SessionShell.Proofs.Shell.Relations
import SessionShell.Proofs.Shell.Scoping
import SessionShell.Proofs.Shell.Status
import SessionShell.Proofs.Shell.Stream
import SessionShell.Proofs.Shell.Substitutions
import SessionShell.Proofs.Shell.Termination
import SessionShell.Proofs.Text.Utf8
import SessionShell.Proofs.Translation.Divergence
import SessionShell.Proofs.Translation.Idle
import SessionShell.Proofs.Translation.Lockstep
import SessionShell.Proofs.Translation.Preservation
import SessionShell.Proofs.Translation.Stability
import SessionShell.Proofs.Translation.Style
import SessionShell.Proofs.Translation.Trimming
import SessionShell.Proofs.Translation.Waiting
import SessionShell.Report
import SessionShell.Scope
import SessionShell.Session
import SessionShell.Shell.Builtin
import SessionShell.Shell.Evaluate
import SessionShell.Shell.Interpreter
import SessionShell.Shell.Sink
import SessionShell.Shell.State
import SessionShell.Shell.Value
import SessionShell.Text.Blank
import SessionShell.Text.Decimal
import SessionShell.Text.Lines
import SessionShell.Text.Printable
import SessionShell.Text.Quoted
import SessionShell.Text.Utf8
import SessionShell.Translation.Checked
import SessionShell.Translation.Choice
import SessionShell.Translation.External
import SessionShell.Translation.Translator
import SessionShell.Usage
