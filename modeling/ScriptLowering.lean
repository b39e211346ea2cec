import ScriptLowering.Callable.Basic
import ScriptLowering.Callable.Decoder
import ScriptLowering.Callable.Encoder
import ScriptLowering.Callable.Tuple
import ScriptLowering.ClassDecl.Basic
import ScriptLowering.ClassDecl.Decoder
import ScriptLowering.ClassDecl.Lower
import ScriptLowering.Command.Arguments
import ScriptLowering.Command.Basic
import ScriptLowering.Command.Directory
import ScriptLowering.Command.Host
import ScriptLowering.Command.Outcome
import ScriptLowering.Compiler.Basic
import ScriptLowering.Compiler.Cache
import ScriptLowering.Compiler.Session
import ScriptLowering.Draft.Basic
import ScriptLowering.Draft.Builder
import ScriptLowering.Failure
import ScriptLowering.Frame.Basic
import ScriptLowering.Frame.Lower
import ScriptLowering.Instruction.Basic
import ScriptLowering.Instruction.Operator
import ScriptLowering.Json.Basic
import ScriptLowering.Json.Number
import ScriptLowering.Json.Parser
import ScriptLowering.Json.Printer
import ScriptLowering.Json.Token
import ScriptLowering.Literal.Basic
import ScriptLowering.Literal.Payload
import ScriptLowering.Main
import ScriptLowering.Naming.Basic
import ScriptLowering.Naming.Document
import ScriptLowering.Number.Binary64
import ScriptLowering.Number.Layout
import ScriptLowering.Number.Numeral
import ScriptLowering.Number.Rounding
import ScriptLowering.Number.Shortest
import ScriptLowering.Proofs.Callable.FirstFault
import ScriptLowering.Proofs.Callable.Grammar
import ScriptLowering.Proofs.Callable.Reading
import ScriptLowering.Proofs.Callable.RoundTrip
import ScriptLowering.Proofs.ClassDecl.Default
import ScriptLowering.Proofs.ClassDecl.Effect
import ScriptLowering.Proofs.ClassDecl.MethodForm
import ScriptLowering.Proofs.Command.CallableList
import ScriptLowering.Proofs.Compiler.Remembering
import ScriptLowering.Proofs.Compiler.Streaming
import ScriptLowering.Proofs.Draft.Building
import ScriptLowering.Proofs.Draft.Interchange
import ScriptLowering.Proofs.Draft.Substitution
import ScriptLowering.Proofs.Frame.ClosedForm
import ScriptLowering.Proofs.Frame.Fresh
import ScriptLowering.Proofs.Frame.Offence
import ScriptLowering.Proofs.Frame.Renaming
import ScriptLowering.Proofs.Frame.Scope
import ScriptLowering.Proofs.Frame.Step
import ScriptLowering.Proofs.Frame.Target
import ScriptLowering.Proofs.Literal.FloatPayload
import ScriptLowering.Proofs.Literal.FloatRoundTrip
import ScriptLowering.Proofs.Literal.Integer
import ScriptLowering.Proofs.Literal.Spelling
import ScriptLowering.Proofs.Literal.StringPayload
import ScriptLowering.Proofs.Machine.Basic
import ScriptLowering.Proofs.Machine.Simulation
import ScriptLowering.Proofs.Number.Layout
import ScriptLowering.Proofs.Number.Numeral
import ScriptLowering.Proofs.Number.Rounding
import ScriptLowering.Proofs.Outcome
import ScriptLowering.Proofs.Session.Growth
import ScriptLowering.Proofs.Session.Transparency
import ScriptLowering.Proofs.Text.Base64
import ScriptLowering.Proofs.Text.Canonical
import ScriptLowering.Proofs.Text.Quoted
import ScriptLowering.Proofs.Text.Utf8
import ScriptLowering.Script.Declaration
import ScriptLowering.Script.Statement
import ScriptLowering.Text.Base64
import ScriptLowering.Text.Blank
import ScriptLowering.Text.Delimited
import ScriptLowering.Text.Hex
import ScriptLowering.Text.Quoted
import ScriptLowering.Text.Utf8
