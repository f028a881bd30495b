import StackAsm.Bytes
import StackAsm.Text.Ascii
import StackAsm.Text.Utf8
import StackAsm.Text.Blank
import StackAsm.Text.LowerCase
import StackAsm.Text.Printable
import StackAsm.Text.ControlSequence
import StackAsm.Text.Width
import StackAsm.Text.Quoted
import StackAsm.Text.Numeral
import StackAsm.Instruction.Basic
import StackAsm.Instruction.Word
import StackAsm.Instruction.Name
import StackAsm.Instruction.Printer
import StackAsm.Text.Base64
import StackAsm.Yaml.Tag
import StackAsm.Yaml.Fault
import StackAsm.Settings.Problem
import StackAsm.Failure
import StackAsm.Input
import StackAsm.Source.Literal
import StackAsm.Source.Line
import StackAsm.Assembly.StringPush
import StackAsm.Assembly.Mnemonic
import StackAsm.Assembly.Operand
import StackAsm.Assembly.Statement
import StackAsm.Assembly.Label
import StackAsm.Log
import StackAsm.Assembly.Program
import StackAsm.Output.Sink
import StackAsm.Output.Buffer
import StackAsm.Image.Basic
import StackAsm.Listing
import StackAsm.LabelReport
import StackAsm.FileTree
import StackAsm.Image.File
import StackAsm.Yaml.Encoding
import StackAsm.Yaml.Cursor
import StackAsm.Yaml.Comment
import StackAsm.Yaml.Token
import StackAsm.Yaml.Quoted
import StackAsm.Yaml.Plain
import StackAsm.Yaml.Block
import StackAsm.Yaml.Property
import StackAsm.Yaml.Lexer
import StackAsm.Yaml.Number
import StackAsm.Yaml.Timestamp
import StackAsm.Yaml.Scalar
import StackAsm.Yaml.Node
import StackAsm.Yaml.Document
import StackAsm.Settings.Basic
import StackAsm.Command.Flags
import StackAsm.Command.Run
import StackAsm.Main
import StackAsm.Proofs.Instruction.Truncation
import StackAsm.Proofs.Instruction.ReservedBits
import StackAsm.Proofs.Instruction.BitOperations
import StackAsm.Proofs.Text.Token
import StackAsm.Proofs.Text.Numeral
import StackAsm.Proofs.Source.Lines
import StackAsm.Proofs.Assembly.Spelling
import StackAsm.Proofs.Assembly.Emission
import StackAsm.Proofs.Assembly.Transcript
import StackAsm.Proofs.Assembly.LabelOffset
import StackAsm.Proofs.Image.RoundTrip
import StackAsm.Proofs.Listing.Reassembly
import StackAsm.Proofs.Text.Blank
import StackAsm.Proofs.Text.Splitting
import StackAsm.Proofs.Source.Literal
import StackAsm.Proofs.Assembly.StringLine
import StackAsm.Proofs.Assembly.TokenAccess
import StackAsm.Proofs.Assembly.Rejection
import StackAsm.Proofs.Assembly.Strictness
import StackAsm.Proofs.Assembly.ExtendedSet
import StackAsm.Proofs.Assembly.Concatenation
import StackAsm.Proofs.Assembly.FirstFailure
import StackAsm.Proofs.FileTree
import StackAsm.Proofs.Image.Saving
import StackAsm.Proofs.Command.FileEffects
import StackAsm.Proofs.Output.Limit
import StackAsm.Proofs.Assembly.FirstDeclaration
import StackAsm.Proofs.Assembly.StringReading
import StackAsm.Proofs.Text.LetterCase
import StackAsm.Proofs.Text.NumeralGrammar
import StackAsm.Proofs.Assembly.OperandGrammar
import StackAsm.Proofs.Instruction.Field
import StackAsm.Proofs.Assembly.OperandField
import StackAsm.Proofs.Image.Reading
import StackAsm.Proofs.Image.Writing
import StackAsm.Proofs.Assembly.Layout
import StackAsm.Proofs.Listing.Delivery
import StackAsm.Proofs.Output.StickyFailure
import StackAsm.Proofs.Image.AllOrNothing
import StackAsm.Proofs.Assembly.LogRecords
import StackAsm.Proofs.Command.FlagGrammar
import StackAsm.Proofs.Command.EffectiveSettings
