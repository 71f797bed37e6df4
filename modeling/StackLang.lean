import StackLang.Command.Arguments
import StackLang.Command.Respond
import StackLang.Diagnostic
import StackLang.Log.Level
import StackLang.Log.Notice
import StackLang.Machine.Effect
import StackLang.Machine.Run
import StackLang.Machine.Step
import StackLang.Main
import StackLang.Op.Basic
import StackLang.Op.Intrinsic
import StackLang.Op.Layout
import StackLang.Op.Outline
import StackLang.Program.Builder
import StackLang.Program.Draft
import StackLang.Program.Load
import StackLang.Program.Reload
import StackLang.Program.Simulate
import StackLang.Source.FileState
import StackLang.Source.Lines
import StackLang.Source.Location
import StackLang.Source.Path
import StackLang.Source.Utf8
import StackLang.Text.Blank
import StackLang.Text.Cased
import StackLang.Text.Lowercase
import StackLang.Text.Numeral
import StackLang.Text.Plain
import StackLang.Text.Printable
import StackLang.Text.Quoted
import StackLang.Text.Ranges
import StackLang.Token.Basic
import StackLang.Token.Stream
import StackLang.Proofs.Parse.Frames
import StackLang.Proofs.Parse.Acceptance
import StackLang.Proofs.Parse.Faults
import StackLang.Proofs.Machine.BigStep
import StackLang.Proofs.Machine.Refinement
import StackLang.Proofs.Parse.Relocation
import StackLang.Proofs.Program.Pipeline
import StackLang.Proofs.Source.Decoding
import StackLang.Proofs.Token.Classify
import StackLang.Proofs.Op.Layout
import StackLang.Proofs.Parse.Erasure
import StackLang.Proofs.Program.RoundTrip
import StackLang.Proofs.Token.Positions
import StackLang.Proofs.Parse.Nesting
import StackLang.Proofs.Machine.Lockstep
import StackLang.Proofs.Program.Replay
import StackLang.Proofs.Program.Failures
import StackLang.Proofs.Machine.Framing
import StackLang.Proofs.Source.Validity
import StackLang.Proofs.Token.Reading
import StackLang.Proofs.Program.Lazy
import StackLang.Proofs.Machine.Reporting
import StackLang.Proofs.Program.Locations
import StackLang.Proofs.Machine.Exactness
import StackLang.Proofs.Machine.Sequencing
import StackLang.Proofs.Program.Words
import StackLang.Proofs.Token.Cursor
import StackLang.Proofs.Program.Concatenation
import StackLang.Proofs.Machine.Course
import StackLang.Proofs.Program.Range
import StackLang.Proofs.Machine.Budget
import StackLang.Proofs.Machine.Residue
import StackLang.Proofs.Machine.Chains
import StackLang.Proofs.Machine.Straight
import StackLang.Proofs.Machine.Reduction
import StackLang.Proofs.Text.Numeral
import StackLang.Proofs.Program.Printing
import StackLang.Proofs.Op.Indentation
import StackLang.Proofs.Parse.Consistency
import StackLang.Proofs.Program.Unclosed
import StackLang.Proofs.Program.Calls
import StackLang.Proofs.Token.Numerals
import StackLang.Proofs.Machine.Room
