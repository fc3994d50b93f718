import TriReg.Address.Reader
import TriReg.CommandLine
import TriReg.Instruction.Reader
import TriReg.Machine.Transition
import TriReg.Main
import TriReg.Program.Check
import TriReg.Program.Listing
import TriReg.Program.Reader
import TriReg.Session
import TriReg.Proofs.Except
import TriReg.Proofs.Cell
import TriReg.Proofs.Execute
import TriReg.Proofs.Step
import TriReg.Proofs.Block
import TriReg.Proofs.DataFailure
import TriReg.Proofs.Reachable
import TriReg.Proofs.Confinement
import TriReg.Proofs.LargerStack
import TriReg.Proofs.Control
import TriReg.Proofs.FailedStep
import TriReg.Proofs.Commands
import TriReg.Proofs.EarlyLeave
import TriReg.Proofs.BalancedCall
import TriReg.Proofs.Termination
import TriReg.Proofs.Words
import TriReg.Proofs.Decimal
import TriReg.Proofs.Syntax
import TriReg.Proofs.Reading
import TriReg.Proofs.RoundTrip
import TriReg.Proofs.Lines
import TriReg.Proofs.Loading
import TriReg.Proofs.StoredFault
import TriReg.Proofs.OneLine
import TriReg.Proofs.Representation
import TriReg.Proofs.Runs
import TriReg.Proofs.CommandLine
import TriReg.Proofs.Dump
import TriReg.Proofs.Translation
import TriReg.Proofs.Renaming
import TriReg.Proofs.Appending
import TriReg.Proofs.Unseen
import TriReg.Proofs.Reset
import TriReg.Proofs.Tracing
import TriReg.Proofs.Rejection
import TriReg.Proofs.Concatenation
import TriReg.Proofs.Layout
import TriReg.Proofs.Checking
import TriReg.Proofs.Access
import TriReg.Proofs.Skipping
import TriReg.Proofs.Splitting
import TriReg.Proofs.Store
import TriReg.Proofs.Footprint
import TriReg.Proofs.Arithmetic
import TriReg.Proofs.PointerWalk
import TriReg.Proofs.StackListing
import TriReg.Proofs.Numbers
import TriReg.Proofs.Quotation
import TriReg.Proofs.LabelTable
import TriReg.Proofs.Reporting
import TriReg.Proofs.Printing
import TriReg.Proofs.NumberForms
