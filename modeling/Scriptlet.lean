import Scriptlet.Main
import Scriptlet.Session
import Scriptlet.Source.Spelling
import Scriptlet.Tree.Meaning
import Scriptlet.Proofs.Course.Ends
import Scriptlet.Proofs.Walk.Growth
import Scriptlet.Proofs.Walk.Inactive
import Scriptlet.Proofs.Walk.Halting
import Scriptlet.Proofs.Walk.Agreement
import Scriptlet.Proofs.Tree.Readability
import Scriptlet.Proofs.Course.Simulation
import Scriptlet.Proofs.Walk.Performs
import Scriptlet.Proofs.Tree.Walking
import Scriptlet.Proofs.Tree.Parsing
import Scriptlet.Proofs.Source.Shape
import Scriptlet.Proofs.Source.Seams
import Scriptlet.Proofs.Course.Ensures
import Scriptlet.Proofs.Source.RoundTrip
import Scriptlet.Proofs.Walk.Discipline
import Scriptlet.Proofs.Walk.Truthful
import Scriptlet.Proofs.Session
import Scriptlet.Proofs.Course.Lockstep
import Scriptlet.Proofs.Walk.Coupling
import Scriptlet.Proofs.Operand
import Scriptlet.Proofs.Walk.Frame
import Scriptlet.Proofs.Walk.Likeness
import Scriptlet.Proofs.Walk.Mentions
import Scriptlet.Proofs.Walk.Relocation
import Scriptlet.Proofs.Walk.Steps
import Scriptlet.Proofs.Sink
import Scriptlet.Proofs.Walk.Journal
import Scriptlet.Proofs.Walk.Overflow
import Scriptlet.Proofs.Walk.Provenance
import Scriptlet.Proofs.Tree.Chains
import Scriptlet.Proofs.Source.Faults
import Scriptlet.Proofs.Text.WholeNumber
import Scriptlet.Proofs.Text.Numeral
import Scriptlet.Proofs.Value.Order
import Scriptlet.Proofs.Value.IntegerText
import Scriptlet.Proofs.Walk.FirstWrite
import Scriptlet.Proofs.Tree.FirstOperator
import Scriptlet.Proofs.Walk.BodyRuns
import Scriptlet.Proofs.Tree.Turns
import Scriptlet.Proofs.Tree.Counting
import Scriptlet.Proofs.Text.Accumulation
import Scriptlet.Proofs.Source.Integers
import Scriptlet.Proofs.Value.NumeralOrder
import Scriptlet.Proofs.Text.Quoted
import Scriptlet.Proofs.Token
import Scriptlet.Proofs.Source.Loops
