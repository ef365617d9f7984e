import Scriptlet.CommandLine.Directory
import Scriptlet.CommandLine.Usage
import Scriptlet.Program
/-!
# Responses

What the command answers: the exit code and what it writes to its two outputs.  The output of a program that fails is
kept, and the fault goes to the error output.  What the arguments and the file decide is decided in `dispatch`, which
leaves open how files are read.
-/
namespace Scriptlet.CommandLine

structure Response where
  exit : Nat
  stdout : List UInt8
  stderr : String

/-- An error that is not about the arguments. -/
def errorLine (kind : FaultKind) (message : String) : String := s!"error[{kind.name}]: {message}\n"

def faultLine (f : Fault) : String := errorLine f.diagnostic.kind f.diagnostic.message

/-- The line about a file that cannot be read. -/
def unreadable (file reason : String) : String := errorLine .output s!"cannot read '{file}': {reason}"

/-- The text of a file's content. -/
def decode (content : List UInt8) : Except ReadFault String :=
  match String.fromUTF8? ⟨content.toArray⟩ with
  | some source => .ok source
  | none => .error .notText

def Response.ofUsageFault (f : UsageFault) : Response := ⟨2, [], f.message⟩

def Response.ofReadFault (file : String) (f : ReadFault) : Response := ⟨1, [], unreadable file f.reason⟩

/-- The response to a run that came to its end. -/
def Response.ofRun {ι : Type} : Except Stop Unit × Machine ι → Option Response
  | (.ok (), m) => some ⟨0, m.written.toList, ""⟩
  | (.error (.fault f), m) => some ⟨1, m.written.toList, faultLine f⟩
  | (.error .outOfFuel, _) => none

/-- What is left to do once the arguments and the file that they name are read. -/
inductive Job
  | answer (r : Response)
  | run (source : String)

/-- What arguments ask for, with `read` for the files. -/
def dispatch {m : Type → Type} [Monad m] (read : String → m (Except ReadFault (List UInt8))) (arguments : List String) :
    m Job :=
  match parse arguments with
  | .error f => return .answer (.ofUsageFault f)
  | .ok .help => return .answer ⟨0, Text.bytes helpText, ""⟩
  | .ok .version => return .answer ⟨0, Text.bytes versionText, ""⟩
  | .ok (.run file) => do
    match (← read file) >>= decode with
    | .error f => return .answer (.ofReadFault file f)
    | .ok source => return .run source

/-- The response to arguments; none when the program runs out of fuel. -/
def respond (fuel : Nat) (read : String → Except ReadFault (List UInt8)) (arguments : List String) : Option Response :=
  match (dispatch (m := Id) read arguments).run with
  | .answer r => some r
  | .run source => Response.ofRun (runSource (ι := Int64) fuel source {})

end Scriptlet.CommandLine
