import Scriptlet.Text.Similarity
/-!
# Command-line arguments

The command takes one file, which has a default, and two flags.  Arguments are read from left to right; a flag acts at
once.  After `--` every argument is a file, whatever it looks like.
-/
namespace Scriptlet.CommandLine

inductive Flag
  | help
  | version
  deriving DecidableEq

namespace Flag

def long : Flag → String
  | help => "help"
  | version => "version"

def short : Flag → Char
  | help => 'h'
  | version => 'V'

def all : List Flag := [help, version]

def ofLong? (name : String) : Option Flag := all.find? (·.long = name)

def ofShort? (letter : Char) : Option Flag := all.find? (·.short = letter)

/-- The flag that a mistyped name most likely means, if one is similar enough; of two equally similar the later. -/
def suggestion? (name : String) : Option Flag :=
  let score (f : Flag) := Text.similarity name f.long
  let best := if score help ≤ score version then version else help
  if 7 / 10 ≤ score best then some best else none

end Flag

/-- What the command is asked to do. -/
inductive Request
  | help
  | version
  | run (file : String)
  deriving DecidableEq

/-- Why the arguments make no request. -/
inductive UsageFault
  /-- The file is the empty text. -/
  | emptyFile
  /-- A second file, by its argument. -/
  | secondFile (argument : String)
  | unknownShort (letter : Char)
  /-- An unknown long flag, and whether a file came before it. -/
  | unknownLong (name : String) (afterFile : Bool)
  /-- A flag with a value. -/
  | flagWithValue (flag : Flag) (value : String)
  deriving DecidableEq

/-- An argument by its form. -/
inductive Form
  | separator
  | long (name : String) (value : Option String)
  /-- Letters after a dash, of which the first decides. -/
  | short (letter : Char)
  | plain
  deriving DecidableEq

/-- A long flag's name, up to the first equals sign, and its value after that. -/
def splitValue (cs : List Char) : String × Option String :=
  match cs.span (· ≠ '=') with
  | (name, []) => (String.ofList name, none)
  | (name, _ :: value) => (String.ofList name, some (String.ofList value))

def Form.of (argument : String) : Form :=
  match argument.toList with
  | ['-', '-'] => .separator
  | '-' :: '-' :: rest => let (name, value) := splitValue rest; .long name value
  | '-' :: letter :: _ => .short letter
  | _ => .plain

/-- The request for a file, which cannot be empty. -/
def requestRun (file : Option String) : Except UsageFault Request :=
  match file with
  | none => .ok (.run "a.php")
  | some "" => .error .emptyFile
  | some file => .ok (.run file)

/-- The request of a flag after a file that was given or not; the file is looked at first. -/
def requestFlag (flag : Flag) (file : Option String) : Except UsageFault Request := do
  let _ ← requestRun file
  match flag with
  | .help => return .help
  | .version => return .version

/-- Reads the arguments after `--`. -/
def parseLiteral (file : Option String) : List String → Except UsageFault Request
  | [] => requestRun file
  | argument :: rest => if file.isSome then .error (.secondFile argument) else parseLiteral (some argument) rest

/-- Reads arguments after a file that was given or not. -/
def parseFrom (file : Option String) : List String → Except UsageFault Request
  | [] => requestRun file
  | argument :: rest =>
    match Form.of argument with
    | .separator => parseLiteral file rest
    | .long name value =>
      match Flag.ofLong? name, value with
      | some flag, none => requestFlag flag file
      | some flag, some value => .error (.flagWithValue flag value)
      | none, _ => .error (.unknownLong name file.isSome)
    | .short letter =>
      match Flag.ofShort? letter with
      | some flag => requestFlag flag file
      | none => .error (.unknownShort letter)
    | .plain => if file.isSome then .error (.secondFile argument) else parseFrom (some argument) rest

def parse (arguments : List String) : Except UsageFault Request := parseFrom none arguments

end Scriptlet.CommandLine
