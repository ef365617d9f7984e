import Scriptlet.CommandLine.Response
/-!
# The command

Reads the file that the arguments name, runs it and passes on what it writes.  Nothing is decided here: what the
arguments ask for is dispatched, and how a run ends is answered, by the library.
-/
namespace Scriptlet.CommandLine

def ReadFault.ofSystem : IO.Error → ReadFault
  | .noFileOrDirectory .. => .missing
  | .inappropriateType _ 21 _ => .isDirectory
  | .inappropriateType .. => .notDirectory
  | .permissionDenied .. => .other "Permission denied (os error 13)"
  | e => .other (toString e)

def readFile (path : String) : IO (Except ReadFault (List UInt8)) := do
  try
    let content ← IO.FS.readBinFile path
    return .ok content.toList
  catch e => return .error (.ofSystem e)

/-- Writes the bytes of an output from the byte `done` on. -/
def pass (written : Array UInt8) (done : Nat) : IO Unit := do
  let out ← IO.getStdout
  out.write ⟨written.extract done written.size⟩
  out.flush

/-- The end of a response whose output is passed on. -/
def close (r : Response) : IO UInt32 := do
  IO.eprint r.stderr
  return r.exit.toUInt32

/-- Runs a program with more and more fuel until it ends; its output is passed on as it comes. -/
partial def runToEnd (fuel done : Nat) (source : String) : IO UInt32 := do
  let (verdict, m) := runSource (ι := Int64) fuel source {}
  pass m.written done
  match Response.ofRun (verdict, m) with
  | some r => close r
  | none => runToEnd (4 * fuel) m.written.size source

def finish : Job → IO UInt32
  | .answer r => do
    pass r.stdout.toArray 0
    close r
  | .run source => runToEnd 100000 0 source

end Scriptlet.CommandLine

open Scriptlet.CommandLine in
def main (arguments : List String) : IO UInt32 := do
  finish (← dispatch readFile arguments)
