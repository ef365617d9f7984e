/-!
# Directories

A working directory as a list of the files and directories in it, and what reading a path in it gives.
-/
namespace Scriptlet.CommandLine

/-- Why a file cannot be read. -/
inductive ReadFault
  | missing
  | isDirectory
  /-- The path goes through a plain file. -/
  | notDirectory
  /-- The content is not text in UTF-8. -/
  | notText
  /-- Any other reason that the system gives. -/
  | other (reason : String)
  deriving DecidableEq

def ReadFault.reason : ReadFault → String
  | missing => "No such file or directory (os error 2)"
  | isDirectory => "Is a directory (os error 21)"
  | notDirectory => "Not a directory (os error 20)"
  | notText => "stream did not contain valid UTF-8"
  | other reason => reason

inductive Node
  | file (content : List UInt8)
  | directory

/-- A directory by the paths below it. -/
structure Directory where
  entries : List (List String × Node)

namespace Directory

/-- The names on a path between slashes. -/
def names (path : String) : List String := path.splitOn "/"

def ofList (entries : List (String × Node)) : Directory :=
  ⟨entries.map fun (path, node) => ((names path).filter fun n => n ≠ "" ∧ n ≠ ".", node)⟩

/-- What stands at a path.  A path that leads to an entry goes through directories. -/
def node? (d : Directory) (path : List String) : Option Node :=
  if d.entries.any fun e => path.length < e.1.length && path.isPrefixOf e.1 then some .directory
  else if path = [] then some .directory
  else (d.entries.find? (·.1 = path)).map (·.2)

/-- Follows names one by one from the node at a path.  Only a directory has anything below it, itself included. -/
def follow (d : Directory) (path : List String) : List String → Except ReadFault Node
  | [] => match d.node? path with
    | some node => .ok node
    | none => .error .missing
  | n :: rest =>
    match d.node? path with
    | none => .error .missing
    | some (.file _) => .error .notDirectory
    | some .directory =>
      if n = "" ∨ n = "." then d.follow path rest
      else if n = ".." then
        if path = [] then (if rest.all fun m => m = "" ∨ m = "." then .ok .directory else .error .missing)
        else d.follow path.dropLast rest
      else d.follow (path ++ [n]) rest

/-- The content of the file at a path.  Outside the directory there are only directories. -/
def read (d : Directory) (path : String) : Except ReadFault (List UInt8) := do
  let node ←
    if path.startsWith "/" then
      if (names path).all (· = "") then .ok .directory else .error .missing
    else d.follow [] (names path)
  match node with
  | .file content => .ok content
  | .directory => .error .isDirectory

end Directory

end Scriptlet.CommandLine
