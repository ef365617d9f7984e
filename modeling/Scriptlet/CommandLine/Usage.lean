import Scriptlet.CommandLine.Arguments
/-!
# Usage texts

What the command says about itself, and about arguments that it does not take.
-/
namespace Scriptlet.CommandLine

def name : String := "minphp"

def versionText : String := name ++ " 0.1.0\n"

def helpText : String := "Run a minphp program

Usage: minphp [FILE]

Arguments:
  [FILE]  Program to run [default: a.php]

Options:
  -h, --help     Print help
  -V, --version  Print version
"

/-- The file in a usage line: in square brackets when it is optional, in angle brackets when it was given. -/
def filePlace (given : Bool) : String := if given then "<FILE>" else "[FILE]"

/-- An error in the form of all usage errors: what is wrong, advice, the usage, and where to find more. -/
def usageError (problem : String) (paragraphs : List String) : String :=
  "error: " ++ String.intercalate "\n\n" (problem :: paragraphs ++ ["For more information, try '--help'.\n"])

def unexpectedArgument (argument : String) : String := s!"unexpected argument '{argument}' found"

def literalTip (argument : String) : String := s!"  tip: to pass '{argument}' as a value, use '-- {argument}'"

def usageLine (words : List String) : String := "Usage: " ++ String.intercalate " " (name :: words)

def UsageFault.message : UsageFault → String
  | emptyFile => usageError "a value is required for '[FILE]' but none was supplied" []
  | secondFile argument => usageError (unexpectedArgument argument) [usageLine [filePlace false]]
  | unknownShort letter =>
    let argument := String.ofList ['-', letter]
    usageError (unexpectedArgument argument) [literalTip argument, usageLine [filePlace false]]
  | unknownLong flagName afterFile =>
    let argument := "--" ++ flagName
    match Flag.suggestion? flagName with
    | some flag =>
      let known := "--" ++ flag.long
      usageError (unexpectedArgument argument)
        [s!"  tip: a similar argument exists: '{known}'", usageLine [known, filePlace afterFile]]
    | none => usageError (unexpectedArgument argument) [literalTip argument, usageLine [filePlace afterFile]]
  | flagWithValue flag value =>
    let known := "--" ++ flag.long
    usageError s!"unexpected value '{value}' for '{known}' found; no more were expected"
      [usageLine [known, filePlace false]]

end Scriptlet.CommandLine
