import Outpost.Machine
import Outpost.Shell
import Outpost.Text

/-!
# Finished remote commands

What a command line left behind on a host with a POSIX shell, and what is read from it: output that
only counts after success, the path of a command, and the path of a new temporary directory.

## Contents

* `Machine.Finished`, `Finished.require`, `Finished.command`.
* The command lines that machines send of their own accord.
-/

namespace Outpost

namespace Machine

/-- What a finished command left behind, in its `stdout` and `stderr` and by its `exitCode`. -/
structure Finished where
  stdout : String
  stderr : String
  /-- The exit code; `null` if the command was not seen to exit. -/
  exitCode : Json
deriving BEq

/-- Whether an exit code is that of success, `0`. -/
def isSuccess : Json → Bool
  | .number code => code = .ofInt 0
  | _ => false

/-- Whether a command exited without a fault, as `isSuccess` has it. -/
def Finished.succeeded (result : Finished) : Bool := isSuccess result.exitCode

/-- The output of a command that had to succeed, or the fault that says that it has not. -/
def Finished.require (result : Finished) (machine commandLine : String) : Except Fault String :=
  if result.succeeded then .ok result.stdout
  else
    .error (.ofMessage ("\"" ++ commandLine ++ "\" failed on " ++ machine ++ " (exit "
      ++ result.exitCode.display ++ "): " ++ Text.trim result.stderr))

/-- The first line of a text without the blanks around it, by `trim`. -/
def firstLine (text : String) : String :=
  String.ofList ((Text.split '\n' (Text.trimChars text.toList)).head?.getD [])

/-- The command that a lookup found: its path is the `firstLine` of the output, and a lookup that
failed or wrote nothing found none. -/
def Finished.command (result : Finished) (machine : Option Json) (name : String) :
    Except Fault Command :=
  let path := firstLine result.stdout
  if !result.succeeded || path = "" then .error (.ofCommand name machine)
  else .ok (.found [.string path])

/-! ## Command lines -/

/-- The command line that makes a temporary directory and writes its path, `mktemp`. -/
def makeDirectoryLine : String := "mktemp -d"

/-- The command line that removes the tree of a `directory`, `rm`. -/
def removeDirectoryLine (directory : Directory) : String :=
  "rm -rf -- " ++ Shell.quote directory.path

/-- The command line that writes the path of the command `name`. -/
def lookupLine (name : String) : String := "command -v " ++ Shell.quote name

/-- The command line that writes its input to the file `path`, `cat`. -/
def writeFileLine (path : String) : String := "cat > " ++ Shell.quote path

end Machine

end Outpost
