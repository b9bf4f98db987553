/-!
# Console lines

Every component reports under its own name in brackets. Detail lines are shown only where the
environment asks for them.

## Contents

* `Console.Level`, `Console.Line`.
* `Console.Line.shown?`: where a line goes and what it says, if it is shown.
-/

namespace Outpost

namespace Console

/-- How important a line is. -/
inductive Level where
  | debug
  | info
  | warn
  | error
deriving DecidableEq, Repr

/-- The kind of console output that a line becomes, which its `Level` decides. -/
inductive Stream where
  | log
  | warn
  | error
deriving DecidableEq, Repr

/-- One line, `text`, of one `component`. -/
structure Line where
  level : Level
  component : String
  text : String
deriving DecidableEq, Repr

/-- The environment variable that, set to `1`, shows the detail lines. -/
def debugVariable : String := "EPHEMERAL_DEPLOY_DEBUG"

/-- Whether the value of `debugVariable` shows the detail lines. -/
def showsDebug (setting : Option String) : Bool := setting = some "1"

/-- A line with the name of its `component` in front. -/
def Line.labelled (line : Line) : String := "[" ++ line.component ++ "] " ++ line.text

/-- Where a line goes and what it says, under a `setting` of `debugVariable`. -/
def Line.shown? (setting : Option String) (line : Line) : Option (Stream × String) :=
  match line.level with
  | .debug => if showsDebug setting then some (.log, line.labelled) else none
  | .info => some (.log, line.labelled)
  | .warn => some (.warn, line.labelled)
  | .error => some (.error, line.labelled)

end Console

end Outpost
