import DeferredTx.Text.Blank
import DeferredTx.Text.Split

/-!
# Scripts of the shell

A script is read line by line. A line whose first character is a backslash is a meta command, as long
as nothing but blanks has been gathered; every other line is gathered, and what has been gathered is
run when a line ends in a semicolon, or when the script ends.

* `readLines`: the lines in the bytes of a script.
* `Step`: what the shell does.
* `gather`, `steps`: the steps of one line, of a whole script.
-/

namespace DeferredTx.Shell

/-- The lines of a text of bytes, without the line feeds that end them. A carriage return in front of
a line feed belongs to it. -/
def byteLines (bytes : List UInt8) : List (List UInt8) :=
  let parts := Text.splitAll (· == 10) bytes
  let ended := parts.dropLast.map fun l => if l.getLast? = some 13 then l.dropLast else l
  let last := parts.getLastD []
  if last.isEmpty then ended else ended ++ [last]

/-- The lines of a script up to the first one that is no valid UTF-8, and whether all are valid. -/
def readLines (bytes : List UInt8) : List String × Bool :=
  let decoded := (byteLines bytes).map fun l => String.fromUTF8? ⟨l.toArray⟩
  ((decoded.takeWhile Option.isSome).filterMap id, decoded.all Option.isSome)

/-- What the shell does. -/
inductive Step where
  /-- It carries out the meta command on a line. -/
  | command (line : String)
  /-- It runs the SQL that it has gathered. -/
  | run (text : String)
  deriving DecidableEq, Repr

/-- What the shell does on a line, and what it has gathered afterwards. -/
def gather (gathered line : String) : Option Step × String :=
  let trimmed := Text.trim line.toList
  if Text.allBlank gathered.toList && trimmed.head? == some '\\' then
    (some (.command (String.ofList trimmed)), gathered)
  else
    let more := gathered ++ line ++ "\n"
    if trimmed.getLast? = some ';' then (some (.run more), "") else (none, more)

/-- What the shell does on lines, and what it has gathered behind them. -/
def stepsFrom (gathered : String) : List String → List Step × String
  | [] => ([], gathered)
  | line :: more =>
    let (step, gathered) := gather gathered line
    let (steps, rest) := stepsFrom gathered more
    (step.toList ++ steps, rest)

/-- What the shell does with the rest that it has gathered at the end. -/
def lastStep (gathered : String) : Option Step :=
  if Text.allBlank gathered.toList then none else some (.run gathered)

/-- What the shell does on the lines of a script. -/
def steps (lines : List String) : List Step :=
  let (steps, rest) := stepsFrom "" lines
  steps ++ (lastStep rest).toList

end DeferredTx.Shell
