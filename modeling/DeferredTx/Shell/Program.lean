import DeferredTx.Session.Opening
import DeferredTx.Shell.Session

/-!
# The shell as a program

The program loads its settings, opens a connection, and carries out a script on it.

* `report`: how an error that ends the program is written.
* `Outcome`: what the program has printed, and its exit code.
* `programOver`: the whole program on the contents of its surroundings, over any libraries.
* `program`: the program over the store.
-/

namespace DeferredTx.Shell

/-- Where the script comes from. -/
inductive Source where
  | input (bytes : ByteArray)
  | file (path : String)

/-- What the program has printed, and its exit code. -/
structure Outcome where
  messages : List Message
  code : Nat

/-- The lines of a text, with `first` in front of the first one and `next` in front of the others. -/
def indented (first next text : String) : String :=
  let parts := (Text.splitAll (· == '\n') text.toList).map String.ofList
  first ++ String.intercalate ("\n" ++ next) parts

/-- Causes, each on lines of its own. They are numbered if there are several. -/
def causes : List String → List String
  | [c] => [indented "    " "    " c]
  | cs => cs.zipIdx.map fun c => indented ("    " ++ toString c.2 ++ ": ") "       " c.1

/-- An error that ends the program: its outermost message, then what has caused it. -/
def report : List String → String
  | [] => "Error: "
  | [outer] => "Error: " ++ outer
  | outer :: inner => String.intercalate "\n" (("Error: " ++ outer) :: "" :: "Caused by:" :: causes inner)

/-- The end of the program by an error. -/
def fatal (messages : List Message) (chain : List String) : Outcome :=
  ⟨messages ++ [.error (report chain)], 1⟩

/-- The bytes of the script. A directory can be opened, but not read. -/
def Source.bytes (files : Files) : Source → Except (List String) ByteArray
  | .input bytes => .ok bytes
  | .file path =>
    match files path with
    | .ok bytes => .ok bytes
    | .error .isDirectory => .error [FileError.isDirectory.message]
    | .error e => .error ["Failed to open " ++ path, e.message]

open DeferredTx.Session (Connection Connector Controller Database)

/-- The session that the program starts with. -/
def Session.start {σ : Type} (split : Splitter) (controller : Controller (Connection σ)) :
    Session (Connection σ) :=
  { controller, kind := controller.delegate.kind, split }

/-- The program over any library that connects to databases, and any that splits texts. A line of the
script that is no valid UTF-8 ends it, and what has been gathered until then is not run. -/
def programOver {σ : Type} [Database σ] (connector : Connector σ) (split : Splitter) (files : Files)
    (vars : Variables) (source : Source) : Outcome :=
  match Settings.load files vars with
  | .error e => fatal [] e.chain
  | .ok settings =>
    match connector.openWith settings with
    | .error e => fatal [] ["Failed to open smart-commit connection", e.message]
    | .ok controller =>
      match source.bytes files with
      | .error chain => fatal [] chain
      | .ok bytes =>
        let (lines, valid) := readLines bytes.toList
        let session := Session.start split controller
        if valid then
          let (messages, last) := session.performAll (steps lines)
          match DeferredTx.Session.Controller.close last.controller with
          | .ok _ _ => ⟨messages, 0⟩
          | .error e _ => fatal messages [e.message]
        else
          fatal (session.performAll (stepsFrom "" lines).1).1 [FileError.notUtf8.message]

/-- The program over the store. -/
def program (files : Files) (vars : Variables) (source : Source) : Outcome :=
  programOver DeferredTx.Session.inMemory Sql.Script.split files vars source

end DeferredTx.Shell
