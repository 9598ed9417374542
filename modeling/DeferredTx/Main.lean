import DeferredTx.Shell.Program

/-!
# The command line

Reads the environment, the first argument and the files that they name, or else the standard input,
and hands them to the program.
-/

open DeferredTx DeferredTx.Shell

/-- The bytes of a file, or why there are none. -/
def readFile (path : String) : IO (Except FileError ByteArray) := do
  try
    return .ok (← IO.FS.readBinFile path)
  catch
    | .noFileOrDirectory .. => return .error .notFound
    | .inappropriateType .. => return .error .isDirectory
    | e => return .error (.other (toString e))

/-- All bytes of the standard input. -/
partial def readInput (stream : IO.FS.Stream) (bytes : ByteArray) : IO ByteArray := do
  let more ← stream.read 65536
  if more.isEmpty then return bytes else readInput stream (bytes ++ more)

def main (args : List String) : IO UInt32 := do
  let names := ["SMARTCOMMIT_CONFIG", "DATABASE_DSN", "SMART_COMMIT", "AUTO_COMMIT"]
  let values ← names.mapM fun name => return (name, ← IO.getEnv name)
  let vars := Variables.ofLookup fun name => (values.lookup name).join
  let paths := vars.file.toList ++ args.take 1
  let contents ← paths.mapM fun path => return (path, ← readFile path)
  let files : Files := fun path => (contents.lookup path).getD (.error .notFound)
  let source ← match args.head? with
    | some path => pure (Source.file path)
    | none => pure (Source.input (← readInput (← IO.getStdin) .empty))
  let outcome := program files vars source
  for message in outcome.messages do
    match message with
    | .output text => IO.println text
    | .error text => IO.eprintln text
  return UInt32.ofNat outcome.code
