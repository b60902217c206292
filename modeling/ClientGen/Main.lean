import ClientGen.Command.Run

/-!
# The program

The files of the machine as a store of files, and the command line.
-/

namespace ClientGen

/-- An action of the machine as a request that may fail. -/
def request {α : Type} (action : IO α) : IO (Except FileFault α) := do
  try
    return .ok (← action)
  catch
    | .noFileOrDirectory _ _ _ => return .error .missing
    | _ => return .error .refused

/-- Whether the thing at a path is of a kind. -/
def hasKind (path : String) (kind : IO.FS.FileType) : IO Bool := do
  if path.isEmpty then return false
  let here ← IO.currentDir
  match ← request (here / path).metadata with
  | .ok found => return found.type == kind
  | .error _ => return false

instance : FileStore IO where
  readText path := request (IO.FS.readFile path)
  isFile path := hasKind path .file
  isDirectory path := hasKind path .dir
  isEmpty path := request do
    let here ← IO.currentDir
    return (← (here / path).readDir).isEmpty
  makeDirectory path := request (IO.FS.createDir path)
  writeText path text := request (IO.FS.writeFile path text)
  removeFile path := request (IO.FS.removeFile path)
  removeDirectory path := request (IO.FS.removeDir path)

end ClientGen

/-- **The command line.** -/
def main (args : List String) : IO UInt32 := do
  let start ← IO.monoMsNow
  let elapsed : IO Nat := do return (← IO.monoMsNow) - start
  let outcome ← ClientGen.Command.run elapsed args
  outcome.err.forM fun line => IO.eprintln line
  outcome.out.forM fun line => IO.println line
  return outcome.exit.toUInt32
