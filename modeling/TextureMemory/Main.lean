import TextureMemory.Demo

/-!
# The command line

Draws the streaming scene with the settings of the file that is named first, if any is.
-/

open TextureMemory

/-- The bytes of a file, unless there is none. -/
def readFile (path : String) : IO (Option ByteArray) := do
  try
    return some (← IO.FS.readBinFile path)
  catch
    | .noFileOrDirectory .. => return none
    | e => throw e

/-- Reports on a demonstration. -/
def main (args : List String) : IO UInt32 := do
  let file ← args.head?.mapM fun path => do
    return (path, Settings.ofFile (← readFile path))
  match Demo.run file with
  | .error _ =>
    IO.eprintln "halted"
    return 101
  | .ok report =>
    report.log.forM IO.println
    report.complaint.forM IO.eprintln
    return if report.succeeded then 0 else 1
