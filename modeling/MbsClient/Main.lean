import MbsClient.CommandLine

/-!
# The program — reads the files that the command asks for and prints what it has to say
-/

open MbsClient

/-- The text of a file, if it can be read. -/
def readFile (path : String) : IO (String × Option String) := do
  try
    return (path, some (← IO.FS.readFile path))
  catch _ =>
    return (path, none)

def main (args : List String) : IO UInt32 := do
  let paths := (CommandLine.parse? args).elim [] Command.files
  let files ← paths.mapM readFile
  let exit := CommandLine.run (fun path => (files.lookup path).join) args
  IO.print exit.output
  if let some complaint := exit.complaint? then
    IO.eprintln complaint
  return exit.code
