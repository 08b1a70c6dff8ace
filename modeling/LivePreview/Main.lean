/-
  LivePreview.Main
  ────────────────
  **The program on the command line.**

  Standard input lists the files and directories that the program may see, one to a
  line, as in `find . | workbench preview app`.  The program reads them into a `Disk`,
  runs, and carries out what the run says: which files it writes, what it prints, and
  its exit code.  The trees of the sources come from a parser that has run before; the
  environment variable `WORKBENCH_TREES` names the file with them.
-/
import LivePreview.Cli.Run
import LivePreview.Json.Reader
import LivePreview.Lowering.Parsed

namespace LivePreview.Cli.Host

/-- The lines of a stream. -/
partial def linesOf (input : IO.FS.Stream) : IO (List String) := do
  let line ← input.getLine
  if line.isEmpty then return []
  let lines ← linesOf input
  return String.ofList (line.toList.filter (· != '\n')) :: lines

/-- Add what a written path leads to; what cannot be read as a file is a directory. -/
def see (disk : Disk) (written : String) : IO Disk := do
  let place := disk.placeOf written
  match ← (IO.FS.readBinFile written).toBaseIO with
  | .ok bytes => return { disk with files := (place, bytes) :: disk.files }
  | .error _ => return { disk with directories := place :: disk.directories }

/-- The disk as far as standard input lists it. -/
def seenDisk : IO Disk := do
  let workingDirectory := partsOf ((← IO.getEnv "PWD").getD "")
  (← linesOf (← IO.getStdin)).foldlM see { workingDirectory, files := [], directories := [] }

/-- The parser that knows the trees in the file that the environment names. -/
def parser : IO Lowering.Parser := do
  match ← IO.getEnv "WORKBENCH_TREES" with
  | none => return Lowering.parserOf []
  | some file =>
    let text ← IO.FS.readFile file
    match Json.readWithin text.length text with
    | .ok trees => return Lowering.parserOfJson trees
    | .error _ => return Lowering.parserOf []

/-- Write the files of a disk that another does not hold. -/
def save (before after : Disk) : IO Unit :=
  after.files.forM fun (place, bytes) =>
    if (before.bytes? place).any (· == bytes) then return
    else IO.FS.writeBinFile ("/" ++ shownName place) bytes

/-- Run the program. -/
def run (argv : List String) : IO UInt32 := do
  let disk ← seenDisk
  match Cli.run (← parser) disk argv with
  | .error breakdown =>
    (← IO.getStderr).putStrLn breakdown.message.withoutHalves
    return 1
  | .ok outcome =>
    save disk outcome.disk
    (← IO.getStderr).putStr outcome.errors.withoutHalves
    (← IO.getStdout).putStr outcome.output.withoutHalves
    return UInt32.ofNat outcome.exitCode

end LivePreview.Cli.Host

/-- Run the program with the arguments of the command line. -/
def main (argv : List String) : IO UInt32 :=
  LivePreview.Cli.Host.run argv
