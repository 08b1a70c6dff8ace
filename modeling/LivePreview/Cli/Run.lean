/-
  LivePreview.Cli.Run
  ───────────────────
  **The program on the command line.**

  A run takes the arguments and the disk, and ends with an exit code, what is printed
  on the two streams, and the disk as it is then (`Run`).  A run that breaks down
  ends with none of these (`Breakdown`).
-/
import LivePreview.Cli.Arguments
import LivePreview.Cli.Disk
import LivePreview.Json.Writer
import LivePreview.Preview.Build
import LivePreview.Text.Occurrence

namespace LivePreview.Cli

open LivePreview.Lowering (Parser)

/-- What a run ends with. -/
structure Run where
  exitCode : Nat := 0
  output : Text := ""
  errors : Text := ""
  disk : Disk

/-- How a run breaks down. -/
inductive Breakdown where
  /-- The directory cannot be looked for. -/
  | find (fault : Disk.Fault)
  /-- The files of the directory do not fit into one project. -/
  | load (error : Tree.Error)
  | build (breakdown : Preview.Breakdown)
  | write (fault : Disk.Fault)

/-- The wording of a breakdown. -/
def Breakdown.message : Breakdown → Text
  | .load error => error.message
  | .build breakdown => breakdown.message
  | .find fault | .write fault => fault.message

/-! ## §1. Texts -/

/-- The version of the program. -/
def version : String := "0.1.0"

/-- What the program says about itself. -/
def helpText : Text :=
  Text.unlines [
    "",
    "Workbench CLI v" ++ version,
    "",
    "Usage:",
    "  workbench [options] <command> <dir>",
    "",
    "Commands:",
    "  preview <dir>     Build a self-contained preview of the project in <dir>",
    "  snapshot <dir>    Print the project in <dir> as a JSON snapshot",
    "",
    "Options:",
    "  --entry PATH      Entry file, e.g. /src/App.tsx (default: auto-detect)",
    "  --out FILE        Write the preview to FILE instead of stdout",
    "  --title TITLE     Preview document title",
    "  -h, --help        Show this help",
    "  -v, --version     Show version",
    "",
    "Examples:",
    "  workbench preview ./my-app --out preview.html",
    "  workbench preview ./my-app --entry /src/main.tsx",
    "  workbench snapshot ./my-app > snapshot.json",
    "",
    ""]

/-- What is said about a file that is left out because it is no text. -/
def skipNote (file : Segments) : String :=
  "Skipping binary file: " ++ shownName file ++ "\n"

/-! ## §2. Actions -/

/-- The snapshot of a project as it is printed. -/
def snapshotText (tree : Tree) : Text :=
  (Json.object tree.serialize).page 0 ++ "\n"

/-- What is said about a page that has been written to a file. -/
def writtenNote (document : Preview.Document) (file : String) : Text :=
  "Wrote preview of " ++ document.entry ++ " (" ++ toString document.modules.length
    ++ " modules) to " ++ file ++ "\n"

/-- Print a page, or write it to a file. -/
def deliver (disk : Disk) (notes : String) (outFile? : Option String)
    (document : Preview.Document) : Except Breakdown Run :=
  match outFile?.filter (!·.isEmpty) with
  | none => .ok { output := document.html, errors := notes, disk }
  | some file =>
    match document.html.string? with
    | none => .error (.build (.unencodable document.entry))
    | some page =>
      match disk.write file page.toUTF8 with
      | .ok disk => .ok { output := writtenNote document file, errors := notes, disk }
      | .error fault => .error (.write fault)

/-- Build the page of a project. -/
def runPreview (parser : Parser) (disk : Disk) (arguments : Arguments) (project : Project)
    (notes : String) : Except Breakdown Run :=
  let base : Preview.Config := {}
  let config := { base with title := arguments.title?.getD base.title }
  match (Preview.buildOnce parser config project
      (arguments.entryPath?.map .ofString)).1 with
  | .error breakdown => .error (.build breakdown)
  | .ok result =>
    match result.outcome with
    | .ok document => deliver disk notes arguments.outFile? document
    | .error e =>
      .ok { exitCode := 1, errors := notes ++ "Error: " ++ e.text ++ "\n", disk }

/-- Load a directory and do with it what the arguments ask for. -/
def runIn (parser : Parser) (disk : Disk) (arguments : Arguments) (action : Action)
    (directory : Segments) : Except Breakdown Run :=
  match load disk directory with
  | .error e => .error (.load e)
  | .ok (project, skipped) =>
    let notes := String.join (skipped.map skipNote)
    match action with
    | .snapshot => .ok { output := snapshotText project.tree, errors := notes, disk }
    | .preview => runPreview parser disk arguments project notes

/-! ## §3. Runs -/

/-- Run with arguments that have been read. -/
def runWith (parser : Parser) (disk : Disk) (arguments : Arguments) : Except Breakdown Run :=
  if arguments.showHelp then .ok { output := helpText, disk }
  else if arguments.showVersion then
    .ok { output := "workbench " ++ version ++ "\n", disk }
  else
    match arguments.action?, arguments.directory? with
    | some action, some written =>
      match disk.findDirectory written with
      | .error fault => .error (.find fault)
      | .ok (some directory) => runIn parser disk arguments action directory
      | .ok none =>
        .ok { exitCode := 1, output := "Error: not a directory: " ++ tidy written ++ "\n",
              disk }
    | _, _ => .ok { exitCode := 1, output := helpText, disk }

/-- Run the program. -/
def run (parser : Parser) (disk : Disk) (argv : List String) : Except Breakdown Run :=
  match Arguments.parse argv with
  | .ok arguments => runWith parser disk arguments
  | .error fault => .ok { exitCode := 1, output := fault.message, disk }

end LivePreview.Cli
