import Wayfinding.Command.Run

/-!
# The program

Reads the command line and the map file, and prints the output of the task. The exit code is 0 after
an output, 1 after a failure and 2 if the command line asks for nothing that can be run.
-/

namespace Wayfinding.Program

/-- How the program is called. -/
def usage : String :=
  "Formula-driven best-first search on grid maps\n\n" ++
    "Usage: wayfinding [--format text|json] COMMAND\n\n" ++
    "  search --map FILE --start ROW,COL --goal ROW,COL\n" ++
    "         [--formula FORMULA | --algorithm a-star|weighted|greedy|dijkstra]\n" ++
    "         [--weight WEIGHT] [--connectivity four|eight]\n" ++
    "         [--heuristic manhattan|chebyshev|zero] [--lenient] [--show-path]\n" ++
    "  check FORMULA [--lenient] [--g COST] [--h ESTIMATE]\n" ++
    "  help [COMMAND]\n"

/-- The words for a command line that is refused. -/
def refusal : Stop → String
  | .help => usage
  | .version => "wayfinding 0.1.0\n"
  | .nothingGiven => usage
  | .unknownArgument => "error: unexpected argument\n"
  | .invalidValue => "error: invalid or missing value\n"
  | .unreadableValue => "error: a value cannot be read\n"
  | .missingArgument => "error: a required argument is missing\n"
  | .conflict => "error: an argument cannot be used here\n"
  | .tooManyValues => "error: unexpected value for an option\n"
  | .unknownCommand => "error: unrecognized command\n"
  | .missingCommand => "error: a command is required\n"

/-- The text of a file. -/
def readText (name : String) : IO (Except FileFault String) := do
  try
    let bytes ← IO.FS.readBinFile name
    match String.fromUTF8? bytes with
    | some text => return .ok text
    | none => return .error .notText
  catch
    | .noFileOrDirectory .. => return .error .missing
    | error => return .error (.other (toString error))

/-- Runs the program with the words of its command line; the result is the exit code. -/
def run (args : List String) : IO UInt32 := do
  match Command.read args with
  | .error .help =>
    IO.print usage
    return 0
  | .error .version =>
    IO.print (refusal .version)
    return 0
  | .error why =>
    IO.eprint (refusal why)
    return 2
  | .ok invocation =>
    let text ← match invocation.file? with
      | some name => readText name
      | none => pure (.error .missing)
    match invocation.run text with
    | .ok output =>
      IO.print output
      return 0
    | .error failure =>
      IO.eprintln ("Error: " ++ failure.message)
      return 1

end Wayfinding.Program

/-- The entry point. -/
def main (args : List String) : IO UInt32 :=
  Wayfinding.Program.run args
