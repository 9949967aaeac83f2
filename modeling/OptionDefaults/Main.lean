import OptionDefaults.CommandLine.Run

/-!
# The program

Reads what the run needs, runs, and prints. Faults of the arguments give the exit code 2.
-/

namespace OptionDefaults.Program

open CommandLine

/-- The system's number for an error, which may come negated. -/
def systemCode (code : UInt32) : UInt32 := if code < 0x80000000 then code else 0 - code

def faultOf (e : IO.Error) : SourceFault :=
  let unnamed := SourceFault.other (toString e)
  match e with
  | .noFileOrDirectory .. => .notFound
  | .inappropriateType _ code _ =>
    if systemCode code = 20 then .notAFolder
    else if systemCode code = 21 then .isAFolder
    else unnamed
  | .invalidArgument _ code _ => if systemCode code = 36 then .nameTooLong else unnamed
  | _ => unnamed

def readFile (path : String) : IO (Except SourceFault ByteArray) := do
  try
    if path.toList.contains '\x00' then return .error .zeroInName
    return .ok (← IO.FS.readBinFile path)
  catch e => return .error (faultOf e)

def readFiles (paths : List String) : IO (List (String × Except SourceFault ByteArray)) :=
  paths.mapM fun path => return (path, ← readFile path)

def filesOf : Command → List String
  | .complete a => a.descriptors.toList ++ a.config.toList
  | _ => []

/-- Standard input, if the command reads it. -/
def readInput : Command → IO (Except SourceFault ByteArray)
  | .complete { config := none, .. } => do
    try
      return .ok (← (← IO.getStdin).readBinToEnd)
    catch e => return .error (faultOf e)
  | _ => return .ok .empty

def execute (command : Command) : IO UInt32 := do
  let files ← readFiles (filesOf command)
  let surroundings : Surroundings :=
    { read := fun path => (files.lookup path).getD (.error .notFound)
      input := ← readInput command
      logFilter := ← IO.getEnv "CONFIG_DEFAULTS_LOG" }
  let report := command.run surroundings
  IO.eprint report.log
  IO.print report.output
  return report.exitCode.toUInt32

end OptionDefaults.Program

open OptionDefaults in
def main (arguments : List String) : IO UInt32 := do
  match CommandLine.parse arguments with
  | .ok command => Program.execute command
  | .error fault =>
    IO.eprintln s!"error: {fault.message}\n\nFor more information, try '--help'."
    return 2
