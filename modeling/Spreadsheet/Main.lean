import Spreadsheet.CommandLine.Run

namespace Spreadsheet

/-- What there is under a path. A directory can be opened but not read, so the error names no path
then; a path that leads through a file leads nowhere. -/
def fileEntry (path : String) : IO FileEntry := do
  try
    return .file (← IO.FS.readBinFile path)
  catch
    | .inappropriateType none .. => return .directory
    | .noFileOrDirectory .. | .inappropriateType .. | .invalidArgument .. => return .missing
    | .permissionDenied .. => return .unreadable "Permission denied (os error 13)"
    | e => return .unreadable (toString e)

def runProgram (args : List String) : IO UInt32 := do
  let userPath := CommandLine.userConfigPath (← IO.getEnv "XDG_CONFIG_HOME") (← IO.getEnv "HOME")
  let entry ← match CommandLine.configPath? args userPath with
    | some path => fileEntry path
    | none => pure .missing
  let outcome := CommandLine.run args userPath fun _ => entry
  IO.print outcome.output
  IO.eprint outcome.errors
  return outcome.code.toUInt32

end Spreadsheet

def main (args : List String) : IO UInt32 :=
  Spreadsheet.runProgram args
