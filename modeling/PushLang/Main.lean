import PushLang.CommandLine.Run

namespace PushLang

/-- Reads a file from the disk. -/
def readFromDisk (path : String) : IO (Except FileError String) := do
  try
    return decodeText (← IO.FS.readBinFile path)
  catch
    | .inappropriateType none .. => return .error .directory
    | .inappropriateType .. => return .error .notDirectory
    | .invalidArgument .. =>
      return .error (if path.toList.contains '\x00' then .nulInName else .nameTooLong)
    | .permissionDenied .. => return .error .denied
    | _ => return .error .missing

/-- Writes what a command line led to, and returns the exit code. -/
def Outcome.write : Outcome → IO UInt32
  | .printed text => do
    IO.print text
    return 0
  | .failed message => do
    IO.eprintln ("Error: " ++ message)
    return 1
  | .badUsage => do
    IO.eprintln "error: invalid arguments"
    return 2

end PushLang

def main (arguments : List String) : IO UInt32 := do
  let outcome ← PushLang.runCommandLine PushLang.readFromDisk arguments
  outcome.write
