import Pagelet.CommandLine
import Pagelet.Encoding

/-!
# The program

Reads the file that the command line names, prints what it shows, and reports a
failure on the error stream.
-/

namespace Pagelet

/-- The system's reason for not reading a file, with its number. -/
def failureReason : IO.Error → String
  | .noFileOrDirectory _ code details => details ++ " (os error " ++ toString code ++ ")"
  | .permissionDenied _ code details => details ++ " (os error " ++ toString code ++ ")"
  | .inappropriateType _ code details => details ++ " (os error " ++ toString code ++ ")"
  | other => toString other

/-- The bytes of a file, or the system's reason for not giving them. -/
def readBytes (path : String) : IO (Except String (List UInt8)) := do
  try
    return .ok (← IO.FS.readBinFile path).toList
  catch problem =>
    return .error (failureReason problem)

end Pagelet

def main (arguments : List String) : IO UInt32 := do
  match ← Pagelet.CommandLine.run .basic Pagelet.readBytes arguments with
  | .ok lines =>
      for line in lines do
        IO.println line
      return 0
  | .error failure =>
      IO.eprintln ("minipage: " ++ failure.message)
      return 1
