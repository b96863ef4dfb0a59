import DesignLayout.CommandLine.Run

/-!
The program: runs the command line on the files of the computer.
-/
namespace DesignLayout

/-- The reason of a failed operation, with the number that the system gives it. -/
def systemReason : IO.Error → String
  | .alreadyExists _ code details | .resourceBusy code details | .noSuchThing _ code details
  | .noFileOrDirectory _ code details | .permissionDenied _ code details
  | .inappropriateType _ code details | .invalidArgument _ code details
  | .resourceExhausted _ code details | .otherError code details =>
    details ++ " (os error " ++ toString code.toNat ++ ")"
  | e => toString e

def attempt {β : Type} (action : IO β) : IO (Except String β) := do
  try
    return .ok (← action)
  catch e =>
    return .error (systemReason e)

def localDisk : Disk IO where
  read path := attempt (IO.FS.readFile path)
  createFolders path := attempt (IO.FS.createDirAll path)
  write path text := attempt (IO.FS.writeFile path text)

end DesignLayout

open DesignLayout in
def main (args : List String) : IO UInt32 := do
  let outcome ← CommandLine.run localDisk args
  IO.print outcome.output
  if let some error := outcome.error then IO.eprintln error
  if outcome.exit = 2 then
    IO.eprintln
      "usage: export SNAPSHOT [options] | probe SNAPSHOT [options] | name LABEL [--in-grid]"
  return outcome.exit.toUInt32
