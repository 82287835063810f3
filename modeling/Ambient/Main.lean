import Ambient.CommandLine

/-! The program on the files of the machine. -/
namespace Ambient.CommandLine

def failureOf : IO.Error → ReadFailure
  | .noFileOrDirectory .. => .notFound
  | .inappropriateType .. => .isDirectory
  | .invalidArgument .. => .tooLong
  | _ => .notDirectory

def readMachine (path : String) : IO (Except ReadFailure String) := do
  try
    match Content.ofBytes (← IO.FS.readBinFile path) with
    | .text s => return .ok s
    | _ => return .error .invalidText
  catch e => return .error (failureOf e)

def attempt (act : IO Unit) : IO (Except ReadFailure Unit) := do
  try
    act
    return .ok ()
  catch e => return .error (failureOf e)

def machine : Disk IO where
  read := readMachine
  makeDirectories path := attempt (IO.FS.createDirAll path)
  write path text := attempt (IO.FS.writeFile path text)

end Ambient.CommandLine

/-- Runs the program; what went wrong goes to the error output. -/
def main (args : List String) : IO UInt32 := do
  let outcome ← Ambient.CommandLine.run Ambient.CommandLine.machine args
  IO.print outcome.stdout
  for line in outcome.warnings ++ outcome.message.toList do IO.eprintln line
  return outcome.exit.toUInt32
