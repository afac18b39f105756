import ApiContract.CommandLine.Run

namespace ApiContract.CommandLine

/-- The number by which the system tells that a path is a directory. -/
def directoryCode : UInt32 := 21

def pathFault : IO.Error → PathFault
  | .noFileOrDirectory .. => .missing
  | .alreadyExists .. => .taken
  | .inappropriateType _ code _ => if code = directoryCode then .isDirectory else .notDirectory
  | fault => .other (toString fault)

def attempt {α : Type} (step : IO α) : IO (Except PathFault α) := do
  try
    return .ok (← step)
  catch fault =>
    return .error (pathFault fault)

instance : Files IO where
  isPresent path := do
    match ← attempt (IO.FS.realPath path) with
    | .ok real => real.pathExists
    | .error _ => return false
  isDirectory path := do
    match ← attempt (IO.FS.realPath path) with
    | .ok real => real.isDir
    | .error _ => return false
  read path := attempt (IO.FS.readFile path)
  write path content := attempt (IO.FS.writeFile path content)
  makeDirectory path := attempt (IO.FS.createDir path)

end ApiContract.CommandLine

def main (arguments : List String) : IO UInt32 := do
  let report ← (ApiContract.CommandLine.run arguments : IO ApiContract.CommandLine.Report)
  IO.print report.printed.answer
  IO.eprint report.printed.messages
  return report.code.toUInt32
