import PushGateway.Startup.Run
import Std.Time.DateTime.Timestamp
/-!
The command line. The files that the settings name are read once; the end of standard input stands for
the signal to stop. Sockets are left to the surroundings: binding a port always succeeds.
-/

namespace PushGateway.CommandLine

/-- The fault that an operating system's refusal stands for: a directory is told from a file on the way,
and a NUL in a name from a long name, by their numbers. -/
def faultOf : IO.Error → File.Fault
  | .noFileOrDirectory _ _ _ => .notFound
  | .noSuchThing _ _ _ => .notFound
  | .permissionDenied _ _ _ => .permissionDenied
  | .inappropriateType _ code _ => if code = 21 then .isDirectory else .notDirectory
  | .invalidArgument _ code _ => if code = 22 then .nulInName else .nameTooLong
  | _ => .notFound

def readFile (path : String) : IO (Except File.Fault Bytes) := do
  try
    return .ok (← IO.FS.readBinFile path).toList
  catch e => return .error (faultOf e)

def paths (arguments : List String) : List String :=
  match Settings.ofArguments arguments with
  | .error _ => []
  | .ok s => [s.certificatePath, s.keyPath] ++ s.clientRootsPath.toList ++ s.fixturesPath.toList

/-- The port that stands for any free one. -/
def freePort : Nat := 49152

/-- What the program finds around it when it starts. -/
def surroundings (arguments : List String) : IO Startup.Environment := do
  let files ← (paths arguments).mapM fun path => return (path, ← readFile path)
  let now ← Std.Time.Timestamp.now
  return {
    read := fun path => (files.lookup path).getD (.error .notFound)
    bind := fun port => .ok (if port = 0 then freePort else port)
    now := now.toSecondsSinceUnixEpoch.val.toNat }

def writeLines (lines : List String) : IO Unit := lines.forM fun line => IO.eprintln line

partial def awaitStop (input : IO.FS.Stream) : IO Unit := do
  unless (← input.getLine).isEmpty do awaitStop input

/-- The number of the signal that asks a program to end. -/
def terminationSignal : Nat := 15

def run (arguments : List String) : IO UInt32 := do
  let env ← surroundings arguments
  match Startup.launch env arguments with
  | (.error fault, log) =>
    writeLines (Log.lines log ++ fault.report)
    return fault.exitCode.toUInt32
  | (.ok state, log) =>
    writeLines (Log.lines log)
    awaitStop (← IO.getStdin)
    writeLines (Log.lines (Startup.finish terminationSignal state))
    return 0

end PushGateway.CommandLine

def main (arguments : List String) : IO UInt32 := PushGateway.CommandLine.run arguments
