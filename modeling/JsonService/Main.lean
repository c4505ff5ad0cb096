import JsonService.Beers.Run

/-!
# The beer service as a program

It is configured by its environment, writes its log to the standard output and runs until its standard input
ends.
-/
namespace JsonService

/-- The variables that the program reads. -/
def variableNames : List String :=
  ["TAPROOM_ADDR", "TAPROOM_SHUTDOWN_TIMEOUT", "TAPROOM_LOG", "TAPROOM_LOG__FORMAT", "TAPROOM_LOG__LEVEL",
   Beers.Run.filterVariable]

/-- The part of the environment that the program reads. -/
def environment : IO Config.Environment :=
  variableNames.filterMapM fun name => do return (← IO.getEnv name).map (name, ·)

/-- Reads the standard input to its end. -/
partial def waitForEnd (input : IO.FS.Stream) : IO Unit := do
  if (← input.getLine).isEmpty then return ()
  waitForEnd input

def write (lines : List Log.Line) : IO Unit := lines.forM fun l => IO.println l.render

/-- Says why the program does not come to serve. -/
def fail (e : SetupFailure) : IO UInt32 := do
  IO.eprintln s!"Error: {e.message}"
  return 1

end JsonService

open JsonService in
def main : IO UInt32 := do
  match Beers.Run.start (← environment) fun config => config.address.render with
  | .error e => fail e
  | .ok run =>
    write run.lines
    match run.server.ended with
    | some (.error e) => fail e
    | _ =>
      waitForEnd (← IO.getStdin)
      write ((run.stop .terminate).lines.drop run.lines.length)
      return 0
