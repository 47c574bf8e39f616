/-
The program: reads the clock and the files that its arguments name, runs, and
leaves the outcome to the system.
-/
import FilterSelect.CommandLine
import Std.Time.DateTime

namespace FilterSelect

namespace CommandLine

/-- The clock in universal time; none past the date range. -/
def readClock : IO (Option DateTime) := do
  let wall := (← Std.Time.Timestamp.now).toWallTime .zero
  let now := Std.Time.PlainDateTime.ofWallTime wall
  let date? := Date.ofParts? now.date.year now.date.month.val.toNat now.date.day.val.toNat
  let time? := Time.ofParts? now.time.hour.val.toNat now.time.minute.val.toNat
    now.time.second.val.toNat now.time.nanosecond.val.toNat
  return date?.bind fun date => time?.map fun time => ⟨date, time⟩

/-- What stands at a path. -/
def readEntry (path : String) : IO (Option FileEntry) :=
  try
    return some (.file (← IO.FS.readBinFile path))
  catch
    | .inappropriateType .. => return some .directory
    | _ => return none

/-- The files at some paths. -/
def readFiles (paths : List String) : IO Files := do
  let entries ← paths.mapM fun path => return (path, ← readEntry path)
  return fun path => (entries.lookup path).join

end CommandLine

end FilterSelect

open FilterSelect

/-- Runs the program. -/
def main (args : List String) : IO UInt32 := do
  let stdout ← IO.getStdout
  let stderr ← IO.getStderr
  let paths := (CommandLine.pathsOf? args).getD CommandLine.defaultPaths
  let files ← CommandLine.readFiles [paths.schema, paths.binding, paths.query]
  match ← CommandLine.readClock with
  | none =>
    stderr.putStrLn "the clock is past the date range"
    return 1
  | some clock =>
    let outcome := CommandLine.run clock files args
    stdout.putStr outcome.stdout
    stderr.putStr outcome.stderr
    return UInt32.ofNat outcome.exitCode
