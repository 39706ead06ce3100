import Rollout.CommandLine.Program
import Rollout.Store.Text
import Std.Async.Signal
import Std.Time.DateTime.Timestamp

/-!
# The program on a real system

The outer layer: files with locks, the clock and the interrupt signal, given to the program as
its host.
-/

namespace Rollout.CommandLine

/-- The files of the stores that are open, under their paths. -/
abbrev OpenFiles : Type :=
  IO.Ref (List (String × IO.FS.Handle))

/-- What an error of the system says about a file. -/
def fileError : IO.Error → FileError
  | .noFileOrDirectory .. => .notFound
  | .alreadyExists .. => .alreadyExists
  | .inappropriateType _ code detail =>
    if code = 20 then .notDirectory else if code = 21 then .isDirectory else .other detail
  | .invalidArgument _ code detail =>
    if code = 36 then .nameTooLong else .other detail
  | e => .other (toString e)

/-- Reads the text in a file. -/
def readFile (path : String) : IO (Except FileError String) := do
  try
    match String.fromUTF8? (← IO.FS.readBinFile path) with
    | some text => return .ok text
    | none => return .error .notText
  catch e => return .error (fileError e)

/-- Does something with a file and gives its error, if it fails. -/
def attempt (action : IO Unit) : IO (Except FileError Unit) := do
  try
    action
    return .ok ()
  catch e => return .error (fileError e)

/-- Makes a single directory. -/
def makeSystemDirectory (path : String) : IO (Except FileError Unit) :=
  if path.contains '\x00' then return .error .nullInName else attempt (IO.FS.createDir path)

/-- Whether a path leads to a directory. -/
def isSystemDirectory (path : String) : IO Bool := do
  try
    (← IO.FS.realPath path).isDir
  catch _ => return false

/-- Opens the store in a file and locks the file. -/
def openFile (files : OpenFiles) (path : String) : IO (Except StoreError Store) := do
  try
    discard <| IO.FS.Handle.mk path .append
    let handle ← IO.FS.Handle.mk path .readWrite
    if ← handle.tryLock then
      match (String.fromUTF8? (← handle.readBinToEnd)).bind Store.ofText? with
      | some store =>
        files.modify ((path, handle) :: ·)
        return .ok store
      | none =>
        handle.unlock
        return .error (.cannotOpen "the file is not a database")
    else return .error (.busy path)
  catch e => return .error (.cannotOpen (fileError e).message)

/-- Writes a store back into its file and unlocks the file. -/
def closeFile (files : OpenFiles) (path : String) (store : Store) : IO Unit := do
  for (name, handle) in ← files.get do
    if name = path then
      handle.rewind
      handle.truncate
      handle.putStr store.toText
      handle.flush
      handle.unlock
  files.modify (·.filter (·.1 ≠ path))

/-- The time in Unix seconds. -/
def secondsNow : IO UInt64 := do
  return UInt64.ofNat (← Std.Time.Timestamp.now).toSecondsSinceUnixEpoch.val.toNat

/-- Repeats an action after every interval until the interrupt has come. -/
partial def repeatUntil (interrupt : Std.Async.AsyncTask Int) (milliseconds due : Nat)
    (action : IO Unit) : IO Unit := do
  if ← IO.hasFinished interrupt then return
  if due ≤ (← IO.monoMsNow) then
    action
    repeatUntil interrupt milliseconds ((← IO.monoMsNow) + milliseconds) action
  else
    IO.sleep 50
    repeatUntil interrupt milliseconds due action

/-- Repeats an action after every so many seconds until the program is interrupted. -/
def untilInterrupted (seconds : UInt64) (action : IO Unit) : IO Unit := do
  let interrupt ← (← Std.Async.Signal.Waiter.mk .sigint true).wait
  let milliseconds := seconds.toNat * 1000
  repeatUntil interrupt milliseconds ((← IO.monoMsNow) + milliseconds) action

/-- The system as a host. -/
def systemHost (files : OpenFiles) : Host IO where
  readText := readFile
  makeDirectory := makeSystemDirectory
  isDirectory := isSystemDirectory
  openStore := openFile files
  closeStore := closeFile files
  now := secondsNow
  pause milliseconds := IO.sleep (UInt32.ofNat milliseconds)
  everyInterval := untilInterrupted
  logLine := IO.println

end Rollout.CommandLine

/-- Runs the program and ends as it says. -/
def main (args : List String) : IO UInt32 := do
  let exit ← Rollout.CommandLine.program (Rollout.CommandLine.systemHost (← IO.mkRef [])) args
  IO.print exit.stdout
  IO.eprint exit.stderr
  return UInt32.ofNat exit.code
