import ExpiringCache.CommandLine.Run
import ExpiringCache.Embedded.Image
import Std.Time.DateTime.Timestamp

/-!
# The program

Reads the command line, the environment, the clock and the image of the store,
runs the process, and writes what it leaves behind.
-/

open ExpiringCache CommandLine

/-- The environment of the environment that the options know. -/
def readEnvironment : IO (List (String × String)) := do
  let mut found := []
  for name in Flag.engine.filterMap (·.setBy?) do
    if let some value ← IO.getEnv name then
      found := (name, value) :: found
  pure found

/-- The clock. -/
def readClock : IO Instant := do
  let stamp ← Std.Time.Timestamp.now
  pure ⟨stamp.toNanosecondsSinceUnixEpoch.val.toNat⟩

/-- The file that holds the image of the store in a directory. -/
def imageFile (directory : String) : String := directory ++ "/records"

/-- The store in a directory, which is created if it is missing. -/
def readStore (directory : String) : IO Store := do
  IO.FS.createDirAll directory
  let handle ← IO.FS.Handle.mk (imageFile directory) .append
  handle.flush
  let bytes ← IO.FS.readBinFile (imageFile directory)
  match Store.ofImage? bytes.toList with
  | some store => pure store
  | none => throw (IO.userError "the store is damaged")

def writeStore (directory : String) (store : Store) : IO Unit :=
  IO.FS.writeBinFile (imageFile directory) (ByteArray.mk store.image.toArray)

/-- Runs the process on a disk and prints what it says. -/
def runOn (disk : Disk) (words : List String) (environment : List (String × String)) :
    IO Process := do
  let p := process (← readClock) disk words (fun name => environment.lookup name)
  IO.print p.output
  IO.eprint p.complaint
  pure p

def main (words : List String) : IO UInt32 := do
  let environment ← readEnvironment
  match storePath? words (fun name => environment.lookup name) with
  | none => do
      let p ← runOn {} words environment
      pure (UInt32.ofNat p.code)
  | some directory =>
      try
        let store ← readStore directory
        let path := Path.ofText directory
        let p ← runOn (({} : Disk).put path (some store)) words environment
        match p.disk.find? path with
        | some (some store) => writeStore directory store
        | _ => pure ()
        pure (UInt32.ofNat p.code)
      catch e => do
        IO.eprintln (Fault.io (toString e)).message
        pure 1
