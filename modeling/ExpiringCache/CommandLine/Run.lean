import ExpiringCache.CommandLine.Parse
import ExpiringCache.Decimal.Fixed
import ExpiringCache.Session

/-!
# The command line: carrying it out

A process opens the cache that its options describe, carries out one command and
closes the cache. What it prints is a list of lines; its exit code is zero, one
for a fault of the cache, or two for a command line that makes no sense.
-/

namespace ExpiringCache.CommandLine

/-! ## Lines -/

/-- A value as it is printed. -/
def valueText (value : Bytes) : String :=
  match Text.decode? value with
  | some s => s
  | none => s!"(binary data: {value.length} bytes)"

/-- A value that may be absent. -/
def foundText : Option Bytes → String
  | some value => valueText value
  | none => "(nil)"

def entryText (entry : String × Bytes) : String := entry.1 ++ "\t" ++ valueText entry.2

def statsText (c : Counters) : String :=
  s!"hits:{c.hits} misses:{c.misses} sets:{c.sets} deletes:{c.deletes} " ++
    s!"expirations:{c.expirations} hit_rate:{Decimal.tenthsText c.hitRate}%"

/-! ## Commands -/

/-- What a command prints, and the fault that ended it. -/
structure Outcome where
  lines : List String
  fault : Option Fault
  deriving DecidableEq, Repr

/-- The outcome of a request whose answer is printed by `text`. -/
def Outcome.ofAnswer : Answer → Outcome
  | .done => ⟨["OK"], none⟩
  | .value found => ⟨[foundText found], none⟩
  | .present yes => ⟨[toString yes], none⟩
  | .fault cause => ⟨[], some cause⟩

/-- The visitor of a listing: it stops at the first entry beyond the limit, which
is shown to it but not printed. -/
def lister (limit : Option UInt64) : Visitor :=
  .quiet fun n _ _ =>
    match limit with
    | some limit => n ≤ limit.toNat
    | none => true

/-- The entries that a listing prints. -/
def listed (limit : Option UInt64) (seen : List (String × Bytes)) : List (String × Bytes) :=
  match limit with
  | some limit => seen.take limit.toNat
  | none => seen

/-- The request that a command sends, if it sends one. -/
def Command.request? (c : Command) : Option Request :=
  match c with
  | .set ns key value _ => some (.set ns key (Text.encode value) c.ttl?)
  | .get ns key => some (.get ns key)
  | .take ns key => some (.take ns key)
  | .contains ns key => some (.contains ns key)
  | .delete ns key => some (.delete ns key)
  | .list _ _ | .stats => none

/-- Carries out a command. -/
def Command.run (now : Instant) (c : Command) (link : Cache × Line) :
    Outcome × Cache × Line :=
  match c, c.request? with
  | _, some q =>
      let (answer, link) := Cache.request now link q
      (.ofAnswer answer, link)
  | .list ns limit, none =>
      let (shown, link) := Cache.iterate now link ns (lister limit)
      (⟨(listed limit shown.seen).map entryText, shown.fault⟩, link)
  | _, none => (⟨[statsText link.1.counters], none⟩, link)

/-! ## Processes -/

/-- What a process leaves behind. -/
structure Process where
  code : Nat
  /-- The text written to standard output. -/
  output : String
  /-- The text written to standard error. -/
  complaint : String
  disk : Disk

/-- The program's name and version. -/
def versionText : String := "cachex 1.0.0"

/-- How the program is called. -/
def usageText : String :=
  "Usage: cachex [OPTIONS] <COMMAND>\n\nCommands:\n" ++
    String.join ((Verb.all.map (·.name) ++ [helpVerb]).map fun name => "  " ++ name ++ "\n") ++
    "\nOptions:\n" ++
    String.join ((Flag.at? none).map fun flag => "  --" ++ flag.name ++ "\n")

/-- A process that cannot make sense of its command line, or only explains it. -/
def Process.ofUsage (e : UsageError) (disk : Disk) : Process :=
  match e with
  | .helpAsked => ⟨0, usageText, "", disk⟩
  | .versionAsked => ⟨0, versionText ++ "\n", "", disk⟩
  | _ => ⟨2, "", usageText, disk⟩

/-- The directory of the store that a process works on, if it works on one. -/
def storePath? (words : List String) (environment : String → Option String) : Option String :=
  match parse words environment with
  | .ok invocation =>
      if invocation.settings.engine = .embedded then some invocation.settings.embedded.path
      else none
  | .error _ => none

/-- Runs a process. -/
def process (now : Instant) (disk : Disk) (words : List String)
    (environment : String → Option String) : Process :=
  match parse words environment with
  | .error e => .ofUsage e disk
  | .ok invocation =>
      let session : Session := { now := now, disk := disk }
      match session.openCache { settings := invocation.settings } { replies := [] } with
      | (.error cause, _) => ⟨1, "", cause.message ++ "\n", disk⟩
      | (.ok (slot, disk), line) =>
          let (outcome, cache, _) := invocation.command.run now (slot.cache, line)
          let session : Session := { session with disk := disk }
          let disk := (session.giveBack slot cache.close.1).disk
          let output := String.join (outcome.lines.map (· ++ "\n"))
          match outcome.fault with
          | none => ⟨0, output, "", disk⟩
          | some cause => ⟨1, output, cause.message ++ "\n", disk⟩

end ExpiringCache.CommandLine
