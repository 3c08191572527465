import ExpiringCache.Embedded.Store
import ExpiringCache.Fault
import ExpiringCache.Path

/-!
# Disks

The durable stores of a machine, each in a directory of its own, and plain
files that stand in the way of directories. A store is lent to one cache at a
time and outlives it: what is given back is what the next borrower gets.

A store keeps two plain files in its directory. They stand in the way like any
others, so no store can be inside them, and no store can come to be around a
directory that has the place of one of them.
-/

namespace ExpiringCache

structure Disk where
  files : List Path := []
  /-- The directories that hold a store. The store is absent while it is lent. -/
  stores : List (Path × Option Store) := []

instance : Inhabited Disk := ⟨{}⟩

namespace Disk

/-- Creates a plain file. -/
def addFile (d : Disk) (p : Path) : Disk := { d with files := p :: d.files }

/-- What is known of the store in a directory. -/
def find? (d : Disk) (p : Path) : Option (Option Store) := Bindings.find? p d.stores

/-- Puts a store in a directory, or marks it as lent. -/
def put (d : Disk) (p : Path) (store : Option Store) : Disk :=
  { d with stores := (p, store) :: d.stores.filter fun (q, _) => q != p }

/-- The plain files that a store keeps in its directory. -/
def keptFiles (p : Path) : List Path := ["conf", "db"].map p.child

/-- The plain files, those of the stores included. -/
def plainFiles (d : Disk) : List Path := d.files ++ d.stores.flatMap fun (q, _) => keptFiles q

/-- Whether something stands in the way of a store in a directory. -/
def blocked (d : Disk) (p : Path) : Bool :=
  d.plainFiles.any p.within ||
    (keptFiles p).any fun file => d.stores.any fun (q, _) => q.within file

/-- The store in a directory, which is empty if the directory is new. There is
none while it is lent, and where something stands in the way. -/
def store? (d : Disk) (p : Path) : Except Fault Store :=
  if !p.nameable || d.blocked p then .error (.store "not a directory")
  else
    match d.find? p with
    | none => .ok .empty
    | some (some store) => .ok store
    | some none => .error (.store "already open")

/-- Lends the store in a directory. -/
def lend (d : Disk) (p : Path) : Except Fault (Store × Disk) :=
  (d.store? p).map fun store => (store, d.put p none)

example : let d : Disk := { stores := [(.ofText "a", none)] }
    d.blocked (.ofText "a/db/x") = true ∧ d.blocked (.ofText "a/x") = false ∧
    d.blocked (.ofText "") = false ∧
    ({ stores := [(.ofText "db/x", none)] } : Disk).blocked (.ofText ".") = true := by
  decide +kernel

end Disk

end ExpiringCache
