import ExpiringCache.Text.Beginning
import ExpiringCache.Text.Quoted

/-!
# Keys in namespaces

All namespaces share one store. An entry with logical key `k` in namespace `ns`
is held under the composite key `ns ++ delimiter ++ k`. The part
`ns ++ delimiter`, the *root* of the namespace, begins every composite key of
the namespace.

Any text may be a namespace, a key or a delimiter. `logical_compose` says that
the logical key is recovered from every composite key, and
`logical_eq_self_of_foreign` that a composite key from elsewhere is left alone.
-/

namespace ExpiringCache

open Text

/-- How a cache composes its keys. -/
structure Keys where
  /-- What stands between a namespace and a key. -/
  delimiter : String
  deriving DecidableEq, Repr

namespace Keys

/-- The delimiter in use where none is named. -/
def defaultDelimiter : String := ":"

/-- Keys with the default delimiter. -/
def standard : Keys := ⟨defaultDelimiter⟩

instance : Inhabited Keys := ⟨standard⟩

/-- The composite key of `key` in `namespace`. -/
def compose (keys : Keys) (ns key : String) : String := ns ++ keys.delimiter ++ key

/-- What every composite key of a namespace begins with. -/
def root (keys : Keys) (ns : String) : String := keys.compose ns ""

/-- The logical key of a composite key: the text after the namespace and the
delimiter. A composite key that does not begin with them is left as it is. -/
def logical (keys : Keys) (composite ns : String) : String :=
  match (after? ns.toList composite.toList).bind (after? keys.delimiter.toList) with
  | some key => String.ofList key
  | none => composite

/-- Whether a character has a meaning of its own in a glob pattern. -/
def isGlobSpecial (c : Char) : Bool :=
  c == '*' || c == '?' || c == '[' || c == ']' || c == '\\'

/-- A character as a glob pattern that matches just itself. -/
def globLiteral (c : Char) : List Char := if isGlobSpecial c then ['\\', c] else [c]

/-- The glob pattern of the composite keys of a namespace: its root, taken
literally, and then anything. -/
def pattern (keys : Keys) (ns : String) : String :=
  String.ofList ((keys.root ns).toList.flatMap globLiteral ++ ['*'])

/-- The printed structure. -/
def shown (keys : Keys) : String :=
  "KeyComposer \x7b delimiter: " ++ quoted keys.delimiter ++ " \x7d"

/-! ## Recovering the logical key -/

theorem toList_compose (keys : Keys) (ns key : String) :
    (keys.compose ns key).toList = ns.toList ++ (keys.delimiter.toList ++ key.toList) := by
  simp [compose]

theorem compose_eq_root_append (keys : Keys) (ns key : String) :
    keys.compose ns key = keys.root ns ++ key := by
  simp [root, compose]

@[simp] theorem logical_compose (keys : Keys) (ns key : String) :
    keys.logical (keys.compose ns key) ns = key := by
  simp [logical, toList_compose]

theorem logical_eq_self_of_foreign (keys : Keys) (composite ns : String)
    (foreign : ¬ ∃ key, composite = keys.compose ns key) :
    keys.logical composite ns = composite := by
  unfold logical
  split
  next key found =>
    obtain ⟨rest, first, second⟩ := Option.bind_eq_some_iff.1 found
    refine absurd ⟨String.ofList key, ?_⟩ foreign
    rw [← String.toList_inj, toList_compose, after?_eq_some_iff.1 first,
      after?_eq_some_iff.1 second]
    simp
  next => rfl

end Keys

end ExpiringCache
