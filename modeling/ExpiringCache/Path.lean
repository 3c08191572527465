/-!
# Paths

A path is spelt as names between slashes. Two spellings with the same steps are
the same path wherever it leads; the place that a path leads to is found by
walking back at double dots as well.
-/

namespace ExpiringCache

/-- A place in the file system, by the steps that lead to it. -/
structure Path where
  steps : List String
  deriving DecidableEq, Repr

namespace Path

/-- The steps of a spelling. Empty names and single dots are no steps, but a
slash or a single dot in front counts. -/
def stepsOf (s : String) : List String :=
  let names := (s.toList.splitOn '/').map String.ofList
  let front := match names with
    | "" :: _ :: _ => ["/"]
    | "." :: _ => ["."]
    | _ => []
  front ++ names.filter fun name => name ≠ "" ∧ name ≠ "."

/-- Takes one more step. Double dots lead back where that is possible. -/
def step (steps : List String) (name : String) : List String :=
  if name = "." then steps
  else if name = ".." ∧ steps = ["/"] then steps
  else if name = ".." ∧ steps.getLastD ".." ≠ ".." then steps.dropLast
  else steps ++ [name]

/-- The place that a spelling leads to. -/
def ofText (s : String) : Path := ⟨(stepsOf s).foldl step []⟩

/-- Whether a path leads to `top` or to something inside it. -/
def within (p top : Path) : Bool := top.steps.isPrefixOf p.steps

/-- What is called `name` in a directory. -/
def child (p : Path) (name : String) : Path := ⟨p.steps ++ [name]⟩

/-- Whether something can have a name: it has at most 255 octets, none of them zero. -/
def isName (name : String) : Bool := name.utf8ByteSize ≤ 255 && name.toList.all (·.toNat ≠ 0)

/-- Whether there can be something at a path. -/
def nameable (p : Path) : Bool := p.steps.all isName

example : stepsOf "a//./b/" = ["a", "b"] ∧ stepsOf "./a" = [".", "a"] ∧
    stepsOf "/a/.." = ["/", "a", ".."] ∧ stepsOf "" = [] := by decide +kernel

example : ofText "./a/../b" = ⟨["b"]⟩ ∧ ofText "../a" = ⟨["..", "a"]⟩ ∧
    ofText "/../a" = ⟨["/", "a"]⟩ := by decide +kernel

end Path

end ExpiringCache
