/-!
# Flaws in JSON texts

A text is read from left to right, and where it stops being JSON, reading breaks
off. Whoever needs a value at that point and whoever only skips it may find
different flaws there, so a break carries one for each of them.
-/

namespace ExpiringCache.Json

/-- How a text fails to be JSON. -/
inductive Flaw
  /-- It ends too early. -/
  | cut
  /-- It goes on with something that cannot stand there. -/
  | malformed
  deriving DecidableEq, Repr

/-- The point where a text breaks off. -/
structure Break where
  /-- The flaw that the reader of a value finds. -/
  read : Flaw
  /-- The flaw that is found when the value is skipped. -/
  skip : Flaw
  deriving DecidableEq, Repr

namespace Break

/-- The text ends. -/
def atEnd : Break := ⟨.cut, .cut⟩

/-- Something stands there that cannot. -/
def atIntruder : Break := ⟨.malformed, .malformed⟩

/-- The text ends inside a number. -/
def insideNumber : Break := ⟨.cut, .malformed⟩

/-- The break in front of a rest that cannot follow. -/
def before {α : Type} : List α → Break
  | [] => atEnd
  | _ :: _ => atIntruder

end Break

/-- The outcome of reading one lexical unit off the front of a text. -/
inductive Scan (α : Type)
  | found (value : α) (rest : List Char)
  | broken (b : Break)
  deriving Repr

end ExpiringCache.Json
