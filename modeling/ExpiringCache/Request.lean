import ExpiringCache.Fault
import ExpiringCache.Text.Bytes
import ExpiringCache.Time

/-!
# Requests, answers and traversals

The interface that every cache serves, whatever its engine: five requests on a
single entry, and a traversal of a namespace.

A traversal shows the entries of a namespace to a visitor, one after the other.
At each entry the visitor may send further requests to the same cache and then
says whether it wants to go on. A visitor is given by what it does at each
visit; visits are numbered from one.
-/

namespace ExpiringCache

/-- A request about one entry. -/
inductive Request
  /-- Insert or replace an entry. -/
  | set (ns key : String) (value : Bytes) (ttl : Option Duration)
  /-- Read an entry. -/
  | get (ns key : String)
  /-- Read an entry and remove it. -/
  | take (ns key : String)
  /-- Ask whether a live entry exists. -/
  | contains (ns key : String)
  /-- Remove an entry; removing an absent one succeeds. -/
  | delete (ns key : String)
  deriving DecidableEq, Repr

/-- The answer to a request. -/
inductive Answer
  | done
  | value (found : Option Bytes)
  | present (yes : Bool)
  | fault (cause : Fault)
  deriving DecidableEq, Repr

/-- Serves requests one after the other. -/
def answerAll {σ : Type} (answer : σ → Request → Answer × σ) :
    σ → List Request → List Answer × σ
  | state, [] => ([], state)
  | state, request :: rest =>
      let (first, state) := answer state request
      let (others, state) := answerAll answer state rest
      (first :: others, state)

/-- What happens at each visit, as a function of its number, the logical key and
the value. -/
structure Visitor where
  /-- The requests sent from inside the visit. -/
  requests : Nat → String → Bytes → List Request
  /-- Whether the traversal is to go on after the visit. -/
  goesOn : Nat → String → Bytes → Bool

namespace Visitor

/-- A visitor that sends no requests. -/
def quiet (goesOn : Nat → String → Bytes → Bool) : Visitor := ⟨fun _ _ _ => [], goesOn⟩

/-- A visitor that sends no requests and sees every entry. -/
def observer : Visitor := quiet fun _ _ _ => true

end Visitor

/-- The outcome of a traversal. -/
structure Traversal where
  /-- The entries shown to the visitor, in order. -/
  seen : List (String × Bytes) := []
  /-- The answers to the requests sent from inside the visits, in order. -/
  nested : List Answer := []
  /-- The fault that broke the traversal off. -/
  fault : Option Fault := none
  deriving DecidableEq, Repr

namespace Traversal

/-- The traversal that shows nothing and fails. -/
def failed (cause : Fault) : Traversal := { fault := some cause }

/-- Puts one visit before a traversal. -/
def after (visit : String × Bytes) (answers : List Answer) (rest : Traversal) : Traversal :=
  { rest with seen := visit :: rest.seen, nested := answers ++ rest.nested }

/-- Puts one visit behind a traversal. -/
def snoc (before : Traversal) (visit : String × Bytes) (answers : List Answer) : Traversal :=
  { before with seen := before.seen ++ [visit], nested := before.nested ++ answers }

end Traversal

end ExpiringCache
