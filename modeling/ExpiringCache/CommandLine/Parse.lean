import ExpiringCache.CommandLine.Options

/-!
# The command line: reading it

Words are read from left to right, first those before the command and then its
arguments. A long option has its value behind an equals sign or in the next
word; two dashes end the options. The value of an option that is given in a word
of its own is checked when the next option or argument needs attention, so an
error further on may come first. An option given to the command takes precedence
over the same option before it, and both over the environment.
-/

namespace ExpiringCache.CommandLine

open Text

/-- What has been read at one level, before the command or behind it. -/
structure Level where
  /-- The options given and their values. -/
  given : List (Flag × String) := []
  /-- The last option, while its value is awaited or not yet checked. -/
  pending : Option (Flag × Option String) := none
  /-- The arguments that are no options, in order. -/
  words : List String := []
  deriving Repr

namespace Level

/-- Takes in an option. It may be given only once at each level. -/
def record (l : Level) (flag : Flag) (value : String) : Except UsageError Level :=
  if l.given.any (·.1 == flag) then .error .argumentConflict
  else (flag.check value).map fun _ => { l with given := l.given ++ [(flag, value)] }

/-- Takes in the pending option, which must have got its value. -/
def settle (l : Level) : Except UsageError Level :=
  match l.pending with
  | none => .ok l
  | some (_, none) => .error .invalidValue
  | some (flag, some value) => { l with pending := none }.record flag value

/-- Whether the next word is the value of an option unless it starts like one. -/
def awaits (l : Level) : Bool :=
  match l.pending with
  | some (_, none) => true
  | _ => false

/-- Takes the next word as the awaited value. -/
def supply (l : Level) (word : String) : Level :=
  { l with pending := l.pending.map fun (flag, _) => (flag, some word) }

/-- Takes the next word as an argument of a command. -/
def addWord (l : Level) (verb : Verb) (word : String) : Except UsageError Level :=
  if l.words.length < verb.arity then
    l.settle.map fun l => { l with words := l.words ++ [word] }
  else .error .unknownArgument

/-- Takes in a flag that has no value. -/
def raise (l : Level) : Flag → Except UsageError Level
  | .help => l.settle.bind fun _ => .error .helpAsked
  | .version => l.settle.bind fun _ => .error .versionAsked
  | flag => l.settle.bind fun l => l.record flag "true"

/-- Takes in a long option, the text behind its two dashes given. -/
def longOption (l : Level) (verb : Option Verb) (text : List Char) : Except UsageError Level :=
  let name := String.ofList (text.takeWhile (· != '='))
  let value : Option String := match text.dropWhile (· != '=') with
    | _ :: value => some (String.ofList value)
    | [] => none
  match (Flag.at? verb).find? (·.name == name) with
  | none => .error .unknownArgument
  | some flag =>
      if flag.takesValue then
        match value with
        | some value => l.settle.bind fun l => l.record flag value
        | none => l.settle.map fun l => { l with pending := some (flag, none) }
      else if value.isSome then .error .tooManyValues
      else l.raise flag

/-- Takes in short options, of which the first decides: there are only those for
help and for the version. -/
def shortOption (l : Level) (verb : Option Verb) (letter : Char) : Except UsageError Level :=
  if letter = 'h' then l.raise .help
  else if letter = 'V' ∧ verb = none then l.raise .version
  else .error .unknownArgument

/-- Takes in the options that the environment gives and the words do not. -/
def addVariables (l : Level) (environment : String → Option String) :
    List Flag → Except UsageError (List (Flag × String))
  | [] => .ok []
  | flag :: rest =>
      match if l.given.any (·.1 == flag) then none else flag.setBy?.bind environment with
      | none => addVariables l environment rest
      | some value => do
          flag.check value
          let others ← addVariables l environment rest
          pure ((flag, value) :: others)

end Level

/-- The name of the command that explains commands. -/
def helpVerb : String := "help"

/-- What asking for help on a command comes to. -/
def explain : List String → UsageError
  | [] => .helpAsked
  | [name] => if (Verb.ofName? name).isSome || name == helpVerb then .helpAsked else .invalidCommand
  | _ => .invalidCommand

/-- Reads the words before the command, up to the command. -/
def readTop : List String → Bool → Level → Except UsageError (Level × Option (Verb × List String))
  | [], _, l => .ok (l, none)
  | word :: rest, optionsEnded, l =>
      let stray : UsageError :=
        if optionsEnded && ((Verb.ofName? word).isSome || word == helpVerb) then .unknownArgument
        else .invalidCommand
      if optionsEnded then .error stray
      else if !l.awaits && word == helpVerb then .error (explain rest)
      else
        match if l.awaits then none else Verb.ofName? word with
        | some verb => .ok (l, some (verb, rest))
        | none =>
            match word.toList with
            | ['-', '-'] => readTop rest true l
            | '-' :: '-' :: text => (l.longOption none text).bind (readTop rest false)
            | '-' :: letter :: _ => (l.shortOption none letter).bind (readTop rest false)
            | _ => if l.awaits then readTop rest false (l.supply word) else .error stray

/-- Reads the words behind a command. -/
def readArguments (verb : Verb) : List String → Bool → Level → Except UsageError Level
  | [], _, l => .ok l
  | word :: rest, optionsEnded, l =>
      let argument := fun (_ : Unit) =>
        (l.addWord verb word).bind (readArguments verb rest optionsEnded)
      if optionsEnded then argument ()
      else
        match word.toList with
        | ['-', '-'] => readArguments verb rest true l
        | '-' :: '-' :: text =>
            (l.longOption (some verb) text).bind (readArguments verb rest false)
        | '-' :: letter :: _ =>
            (l.shortOption (some verb) letter).bind (readArguments verb rest false)
        | _ =>
            if l.awaits then readArguments verb rest false (l.supply word) else argument ()

/-- A command line that can be carried out. -/
structure Invocation where
  command : Command
  settings : Settings
  deriving DecidableEq, Repr

/-- The command of a verb and its arguments, if there are enough of them. -/
def commandOf (verb : Verb) (words : List String) (value? : Flag → Option String) :
    Option Command :=
  let number := fun flag => ((value? flag).bind fun v => unsigned? 64 v.toList).map UInt64.ofNat
  match verb, words with
  | .set, [ns, key, value] => some (.set ns key value ((number .ttl).getD 0))
  | .get, [ns, key] => some (.get ns key)
  | .take, [ns, key] => some (.take ns key)
  | .contains, [ns, key] => some (.contains ns key)
  | .delete, [ns, key] => some (.delete ns key)
  | .list, [ns] => some (.list ns (number .limit))
  | .stats, [] => some .stats
  | _, _ => none

/-- Reads a command line. -/
def parse (words : List String) (environment : String → Option String) :
    Except UsageError Invocation := do
  let (top, command?) ← readTop words false {}
  match command? with
  | none =>
      let top ← top.settle
      let inherited ← top.addVariables environment Flag.engine
      .error (if top.given.isEmpty && inherited.isEmpty then .helpInsteadOfNothing
        else .missingCommand)
  | some (verb, rest) =>
      let inner ← (readArguments verb rest false {}).bind Level.settle
      let inherited ← inner.addVariables environment Flag.engine
      let missing := inner.words.length < verb.arity
      if missing then .error .missingArgument
      else
        let top ← top.settle
        let _ ← top.addVariables environment Flag.engine
        let value? := fun flag => (inner.given ++ top.given ++ inherited).lookup flag
        match commandOf verb inner.words value? with
        | some command => pure ⟨command, settingsOf value?⟩
        | none => .error .missingArgument

end ExpiringCache.CommandLine
