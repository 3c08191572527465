import ExpiringCache.Proofs.Json.Structure
import ExpiringCache.Settings.Read

/-!
# Settings can be written in many ways

A text writes settings as an object with any of the names of each field, in any order,
with any spelling of the values, with other members anywhere between them, and without
fields that have their defaults. Whichever way it is, the settings are read back
(`Settings.ofText_of_spells`); and a text that names a field twice is never read.
-/

namespace ExpiringCache

open Json

/-! ## How values are written -/

namespace Json.Document

/-- An absent text is written as null. -/
def WritesOptional : Option String → Document → Prop
  | none, d => d = .null
  | some t, d => d = .string (.ok t)

/-- A whole number is written without a point and an exponent. -/
def WritesInteger (i : Int64) (d : Document) : Prop :=
  (i < 0 ∧ d = .number (.ok (.negative i))) ∨
    ∃ n : UInt64, (n.toNat : Int) = i.toInt ∧ d = .number (.ok (.natural n))

theorem optionalText_of_writes {t : Option String} {d : Document} (writes : WritesOptional t d) :
    d.optionalText = .ok t := by
  cases t with
  | none =>
      obtain rfl : d = .null := writes
      rfl
  | some t =>
      obtain rfl : d = .string (.ok t) := writes
      rfl

theorem signed_of_writes {i : Int64} {d : Document} (writes : WritesInteger i d) :
    d.signed = .ok i := by
  rcases writes with ⟨-, rfl⟩ | ⟨n, same, rfl⟩
  · rfl
  · have small : n.toNat < UInt64.size / 2 := by
      have high := i.toInt_lt
      show _ < 9223372036854775808
      omega
    have back : Int64.ofNat n.toNat = i := by
      rw [← Int64.ofInt_eq_ofNat, same, Int64.ofInt_toInt]
    simp only [signed, if_pos small, back]

end Json.Document

/-! ## The fields of settings -/

/-- The fields of the settings of memory caches. -/
def MemorySettings.textFields : List (TextField MemorySettings) :=
  [{ names := ["sweepIntervalSeconds", "sweep_interval_seconds", "cleanupInterval"]
     get := sweepSeconds
     set := fun n s => { s with sweepSeconds := n }
     Writes := fun n d => d = .number (.ok (.natural n)) }]

/-- The fields of the settings of embedded caches. -/
def EmbeddedSettings.textFields : List (TextField EmbeddedSettings) :=
  [{ names := ["path"]
     get := path
     set := fun t s => { s with path := t }
     Writes := fun t d => d = .string (.ok t) },
   { names := ["sweepIntervalSeconds", "sweep_interval_seconds"]
     get := sweepSeconds
     set := fun n s => { s with sweepSeconds := n }
     Writes := fun n d => d = .number (.ok (.natural n)) }]

/-- The fields of the settings of remote caches. -/
def RemoteSettings.textFields : List (TextField RemoteSettings) :=
  [{ names := ["address", "addr"]
     get := address
     set := fun t s => { s with address := t }
     Writes := fun t d => d = .string (.ok t) },
   { names := ["username"]
     get := username
     set := fun t s => { s with username := t }
     Writes := Document.WritesOptional },
   { names := ["password"]
     get := password
     set := fun t s => { s with password := t }
     Writes := Document.WritesOptional },
   { names := ["databaseIndex", "database_index", "db"]
     get := database
     set := fun i s => { s with database := i }
     Writes := Document.WritesInteger },
   { names := ["cluster"]
     get := cluster
     set := fun b s => { s with cluster := b }
     Writes := fun b d => d = .bool b }]

/-- The fields of settings. An engine is written by any of its names. -/
def Settings.textFields : List (TextField Settings) :=
  [{ names := ["kind"]
     get := engine
     set := fun e s => { s with engine := e }
     Writes := fun e d => ∃ name, Engine.ofName name = e ∧ d = .string (.ok name) },
   { names := ["delimiter"]
     get := delimiter
     set := fun t s => { s with delimiter := t }
     Writes := fun t d => d = .string (.ok t) },
   { names := ["memory"]
     get := memory
     set := fun m s => { s with memory := m }
     Writes := Document.WritesStructure MemorySettings.textFields {} },
   { names := ["embedded"]
     get := embedded
     set := fun e s => { s with embedded := e }
     Writes := Document.WritesStructure EmbeddedSettings.textFields {} },
   { names := ["remote"]
     get := remote
     set := fun r s => { s with remote := r }
     Writes := Document.WritesStructure RemoteSettings.textFields {} }]

/-! ## Their readers -/

theorem MemorySettings.layout : Layout fields textFields where
  suits := by
    refine .cons ⟨rfl, ?_⟩ .nil
    rintro n _ s - rfl
    rfl
  apart := by simp [textFields]
  frame := by simp [textFields]
  ext := by
    rintro ⟨_⟩ ⟨_⟩ same
    simpa [textFields] using same

theorem EmbeddedSettings.layout : Layout fields textFields where
  suits := by
    refine .cons ⟨rfl, ?path⟩ (.cons ⟨rfl, ?sweep⟩ .nil)
    all_goals
      rintro v _ s - rfl
      rfl
  apart := by simp [textFields, List.Disjoint]
  frame := by simp [textFields]
  ext := by
    rintro ⟨_, _⟩ ⟨_, _⟩ same
    simpa [textFields] using same

theorem RemoteSettings.layout : Layout fields textFields where
  suits := by
    refine .cons ⟨rfl, ?text⟩ (.cons ⟨rfl, ?username⟩ (.cons ⟨rfl, ?password⟩
      (.cons ⟨rfl, ?integer⟩ (.cons ⟨rfl, ?flag⟩ .nil))))
    case text | flag =>
      rintro v _ s - rfl
      rfl
    case username | password =>
      intro t d s _ writes
      simp only [Document.optionalText_of_writes writes]
      rfl
    case integer =>
      intro i d s _ writes
      simp only [Document.signed_of_writes writes]
      rfl
  apart := by simp [textFields, List.Disjoint]
  frame := by simp [textFields]
  ext := by
    rintro ⟨_, _, _, _, _⟩ ⟨_, _, _, _, _⟩ same
    simpa [textFields] using same

theorem Settings.layout : Layout fields textFields where
  suits := by
    refine .cons ⟨rfl, ?kind⟩ (.cons ⟨rfl, ?delimiter⟩ (.cons ⟨rfl, ?memory⟩
      (.cons ⟨rfl, ?embedded⟩ (.cons ⟨rfl, ?remote⟩ .nil))))
    case kind =>
      rintro _ _ s - ⟨name, rfl, rfl⟩
      rfl
    case delimiter =>
      rintro t _ s - rfl
      rfl
    case memory =>
      exact fun _ _ s whole writes =>
        MemorySettings.layout.map_readStructure_of_written whole writes _ _
    case embedded =>
      exact fun _ _ s whole writes =>
        EmbeddedSettings.layout.map_readStructure_of_written whole writes _ _
    case remote =>
      exact fun _ _ s whole writes =>
        RemoteSettings.layout.map_readStructure_of_written whole writes _ _
  apart := by simp [textFields, List.Disjoint]
  frame := by simp [textFields]
  ext := by
    rintro ⟨_, _, _, _, _⟩ ⟨_, _, _, _, _⟩ same
    simpa [textFields] using same

/-! ## Texts -/

namespace Settings

/-- Whether a document names a field of settings twice, or a field of the settings of
one engine. -/
def NamesTwice (d : Document) : Prop :=
  d.NamesTwice textFields ∨ ∃ ms inner, d = .object (.ofList ms) ∧
    (("memory", inner) ∈ ms ∧ inner.NamesTwice MemorySettings.textFields ∨
      ("embedded", inner) ∈ ms ∧ inner.NamesTwice EmbeddedSettings.textFields ∨
      ("remote", inner) ∈ ms ∧ inner.NamesTwice RemoteSettings.textFields)

theorem not_namesTwice_of_ofDocument {d : Document} {s : Settings}
    (read : ofDocument d = .ok s) : ¬ NamesTwice d := by
  rintro (twice | ⟨ms, inner, rfl, inside⟩)
  · exact layout.not_twice_of_readStructure read twice
  · obtain ⟨-, content⟩ := layout.once_of_readMembers read
    rcases inside with ⟨there, twice⟩ | ⟨there, twice⟩ | ⟨there, twice⟩
    · obtain ⟨_, _, taken⟩ := content _ there _ rfl
      exact MemorySettings.layout.not_twice_of_map taken twice
    · obtain ⟨_, _, taken⟩ := content _ there _ rfl
      exact EmbeddedSettings.layout.not_twice_of_map taken twice
    · obtain ⟨_, _, taken⟩ := content _ there _ rfl
      exact RemoteSettings.layout.not_twice_of_map taken twice

/-- Settings are read from any text of a document that writes them. -/
theorem ofText_of_writes {d : Document} {text : String} {s : Settings}
    (spells : Token.Spells d.tokens text.toList) (writes : d.WritesStructure textFields {} s) :
    ofText text = .ok s := by
  have found : ofDocument d = .ok s := layout.readStructure_of_written spells.whole writes _
  simp only [ofText, Document.readText, Document.ofChars_of_spells spells, found]
  rfl

/-- Take any text that spells a document. If the document writes settings, as an object
with its fields in any order and under any of their names, among whatever other members,
the settings are read from the text; if it names a field twice, nothing is. -/
theorem ofText_of_spells {d : Document} {text : String}
    (spells : Token.Spells d.tokens text.toList) :
    (∀ s, d.WritesStructure textFields {} s → ofText text = .ok s) ∧
      (NamesTwice d → ∀ s, ofText text ≠ .ok s) := by
  constructor
  · exact fun s writes => ofText_of_writes spells writes
  · intro twice s success
    simp only [ofText, Document.readText, Document.ofChars_of_spells spells] at success
    split at success
    next found => exact not_namesTwice_of_ofDocument found twice
    next => cases success

/-- Unknown members with a number beyond all doubles and a lone surrogate, an alias, a
`null` and an engine in capitals; and an address under both of its names. -/
theorem ofText_of_spells_aliased :
    let huge : Numeral := ⟨false, ['1'], none, some (false, ['9', '9', '9'])⟩
    let junk : Document := .array (.cons (.number (huge.value?.elim (.error .malformed) .ok))
      (.cons (.string (.error .malformed)) .done))
    let remote : Document := .object (.ofList
      [("db", .number (.ok (.negative (-3)))), ("username", .null)])
    let d : Document := .object (.ofList [("x", junk), ("remote", remote),
      ("kind", .string (.ok " REDIS"))])
    let twice : Document := .object (.ofList [("remote", .object (.ofList
      [("addr", .string (.ok "a")), ("address", .string (.ok "b"))]))])
    let text := "\x7b\"x\":[1e999,\"\\ud800\"],\"remote\":\x7b\"db\":-3,\"username\":null\x7d," ++
      "\"kind\":\" REDIS\"\x7d"
    let twiceText := "\x7b\"remote\":\x7b\"addr\":\"a\",\"address\":\"b\"\x7d\x7d"
    let s : Settings := { engine := .remote, remote := { database := -3 } }
    (Token.Spells d.tokens text.toList ∧ d.WritesStructure textFields {} s ∧ ofText text = .ok s) ∧
      Token.Spells twice.tokens twiceText.toList ∧ NamesTwice twice ∧ ofText twiceText ≠ .ok s := by
  intro huge junk remote d twice text twiceText s
  have hugeSpells : huge.Spells "1e999".toList :=
    .parts (Numeral.wholeDigits_toDigits 1) nofun
      (by rintro _ _ ⟨⟩; exact (Numeral.wholeDigits_toDigits 999).toDigits) (.unsigned (.inl rfl))
  have unit : Quote.Spells [.escapedUnit 0xD800] "\\ud800".toList :=
    .unit (by decide) (.head _) (.head _) (.head _) (.head _) .nil
  have surrogate : Token.Spelling (.string (.error .malformed)) "\"\\ud800\"".toList := by
    refine .textless unit fun t reads => ?_
    have text := (Quote.textOf_eq_some_iff unit t).2 reads
    simp [Quote.textOf, Quote.isHighSurrogate] at text
  have spells : Token.Spells d.tokens text.toList := by
    simp only [text]
    exact .next .leftBrace <| .next (.plain "x" rfl) <| .next .colon <|
    .next .leftBracket <| .next (.number hugeSpells) <| .next .comma <| .next surrogate <|
    .next .rightBracket <| .next .comma <| .next (.plain "remote" rfl) <| .next .colon <|
    .next .leftBrace <| .next (.plain "db" rfl) <| .next .colon <|
    .next (@Token.Spelling.negative (-3) (by decide)) <| .next .comma <|
    .next (.plain "username" rfl) <| .next .colon <| .next .null <| .next .rightBrace <| .next .comma <|
    .next (.plain "kind" rfl) <| .next .colon <| .next (.plain " REDIS" rfl) <|
    .next .rightBrace <| .done Token.blank_nil
  have spellsTwice : Token.Spells twice.tokens twiceText.toList := by
    simp only [twiceText]
    exact .next .leftBrace <| .next (.plain "remote" rfl) <| .next .colon <|
    .next .leftBrace <| .next (.plain "addr" rfl) <| .next .colon <|
    .next (.plain "a" rfl) <| .next .comma <| .next (.plain "address" rfl) <|
    .next .colon <| .next (.plain "b" rfl) <| .next .rightBrace <| .next .rightBrace <|
    .done Token.blank_nil
  have writesRemote : remote.WritesStructure RemoteSettings.textFields {} s.remote := by
    refine ⟨_, rfl, ?_, ?_, ?_⟩
    · simp [RemoteSettings.textFields, TextField.Once]
    · simp [RemoteSettings.textFields, Document.WritesOptional, Document.WritesInteger, s]
    · simp [RemoteSettings.textFields, s]
  have writes : d.WritesStructure textFields {} s := by
    refine ⟨_, rfl, ?_, ?_, ?_⟩
    · simp [textFields, TextField.Once]
    · have known : Engine.ofName " REDIS" = .remote := by decide +kernel
      simpa [textFields, s, known] using writesRemote
    · simp [textFields, s]
  have named : NamesTwice twice := by
    refine .inr ⟨_, _, rfl, .inr (.inr ⟨List.mem_cons_self, _, rfl, _, List.mem_cons_self, ?_⟩)⟩
    simp [TextField.Once]
  exact ⟨⟨spells, writes, (ofText_of_spells spells).1 s writes⟩, spellsTwice, named,
    (ofText_of_spells spellsTwice).2 named s⟩

end Settings

end ExpiringCache
