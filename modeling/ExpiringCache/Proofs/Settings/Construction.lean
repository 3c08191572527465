import ExpiringCache.Proofs.CommandLine.Reading
import ExpiringCache.Proofs.Session.Run
import ExpiringCache.Proofs.Settings.Decoding

/-!
# The ways to come by settings

The same parameters can be given as changes of the default settings, as options on the
command line, or in a text. All three ways lead to the same engine and to the same keys,
and the first two to the same remote settings (`Parameters.constructions_agree`). In a
text an empty user name or password is still one, and elsewhere it is none: that is
where the ways part, and nowhere else.
-/

namespace ExpiringCache

open CommandLine (Flag)
open Json

/-! ## Changes -/

/-- A change of settings. -/
inductive Change
  | kind (engine : Engine)
  | delimiter (text : String)
  | address (text : String)
  | username (text : String)
  | password (text : String)
  | database (index : Int64)
  | cluster (enabled : Bool)

namespace Change

def apply (s : Settings) : Change → Settings
  | kind engine => { s with engine := engine }
  | delimiter text => s.withDelimiter text
  | address text => { s with remote.address := text }
  | username text => { s with remote := s.remote.withUsername text }
  | password text => { s with remote := s.remote.withPassword text }
  | database index => { s with remote.database := index }
  | cluster enabled => { s with remote.cluster := enabled }

/-- The option that says the same as a change. -/
def flag : Change → Flag
  | kind _ => .backend
  | delimiter _ => .delimiter
  | address _ => .address
  | username _ => .username
  | password _ => .password
  | database _ => .database
  | cluster _ => .cluster

/-- Changes of different kinds can be made in either order. -/
theorem apply_comm {a b : Change} (differs : a.flag ≠ b.flag) (s : Settings) :
    apply (apply s a) b = apply (apply s b) a := by
  cases a <;> cases b <;> try rfl
  all_goals exact absurd rfl differs

/-- Changes of which each is of its own kind can be made in any order. -/
theorem foldl_of_perm {changes calls : List Change} (perm : calls.Perm changes)
    (apart : (changes.map flag).Nodup) (s : Settings) :
    calls.foldl apply s = changes.foldl apply s := by
  refine perm.foldl_eq' (fun a first b second s => ?_) s
  by_cases same : a.flag = b.flag
  · have distinct : (calls.map flag).Nodup := (perm.map flag).nodup_iff.2 apart
    rw [List.inj_on_of_nodup_map distinct first second same]
  · exact apply_comm same s

end Change

/-! ## Parameters -/

/-- What the engine and the keys of a cache depend on, and how a server is reached. -/
structure Parameters where
  /-- The name of the engine. -/
  kind : String
  delimiter : String
  address : String
  username : Option String
  password : Option String
  database : Int64
  cluster : Bool

namespace Parameters

/-- The changes that parameters ask for. -/
def changes (p : Parameters) : List Change :=
  [.kind (.ofName p.kind), .delimiter p.delimiter, .address p.address] ++
    p.username.toList.map .username ++ p.password.toList.map .password ++
      [.database p.database, .cluster p.cluster]

/-- What the parameters say for an option. -/
def said (p : Parameters) : Flag → Option String
  | .backend => some p.kind
  | .delimiter => some p.delimiter
  | .address => some p.address
  | .username => p.username
  | .password => p.password
  | .database => some (toString p.database.toInt)
  | .cluster => if p.cluster then some "true" else none
  | .path | .ttl | .limit | .help | .version => none

/-- The options that say the parameters. -/
def options (p : Parameters) : List (Flag × String) :=
  Flag.engine.filterMap fun flag => (p.said flag).map (flag, ·)

/-- The settings that have the parameters in them as they are. -/
def raw (p : Parameters) (memory : MemorySettings) (embedded : EmbeddedSettings) : Settings :=
  { engine := .ofName p.kind
    delimiter := p.delimiter
    remote := ⟨p.address, p.username, p.password, p.database, p.cluster⟩
    memory, embedded }

/-- The remote settings that the parameters are to lead to. -/
def remote (p : Parameters) : RemoteSettings :=
  ⟨p.address, p.username.bind unlessEmpty, p.password.bind unlessEmpty, p.database, p.cluster⟩

/-- The keys that the parameters are to lead to. -/
def keys (p : Parameters) : Keys := ⟨(unlessEmpty p.delimiter).getD Keys.defaultDelimiter⟩

theorem changes_nodup (p : Parameters) : (p.changes.map Change.flag).Nodup := by
  cases username : p.username <;> cases password : p.password <;>
    simp [changes, username, password, Change.flag]

/-- Parameters say something for options of the engine only. -/
theorem mem_engine_of_said {p : Parameters} {flag : Flag} {value : String}
    (stated : p.said flag = some value) : flag ∈ Flag.engine := by
  cases flag <;> first | decide | cases stated

theorem mem_options (p : Parameters) {flag : Flag} {value : String} :
    (flag, value) ∈ p.options ↔ p.said flag = some value := by
  simp only [options, List.mem_filterMap, Option.map_eq_some_iff, Prod.mk.injEq]
  constructor
  · rintro ⟨_, -, _, stated, rfl, rfl⟩
    exact stated
  · intro stated
    exact ⟨flag, mem_engine_of_said stated, value, stated, rfl, rfl⟩

theorem options_nodup (p : Parameters) : (p.options.map (·.1)).Nodup := by
  have kept : p.options.map (·.1) = Flag.engine.filter fun flag => (p.said flag).isSome := by
    rw [options, List.map_filterMap, ← List.filterMap_eq_filter]
    congr 1
    funext flag
    cases said : p.said flag <;> simp [Option.guard, said]
  have once : Flag.engine.Nodup := by decide
  rw [kept]
  exact once.filter _

theorem lookup_options (p : Parameters) (flag : Flag) : p.options.lookup flag = p.said flag := by
  ext value
  rw [CommandLine.lookup_eq_some_iff p.options_nodup, mem_options]

theorem signed?_database (p : Parameters) :
    Text.signed? 64 (toString p.database.toInt).toList = some p.database.toInt :=
  Text.signed?_toString p.database.le_toInt p.database.toInt_lt

theorem options_valid (p : Parameters) : ∀ option ∈ p.options, option.1.Takes option.2 := by
  rintro ⟨flag, value⟩ member
  have stated := p.mem_options.1 member
  have known := mem_engine_of_said stated
  cases flag
  case backend | delimiter | address | username | password => exact ⟨known, rfl, nofun⟩
  case database =>
    cases stated
    refine ⟨known, ?_, nofun⟩
    simp only [Flag.check, signed?_database, Option.isSome_some, if_true]
  case cluster =>
    simp only [said] at stated
    split at stated
    next =>
      cases stated
      exact ⟨known, rfl, fun _ => rfl⟩
    next => cases stated
  all_goals cases stated

/-- The changes lead to the settings that they are to lead to. -/
theorem foldl_changes (p : Parameters) (memory : MemorySettings) (embedded : EmbeddedSettings) :
    p.changes.foldl Change.apply { memory, embedded } =
      { engine := .ofName p.kind, delimiter := p.keys.delimiter, remote := p.remote
        memory, embedded } := by
  cases username : p.username <;> cases password : p.password <;>
    simp [changes, remote, keys, username, password, Change.apply, Settings.withDelimiter,
      RemoteSettings.withUsername, RemoteSettings.withPassword]

/-- So do the options. -/
theorem settingsOf_options (p : Parameters) :
    CommandLine.settingsOf (p.options.lookup ·) =
      { engine := .ofName p.kind, delimiter := p.keys.delimiter, remote := p.remote
        memory := { sweepSeconds := 0 }, embedded := { sweepSeconds := 0 } } := by
  have database : ((some (toString p.database.toInt)).bind fun v =>
      Text.signed? 64 v.toList).map Int64.ofInt = some p.database := by
    rw [Option.bind_some, signed?_database, Option.map_some, Int64.ofInt_toInt]
  simp only [CommandLine.settingsOf, lookup_options, said, database]
  cases username : p.username <;> cases password : p.password <;> cases cluster : p.cluster <;>
    simp [remote, keys, username, password, cluster, Settings.withDelimiter,
      RemoteSettings.withUsername, RemoteSettings.withPassword]

end Parameters

/-! ## Keys -/

/-- How a cache composes its keys. -/
def Cache.keys : Cache → Keys
  | memory m => m.keys
  | embedded e => e.keys
  | remote r => r.keys

/-- Behind the common interface a cache has the keys that its settings ask for. -/
theorem Session.keys_of_openCache {s : Session} {o : Opening} {line : Line} {slot : Slot}
    {disk : Disk} (behind : o.bare = false)
    (opened : (s.openCache o line).1 = .ok (slot, disk)) : slot.cache.keys = o.settings.keys := by
  have asked : keysOf o = o.settings.keys := by
    rw [keysOf, behind]
    rfl
  rw [← asked]
  cases opened_of_openCache opened with
  | embedded | remote | memory => rfl

/-- Whether settings ask for an engine, and all caches that they open behind the common
interface have some keys. -/
structure Settings.Opens (settings : Settings) (engine : Engine) (keys : Keys) : Prop where
  engine : settings.engine = engine
  keys : ∀ (s : Session) (background : Bool) (line : Line) (slot : Slot) (disk : Disk),
    (s.openCache ⟨settings, false, background⟩ line).1 = .ok (slot, disk) → slot.cache.keys = keys

theorem Settings.opens {s : Settings} {engine : Engine} {keys : Keys} (kind : s.engine = engine)
    (composed : s.keys = keys) : s.Opens engine keys where
  engine := kind
  keys _ _ _ _ _ opened := (Session.keys_of_openCache rfl opened).trans composed

namespace Parameters

/-- A delimiter that is unset already stays the default one. -/
theorem keys_idem (p : Parameters) :
    (⟨(unlessEmpty p.keys.delimiter).getD Keys.defaultDelimiter⟩ : Keys) = p.keys := by
  by_cases empty : p.delimiter = ""
  next => simp [keys, unlessEmpty, empty, Keys.defaultDelimiter]
  next => simp [keys, unlessEmpty, empty]

theorem unlessEmpty_eq_self (t : Option String) : t = t.bind unlessEmpty ↔ t ≠ some "" := by
  cases t with
  | none => simp
  | some t => by_cases empty : t = "" <;> simp [unlessEmpty, empty]

theorem raw_remote_iff (p : Parameters) (memory : MemorySettings) (embedded : EmbeddedSettings) :
    (p.raw memory embedded).remote = p.remote ↔
      p.username ≠ some "" ∧ p.password ≠ some "" := by
  simp only [raw, remote, RemoteSettings.mk.injEq, true_and, and_true, unlessEmpty_eq_self]

/-- Take changes in any order, options on a command line in any order, and any text that
writes the parameters. All three lead to settings of the same engine, with which caches
have the same keys. The first two lead to the same remote settings, and the text does so
unless it has an empty user name or password. -/
theorem constructions_agree (p : Parameters) (memory : MemorySettings)
    (embedded : EmbeddedSettings) {calls : List Change} (called : calls.Perm p.changes)
    {given : List (Flag × String)} (passed : given.Perm p.options)
    {environment : String → Option String} (unset : CommandLine.Unset environment)
    {d : Document} {text : String} (spells : Token.Spells d.tokens text.toList)
    (writes : d.WritesStructure Settings.textFields {} (p.raw memory embedded)) :
    let built := calls.foldl Change.apply { memory, embedded }
    let words := given.map (fun (flag, value) => flag.word value) ++ [CommandLine.Verb.stats.name]
    ∃ asked decoded : Settings,
      CommandLine.parse words environment = .ok ⟨.stats, asked⟩ ∧
      Settings.ofText text = .ok decoded ∧
      (∀ s ∈ [built, asked, decoded], s.Opens (.ofName p.kind) p.keys) ∧
      built.remote = p.remote ∧ asked.remote = p.remote ∧
      (decoded.remote = p.remote ↔ p.username ≠ some "" ∧ p.password ≠ some "") := by
  intro built words
  have built_eq : built = _ :=
    (Change.foldl_of_perm called p.changes_nodup _).trans (p.foldl_changes memory embedded)
  have parsed := CommandLine.parse_words unset passed p.options_valid p.options_nodup
  rw [p.settingsOf_options] at parsed
  refine ⟨_, _, parsed, Settings.ofText_of_writes spells writes, ?_, by rw [built_eq], rfl,
    p.raw_remote_iff memory embedded⟩
  simp only [List.forall_mem_cons]
  refine ⟨?changes, ?options, ?text, nofun⟩
  case changes => exact Settings.opens (by rw [built_eq]) (by rw [built_eq]; exact p.keys_idem)
  case options => exact Settings.opens rfl p.keys_idem
  case text => exact Settings.opens rfl rfl

/-- An engine in capitals, an empty delimiter and an empty password. -/
theorem constructions_agree_normalized :
    let p : Parameters := ⟨" Redis", "", "a:7", none, some "", -3, true⟩
    let given := p.options.reverse
    let words := given.map (fun (flag, value) => flag.word value) ++ [CommandLine.Verb.stats.name]
    let remote : Document := .object (.ofList [("db", .number (.ok (.negative (-3)))),
      ("password", .string (.ok "")), ("cluster", .bool true), ("addr", .string (.ok "a:7"))])
    let d : Document := .object (.ofList [("remote", remote), ("delimiter", .string (.ok "")),
      ("kind", .string (.ok " Redis"))])
    let text := "\x7b\"remote\":\x7b\"db\":-3,\"password\":\"\",\"cluster\":true," ++
      "\"addr\":\"a:7\"\x7d,\"delimiter\":\"\",\"kind\":\" Redis\"\x7d"
    Token.Spells d.tokens text.toList ∧ d.WritesStructure Settings.textFields {} (p.raw {} {}) ∧
      ∃ asked decoded : Settings, CommandLine.parse words (fun _ => none) = .ok ⟨.stats, asked⟩ ∧
        Settings.ofText text = .ok decoded ∧ asked.Opens .remote ⟨":"⟩ ∧
        decoded.Opens .remote ⟨":"⟩ ∧ asked.remote.password = none ∧
        decoded.remote ≠ asked.remote := by
  intro p given words remote d text
  have spells : Token.Spells d.tokens text.toList := by
    simp only [text]
    exact .next .leftBrace <| .next (.plain "remote" rfl) <| .next .colon <|
    .next .leftBrace <| .next (.plain "db" rfl) <| .next .colon <|
    .next (@Token.Spelling.negative (-3) (by decide)) <| .next .comma <|
    .next (.plain "password" rfl) <| .next .colon <| .next (.plain "" rfl) <| .next .comma <|
    .next (.plain "cluster" rfl) <| .next .colon <| .next .yes <| .next .comma <|
    .next (.plain "addr" rfl) <| .next .colon <| .next (.plain "a:7" rfl) <|
    .next .rightBrace <| .next .comma <| .next (.plain "delimiter" rfl) <| .next .colon <|
    .next (.plain "" rfl) <| .next .comma <| .next (.plain "kind" rfl) <| .next .colon <|
    .next (.plain " Redis" rfl) <| .next .rightBrace <| .done Token.blank_nil
  have writesRemote : remote.WritesStructure RemoteSettings.textFields {} (p.raw {} {}).remote := by
    refine ⟨_, rfl, ?_, ?_, ?_⟩
    · simp [RemoteSettings.textFields, TextField.Once]
    · simp [RemoteSettings.textFields, Document.WritesOptional, Document.WritesInteger, p, raw]
    · simp [RemoteSettings.textFields, p, raw]
  have writes : d.WritesStructure Settings.textFields {} (p.raw {} {}) := by
    refine ⟨_, rfl, ?_, ?_, ?_⟩
    · simp [Settings.textFields, TextField.Once]
    · simpa [Settings.textFields, p, raw] using writesRemote
    · simp [Settings.textFields, raw]
  have kind : Engine.ofName p.kind = .remote := by decide +kernel
  obtain ⟨asked, decoded, parsed, read, opens, -, same, differs⟩ :=
    @constructions_agree p {} {} p.changes.reverse (List.reverse_perm _) given
      (List.reverse_perm _) (fun _ => none) (fun _ _ _ => rfl) d text spells writes
  rw [kind] at opens
  refine ⟨spells, writes, asked, decoded, parsed, read, opens _ (.tail _ (.head _)),
    opens _ (.tail _ (.tail _ (.head _))), by rw [same]; rfl, ?_⟩
  rw [same]
  exact fun equal => (differs.1 equal).2 rfl

/-- An empty user name and an empty password. They are none where they are set, and where
they are said on a command line; where a text has them, they are presented to the server. -/
theorem empty_credentials_in_text :
    let built := [Change.username "", .password ""].foldl Change.apply {}
    let asked := CommandLine.parse ["--username=", "--password=", "stats"] fun _ => none
    let text := "\x7b\"kind\":\"memory\",\"delimiter\":\":\",\"remote\":" ++
      "\x7b\"address\":\"127.0.0.1:6379\",\"username\":\"\",\"password\":\"\"," ++
      "\"db\":0,\"cluster\":false\x7d\x7d"
    let decoded : Settings := { remote := { username := some "", password := some "" } }
    let sent (s : Settings) : List ServerCommand :=
      (Handshake.run s.remote (some ⟨"127.0.0.1", 6379, false⟩) ⟨[], []⟩).2.sent
    asked.toOption.map (·.settings.remote) = some built.remote ∧
      (Settings.ofText text).toOption = some decoded ∧ decoded.remote ≠ built.remote ∧
      sent built = [.ping] ∧ sent decoded = [.ofTexts ["AUTH", "", ""], .ping] := by
  decide +kernel

end Parameters

end ExpiringCache
