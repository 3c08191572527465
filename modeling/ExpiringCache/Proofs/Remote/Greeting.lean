import ExpiringCache.Proofs.Remote.Address
import ExpiringCache.Proofs.Remote.Talk

/-!
# How a remote cache greets its server

A cache of a single server is connected in three steps. The settings have to name one node, and
the URL of that node has to be one that can be used: until then nothing is sent. Then the
server is sent `AUTH` if there is a password, `SELECT` unless the database is the first one, and
`PING` (`Remote.connect_greets`).

The user name and the password are those of the settings where they are set, and those of the
URL where they are not, one by one; there is none that a URL cannot present. The database is
that of the settings, whatever number the URL has for it.
-/

namespace ExpiringCache

/-! ## What is sent -/

namespace Line

variable {line line' : Line} {command : ServerCommand}

/-- What a server replies depends on the replies that it has left. -/
theorem reply_congr (same : line.replies = line'.replies) (command : ServerCommand) :
    (line.ask command).1 = (line'.ask command).1 := by
  unfold ask
  rw [same]
  split <;> rfl

/-- A request that goes wrong goes wrong at the server. -/
theorem remote_of_query {α : Type} {read? : Reply → Option α} {fault : Fault}
    (wrong : (line.query command read?).1 = .error fault) : ∃ cause, fault = .remote cause := by
  simp only [query, Reply.interpret] at wrong
  split at wrong
  next => exact ⟨_, (Except.error.inj wrong).symm⟩
  next =>
    split at wrong
    next => cases wrong
    next => exact ⟨_, (Except.error.inj wrong).symm⟩

end Line

namespace Handshake

variable {s : RemoteSettings} {server : Option Server} {node : Node} {line : Line}

theorem sent_greet (line : Line) (commands : List ServerCommand) :
    (greet line commands).sent = line.sent ++ commands := by
  induction commands generalizing line with
  | nil => simp [greet]
  | cons command rest ih =>
      have first : (line.handshake command).sent = line.sent ++ [command] := by
        simp [Line.sent, Line.handshake]
      rw [greet, List.foldl_cons]
      exact (ih _).trans (by rw [first, List.append_assoc, List.singleton_append])

/-- A greeting uses up no replies. -/
theorem replies_greet (line : Line) (commands : List ServerCommand) :
    (greet line commands).replies = line.replies := by
  induction commands generalizing line with
  | nil => rfl
  | cons command rest ih => exact ih (line.handshake command)

theorem greet_append (line : Line) (commands commands' : List ServerCommand) :
    greet (greet line commands) commands' = greet line (commands ++ commands') :=
  (List.foldl_append ..).symm

/-- A server that answers `PING` answers it after a greeting too. -/
theorem ping_greet (answered : (line.ask .ping).1.error? = none) (commands : List ServerCommand) :
    (ping (greet line commands)).1 = .ok () ∧
      (ping (greet line commands)).2.sent = line.sent ++ commands ++ [.ping] := by
  have same := Line.reply_congr (replies_greet line commands) .ping
  have pong : ((greet line commands).ask .ping).1.error? = none := by rw [same, answered]
  refine ⟨?_, ?_⟩
  · simp only [ping, Line.query, Reply.interpret, pong, Reply.anything?]
  · rw [← sent_greet, ← Line.sent_ask]
    rfl

theorem auth_eq (username password : Option String) :
    auth username password = password.toList.map fun secret =>
      .ofTexts (["AUTH"] ++ username.toList ++ [secret]) := by
  cases password <;> rfl

/-- A server that answers is greeted in the second version of the protocol. -/
theorem single_of_answered (s : RemoteSettings) (node : Node) (two : node.protocol = .two)
    (listens : Server.listensAt server node.place = true)
    (answered : (line.ask .ping).1.error? = none) :
    (single s server node line).1 = .ok .single ∧
      (single s server node line).2.sent =
        line.sent ++ (auth node.username node.password ++ select s.database) ++ [.ping] := by
  have greeted := ping_greet answered (auth node.username node.password ++ select s.database)
  simp only [single, listens, if_true, introduce, two, greet_append]
  exact ⟨by rw [greeted.1]; rfl, greeted.2⟩

theorem remote_of_single {fault : Fault} (wrong : (single s server node line).1 = .error fault) :
    ∃ cause, fault = .remote cause := by
  unfold single at wrong
  split at wrong
  next =>
    split at wrong
    next cause line' refused =>
      obtain rfl := Except.error.inj wrong
      unfold introduce at refused
      split at refused
      next => cases refused
      next => exact Line.remote_of_query (congrArg Prod.fst refused)
    next line' _ =>
      cases answer : (ping (greet line' (select s.database))).1 with
      | error cause =>
          simp only [answer, Except.map] at wrong
          obtain rfl := Except.error.inj wrong
          exact Line.remote_of_query answer
      | ok _ =>
          simp only [answer, Except.map] at wrong
          cases wrong
  next => exact ⟨_, (Except.error.inj wrong).symm⟩

/-! ## Which node is greeted -/

theorem run_of_several (alone : s.cluster = false) (several : s.nodes.length ≠ 1)
    (server : Option Server) (line : Line) :
    run s server line =
      (.error (if s.nodes = [] then .emptyAddress else .notACluster s.nodes.length), line) := by
  unfold run
  rw [alone]
  rcases nodes : s.nodes with _ | ⟨text, _ | ⟨text', rest⟩⟩
  · rfl
  · simp [nodes] at several
  · rfl

theorem run_of_unread {text : String} (alone : s.cluster = false) (one : s.nodes = [text])
    (unread : Node.parse? text = none) (server : Option Server) (line : Line) :
    run s server line = (.error (.remote .badAddress), line) := by
  simp only [run, alone, one, Node.configured?, unread, Option.map_none]

/-- A node that can be read is used with the credentials of the settings, where they have any. -/
theorem run_of_read (s : RemoteSettings) {text : String} (alone : s.cluster = false)
    (one : s.nodes = [text]) (read : Node.parse? text = some node) (server : Option Server)
    (line : Line) :
    run s server line = single s server { node with
      username := s.username.or node.username, password := s.password.or node.password } line := by
  simp only [run, alone, one, Node.configured?, read, Option.map_some]

end Handshake

namespace Remote

variable {s : RemoteSettings} {server : Option Server} {line : Line}

theorem connect_eq (s : RemoteSettings) (keys : Keys) (server : Option Server) (line : Line) :
    connect s keys server line =
      ((Handshake.run s server line).1.map fun mode => ⟨keys, some mode, .zero⟩,
        (Handshake.run s server line).2) := rfl

/-- Where there is one node, nothing that goes wrong is the settings' fault. -/
theorem remote_of_connect {text : String} {keys : Keys} {fault : Fault} (alone : s.cluster = false)
    (one : s.nodes = [text]) (wrong : (connect s keys server line).1 = .error fault) :
    ∃ cause, fault = .remote cause := by
  rw [connect_eq] at wrong
  cases ran : (Handshake.run s server line).1 with
  | error fault' =>
      rw [ran] at wrong
      obtain rfl := Except.error.inj wrong
      cases read : Node.parse? text with
      | none =>
          rw [Handshake.run_of_unread alone one read] at ran
          exact ⟨_, (Except.error.inj ran).symm⟩
      | some node =>
          rw [Handshake.run_of_read s alone one read] at ran
          exact Handshake.remote_of_single ran
  | ok mode =>
      rw [ran] at wrong
      cases wrong

/-- A server that answers at the node of the settings is greeted. -/
theorem connect_of_parsed {text : String} {node : Node} (alone : s.cluster = false)
    (one : s.nodes = [text]) (read : Node.parse? text = some node) (two : node.protocol = .two)
    (listens : Server.listensAt server node.place = true)
    (answered : (line.ask .ping).1.error? = none) (keys : Keys) :
    (connect s keys server line).1 = .ok ⟨keys, some .single, .zero⟩ ∧
      (connect s keys server line).2.sent = line.sent ++
        (((s.password.or node.password).toList.map fun secret =>
            .ofTexts (["AUTH"] ++ (s.username.or node.username).toList ++ [secret])) ++
          (if s.database = 0 then [] else [.ofTexts ["SELECT", toString s.database.toInt]]) ++
          [.ofTexts ["PING"]]) := by
  obtain ⟨mode, sent⟩ := Handshake.single_of_answered s { node with
    username := s.username.or node.username, password := s.password.or node.password }
    two listens answered
  rw [Handshake.auth_eq, List.append_assoc] at sent
  rw [connect_eq, Handshake.run_of_read s alone one read, mode]
  exact ⟨rfl, sent⟩

/-- The database that a node asks for is not that of the cache. -/
theorem connect_congr {text text' address : String} {node : Node} {database : Int}
    (alone : s.cluster = false) (one : s.nodes = [text]) (one' : nodesOf address = [text'])
    (read : Node.parse? text = some node) (read' : Node.parse? text' = some { node with database })
    (keys : Keys) (server : Option Server) (line : Line) :
    connect { s with address } keys server line = connect s keys server line := by
  have run : Handshake.run { s with address } server line = Handshake.run s server line := by
    rw [Handshake.run_of_read s alone one read,
      Handshake.run_of_read { s with address } alone one' read']
    rfl
  rw [connect_eq, connect_eq, run]

/-- What a cache of a single server does when it is connected. If the settings do not name one
node, they are to blame, and only then are they; nothing is sent. Nor is anything sent if the
URL of the node, which begins with `redis://` unless it has a scheme, cannot be used.

A server that listens there and answers `PING` has been sent `AUTH` just if there is a password,
`SELECT` just if the database is not the first one, and `PING`. The user name and the password
are each those of the settings, or else those that are decoded from the URL. Another path, which
is where a URL has the number of a database, makes no difference as long as the URL can be
used.

Whatever a user name and a password are, a URL in which they are in percent encoding presents
them. -/
theorem connect_greets (alone : s.cluster = false) (keys : Keys) (server : Option Server)
    (line : Line) :
    let result := connect s keys server line
    let completed (text : String) :=
      if "://".toList <:+: text.toList then text else "redis://" ++ text
    let greeting (name secret : Option String) : List ServerCommand :=
      (secret.toList.map fun secret => .ofTexts (["AUTH"] ++ name.toList ++ [secret])) ++
        (if s.database = 0 then [] else [.ofTexts ["SELECT", toString s.database.toInt]]) ++
        [.ofTexts ["PING"]]
    (s.nodes.length ≠ 1 →
      result =
        (.error (if s.nodes = [] then .emptyAddress else .notACluster s.nodes.length), line)) ∧
    ((∃ reason, result.1 = .error (.config reason)) ↔ s.nodes.length ≠ 1) ∧
    (∀ text, s.nodes = [text] →
      ((Url.parse? (completed text)).bind Node.ofUrl? = none →
        result = (.error (.remote .badAddress), line)) ∧
      ∀ url node, Url.parse? (completed text) = some url → Node.ofUrl? url = some node →
        url.scheme ≠ "unix" → url.scheme ≠ "redis+unix" → url.parameter? "protocol" = none →
        (Server.listensAt server node.place = true → (line.ask .ping).1.error? = none →
          ∃ authority name secret, url.authority = some authority ∧
            Node.credentials? (authority.userInfo.getD []) = some (name, secret) ∧
            result.1 = .ok ⟨keys, some .single, .zero⟩ ∧
            result.2.sent = line.sent ++ greeting (s.username.or name) (s.password.or secret)) ∧
        ∀ address text' path, nodesOf address = [text'] →
          Url.parse? (completed text') = some { url with path } →
          (Node.ofUrl? { url with path }).isSome = true →
          connect { s with address } keys server line = result) ∧
    ∀ user secret host port database, host ≠ "" → Plain host.toList → port < 65536 →
      -2 ^ 63 ≤ database → database < 2 ^ 63 →
      s.address = Node.written user secret host port database →
      Server.listensAt server (.network host port) = true → (line.ask .ping).1.error? = none →
        result.1 = .ok ⟨keys, some .single, .zero⟩ ∧
        result.2.sent = line.sent ++
          greeting (s.username.or (unlessEmpty user)) (s.password.or (unlessEmpty secret)) := by
  intro result completed greeting
  have several (number : s.nodes.length ≠ 1) : result =
      (.error (if s.nodes = [] then .emptyAddress else .notACluster s.nodes.length), line) := by
    simp only [result, connect_eq, Handshake.run_of_several alone number]
    rfl
  have parse (text : String) :
      Node.parse? text = (Url.parse? (completed text)).bind Node.ofUrl? := by
    rw [Node.parse?, Node.urlText_eq]
  refine ⟨several, ⟨?blamed, ?unused⟩, fun text one => ⟨?rejected, ?read⟩, ?written⟩
  case blamed =>
    rintro ⟨reason, blamed⟩ number
    obtain ⟨text, one⟩ := List.length_eq_one_iff.1 number
    obtain ⟨cause, remote⟩ := remote_of_connect alone one blamed
    cases remote
  case unused =>
    intro number
    rw [several number]
    by_cases empty : s.nodes = []
    · exact ⟨_, by rw [if_pos empty]; rfl⟩
    · exact ⟨_, by rw [if_neg empty]; rfl⟩
  case rejected =>
    intro rejected
    rw [← parse] at rejected
    simp only [result, connect_eq, Handshake.run_of_unread alone one rejected]
    rfl
  case read =>
    intro url node parsed used socket socket' asked
    have scheme : url.scheme = "redis" := by
      by_contra other
      simp [Node.ofUrl?, other, socket, socket'] at used
    have networked : Node.ofNetwork? url = some node := by simpa [Node.ofUrl?, scheme] using used
    have read : Node.parse? text = some node := by rw [parse, parsed]; exact used
    obtain ⟨authority, host, port, found, credentials, -, -, -, -, -, spoken⟩ :=
      Node.ofNetwork?_eq_some_iff.1 networked
    have two : node.protocol = .two := by
      simpa [Node.protocol?, asked, eq_comm] using spoken
    refine ⟨fun listens answered => ?_, ?_⟩
    · obtain ⟨connected, sent⟩ := connect_of_parsed alone one read two listens answered keys
      exact ⟨authority, node.username, node.password, found, credentials, connected, sent⟩
    · intro address text' path one' parsed' used'
      obtain ⟨node', used'⟩ := Option.isSome_iff_exists.1 used'
      have networked' : Node.ofNetwork? { url with path } = some node' := by
        simpa [Node.ofUrl?, scheme] using used'
      have read' : Node.parse? text' = some { node with database := node'.database } := by
        rw [parse, parsed', Option.bind_some, used', Node.eq_of_path networked networked']
      exact connect_congr alone one one' read read' keys server line
  case written =>
    intro user secret host port database named plain small low high dialled listens answered
    have one : s.nodes = [Node.written user secret host port database] := by
      rw [RemoteSettings.nodes, dialled, Node.nodesOf_written user secret plain]
    have read := Node.parse?_written user secret plain named small low high
    exact connect_of_parsed alone one read rfl listens answered keys

/-- The user name of the settings goes with the password of the URL, and the database is that of
the settings, whether or not the URL has one too. Without a user name in the settings, that of
the URL is presented, though it has characters that separate. -/
theorem connect_greets_mixed :
    let s : RemoteSettings :=
      { address := "u:p%40q@h:1/5", username := some "admin", database := 3 }
    let server : Option Server := some ⟨"h", 1, false⟩
    let line : Line := ⟨[], []⟩
    s.cluster = false ∧
      (connect s .standard server line).2.sent =
        [.ofTexts ["AUTH", "admin", "p@q"], .ofTexts ["SELECT", "3"], .ofTexts ["PING"]] ∧
      connect { s with address := "u:p%40q@h:1" } .standard server line =
        connect s .standard server line ∧
      (connect { s with address := Node.written "ü@" "p:q" "h" 1 5, username := none }
        .standard server line).2.sent =
        [.ofTexts ["AUTH", "ü@", "p:q"], .ofTexts ["SELECT", "3"], .ofTexts ["PING"]] ∧
      connect { s with address := "h, h:2" } .standard server line =
        (.error (.notACluster 2), line) := by
  intro s server line
  obtain ⟨-, -, one, -⟩ := connect_greets (s := s) rfl .standard server line
  have pair : nodesOf "h, h:2" = ["h", "h:2"] := by decide +kernel
  obtain ⟨several, -, -⟩ :=
    connect_greets (s := { s with address := "h, h:2" }) rfl .standard server line
  simp only [RemoteSettings.nodes, pair] at several
  obtain ⟨-, read⟩ := one "u:p%40q@h:1/5" (by decide +kernel)
  obtain ⟨greets, numbered⟩ := read
    ⟨"redis", some ⟨some "u:p%40q".toList, ['h'], some ['1']⟩, ['/', '5'], []⟩
    ⟨.network "h" 1, some "u", some "p@q", 5, .two⟩ (by decide +kernel) (by decide +kernel)
    (by decide) (by decide) (by decide +kernel)
  obtain ⟨authority, name, secret, found, credentials, -, sent⟩ := greets rfl rfl
  obtain rfl := Option.some.inj found
  have decoded : Node.credentials? "u:p%40q".toList = some (some "u", some "p@q") := by
    decide +kernel
  obtain ⟨rfl, rfl⟩ := Prod.mk.inj (Option.some.inj (credentials.symm.trans decoded))
  have unnumbered := numbered "u:p%40q@h:1" "u:p%40q@h:1" [] (by decide +kernel)
    (by decide +kernel) (by decide +kernel)
  obtain ⟨-, -, -, written⟩ := connect_greets
    (s := { s with address := Node.written "ü@" "p:q" "h" 1 5, username := none }) rfl .standard
    server line
  have plain : Plain "h".toList := by simp [Plain, isPlain]
  have presented := written "ü@" "p:q" "h" 1 5 (by decide) plain (by decide) (by decide) (by decide)
    rfl rfl rfl
  exact ⟨rfl, sent.trans (by decide +kernel), unnumbered, presented.2.trans (by decide +kernel),
    several (by decide)⟩

end Remote

end ExpiringCache
