import ExpiringCache.Proofs.Remote.Url
import ExpiringCache.Remote.Node

/-!
# What the URL of a node says

A node on the network is read from a URL in parts that do not depend on each other: the
credentials, the host, the port, the database and the version of the protocol
(`Node.ofNetwork?_eq_some_iff`). So another path is another database and nothing else
(`Node.eq_of_path`).

Every user name and every password can be written in a URL: in percent encoding they are read
back, whatever characters they are made of (`Node.parse?_written`).
-/

namespace ExpiringCache.Node

open Text

/-! ## Completion -/

theorem hasScheme_iff {cs : List Char} : hasScheme cs = true ↔ "://".toList <:+: cs := by
  induction cs with
  | nil => decide
  | cons c rest ih =>
      have begun : beginsWith "://".toList (c :: rest) = true ↔ "://".toList <+: c :: rest := by
        rw [beginsWith_iff]
        exact ⟨fun ⟨rest, split⟩ => ⟨rest, split.symm⟩, fun ⟨rest, split⟩ => ⟨rest, split.symm⟩⟩
      rw [hasScheme, Bool.or_eq_true, begun, ih, List.infix_cons_iff]

/-- A node without a scheme is completed to one with `redis://` in front. -/
theorem urlText_eq (text : String) :
    urlText text = if "://".toList <:+: text.toList then text else "redis://" ++ text := by
  simp only [urlText, hasScheme_iff]

/-! ## Parts -/

variable {url : Url} {node node' : Node}

/-- A node on the network is read part by part. -/
theorem ofNetwork?_eq_some_iff :
    ofNetwork? url = some node ↔
      ∃ authority host port,
        url.authority = some authority ∧
        credentials? (authority.userInfo.getD []) = some (node.username, node.password) ∧
        authority.host ≠ [] ∧
        host? authority.host = some host ∧ port? defaultPort authority.port = some port ∧
        node.place = .network host port ∧
        database? (trimSlashes (resolvePath url.path)) = some node.database ∧
        protocol? url = some node.protocol := by
  constructor
  · intro read
    simp only [ofNetwork?, Option.pure_def, Option.bind_eq_bind, Option.bind_eq_some_iff,
      Option.guard_eq_some', Option.some.injEq, Prod.exists] at read
    obtain ⟨authority, found, username, password, credentials, _, nonempty, host, hosted, port,
      ported, database, numbered, protocol, spoken, rfl⟩ := read
    exact ⟨authority, host, port, found, credentials, nonempty, hosted, ported, rfl, numbered,
      spoken⟩
  · rintro ⟨authority, host, port, found, credentials, nonempty, hosted, ported, place, numbered,
      spoken⟩
    obtain ⟨_, username, password, database, protocol⟩ := node
    obtain rfl := place
    simp [ofNetwork?, found, credentials, nonempty, hosted, ported, numbered, spoken]

/-- Another path is another database and nothing else. -/
theorem eq_of_path {path : List Char} (read : ofNetwork? url = some node)
    (read' : ofNetwork? { url with path } = some node') :
    node' = { node with database := node'.database } := by
  obtain ⟨authority, host, port, found, credentials, -, hosted, ported, place, -, spoken⟩ :=
    ofNetwork?_eq_some_iff.1 read
  obtain ⟨authority', host', port', found', credentials', -, hosted', ported', place', -,
    spoken'⟩ := ofNetwork?_eq_some_iff.1 read'
  obtain rfl : authority = authority' := Option.some.inj (found.symm.trans found')
  obtain rfl : host = host' := Option.some.inj (hosted.symm.trans hosted')
  obtain rfl : port = port' := Option.some.inj (ported.symm.trans ported')
  have same : (node.username, node.password) = (node'.username, node'.password) :=
    Option.some.inj (credentials.symm.trans credentials')
  have agreed : node.protocol = node'.protocol := Option.some.inj (spoken.symm.trans spoken')
  obtain ⟨_, username, password, database, protocol⟩ := node'
  obtain ⟨named, kept⟩ := Prod.mk.inj same
  rw [mk.injEq]
  exact ⟨place'.trans place.symm, named.symm, kept.symm, rfl, agreed.symm⟩

/-! ## Written nodes -/

theorem isBlank_of_graphic {c : Char} (graphic : 0x20 < c.toNat ∧ c.toNat < 0x80) :
    isBlank c = false := by
  simp only [isBlank, blankRanges, List.any_cons, List.any_nil, Bool.or_false,
    Bool.or_eq_false_iff, Bool.and_eq_false_imp, decide_eq_true_eq, decide_eq_false_iff_not, not_le]
  omega

theorem trimChars_of_visible {cs : List Char} (visible : ∀ c ∈ cs, isBlank c = false) :
    trimChars cs = cs := by
  rw [trimChars, trimLeft, dropWhile_of_free visible, trimRight, trimLeft,
    dropWhile_of_free (by simpa using visible), List.reverse_reverse]

/-- A text in percent encoding. -/
def quote (s : String) : String := String.ofList (percentEncode (encode s))

/-- The URL of a node on the network, with the credentials in percent encoding. -/
def written (user secret host : String) (port : Nat) (database : Int) : String :=
  "redis://" ++ quote user ++ ":" ++ quote secret ++ "@" ++ host ++ ":" ++ toString port ++ "/" ++
    toString database

/-- Of a user name and a password in percent encoding, those that are not empty are read. -/
theorem credentials?_encoded (user secret : String) :
    credentials? (percentEncode (encode user) ++ ':' :: percentEncode (encode secret)) =
      some (unlessEmpty user, unlessEmpty secret) := by
  have colon := (plain_percentEncode (encode user)).notMem (c := ':') (by decide)
  have part (s : String) : percentEncode (encode s) = [] ∧ unlessEmpty s = none ∨
      ∃ c cs, percentEncode (encode s) = c :: cs ∧ decode? (percentDecode (c :: cs)) = some s ∧
        unlessEmpty s = some s := by
    have read : decode? (percentDecode (percentEncode (encode s))) = some s := by
      rw [percentDecode_percentEncode, decode?_encode]
    cases written : percentEncode (encode s) with
    | nil =>
        rw [written] at read
        obtain rfl := Option.some.inj read
        exact .inl ⟨rfl, rfl⟩
    | cons c cs =>
        have spoken : s ≠ "" := by
          rintro rfl
          cases written
        exact .inr ⟨c, cs, rfl, written ▸ read, if_neg spoken⟩
  rw [credentials?, splitAround_append colon]
  rcases part user with ⟨name, unnamed⟩ | ⟨c, cs, name, readName, named⟩ <;>
    rcases part secret with ⟨word, silent⟩ | ⟨d, ds, word, readWord, spoken⟩ <;>
    simp [*]

theorem database?_toString {database : Int} (low : -2 ^ 63 ≤ database) (high : database < 2 ^ 63) :
    database? (trimSlashes (resolvePath ('/' :: (toString database).toList))) = some database := by
  have absent {c : Char} (other : ¬ (c.isDigit = true ∨ c = '-')) :
      c ∉ (toString database).toList :=
    fun member => other (isDigit_or_minus_of_mem member)
  have slash := absent (c := '/') (by decide)
  have read : signed? 64 (toString database).toList = some database := signed?_toString low high
  have nonempty : (toString database).toList ≠ [] := by
    intro nothing
    rw [nothing] at read
    cases read
  rw [resolvePath_of_segment slash (absent (by decide)) (absent (by decide)),
    trimSlashes_of_segment slash, database?, if_neg nonempty, read]

section

variable (user secret : String) {host : String} (plain : Plain host.toList) (port : Nat)
  (database : Int)

include plain

theorem spells_written :
    Url.Spells (written user secret host port database) (percentEncode (encode user))
      (percentEncode (encode secret)) host.toList (Nat.toDigits 10 port)
      (toString database).toList where
  spelt := by
    -- The equation of `written` would be checked by comparing octets.
    delta written
    simp [quote]
  name := plain_percentEncode _
  secret := plain_percentEncode _
  host := plain
  port _ member := isPlain_of_isDigit (isDigit_of_mem_toDigits member)
  path _ member :=
    (isDigit_or_minus_of_mem member).elim isPlain_of_isDigit fun minus => minus ▸ by decide

/-- A written node is the only one of its address. -/
theorem nodesOf_written :
    nodesOf (written user secret host port database) =
      [written user secret host port database] := by
  have spells := spells_written user secret plain port database
  have comma := spells.notMem (c := ',') (by decide)
  have trimmed := trimChars_of_visible fun c member => isBlank_of_graphic (spells.graphic member)
  have nonempty : (written user secret host port database).toList ≠ [] := by
    rw [spells.spelt]
    simp
  simp only [nodesOf, splitOn_of_notMem comma, List.map_cons, List.map_nil, trimmed]
  simp [nonempty]

variable {port database}

/-- Whatever the user name and the password are, a URL in which they are in percent encoding is
read back. An empty one counts as none. -/
theorem parse?_written (named : host ≠ "") (small : port < 65536) (low : -2 ^ 63 ≤ database)
    (high : database < 2 ^ 63) :
    parse? (written user secret host port database) =
      some ⟨.network host port, unlessEmpty user, unlessEmpty secret, database, .two⟩ := by
  have spells := spells_written user secret plain port database
  have schemed : hasScheme (written user secret host port database).toList = true := by
    have start : "://".toList <:+: "redis://".toList := ⟨"redis".toList, [], rfl⟩
    rw [hasScheme_iff, spells.spelt, List.append_assoc]
    exact start.trans (List.prefix_append _ _).isInfix
  rw [parse?, urlText, if_pos schemed, spells.parse?_eq]
  exact ofNetwork?_eq_some_iff.2 ⟨_, host, port, rfl, credentials?_encoded user secret,
    by simpa using named, host?_of_plain plain, port?_toDigits _ small, rfl,
    database?_toString low high, rfl⟩

end

end ExpiringCache.Node
