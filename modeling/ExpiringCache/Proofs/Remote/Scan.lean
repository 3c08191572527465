import ExpiringCache.Proofs.Remote.Contract

/-!
# Remote traversals

A traversal goes through the pages of a scan and reads each key that it has not met
before. What it has shown is always just what is live of what has been reported
(`Tracks`), and when the cycle ends everything that is live has been reported.
-/

namespace ExpiringCache

namespace Remote

/-- A raw key has a logical key just if it is the root followed by that key. -/
theorem logical?_eq_some_iff {root key : String} {raw : Bytes} :
    logical? root raw = some key ↔ raw = Text.encode (root ++ key) := by
  simp only [logical?, Option.map_eq_some_iff, Option.bind_eq_some_iff,
    Text.decode?_eq_some_iff, Text.after?_eq_some_iff]
  constructor
  · rintro ⟨rest, ⟨composite, rfl, split⟩, rfl⟩
    rw [← String.toList_inj.1 (split.trans (by simp) : composite.toList =
      (root ++ String.ofList rest).toList)]
  · rintro rfl
    exact ⟨key.toList, ⟨root ++ key, rfl, by simp⟩, by simp⟩

/-! ## The line during a traversal -/

variable {visitor : Visitor}

theorem visit_quiet (quiet : visitor.Quiet) (p : Progress) (key : String) (value : Bytes) :
    p.visit visitor key value =
      (visitor.goesOn (p.shown.seen.length + 1) key value,
        { p with shown := p.shown.snoc (key, value) [] }) := by
  have silent : visitor.requests (p.shown.seen.length + 1) key value = [] := quiet _ _ _
  simp only [Progress.visit, silent, answerAll]

/-- What follows the command for a key that has not been met before. -/
theorem grows_after_fetch {root key : String} {raw : Bytes} {rest : List Bytes}
    (quiet : visitor.Quiet)
    (later : ∀ q, Line.Grows q.link.2 (visitPage root visitor rest q).2.link.2)
    {p : Progress} (found : logical? root raw = some key) (new : key ∉ p.met) :
    Line.Grows (p.link.2.ask (.onKey "GET" raw)).2
      (visitPage root visitor (raw :: rest) p).2.link.2 := by
  simp only [visitPage, found, new, if_false]
  split
  next line same =>
    rw [show (p.link.2.ask (.onKey "GET" raw)).2 = line from congrArg Prod.snd same]
    exact .refl _
  next line same =>
    rw [show (p.link.2.ask (.onKey "GET" raw)).2 = line from congrArg Prod.snd same]
    exact later ⟨(p.link.1, line), key :: p.met, p.shown⟩
  next value line same =>
    rw [show (p.link.2.ask (.onKey "GET" raw)).2 = line from congrArg Prod.snd same,
      visit_quiet quiet]
    cases visitor.goesOn (p.shown.seen.length + 1) key value with
    | true => exact later ⟨(p.link.1, line), key :: p.met, p.shown.snoc (key, value) []⟩
    | false => exact .refl _

theorem grows_visitPage (root : String) (quiet : visitor.Quiet) (batch : List Bytes)
    (p : Progress) : Line.Grows p.link.2 (visitPage root visitor batch p).2.link.2 := by
  induction batch generalizing p with
  | nil => exact .refl _
  | cons raw rest ih =>
      cases found : logical? root raw with
      | none =>
          simp only [visitPage, found]
          exact ih p
      | some key =>
          by_cases met : key ∈ p.met
          · simp only [visitPage, found, met, if_true]
            exact ih p
          · exact (p.link.2.grows_ask (.onKey "GET" raw)).trans
              (grows_after_fetch quiet ih found met)

/-- What follows the command for a page. -/
theorem grows_after_scan {pattern root : String} (quiet : visitor.Quiet) {pages : Nat}
    (later : ∀ next q, Line.Grows q.link.2 (visitPages pattern root visitor pages next q).link.2)
    (cursor : Nat) (p : Progress) :
    Line.Grows (p.link.2.ask (scanCommand cursor pattern)).2
      (visitPages pattern root visitor (pages + 1) cursor p).link.2 := by
  unfold visitPages
  split
  next line same =>
    rw [show (p.link.2.ask (scanCommand cursor pattern)).2 = line from congrArg Prod.snd same]
    exact .refl _
  next next batch line same =>
    rw [show (p.link.2.ask (scanCommand cursor pattern)).2 = line from congrArg Prod.snd same]
    have page := grows_visitPage root quiet batch ⟨(p.link.1, line), p.met, p.shown⟩
    split
    next q stopped =>
      rw [stopped] at page
      exact page
    next q went =>
      rw [went] at page
      split
      next => exact page
      next => exact page.trans (later next q)

theorem grows_visitPages (pattern root : String) (quiet : visitor.Quiet) (pages cursor : Nat)
    (p : Progress) :
    Line.Grows p.link.2 (visitPages pattern root visitor pages cursor p).link.2 := by
  induction pages generalizing cursor p with
  | zero => exact .refl _
  | succ pages ih =>
      exact (p.link.2.grows_ask (scanCommand cursor pattern)).trans
        (grows_after_scan quiet ih cursor p)

/-! ## What has been shown -/

/-- The keys met are those reported, and the entries shown are what is live of
them, none twice. -/
structure Tracks (r : Remote) (root : String) (live : Bytes → Option Bytes)
    (covered : Set Bytes) (p : Progress) : Prop where
  cache : p.link.1 = r
  met : ∀ key, key ∈ p.met ↔ Text.encode (root ++ key) ∈ covered
  seen : ∀ key value, (key, value) ∈ p.shown.seen ↔
    key ∈ p.met ∧ live (Text.encode (root ++ key)) = some value
  once : (p.shown.seen.map (·.1)).Nodup
  plain : p.shown = { seen := p.shown.seen }

namespace Tracks

variable {r : Remote} {root key : String} {live : Bytes → Option Bytes} {covered : Set Bytes}
  {p : Progress} {raw : Bytes}

theorem start (r : Remote) (line : Line) (root : String) (live : Bytes → Option Bytes) :
    Tracks r root live ∅ ⟨(r, line), [], {}⟩ where
  cache := rfl
  met key := by simp
  seen key value := by simp
  once := List.nodup_nil
  plain := rfl

/-- The line does not matter. -/
theorem of_line (tracks : Tracks r root live covered p) (line : Line) :
    Tracks r root live covered { p with link := (p.link.1, line) } :=
  ⟨tracks.cache, tracks.met, tracks.seen, tracks.once, tracks.plain⟩

/-- A raw key that has no logical key is passed by. -/
theorem pass (tracks : Tracks r root live covered p) (foreign : logical? root raw = none) :
    Tracks r root live (insert raw covered) p := by
  refine ⟨tracks.cache, ?_, tracks.seen, tracks.once, tracks.plain⟩
  intro key
  have other : Text.encode (root ++ key) ≠ raw := by
    intro same
    rw [logical?_eq_some_iff.2 same.symm] at foreign
    exact absurd foreign nofun
  rw [tracks.met, Set.mem_insert_iff]
  exact (or_iff_right other).symm

/-- A key that has been met before is passed by. -/
theorem repeated (tracks : Tracks r root live covered p) (found : logical? root raw = some key)
    (met : key ∈ p.met) : Tracks r root live (insert raw covered) p := by
  have old : raw ∈ covered := by
    rw [logical?_eq_some_iff.1 found]
    exact (tracks.met key).1 met
  rw [Set.insert_eq_of_mem old]
  exact tracks

/-- The keys met after a new one. -/
theorem met_insert (tracks : Tracks r root live covered p) (found : logical? root raw = some key)
    (other : String) :
    other ∈ key :: p.met ↔ Text.encode (root ++ other) ∈ insert raw covered := by
  rw [List.mem_cons, tracks.met, Set.mem_insert_iff, logical?_eq_some_iff.1 found,
    Text.encode_injective.eq_iff, String.append_right_inj]

theorem fresh (tracks : Tracks r root live covered p) (new : key ∉ p.met) (value : Bytes) :
    (key, value) ∉ p.shown.seen := by
  intro shown
  exact new ((tracks.seen key value).1 shown).1

/-- A new key that is not live is not shown. -/
theorem gone (tracks : Tracks r root live covered p) (found : logical? root raw = some key)
    (new : key ∉ p.met) (dead : live raw = none) :
    Tracks r root live (insert raw covered) { p with met := key :: p.met } := by
  have raw_eq := logical?_eq_some_iff.1 found
  refine ⟨tracks.cache, tracks.met_insert found, ?_, tracks.once, tracks.plain⟩
  intro other value
  rw [tracks.seen, List.mem_cons]
  constructor
  · rintro ⟨met, alive⟩
    exact ⟨.inr met, alive⟩
  · rintro ⟨rfl | met, alive⟩
    · rw [← raw_eq, dead] at alive
      exact absurd alive nofun
    · exact ⟨met, alive⟩

/-- A new key that is live is shown. -/
theorem shown (tracks : Tracks r root live covered p) (found : logical? root raw = some key)
    (new : key ∉ p.met) {value : Bytes} (alive : live raw = some value) :
    Tracks r root live (insert raw covered)
      { p with met := key :: p.met, shown := p.shown.snoc (key, value) [] } := by
  have raw_eq := logical?_eq_some_iff.1 found
  refine ⟨tracks.cache, tracks.met_insert found, ?_, ?_, ?_⟩
  · intro other value'
    show (other, value') ∈ p.shown.seen ++ [(key, value)] ↔ _
    rw [List.mem_append, List.mem_singleton, tracks.seen, List.mem_cons, Prod.mk.injEq]
    constructor
    · rintro (⟨met, live⟩ | ⟨rfl, rfl⟩)
      · exact ⟨.inr met, live⟩
      · exact ⟨.inl rfl, by rw [← raw_eq, alive]⟩
    · rintro ⟨rfl | met, live⟩
      · rw [← raw_eq, alive] at live
        exact .inr ⟨rfl, (Option.some.inj live).symm⟩
      · exact .inl ⟨met, live⟩
  · show ((p.shown.seen ++ [(key, value)]).map (·.1)).Nodup
    rw [List.map_append, List.nodup_append]
    refine ⟨tracks.once, List.nodup_singleton _, ?_⟩
    intro a old b here
    obtain ⟨⟨_, value'⟩, member, rfl⟩ := List.mem_map.1 old
    rw [List.map_singleton, List.mem_singleton] at here
    rintro rfl
    subst here
    exact tracks.fresh new value' member
  · show p.shown.snoc (key, value) [] = { seen := p.shown.seen ++ [(key, value)] }
    rw [tracks.plain]
    rfl

end Tracks

/-! ## Pages -/

variable {r : Remote} {now : Nat} {h h' : Host} {line' : Line} {covered : Set Bytes}

/-- A page adds its keys to those reported, and leaves the host as it is. -/
theorem visitPage_in_touch (quiet : visitor.Quiet) (tireless : visitor.Tireless) {root : String}
    (batch : List Bytes) {p : Progress}
    (tracks : Tracks r root (h.entries.live now) covered p)
    (talk : Talk now h p.link.2 h' line')
    (grows : Line.Grows (visitPage root visitor batch p).2.link.2 line') :
    (visitPage root visitor batch p).1 = true ∧
      Tracks r root (h.entries.live now) {key | key ∈ covered ∨ key ∈ batch}
        (visitPage root visitor batch p).2 ∧
      Talk now h (visitPage root visitor batch p).2.link.2 h' line' := by
  -- Each key of the page is foreign, met before, gone, or shown.
  induction batch generalizing covered p with
  | nil => exact ⟨rfl, by simpa [visitPage] using tracks, talk⟩
  | cons raw rest ih =>
      have insertion : {key | key ∈ covered ∨ key ∈ raw :: rest} =
          {key | key ∈ insert raw covered ∨ key ∈ rest} := by
        ext key
        simp only [List.mem_cons, Set.mem_ofPred_eq, Set.mem_insert_iff]
        tauto
      rw [insertion]
      cases found : logical? root raw with
      | none =>
          simp only [visitPage, found] at grows ⊢
          exact ih (tracks.pass found) talk grows
      | some key =>
          by_cases met : key ∈ p.met
          · simp only [visitPage, found, met, if_true] at grows ⊢
            exact ih (tracks.repeated found met) talk grows
          · have sent := grows_after_fetch quiet (grows_visitPage root quiet rest) found met
            obtain ⟨read, talk⟩ := fetch_in_touch talk (sent.trans grows)
            cases live : h.entries.live now raw with
            | none =>
                simp only [visitPage, found, met, if_false, read, live] at grows ⊢
                exact ih ((tracks.gone found met live).of_line _) talk grows
            | some value =>
                have goesOn := tireless (p.shown.seen.length + 1) key value
                simp only [visitPage, found, met, if_false, read, live, visit_quiet quiet,
                  goesOn] at grows ⊢
                exact ih ((tracks.shown found met live).of_line _) talk grows

theorem pattern_resume (h : Host) (now cursor : Nat) (pattern : Bytes) :
    (h.resume now cursor pattern).pattern = pattern := by
  unfold Host.resume
  split
  next => rfl
  next =>
    split
    next =>
      split
      next same => exact same.2
      next => rfl
    next => rfl

/-- Where a scan stands in its cycle: what has been reported, with no key owed that
is not held any more and every key owed that is. -/
structure Stands (h : Host) (now cursor : Nat) (pattern : Bytes) (covered : Set Bytes) : Prop where
  small : cursor < 2 ^ 64
  reported : (h.resume now cursor pattern).reported = covered
  steady : (h.resume now cursor pattern).steady = h.held now

/-- A scan begins where nothing has been reported. -/
theorem Stands.start (h : Host) (now : Nat) (pattern : Bytes) : Stands h now 0 pattern ∅ :=
  ⟨by decide, rfl, rfl⟩

/-- A scan goes on from a page that is not the last one. -/
theorem Stands.turn {cursor next : Nat} {pattern : Bytes} {batch : List Bytes}
    (stands : Stands h now cursor pattern covered) (small : next < 2 ^ 64) (more : next ≠ 0) :
    Stands (h.turn (h.resume now cursor pattern) next batch) now next pattern
      {key | key ∈ covered ∨ key ∈ batch} := by
  have resumed (c : Cycle) (same : c.pattern = pattern) :
      (h.turn c next batch).resume now next pattern =
        ⟨next, c.pattern, {key | key ∈ c.reported ∨ key ∈ batch}, c.steady ∩ h.held now⟩ := by
    rw [Host.resume, if_neg more]
    simp only [Host.turn, more, if_false, same, and_self, if_true]
    rfl
  have this_one := resumed _ (pattern_resume h now cursor pattern)
  refine ⟨small, ?_, ?_⟩
  · rw [this_one, stands.reported]
  · rw [this_one, stands.steady]
    exact Set.inter_self _

/-- A page uses a reply up, so that there is an end to pages: it is not what a line ends
with. -/
theorem length_of_page {cursor : Nat} {pattern : String} {line line' : Line}
    {page : Nat × List Bytes}
    (replied : line.query (scanCommand cursor pattern) Reply.page? = (.ok page, line')) :
    line'.replies.length < line.replies.length := by
  have read : (line.ask (scanCommand cursor pattern)).1.interpret Reply.page? = .ok page :=
    congrArg Prod.fst replied
  rw [show line' = (line.ask (scanCommand cursor pattern)).2 from (congrArg Prod.snd replied).symm]
  apply Line.length_ask
  intro last
  rw [last, Line.lastReply] at read
  split at read
  next => cases read
  next => cases read

/-- The exchange for one page. -/
theorem scan_in_touch {cursor : Nat} {pattern : String} {line : Line}
    (small : cursor < 2 ^ 64) (talk : Talk now h line h' line')
    (grows : Line.Grows (line.ask (scanCommand cursor pattern)).2 line') :
    ∃ next batch, (h.resume now cursor (Text.encode pattern)).Page next batch ∧
      line.query (scanCommand cursor pattern) Reply.page? =
        (.ok (next, batch), (line.ask (scanCommand cursor pattern)).2) ∧
      Talk now (h.turn (h.resume now cursor (Text.encode pattern)) next batch)
        (line.ask (scanCommand cursor pattern)).2 h' line' := by
  obtain ⟨between, answer, rest⟩ := talk.first grows
  unfold Host.Answers at answer
  rw [Call.ofCommand?_scan small] at answer
  obtain ⟨next, batch, page, reply, rfl⟩ := answer
  refine ⟨next, batch, page, ?_, rest⟩
  unfold Line.query
  rw [← Reply.interpret_page page.small batch, ← reply]

/-- A traversal shows what is live of all that was reported, and all that is held
was. -/
theorem visitPages_in_touch (quiet : visitor.Quiet) (tireless : visitor.Tireless)
    {pattern root : String} (pages : Nat) {cursor : Nat} {p : Progress}
    (enough : p.link.2.replies.length < pages)
    (tracks : Tracks r root (h.entries.live now) covered p)
    (stands : Stands h now cursor (Text.encode pattern) covered)
    (talk : Talk now h p.link.2 h' (visitPages pattern root visitor pages cursor p).link.2) :
    h'.entries = h.entries ∧ ∃ reported,
      Tracks r root (h.entries.live now) reported
        (visitPages pattern root visitor pages cursor p) ∧
      ∀ key ∈ h.held now, Glob.accepts (Text.encode pattern) key = true → key ∈ reported := by
  induction pages generalizing cursor p covered h with
  | zero => exact absurd enough (Nat.not_lt_zero _)
  | succ pages ih =>
      have sent := grows_after_scan quiet (grows_visitPages pattern root quiet pages) cursor p
      obtain ⟨next, batch, page, read, rest⟩ := scan_in_touch stands.small talk sent
      have used := length_of_page read
      simp only [visitPages, read] at rest ⊢
      generalize (p.link.2.ask (scanCommand cursor pattern)).2 = line at rest used ⊢
      have shorter := (grows_visitPage root quiet batch ⟨(p.link.1, line), p.met, p.shown⟩).replies
      have touched (line' : Line)
          (talk : Talk now (h.turn (h.resume now cursor (Text.encode pattern)) next batch) line h'
            line') :=
        visitPage_in_touch quiet tireless batch
          (h := h.turn (h.resume now cursor (Text.encode pattern)) next batch)
          (tracks.of_line line) talk
      cases result : visitPage root visitor batch { p with link := (p.link.1, line) } with
      | mk went q =>
          rw [result] at shorter touched rest
          -- A visitor that never stops goes on to the next page, if there is one.
          cases went with
          | false =>
              obtain ⟨impossible, -⟩ := touched q.link.2 rest (.refl _)
              exact absurd impossible Bool.false_ne_true
          | true =>
              dsimp only at rest ⊢
              by_cases last : next = 0
              · -- The cycle is over, so that nothing is owed any more.
                rw [if_pos last] at rest ⊢
                obtain ⟨-, shown, rest⟩ := touched _ rest (.refl _)
                refine ⟨by rw [rest.silent]; rfl, _, shown, ?_⟩
                intro key held meant
                rw [← stands.reported]
                apply page.complete last key
                · rw [stands.steady]
                  exact held
                · rw [pattern_resume]
                  exact meant
              · rw [if_neg last] at rest ⊢
                have further := grows_visitPages pattern root quiet pages next q
                obtain ⟨-, shown, rest⟩ := touched _ rest further
                have fuel : q.link.2.replies.length < pages := by
                  dsimp only at shorter
                  omega
                exact ih (h := h.turn (h.resume now cursor (Text.encode pattern)) next batch) fuel
                  shown (stands.turn page.small last) rest

/-- A traversal shows a listing of the live entries of its namespace. -/
theorem iterate_in_touch {keys : Keys} {line : Line} (connected : Connected keys r)
    (quiet : visitor.Quiet) (tireless : visitor.Tireless) {now : Instant} {ns : String}
    (talk : Talk now.hostMillis h line h' (iterate (r, line) ns visitor).2.2) :
    (∃ listing, h.ledger.Lists (regime keys) now ns listing ∧
        (iterate (r, line) ns visitor).1 = { seen := visitor.upTo 0 listing }) ∧
      Connected keys (iterate (r, line) ns visitor).2.1 ∧ h'.entries = h.entries := by
  obtain ⟨mode, opened⟩ := connected.open_
  simp only [iterate, opened, connected.keys] at talk ⊢
  obtain ⟨same, reported, tracks, all⟩ := visitPages_in_touch quiet tireless
    (line.replies.length + 1) (Nat.lt_succ_self _) (Tracks.start r line (keys.root ns) _)
    (Stands.start h _ _) talk
  generalize visitPages (keys.pattern ns) (keys.root ns) visitor (line.replies.length + 1) 0
    ⟨(r, line), [], {}⟩ = p at tracks ⊢
  refine ⟨⟨p.shown.seen, ⟨?_, ?_⟩, ?_⟩, ?_, same⟩
  · intro key value
    rw [tracks.seen, tracks.met, Host.live_ledger]
    show _ ↔ h.entries.live now.hostMillis (Text.encode (keys.compose ns key)) = some value
    rw [Keys.compose_eq_root_append]
    refine ⟨fun shown => shown.2, fun live => ⟨?_, live⟩⟩
    -- What is live is held and matches the pattern, so it was reported.
    refine all _ (Option.isSome_of_eq_some live) (Glob.accepts_pattern.2 ⟨Text.encode key, ?_⟩)
    exact Text.encode_append _ _
  · -- No logical key was shown twice, so no composite key was.
    refine (List.pairwise_map.1 tracks.once).imp fun {a b} differ same => differ ?_
    have composed : keys.compose ns a.1 = keys.compose ns b.1 := same
    rw [Keys.compose_eq_root_append, Keys.compose_eq_root_append] at composed
    exact (String.append_right_inj _).1 composed
  · rw [Visitor.upTo_of_tireless tireless]
    exact tracks.plain
  · rw [tracks.cache]
    exact connected

end Remote

end ExpiringCache
