import ExpiringCache.Proofs.Remote.Scan

/-!
# Runs of remote caches

Take any host and any line, and say that the host is at the other end of the line:
what is said during each event of a run is a conversation with it (`Served`). Then
the run has the outcomes of an expiring map that starts with what the host holds
under texts (`run_kept_of_served`).
-/

namespace ExpiringCache

/-- What a run has to keep to: nobody calls back or breaks a traversal off, the
cache is not closed, and the host's clock has been started and has not run out. -/
structure Event.Timely (now : Instant) (e : Event) : Prop where
  quiet : e.Quiet
  tireless : e.Tireless
  open_ : e ≠ .close
  started : 0 < now.hostMillis
  early : now.hostMillis < Remote.clockEnd

namespace Remote

/-- Expired entries are dropped by the host, and by nobody else. -/
def service : Service Link where
  request _ link q := request link q
  iterate _ link ns visitor := iterate link ns visitor
  cleanup _ link := (0, link)
  sweep _ link := link
  pass _ _ link := link
  close link := (link.1.close, link.2)

/-- A host is at the other end of the line, all through a run. -/
def Served : Host → Link × Instant → List Event → Prop
  | _, _, [] => True
  | h, s, e :: rest =>
      ∃ h', Talk s.2.hostMillis h s.1.2 h' (service.step s e).2.1.2 ∧
        Served h' (service.step s e).2 rest

/-- What relates a cache and its host to the ledger on record: from now on, as long
as the host's clock goes, they show the same live entries. -/
structure InTouch (keys : Keys) (h : Host) (s : Link × Instant) (l : Ledger String × Instant) :
    Prop where
  connected : Connected keys s.1.1
  clock : s.2 = l.2
  alike : Set.EqOn h.ledger.live l.1.live (Set.Ico l.2.hostMillis clockEnd)

variable {keys : Keys} {h h' : Host} {s : Link × Instant} {l : Ledger String × Instant}

/-- Nothing is said, and the clock may move on. -/
theorem InTouch.silent (touch : InTouch keys h s l) {e : Event}
    (talk : Talk s.2.hostMillis h s.1.2 h' s.1.2) (same : (service.step s e).2.1 = s.1)
    (kept : l.1.after (regime keys) l.2 e = l.1) :
    InTouch keys h' (service.step s e).2 ((regime keys).contract.next l e) := by
  have later : l.2.hostMillis ≤ (e.later l.2).hostMillis :=
    Nat.div_le_div_right (e.nanos_le_later l.2)
  refine ⟨by rw [same]; exact touch.connected, ?_, ?_⟩
  · rw [service.step_clock, touch.clock]
    rfl
  · rw [talk.silent]
    show Set.EqOn h.ledger.live (l.1.after (regime keys) l.2 e).live _
    rw [kept]
    exact touch.alike.mono (Set.Ico_subset_Ico_left later)

/-- One event, against a ledger on record. -/
theorem in_touch (touch : InTouch keys h s l) {e : Event} (timely : e.Timely l.2)
    (talk : Talk s.2.hostMillis h s.1.2 h' (service.step s e).2.1.2) :
    (regime keys).contract.Allows l e (service.step s e).1 ∧
      InTouch keys h' (service.step s e).2 ((regime keys).contract.next l e) := by
  obtain ⟨⟨r, line⟩, now⟩ := s
  obtain ⟨l, t⟩ := l
  obtain ⟨connected, rfl, alike⟩ := touch
  -- The answers are read off the host's ledger, which shows the same as the record.
  have present : h.ledger.live now.hostMillis = l.live now.hostMillis :=
    alike ⟨le_rfl, timely.early⟩
  cases e with
  | request q =>
      obtain ⟨answer, kept, follows⟩ :=
        request_in_touch connected q timely.started timely.early talk
      refine ⟨congrArg Outcome.answer (answer.trans (Ledger.answer_congr rfl present q)), kept,
        rfl, ?_⟩
      exact follows.trans (Ledger.eqOn_after alike (.request q))
  | traverse ns visitor =>
      obtain ⟨⟨listing, lists, shown⟩, kept, same⟩ :=
        iterate_in_touch connected timely.quiet timely.tireless talk
      have allowed : h.ledger.Allows (regime keys) now (.traverse ns visitor)
          (service.step ((r, line), now) (.traverse ns visitor)).1 :=
        ⟨listing, lists, congrArg Outcome.shown shown⟩
      refine ⟨Ledger.allows_congr present allowed, kept, rfl, ?_⟩
      have unchanged : h'.ledger = h.ledger := by
        unfold Host.ledger
        rw [same]
      rw [unchanged]
      exact alike
  | cleanup => exact ⟨⟨0, rfl⟩, InTouch.silent ⟨connected, rfl, alike⟩ talk rfl rfl⟩
  | sweep => exact ⟨rfl, InTouch.silent ⟨connected, rfl, alike⟩ talk rfl rfl⟩
  | advance nanos => exact ⟨rfl, InTouch.silent ⟨connected, rfl, alike⟩ talk rfl rfl⟩
  | close => exact absurd rfl timely.open_

theorem kept (touch : InTouch keys h s l) {events : List Event}
    (timely : Throughout Event.later Event.Timely l.2 events) (served : Served h s events) :
    (regime keys).contract.Kept l events (trace service.step s events).1 := by
  induction events generalizing h s l with
  | nil => trivial
  | cons e rest ih =>
      obtain ⟨h', talk, served⟩ := served
      obtain ⟨allowed, after⟩ := in_touch touch timely.1 talk
      exact ⟨allowed, ih after timely.2 served⟩

/-- Every run of a remote cache with a host at the other end of its line, whatever
the host holds and however it goes about its scans, has the outcomes of an expiring
map that starts with the entries that the host holds under texts. -/
theorem run_kept_of_served (keys : Keys) (mode : Mode) (counters : Counters) (h : Host)
    (line : Line) (now : Instant) (events : List Event)
    (timely : Throughout Event.later Event.Timely now events)
    (served : Served h ((⟨keys, some mode, counters⟩, line), now) events) :
    (regime keys).contract.Kept (h.ledger, now) events
      (trace service.step ((⟨keys, some mode, counters⟩, line), now) events).1 := by
  have start : InTouch keys h ((⟨keys, some mode, counters⟩, line), now) (h.ledger, now) :=
    ⟨⟨rfl, mode, rfl⟩, rfl, Set.eqOn_refl _ _⟩
  exact kept start timely served

/-- A host with an entry of its own, asked to hold another one that expires. Its
scan takes two pages, reports a key twice, and one that is no text. -/
theorem run_kept_of_served_scanning :
    let events : List Event :=
      [.request (.set "ns" "a" [1] (some (.ofMillis 5))), .traverse "ns" .observer,
       .advance 5000000, .request (.get "ns" "a")]
    let h : Host := { entries := Ledger.empty.put (Text.encode "ns:b") ⟨[2], none⟩ }
    let line : Line :=
      { replies :=
          [.simple "OK", Host.pageReply 7 [Text.encode "ns:a", Text.encode "ns:" ++ [255]],
           .bulk [1], Host.pageReply 0 [Text.encode "ns:b", Text.encode "ns:a"], .bulk [2],
           .null] }
    let start : Link × Instant := ((⟨.standard, some .single, .zero⟩, line), ⟨1000000⟩)
    Throughout Event.later Event.Timely ⟨1000000⟩ events ∧ Served h start events ∧
      (regime .standard).contract.Kept (h.ledger, ⟨1000000⟩) events
        (trace service.step start events).1 := by
  have quiet : Visitor.observer.Quiet := fun _ _ _ => rfl
  have tireless : Visitor.observer.Tireless := fun _ _ _ => rfl
  have set := Call.ofCommand?_set (Text.encode "ns:a") [1] (some (.ofMillis 5))
  have get := Call.ofCommand?_get
  have scan {cursor : Nat} (small : cursor < 2 ^ 64) :=
    Call.ofCommand?_scan small (Keys.standard.pattern "ns")
  have first (c : Cycle) (same : c.pattern = Text.encode (Keys.standard.pattern "ns")) :
      c.Page 7 [Text.encode "ns:a", Text.encode "ns:" ++ [255]] := by
    refine ⟨by decide, ?_, nofun⟩
    rw [same]
    decide +kernel
  have last (c : Cycle) (same : c.pattern = Text.encode (Keys.standard.pattern "ns"))
      (few : ∀ key ∈ c.steady, key = Text.encode "ns:b" ∨ key = Text.encode "ns:a") :
      c.Page 0 [Text.encode "ns:b", Text.encode "ns:a"] := by
    refine ⟨by decide, ?_, fun _ key steady _ => .inr ?_⟩
    · rw [same]
      decide +kernel
    · simpa using few key steady
  have few (t : Term) (now : Nat) (key : Bytes)
      (live : (((Ledger.empty.put (Text.encode "ns:b") ⟨[2], none⟩).put (Text.encode "ns:a")
        t).live now key).isSome = true) : key = Text.encode "ns:b" ∨ key = Text.encode "ns:a" := by
    by_contra other
    obtain ⟨b, a⟩ := not_or.1 other
    rw [Ledger.live_put, if_neg a, Ledger.live_put, if_neg b, Ledger.live_empty] at live
    exact Bool.false_ne_true live
  refine ⟨?timely, ?served,
    run_kept_of_served .standard .single .zero _ _ ⟨1000000⟩ _ ?timely ?served⟩
  case timely =>
    refine ⟨⟨trivial, trivial, nofun, ?_, ?_⟩, ⟨quiet, tireless, nofun, ?_, ?_⟩,
      ⟨trivial, trivial, nofun, ?_, ?_⟩, ⟨trivial, trivial, nofun, ?_, ?_⟩, trivial⟩ <;>
      decide
  case served =>
    refine ⟨_, ⟨[_], rfl, _, Host.answers_serve set nofun rfl, rfl⟩, ?_⟩
    refine ⟨_, ⟨[_, _, _, _], rfl,
      _, Host.answers_scan (scan (by decide)) (first _ rfl),
      _, Host.answers_serve (get (Text.encode "ns:a")) nofun rfl,
      _, Host.answers_scan (scan (by decide)) (last _ rfl fun key steady => few _ _ key steady.2),
      _, Host.answers_serve (get (Text.encode "ns:b")) nofun rfl, rfl⟩, ?_⟩
    refine ⟨_, ⟨[], rfl, rfl⟩, ?_⟩
    exact ⟨_, ⟨[_], rfl, _, Host.answers_serve (get (Text.encode "ns:a")) nofun rfl, rfl⟩, trivial⟩

end Remote

end ExpiringCache
