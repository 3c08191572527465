import ExpiringCache.Proofs.Remote.Dealing
import ExpiringCache.Proofs.Remote.Run

/-!
# Transcripts of remote caches

All that a remote cache does in a run can be written down in order: the dealings that
its requests have with the server, those of visitors included, and what traversals ask
on their own. Such a `Course` accounts for everything that is said on the line and for
every counter, whatever the server replies (`run_accounted`).
-/

namespace ExpiringCache

/-- The requests that a visitor sends at the entries that it is shown, of which `count`
were shown before. -/
def Visitor.asked (v : Visitor) : Nat → List (String × Bytes) → List Request
  | _, [] => []
  | count, (key, value) :: rest => v.requests (count + 1) key value ++ v.asked (count + 1) rest

theorem Visitor.asked_snoc (v : Visitor) (count : Nat) (seen : List (String × Bytes))
    (key : String) (value : Bytes) :
    v.asked count (seen ++ [(key, value)]) =
      v.asked count seen ++ v.requests (count + seen.length + 1) key value := by
  induction seen generalizing count with
  | nil => simp [asked]
  | cons row rest ih =>
      have place : count + 1 + rest.length + 1 = count + (rest.length + 1) + 1 := by omega
      simp only [List.cons_append, asked, ih, List.append_assoc, List.length_cons, place]

namespace Remote

/-! ## Courses -/

/-- Part of what a cache does. -/
inductive Deed
  | dealing (d : Dealing)
  /-- What a traversal asks on its own: for a page of keys, or for a value. -/
  | aside (x : Exchange)
  | closing

def Deed.said : Deed → List Exchange
  | dealing d => d.said
  | aside x => [x]
  | closing => []

def Deed.dealing? : Deed → Option Dealing
  | dealing d => some d
  | aside _ | closing => none

/-- The dealings among some deeds. -/
def dealings (deeds : List Deed) : List Dealing := deeds.filterMap Deed.dealing?

/-- The course of things from one state of a cache and its line to another one. -/
inductive Course : Link → List Deed → Link → Prop
  | done (link : Link) : Course link [] link
  | deal {link final : Link} {rest : List Deed} (q : Request)
      (later : Course (request link q).2 rest final) :
      Course link (.dealing (Remote.deal link q) :: rest) final
  | aside {link final : Link} {rest : List Deed} (command : ServerCommand)
      (later : Course (link.1, (link.2.ask command).2) rest final) :
      Course link (.aside (link.2.exchange command) :: rest) final
  | close {link final : Link} {rest : List Deed}
      (later : Course (link.1.close, link.2) rest final) : Course link (.closing :: rest) final

variable {link between final : Link} {deeds deeds' : List Deed}

theorem Course.append (first : Course link deeds between) (second : Course between deeds' final) :
    Course link (deeds ++ deeds') final := by
  induction first with
  | done => exact second
  | deal q _ ih => exact .deal q (ih second)
  | aside command _ ih => exact .aside command (ih second)
  | close _ ih => exact .close (ih second)

/-! ## What is said -/

theorem grows_request (link : Link) (q : Request) : Line.Grows link.2 (request link q).2.2 := by
  obtain ⟨r, line⟩ := link
  cases connected : r.mode with
  | none =>
      simp only [request, connected]
      exact .refl _
  | some mode =>
      simp only [request, connected]
      cases q with
      | set ns key value ttl => rw [line_set]; exact line.grows_ask _
      | get ns key => rw [line_get]; exact line.grows_ask _
      | take ns key => exact (line.grows_ask _).trans (grows_take r line _)
      | contains ns key => rw [line_contains]; exact line.grows_ask _
      | delete ns key => rw [line_delete]; exact line.grows_ask _

theorem log_request (link : Link) (q : Request) :
    (request link q).2.2.log = link.2.log ++ (deal link q).said := by
  obtain ⟨fresh, grown⟩ := (grows_request link q).log
  show _ = link.2.log ++ (request link q).2.2.log.drop link.2.log.length
  rw [grown, List.drop_left]

/-- A course accounts for everything that is said on the line. -/
theorem Course.log (course : Course link deeds final) :
    final.2.log = link.2.log ++ deeds.flatMap Deed.said := by
  induction course with
  | done => simp
  | deal q _ ih => rw [ih, log_request, List.flatMap_cons, List.append_assoc]; rfl
  | aside command _ ih => rw [ih, log_exchange, List.flatMap_cons, List.append_assoc]; rfl
  | close _ ih => rw [ih, List.flatMap_cons]; rfl

/-! ## How dealings go -/

/-- A request to a closed cache. -/
structure Dealing.Refused (d : Dealing) : Prop where
  said : d.said = []
  answer : d.answer = .fault .closed
  after : d.after = d.before

/-- A request changes nothing about a cache but its counters. -/
theorem request_eq (link : Link) (q : Request) :
    (request link q).2.1 = { link.1 with counters := (request link q).2.1.counters } := by
  obtain ⟨⟨keys, mode, counters⟩, line⟩ := link
  cases mode with
  | none => rfl
  | some mode =>
      simp only [request]
      cases q with
      | set ns key value ttl =>
          simp only [set]
          split <;> rfl
      | get ns key =>
          simp only [get]
          split <;> rfl
      | take ns key =>
          simp only [take]
          split
          next => rfl
          next => rfl
          next => split <;> rfl
      | contains ns key =>
          simp only [contains]
          split <;> rfl
      | delete ns key =>
          simp only [delete]
          split
          next => rfl
          next => split <;> rfl

/-- Every dealing goes one of the ways that it can go, unless the cache was closed. -/
theorem Course.goes (course : Course link deeds final) {d : Dealing} (member : d ∈ dealings deeds) :
    d.Refused ∧ (link.1.mode = none ∨ .closing ∈ deeds) ∨ Goes link.1.keys d := by
  induction course with
  | done => cases member
  | @deal link final rest q _ ih =>
      have keys : (request link q).2.1.keys = link.1.keys := by rw [request_eq]
      have mode : (request link q).2.1.mode = link.1.mode := by rw [request_eq]
      rcases List.mem_cons.1 (show d ∈ Remote.deal link q :: dealings rest from member) with
        rfl | later
      · cases connected : link.1.mode with
        | none =>
            rw [show Remote.deal link q = _ from deal_of_closed connected q]
            exact .inl ⟨⟨rfl, rfl, rfl⟩, .inl rfl⟩
        | some mode => exact .inr (Remote.goes connected q)
      · rcases ih later with ⟨refused, closed⟩ | goes
        · rw [mode] at closed
          exact .inl ⟨refused, closed.imp_right (List.mem_cons_of_mem _)⟩
        · rw [keys] at goes
          exact .inr goes
  | aside command _ ih =>
      rcases ih member with ⟨refused, closed⟩ | goes
      · exact .inl ⟨refused, closed.imp_right (List.mem_cons_of_mem _)⟩
      · exact .inr goes
  | close _ ih =>
      rcases ih member with ⟨refused, -⟩ | goes
      · exact .inl ⟨refused, .inr List.mem_cons_self⟩
      · exact .inr goes

/-- A course accounts for the counters. -/
theorem Course.counted (course : Course link deeds final) :
    Counted link.1.counters final.1.counters (dealings deeds) := by
  induction course with
  | done link => exact .nothing _
  | @deal link final rest q _ ih =>
      have first : Counted link.1.counters (request link q).2.1.counters [Remote.deal link q] := by
        cases connected : link.1.mode with
        | none =>
            have refused : Remote.deal link q =
                ⟨q, .fault .closed, [], link.1.counters, link.1.counters⟩ :=
              deal_of_closed connected q
            have same : (request link q).2.1.counters = link.1.counters :=
              congrArg Dealing.after refused
            rw [same, refused]
            exact .refused _ _
        | some mode => exact (Remote.goes connected q).counted
      exact first.cons ih
  | aside _ _ ih => exact ih
  | close _ ih => exact ih

/-! ## Events -/

/-- The requests that an event makes, in view of what comes back from it. -/
def requestsOf : Event × Outcome → List Request
  | (.request q, _) => [q]
  | (.traverse _ visitor, .shown t) => visitor.asked 0 t.seen
  | _ => []

/-- The answers that its requests get. -/
def answersOf : Event × Outcome → List Answer
  | (.request _, .answer a) => [a]
  | (_, .shown t) => t.nested
  | _ => []

/-- Between two states the given requests are made and answered, and nothing is closed. -/
def Passes (link : Link) (requests : List Request) (answers : List Answer) (final : Link) : Prop :=
  ∃ deeds, Course link deeds final ∧ (dealings deeds).map (·.request) = requests ∧
    (dealings deeds).map (·.answer) = answers ∧ .closing ∉ deeds

namespace Passes

variable {requests requests' : List Request} {answers answers' : List Answer}

theorem refl (link : Link) : Passes link [] [] link := ⟨[], .done link, rfl, rfl, nofun⟩

theorem trans (first : Passes link requests answers between)
    (second : Passes between requests' answers' final) :
    Passes link (requests ++ requests') (answers ++ answers') final := by
  obtain ⟨deeds, course, rfl, rfl, open_⟩ := first
  obtain ⟨deeds', course', rfl, rfl, open_'⟩ := second
  refine ⟨deeds ++ deeds', course.append course', ?_, ?_, ?_⟩
  · rw [dealings, List.filterMap_append, List.map_append]
    rfl
  · rw [dealings, List.filterMap_append, List.map_append]
    rfl
  · intro closing
    exact (List.mem_append.1 closing).elim open_ open_'

theorem deal (link : Link) (q : Request) :
    Passes link [q] [(request link q).1] (request link q).2 :=
  ⟨[.dealing (Remote.deal link q)], .deal q (.done _), rfl, rfl, by simp⟩

theorem aside (link : Link) (command : ServerCommand) :
    Passes link [] [] (link.1, (link.2.ask command).2) :=
  ⟨[.aside (link.2.exchange command)], .aside command (.done _), rfl, rfl, by simp⟩

theorem answerAll (link : Link) (requests : List Request) :
    Passes link requests (answerAll request link requests).1
      (ExpiringCache.answerAll request link requests).2 := by
  induction requests generalizing link with
  | nil => exact .refl link
  | cons q rest ih => exact (deal link q).trans (ih (request link q).2)

end Passes

/-! ## Traversals -/

variable {visitor : Visitor} {p : Progress}

/-- A traversal has come this far. -/
def Followed (start : Link) (visitor : Visitor) (p : Progress) : Prop :=
  Passes start (visitor.asked 0 p.shown.seen) p.shown.nested p.link

namespace Followed

/-- A command of the traversal itself. -/
theorem ask (followed : Followed link visitor p) (command : ServerCommand) :
    Followed link visitor { p with link := (p.link.1, (p.link.2.ask command).2) } := by
  have further := followed.trans (.aside p.link command)
  rw [List.append_nil, List.append_nil] at further
  exact further

theorem visit (followed : Followed link visitor p) (key : String) (value : Bytes) :
    Followed link visitor (p.visit visitor key value).2 := by
  have further := followed.trans (.answerAll p.link
    (visitor.requests (p.shown.seen.length + 1) key value))
  show Passes link (visitor.asked 0 (p.shown.seen ++ [(key, value)])) _ _
  rw [visitor.asked_snoc, Nat.zero_add]
  exact further

end Followed

theorem followed_visitPage (root : String) (batch : List Bytes)
    (followed : Followed link visitor p) :
    Followed link visitor (visitPage root visitor batch p).2 := by
  induction batch generalizing p with
  | nil => exact followed
  | cons raw rest ih =>
      cases found : logical? root raw with
      | none =>
          simp only [visitPage, found]
          exact ih followed
      | some key =>
          by_cases met : key ∈ p.met
          · simp only [visitPage, found, met, if_true]
            exact ih followed
          · have asked : Followed link visitor
                { p with
                  link := (p.link.1, (fetch p.link.2 raw).2)
                  met := key :: p.met } := followed.ask (.onKey "GET" raw)
            simp only [visitPage, found, met, if_false]
            split
            next fetched =>
              rw [fetched] at asked
              exact asked
            next fetched =>
              rw [fetched] at asked
              exact ih asked
            next value line fetched =>
              rw [fetched] at asked
              have visited := asked.visit key value
              split
              next went =>
                rw [went] at visited
                exact ih visited
              next stopped =>
                rw [stopped] at visited
                exact visited

theorem followed_visitPages (pattern root : String) (pages cursor : Nat)
    (followed : Followed link visitor p) :
    Followed link visitor (visitPages pattern root visitor pages cursor p) := by
  induction pages generalizing cursor p with
  | zero => exact followed
  | succ pages ih =>
      have asked := followed.ask (scanCommand cursor pattern)
      unfold visitPages
      split
      next line replied =>
        rw [show (p.link.2.ask (scanCommand cursor pattern)).2 = line from
          congrArg Prod.snd replied] at asked
        exact asked
      next next batch line replied =>
        rw [show (p.link.2.ask (scanCommand cursor pattern)).2 = line from
          congrArg Prod.snd replied] at asked
        have paged := followed_visitPage root batch asked
        split
        next stopped =>
          rw [stopped] at paged
          exact paged
        next went =>
          rw [went] at paged
          split
          next => exact paged
          next => exact ih _ paged

theorem iterate_passes (link : Link) (ns : String) (visitor : Visitor) :
    Passes link (visitor.asked 0 (iterate link ns visitor).1.seen)
      (iterate link ns visitor).1.nested (iterate link ns visitor).2 := by
  obtain ⟨r, line⟩ := link
  cases connected : r.mode with
  | none =>
      simp only [iterate, connected]
      exact .refl _
  | some mode =>
      simp only [iterate, connected]
      exact followed_visitPages _ _ _ _ (.refl _)

/-! ## Whole runs -/

/-- One event, and what its requests come to. -/
theorem course_step (link : Link) (now : Instant) (e : Event) :
    ∃ deeds, Course link deeds (service.step (link, now) e).2.1 ∧
      (dealings deeds).map (·.request) = requestsOf (e, (service.step (link, now) e).1) ∧
      (dealings deeds).map (·.answer) = answersOf (e, (service.step (link, now) e).1) ∧
      (.closing ∈ deeds → e = .close) := by
  cases e with
  | request q =>
      obtain ⟨deeds, course, requests, answers, open_⟩ := Passes.deal link q
      exact ⟨deeds, course, requests, answers, fun closing => absurd closing open_⟩
  | traverse ns visitor =>
      obtain ⟨deeds, course, requests, answers, open_⟩ := iterate_passes link ns visitor
      exact ⟨deeds, course, requests, answers, fun closing => absurd closing open_⟩
  | cleanup | sweep | advance => exact ⟨[], .done link, rfl, rfl, nofun⟩
  | close => exact ⟨[.closing], .close (.done _), rfl, rfl, fun _ => rfl⟩

theorem course_run (link : Link) (now : Instant) (events : List Event) :
    let run := trace service.step (link, now) events
    ∃ deeds, Course link deeds run.2.1 ∧
      (dealings deeds).map (·.request) = (events.zip run.1).flatMap requestsOf ∧
      (dealings deeds).map (·.answer) = (events.zip run.1).flatMap answersOf ∧
      (.closing ∈ deeds → .close ∈ events) := by
  induction events generalizing link now with
  | nil => exact ⟨[], .done link, rfl, rfl, nofun⟩
  | cons e rest ih =>
      obtain ⟨deeds, course, requests, answers, closing⟩ := course_step link now e
      obtain ⟨deeds', course', requests', answers', closing'⟩ :=
        ih (service.step (link, now) e).2.1 (service.step (link, now) e).2.2
      refine ⟨deeds ++ deeds', course.append course', ?_, ?_, ?_⟩
      · rw [dealings, List.filterMap_append, List.map_append]
        exact congrArg₂ (· ++ ·) requests requests'
      · rw [dealings, List.filterMap_append, List.map_append]
        exact congrArg₂ (· ++ ·) answers answers'
      · intro member
        rcases List.mem_append.1 member with here | later
        · rw [closing here]
          exact List.mem_cons_self
        · exact List.mem_cons_of_mem _ (closing' later)

/-- How a dealing goes as long as the cache is connected. -/
structure Dealing.Sound (keys : Keys) (d : Dealing) : Prop where
  /-- A take reads the key, removes it just if there was a value, and hands the value out
  just if the removal is acknowledged. -/
  took : ∀ ns key, d.request = .take ns key →
    Took (Text.encode (keys.compose ns key)) d.said d.answer
  /-- Only reads and takes send a `GET`. -/
  reads : ∀ x ∈ d.said, x.called "GET" = true →
    ∃ ns key, d.request = .get ns key ∨ d.request = .take ns key
  /-- A fault leaves the counters alone, but for the hit of a take whose removal failed. -/
  faulty : ∀ cause, d.answer = .fault cause → d.after = d.before ∨ d.Withheld cause

/-- Every run of a connected cache, whatever the server replies, comes down to the
dealings that its requests have with the server, in order, and to what traversals ask
on their own. Each of the dealings is sound, or refused after a close, and the counters
are numbers of what was said and answered in them. As a beginning of a run is a run,
this holds after every event. -/
theorem run_accounted (keys : Keys) (mode : Mode) (line : Line) (now : Instant)
    (events : List Event) :
    let start : Link := (⟨keys, some mode, .zero⟩, line)
    let run := trace service.step (start, now) events
    ∃ deeds, Course start deeds run.2.1 ∧
      run.2.1.2.log = line.log ++ deeds.flatMap Deed.said ∧
      (dealings deeds).map (·.request) = (events.zip run.1).flatMap requestsOf ∧
      (dealings deeds).map (·.answer) = (events.zip run.1).flatMap answersOf ∧
      (∀ d ∈ dealings deeds, d.Sound keys ∨ d.Refused ∧ .close ∈ events) ∧
      run.2.1.1.counters.sets = .ofNat ((saidIn (dealings deeds)).countP Exchange.stored) ∧
      run.2.1.1.counters.hits = .ofNat ((saidIn (dealings deeds)).countP Exchange.hit) ∧
      run.2.1.1.counters.misses = .ofNat ((saidIn (dealings deeds)).countP Exchange.miss) ∧
      run.2.1.1.counters.deletes = .ofNat ((dealings deeds).countP Dealing.tookValue +
        (dealings deeds).countP Dealing.deletedKey) ∧
      run.2.1.1.counters.expirations = 0 := by
  intro start run
  obtain ⟨deeds, course, requests, answers, closing⟩ := course_run start now events
  have counted := course.counted
  refine ⟨deeds, course, course.log, requests, answers, ?_, ?_, ?_, ?_, ?_, ?_⟩
  · intro d member
    rcases course.goes member with ⟨refused, closed⟩ | goes
    · rcases closed with never | closed
      · cases never
      · exact .inr ⟨refused, closing closed⟩
    · exact .inl ⟨fun _ _ asked => goes.took asked, fun _ said get => goes.reads said get,
        fun _ fault => goes.faulty fault⟩
  · exact counted.sets.trans (UInt64.zero_add _)
  · exact counted.hits.trans (UInt64.zero_add _)
  · exact counted.misses.trans (UInt64.zero_add _)
  · exact counted.deletes.trans (UInt64.zero_add _)
  · exact counted.expirations

end Remote

end ExpiringCache
