import ExpiringCache.Proofs.Remote.Transcript
import ExpiringCache.Proofs.Watching

/-!
# What a remote traversal asks

Whatever the server replies, a traversal asks one thing at a time, and what it asks is
determined by the replies so far (`Due.unique`): for a key that has been reported and not
been read, in the order of the reports, and when there is none for the next page of the scan.

So a traversal can be told from its turns alone (`Account`): what was shown, what was said
on the line, and which fault ended it. It comes to an end in one of three ways (`Over`),
however few replies there are (`iterate_accounted`).
-/

namespace ExpiringCache

/-- The reply, read as a page of a scan. -/
def Exchange.page? (x : Exchange) : Except Fault (Nat × List Bytes) :=
  x.reply.interpret Reply.page?

namespace Remote

/-! ## Turns -/

/-- What a traversal asks, and the reply. -/
inductive Turn
  /-- For a page. -/
  | scan (x : Exchange)
  /-- For the value of a logical key. -/
  | read (key : String) (x : Exchange)

namespace Turn

def exchange : Turn → Exchange
  | scan x => x
  | read _ x => x

/-- The fault that the reply is taken for. -/
def fault? : Turn → Option Fault
  | scan x =>
      match x.page? with
      | .ok _ => none
      | .error cause => some cause
  | read _ x =>
      match x.value? with
      | .ok _ => none
      | .error cause => some cause

/-- The cursor that a page names for the next one. -/
def cursor? : Turn → Option Nat
  | scan x =>
      match x.page? with
      | .ok (next, _) => some next
      | .error _ => none
  | read _ _ => none

/-- The logical keys that a page reports. Raw keys that have none do not count. -/
def reported (root : String) : Turn → List String
  | scan x =>
      match x.page? with
      | .ok (_, batch) => batch.filterMap (logical? root)
      | .error _ => []
  | read _ _ => []

/-- The logical key that is read. -/
def key? : Turn → Option String
  | scan _ => none
  | read key _ => some key

/-- The entry that is shown, if there is a value. -/
def shown? : Turn → Option (String × Bytes)
  | scan _ => none
  | read key x =>
      match x.value? with
      | .ok (some value) => some (key, value)
      | _ => none

variable (key : String) {x : Exchange}

theorem read_of_error {cause : Fault} (failed : x.value? = .error cause) :
    (read key x).fault? = some cause ∧ (read key x).shown? = none := by
  simp [fault?, shown?, failed]

theorem read_of_none (absent : x.value? = .ok none) :
    (read key x).fault? = none ∧ (read key x).shown? = none := by
  simp [fault?, shown?, absent]

theorem read_of_some {value : Bytes} (found : x.value? = .ok (some value)) :
    (read key x).fault? = none ∧ (read key x).shown? = some (key, value) := by
  simp [fault?, shown?, found]

end Turn

/-- The cursor that the last page named. -/
def lastCursor? (turns : List Turn) : Option Nat := (turns.filterMap Turn.cursor?).getLast?

/-- The logical keys that were reported, as often as they were. -/
def reportedBy (root : String) (turns : List Turn) : List String :=
  turns.flatMap (Turn.reported root)

/-- The logical keys that were read. -/
def readBy (turns : List Turn) : List String := turns.filterMap Turn.key?

/-- The entries that were shown. -/
def shownBy (turns : List Turn) : List (String × Bytes) := turns.filterMap Turn.shown?

/-- The faults that replies were taken for. -/
def faultsOf (turns : List Turn) : List Fault := turns.filterMap Turn.fault?

/-! ## What is due -/

/-- Nothing went wrong so far, and the visitor has not asked to stop. -/
structure Going (visitor : Visitor) (turns : List Turn) : Prop where
  sound : faultsOf turns = []
  willing : visitor.stops 0 (shownBy turns) = false

/-- Where a scan goes on: at zero first, then at the cursor that the last page named, unless
that is zero again. -/
inductive Resumes (turns : List Turn) : Nat → Prop
  | start (none_yet : lastCursor? turns = none) : Resumes turns 0
  | next {cursor : Nat} (named : lastCursor? turns = some cursor) (more : cursor ≠ 0) :
      Resumes turns cursor

/-- What the next turn is. A key is read if it is the first one that has been reported and
not been read; a page is asked for if there is none. -/
inductive Due (keys : Keys) (ns : String) (turns : List Turn) : Turn → Prop
  | scan {x : Exchange} {cursor : Nat}
      (walked : readBy turns = (reportedBy (keys.root ns) turns).eraseDups)
      (resumes : Resumes turns cursor)
      (command : x.command = .ofTexts
        ["SCAN", toString cursor, "MATCH", keys.pattern ns, "COUNT", "100"]) :
      Due keys ns turns (.scan x)
  | read {key : String} {x : Exchange}
      (first : readBy turns ++ [key] <+: (reportedBy (keys.root ns) turns).eraseDups)
      (command : x.command = .onKey "GET" (Text.encode (keys.compose ns key))) :
      Due keys ns turns (.read key x)

theorem Resumes.unique {turns : List Turn} {cursor cursor' : Nat} (one : Resumes turns cursor)
    (other : Resumes turns cursor') : cursor = cursor' := by
  cases one with
  | start none_yet =>
      cases other with
      | start => rfl
      | next named => simp [none_yet] at named
  | next named =>
      cases other with
      | start none_yet => simp [none_yet] at named
      | next named' => exact Option.some.inj (named.symm.trans named')

/-- No two commands are due. -/
theorem Due.unique {keys : Keys} {ns : String} {turns : List Turn} {one other : Turn}
    (due : Due keys ns turns one) (due' : Due keys ns turns other) :
    one.exchange.command = other.exchange.command := by
  -- A key that is due has not been read, so that not everything has been.
  have unread {key : String} (walked : readBy turns = (reportedBy (keys.root ns) turns).eraseDups)
      (first : readBy turns ++ [key] <+: (reportedBy (keys.root ns) turns).eraseDups) : False := by
    have longer := first.length_le
    rw [← walked, List.length_append, List.length_singleton] at longer
    omega
  cases due with
  | scan walked resumes command =>
      cases due' with
      | scan _ resumes' command' => exact command.trans (resumes.unique resumes' ▸ command'.symm)
      | read first => exact (unread walked first).elim
  | read first command =>
      cases due' with
      | scan walked => exact (unread walked first).elim
      | read first' command' =>
          have same := (List.prefix_of_prefix_length_le first first' (by simp)).eq_of_length
            (by simp)
          rw [List.append_cancel_left_eq, List.singleton_inj] at same
          exact command.trans (same ▸ command'.symm)

/-- A traversal as told by its turns, each of which was due. -/
structure Account (link : Link) (ns : String) (visitor : Visitor) (turns : List Turn)
    (result : Traversal × Link) : Prop where
  /-- The turns are what is said on the line, and nothing else happens to the cache. -/
  course : Course link ((turns.map Turn.exchange).map .aside) result.2
  seen : result.1.seen = shownBy turns
  nested : result.1.nested = []
  fault : result.1.fault.toList = faultsOf turns
  due : ∀ before turn, before ++ [turn] <+: turns →
    Going visitor before ∧ Due link.1.keys ns before turn

/-- How a traversal ends: with the last page, by its visitor, or with a fault. -/
inductive Over (root : String) (visitor : Visitor) (turns : List Turn) (t : Traversal) : Prop
  | finished (sound : t.fault = none) (willing : visitor.stops 0 t.seen = false)
      (walked : readBy turns = (reportedBy root turns).eraseDups)
      (last : lastCursor? turns = some 0)
  | stopped (sound : t.fault = none) (declined : visitor.stops 0 t.seen = true)
  | broken {cause : Fault} (failed : t.fault = some cause)
      (willing : visitor.stops 0 t.seen = false)

/-! ## One turn after the other -/

section Snoc

variable (root : String) (turns : List Turn) (turn : Turn)

theorem reportedBy_snoc :
    reportedBy root (turns ++ [turn]) = reportedBy root turns ++ turn.reported root := by
  simp [reportedBy]

theorem readBy_snoc : readBy (turns ++ [turn]) = readBy turns ++ turn.key?.toList := by
  cases key : turn.key? <;> simp [readBy, key]

theorem shownBy_snoc : shownBy (turns ++ [turn]) = shownBy turns ++ turn.shown?.toList := by
  cases shown : turn.shown? <;> simp [shownBy, shown]

theorem faultsOf_snoc : faultsOf (turns ++ [turn]) = faultsOf turns ++ turn.fault?.toList := by
  cases fault : turn.fault? <;> simp [faultsOf, fault]

end Snoc

theorem lastCursor?_read (turns : List Turn) (key : String) (x : Exchange) :
    lastCursor? (turns ++ [.read key x]) = lastCursor? turns := by
  simp [lastCursor?, Turn.cursor?]

theorem lastCursor?_scan (turns : List Turn) {x : Exchange} {next : Nat} {batch : List Bytes}
    (replied : x.page? = .ok (next, batch)) : lastCursor? (turns ++ [.scan x]) = some next := by
  simp [lastCursor?, Turn.cursor?, replied]

/-- Asking changes nothing in the cache. -/
theorem Course.cache_of_asides {said : List Exchange} {link final : Link}
    (course : Course link (said.map Deed.aside) final) : final.1 = link.1 := by
  induction said generalizing link with
  | nil =>
      cases course
      rfl
  | cons x rest ih =>
      cases course with
      | aside command later =>
          have same := ih later
          exact same

variable {link between : Link} {ns : String} {visitor : Visitor} {turns : List Turn}
  {t t' : Traversal} {turn : Turn}

theorem Account.start (link : Link) (ns : String) (visitor : Visitor) :
    Account link ns visitor [] ({}, link) where
  course := .done link
  seen := rfl
  nested := rfl
  fault := rfl
  due before turn early := by simp at early

/-- An account goes on with a turn that is due. -/
theorem Account.snoc (account : Account link ns visitor turns (t, between))
    (going : Going visitor turns) (due : Due link.1.keys ns turns turn) {command : ServerCommand}
    (asked : turn.exchange = between.2.exchange command)
    (seen : t'.seen = t.seen ++ turn.shown?.toList) (nested : t'.nested = t.nested)
    (fault : t'.fault = turn.fault?) :
    Account link ns visitor (turns ++ [turn])
      (t', (between.1, (between.2.ask command).2)) where
  course := by
    rw [List.map_append, List.map_append, List.map_singleton, List.map_singleton, asked]
    exact account.course.append (.aside command (.done _))
  seen := by rw [seen, account.seen, shownBy_snoc]
  nested := nested.trans account.nested
  fault := by rw [fault, faultsOf_snoc, going.sound, List.nil_append]
  due before other early := by
    rcases List.prefix_concat_iff.1 early with whole | part
    · obtain ⟨rfl, same⟩ := List.append_inj' whole rfl
      rw [List.singleton_inj.1 same]
      exact ⟨going, due⟩
    · exact account.due before other part

/-- There is no fault while the traversal is going on. -/
theorem Account.sound {result : Traversal × Link} (account : Account link ns visitor turns result)
    (going : Going visitor turns) : result.1.fault = none := by
  have faults := account.fault
  rwa [going.sound, Option.toList_eq_nil_iff] at faults

/-- What a visitor has been shown while it goes on. -/
theorem Account.willing {result : Traversal × Link} (account : Account link ns visitor turns result)
    (going : Going visitor turns) : visitor.stops 0 result.1.seen = false := by
  rw [account.seen]
  exact going.willing

theorem Account.going {result : Traversal × Link} (account : Account link ns visitor turns result)
    (sound : result.1.fault = none) (willing : visitor.stops 0 result.1.seen = false) :
    Going visitor turns where
  sound := by rw [← account.fault, sound, Option.toList_none]
  willing := by rwa [← account.seen]

/-! ## Through a page -/

/-- A list with one more member, which does not count if it is there already. -/
theorem eraseDups_snoc_of_mem {l : List String} {a : String} (old : a ∈ l) :
    (l ++ [a]).eraseDups = l.eraseDups := by
  simp [List.eraseDups_append, List.removeAll, old]

theorem eraseDups_snoc {l : List String} {a : String} (new : a ∉ l) :
    (l ++ [a]).eraseDups = l.eraseDups ++ [a] := by
  simp [List.eraseDups_append, List.removeAll, new, List.eraseDups_cons]

/-- On the way through a page: the keys told so far have been met and read, and the rest of
the page is left. -/
structure Walking (link : Link) (ns : String) (visitor : Visitor) (turns : List Turn)
    (told : List String) (rest : List Bytes) (p : Progress) : Prop where
  account : Account link ns visitor turns (p.shown, p.link)
  going : Going visitor turns
  met : ∀ key, key ∈ p.met ↔ key ∈ told
  read : readBy turns = told.eraseDups
  left : reportedBy (link.1.keys.root ns) turns =
    told ++ rest.filterMap (logical? (link.1.keys.root ns))

/-- Where a page leads: onward with everything read and the same cursor, or to the end. -/
inductive Leads (link : Link) (ns : String) (visitor : Visitor) (cursor : Option Nat) :
    Bool × Progress → Prop
  | onward {turns : List Turn} {told : List String} {p : Progress}
      (walking : Walking link ns visitor turns told [] p) (same : lastCursor? turns = cursor) :
      Leads link ns visitor cursor (true, p)
  | ended {turns : List Turn} {p : Progress}
      (account : Account link ns visitor turns (p.shown, p.link))
      (ending : Over (link.1.keys.root ns) visitor turns p.shown) :
      Leads link ns visitor cursor (false, p)

namespace Walking

variable {told : List String} {raw : Bytes} {rest : List Bytes} {p : Progress} {key : String}
  {x : Exchange}

/-- A raw key that has no logical key is passed by. -/
theorem pass (walking : Walking link ns visitor turns told (raw :: rest) p)
    (foreign : logical? (link.1.keys.root ns) raw = none) :
    Walking link ns visitor turns told rest p where
  account := walking.account
  going := walking.going
  met := walking.met
  read := walking.read
  left := by rw [walking.left, List.filterMap_cons_none foreign]

/-- A key that has been met before is passed by. -/
theorem repeated (walking : Walking link ns visitor turns told (raw :: rest) p)
    (found : logical? (link.1.keys.root ns) raw = some key) (met : key ∈ p.met) :
    Walking link ns visitor turns (told ++ [key]) rest p := by
  have old : key ∈ told := (walking.met key).1 met
  refine ⟨walking.account, walking.going, ?_, ?_, ?_⟩
  · intro other
    rw [walking.met, List.mem_append, List.mem_singleton]
    refine ⟨.inl, ?_⟩
    rintro (told | rfl)
    · exact told
    · exact old
  · rw [walking.read, eraseDups_snoc_of_mem old]
  · rw [walking.left, List.filterMap_cons_some found, List.append_assoc]
    rfl

/-- A key that has not been met is what is due. -/
theorem due (walking : Walking link ns visitor turns told (raw :: rest) p)
    (found : logical? (link.1.keys.root ns) raw = some key) (new : key ∉ p.met)
    (command : x.command = .onKey "GET" raw) : Due link.1.keys ns turns (.read key x) := by
  have unread : key ∉ told := fun old => new ((walking.met key).2 old)
  refine .read ?_ ?_
  · rw [walking.left, walking.read, List.filterMap_cons_some found, ← eraseDups_snoc unread]
    refine ⟨((rest.filterMap (logical? (link.1.keys.root ns))).removeAll
      (told ++ [key])).eraseDups, ?_⟩
    rw [← List.eraseDups_append, List.append_assoc]
    rfl
  · rw [command, logical?_eq_some_iff.1 found, Keys.compose_eq_root_append]

section Read

variable (walking : Walking link ns visitor turns told (raw :: rest) p)
  (found : logical? (link.1.keys.root ns) raw = some key) (new : key ∉ p.met)

include walking found new

/-- A key that has been read is one of those told, if the traversal goes on. -/
theorem next (account : Account link ns visitor (turns ++ [.read key x])
      (t', (p.link.1, (p.link.2.ask (.onKey "GET" raw)).2)))
    (sound : t'.fault = none) (willing : visitor.stops 0 t'.seen = false) :
    Walking link ns visitor (turns ++ [.read key x]) (told ++ [key]) rest
      ⟨(p.link.1, (p.link.2.ask (.onKey "GET" raw)).2), key :: p.met, t'⟩ := by
  have unread : key ∉ told := fun old => new ((walking.met key).2 old)
  refine ⟨account, account.going sound willing, ?_, ?_, ?_⟩
  · intro other
    rw [List.mem_cons, walking.met, List.mem_append, List.mem_singleton]
    exact or_comm
  · rw [readBy_snoc, walking.read, eraseDups_snoc unread]
    rfl
  · rw [reportedBy_snoc, walking.left, List.filterMap_cons_some found, List.append_assoc,
      List.append_assoc]
    simp [Turn.reported]

variable (exchanged : x = p.link.2.exchange (.onKey "GET" raw))

include exchanged

/-- The account after a key has been read. -/
theorem asked (seen : t'.seen = p.shown.seen ++ (Turn.read key x).shown?.toList)
    (nested : t'.nested = p.shown.nested) (fault : t'.fault = (Turn.read key x).fault?) :
    Account link ns visitor (turns ++ [.read key x])
      (t', (p.link.1, (p.link.2.ask (.onKey "GET" raw)).2)) :=
  walking.account.snoc walking.going
    (walking.due found new (congrArg Exchange.command exchanged)) exchanged seen nested fault

/-- A key that is gone is not shown. -/
theorem gone (absent : x.value? = .ok none) :
    Walking link ns visitor (turns ++ [.read key x]) (told ++ [key]) rest
      ⟨(p.link.1, (p.link.2.ask (.onKey "GET" raw)).2), key :: p.met, p.shown⟩ := by
  obtain ⟨sound, silent⟩ := Turn.read_of_none key absent
  have plain := walking.account.sound walking.going
  refine walking.next found new (walking.asked found new exchanged ?_ rfl ?_) plain ?_
  · rw [silent]
    exact (List.append_nil _).symm
  · rw [sound, plain]
  · exact walking.account.willing walking.going

/-- A value is shown. -/
theorem account_shown {value : Bytes} (present : x.value? = .ok (some value)) :
    Account link ns visitor (turns ++ [.read key x])
      (p.shown.snoc (key, value) [], (p.link.1, (p.link.2.ask (.onKey "GET" raw)).2)) := by
  obtain ⟨sound, shown⟩ := Turn.read_of_some key present
  apply walking.asked found new exchanged
  · rw [shown]
    rfl
  · exact List.append_nil _
  · rw [sound]
    exact walking.account.sound walking.going

/-- The visitor goes on after an entry. -/
theorem shown {value : Bytes} (present : x.value? = .ok (some value))
    (goesOn : visitor.goesOn (p.shown.seen.length + 1) key value = true) :
    Walking link ns visitor (turns ++ [.read key x]) (told ++ [key]) rest
      ⟨(p.link.1, (p.link.2.ask (.onKey "GET" raw)).2), key :: p.met,
        p.shown.snoc (key, value) []⟩ := by
  refine walking.next found new (walking.account_shown found new exchanged present) ?_ ?_
  · exact walking.account.sound walking.going
  · show visitor.stops 0 (p.shown.seen ++ [(key, value)]) = false
    rw [Visitor.stops_snoc (walking.account.willing walking.going), goesOn, Bool.not_true]

/-- The visitor asks to stop at an entry. -/
theorem declined {value : Bytes} (present : x.value? = .ok (some value))
    (declined : visitor.goesOn (p.shown.seen.length + 1) key value = false)
    (cursor : Option Nat) :
    Leads link ns visitor cursor (false, ⟨(p.link.1, (p.link.2.ask (.onKey "GET" raw)).2),
      key :: p.met, p.shown.snoc (key, value) []⟩) := by
  refine .ended (walking.account_shown found new exchanged present) (.stopped ?_ ?_)
  · exact walking.account.sound walking.going
  · show visitor.stops 0 (p.shown.seen ++ [(key, value)]) = true
    rw [Visitor.stops_snoc (walking.account.willing walking.going), declined, Bool.not_false]

/-- The reply is none to a read. -/
theorem broken {cause : Fault} (failed : x.value? = .error cause) (cursor : Option Nat) :
    Leads link ns visitor cursor (false, (Progress.mk p.link (key :: p.met) p.shown).broken
      (p.link.2.ask (.onKey "GET" raw)).2 cause) := by
  obtain ⟨fault, silent⟩ := Turn.read_of_error key failed
  refine .ended (walking.asked found new exchanged ?_ rfl fault.symm) (.broken rfl ?_)
  · rw [silent]
    exact (List.append_nil _).symm
  · exact walking.account.willing walking.going

end Read

end Walking

/-- A page, from where the scan has reported it. -/
theorem leads_visitPage (quiet : visitor.Quiet) {told : List String} (batch : List Bytes)
    {p : Progress} (walking : Walking link ns visitor turns told batch p) :
    Leads link ns visitor (lastCursor? turns)
      (visitPage (link.1.keys.root ns) visitor batch p) := by
  -- The induction is on what is left of the page, and `Walking` carries it.
  induction batch generalizing turns told p with
  | nil => exact .onward walking rfl
  | cons raw rest ih =>
      cases found : logical? (link.1.keys.root ns) raw with
      | none =>
          simp only [visitPage, found]
          exact ih (walking.pass found)
      | some key =>
          by_cases met : key ∈ p.met
          case pos =>
            simp only [visitPage, found, met, if_true]
            exact ih (walking.repeated found met)
          case neg =>
            simp only [visitPage, found, met, if_false, fetch_eq]
            generalize exchanged : p.link.2.exchange (.onKey "GET" raw) = x
            rw [← lastCursor?_read turns key x]
            -- The read of a new key fails, or the key is gone, or it is shown.
            cases read : x.value? with
            | error cause => exact walking.broken found met exchanged.symm read _
            | ok value? =>
                cases value? with
                | none => exact ih (walking.gone found met exchanged.symm read)
                | some value =>
                    simp only [visit_quiet quiet]
                    cases goesOn : visitor.goesOn (p.shown.seen.length + 1) key value with
                    | true => exact ih (walking.shown found met exchanged.symm read goesOn)
                    | false => exact walking.declined found met exchanged.symm read goesOn _

/-! ## Through all pages -/

theorem scanCommand_eq (cursor : Nat) (pattern : String) :
    scanCommand cursor pattern =
      .ofTexts ["SCAN", toString cursor, "MATCH", pattern, "COUNT", "100"] := rfl

theorem query_page (line : Line) (command : ServerCommand) :
    line.query command Reply.page? = ((line.exchange command).page?, (line.ask command).2) := rfl

section Scan

variable {told : List String} {p : Progress} {cursor : Nat} {x : Exchange}

/-- At the end of a page all that was reported has been read. -/
theorem Walking.walked (walking : Walking link ns visitor turns told [] p) :
    readBy turns = (reportedBy (link.1.keys.root ns) turns).eraseDups := by
  rw [walking.read, walking.left, List.filterMap_nil, List.append_nil]

variable (walking : Walking link ns visitor turns told [] p) (resumes : Resumes turns cursor)
  (exchanged : x = p.link.2.exchange (scanCommand cursor (link.1.keys.pattern ns)))

include walking resumes exchanged

/-- The account after a page has been asked for. -/
theorem Walking.account_scan (seen : t'.seen = p.shown.seen) (nested : t'.nested = p.shown.nested)
    (fault : t'.fault = (Turn.scan x).fault?) :
    Account link ns visitor (turns ++ [.scan x])
      (t', (p.link.1, (p.link.2.ask (scanCommand cursor (link.1.keys.pattern ns))).2)) := by
  refine walking.account.snoc walking.going (.scan walking.walked resumes ?_) exchanged ?_
    nested fault
  · rw [exchanged]
    exact scanCommand_eq cursor _
  · rw [seen]
    exact (List.append_nil _).symm

/-- A page has been reported. -/
theorem Walking.scanned {next : Nat} {batch : List Bytes} (replied : x.page? = .ok (next, batch)) :
    Walking link ns visitor (turns ++ [.scan x]) told batch
      ⟨(p.link.1, (p.link.2.ask (scanCommand cursor (link.1.keys.pattern ns))).2), p.met,
        p.shown⟩ := by
  have sound := walking.account.sound walking.going
  have account := walking.account_scan resumes exchanged rfl rfl
    (sound.trans (by simp [Turn.fault?, replied]))
  refine ⟨account, account.going sound (walking.account.willing walking.going), walking.met, ?_, ?_⟩
  · rw [readBy_snoc, walking.read]
    exact List.append_nil _
  · rw [reportedBy_snoc, walking.left, List.filterMap_nil, List.append_nil]
    simp [Turn.reported, replied]

/-- The reply is no page. -/
theorem Walking.unscanned {cause : Fault} (failed : x.page? = .error cause) :
    let q := p.broken (p.link.2.ask (scanCommand cursor (link.1.keys.pattern ns))).2 cause
    ∃ turns', Account link ns visitor turns' (q.shown, q.link) ∧
      Over (link.1.keys.root ns) visitor turns' q.shown := by
  have fault : (Turn.scan x).fault? = some cause := by simp [Turn.fault?, failed]
  exact ⟨_, walking.account_scan resumes exchanged rfl rfl fault.symm,
    .broken rfl (walking.account.willing walking.going)⟩

end Scan

/-- The pages from a cursor on. There are replies for fewer of them than are allowed. -/
theorem account_visitPages (quiet : visitor.Quiet) (pages : Nat) {told : List String}
    {cursor : Nat} {p : Progress} (walking : Walking link ns visitor turns told [] p)
    (resumes : Resumes turns cursor) (enough : p.link.2.replies.length < pages) :
    let q := visitPages (link.1.keys.pattern ns) (link.1.keys.root ns) visitor pages cursor p
    ∃ turns', Account link ns visitor turns' (q.shown, q.link) ∧
      Over (link.1.keys.root ns) visitor turns' q.shown := by
  induction pages generalizing turns told cursor p with
  | zero => exact absurd enough (Nat.not_lt_zero _)
  | succ pages ih =>
      have asked := query_page p.link.2 (scanCommand cursor (link.1.keys.pattern ns))
      cases replied : (p.link.2.exchange (scanCommand cursor (link.1.keys.pattern ns))).page? with
      | error cause =>
          rw [replied] at asked
          simp only [visitPages, asked]
          exact walking.unscanned resumes rfl replied
      | ok page =>
          obtain ⟨next, batch⟩ := page
          rw [replied] at asked
          rw [visitPages_succ asked]
          -- A page uses a reply up, so that the pages allowed suffice.
          have used := length_of_page asked
          have scanned := walking.scanned resumes rfl replied
          have left := (grows_visitPage (link.1.keys.root ns) quiet batch ⟨(p.link.1,
            (p.link.2.ask (scanCommand cursor (link.1.keys.pattern ns))).2), p.met,
              p.shown⟩).replies
          have leads := leads_visitPage quiet batch scanned
          rw [lastCursor?_scan turns replied] at leads
          dsimp only at left ⊢
          generalize visitPage (link.1.keys.root ns) visitor batch _ = reached at left leads ⊢
          cases leads with
          | ended account ending => exact ⟨_, account, ending⟩
          | @onward turns' told' q walking same =>
              by_cases last : next = 0
              case pos =>
                rw [last] at same
                refine ⟨turns', ?_, ?_⟩
                · simpa [last] using walking.account
                · have sound := walking.account.sound walking.going
                  have willing := walking.account.willing walking.going
                  simpa [last] using Over.finished sound willing walking.walked same
              case neg =>
                rw [if_pos ⟨rfl, last⟩]
                exact ih walking (.next same last) (by omega)

/-! ## No key twice -/

theorem nodup_eraseDups (l : List String) : l.eraseDups.Nodup := by
  induction l using List.reverseRecOn with
  | nil => exact List.nodup_nil
  | append_singleton l a ih =>
      by_cases old : a ∈ l
      · rwa [eraseDups_snoc_of_mem old]
      · rw [eraseDups_snoc old]
        refine List.nodup_append.2 ⟨ih, List.nodup_singleton a, ?_⟩
        intro b member c here
        rw [List.mem_singleton.1 here]
        rintro rfl
        exact old (List.mem_eraseDups.1 member)

/-- The keys read are those reported, in the order of their first reports, as far as the
traversal has come. -/
theorem Account.ordered {result : Traversal × Link}
    (account : Account link ns visitor turns result) :
    readBy turns <+: (reportedBy (link.1.keys.root ns) turns).eraseDups := by
  rcases turns.eq_nil_or_concat' with rfl | ⟨before, turn, rfl⟩
  · exact List.nil_prefix
  · obtain ⟨-, due⟩ := account.due before turn List.prefix_rfl
    rw [readBy_snoc, reportedBy_snoc]
    cases due with
    | scan walked =>
        rw [walked, List.eraseDups_append, Turn.key?, Option.toList_none, List.append_nil]
        exact List.prefix_append _ _
    | read first => simpa [Turn.reported, Turn.key?] using first

theorem Account.nodup_readBy {result : Traversal × Link}
    (account : Account link ns visitor turns result) : (readBy turns).Nodup :=
  (nodup_eraseDups _).sublist account.ordered.sublist

/-- What is shown has been read. -/
theorem shownBy_sublist (turns : List Turn) :
    ((shownBy turns).map (·.1)).Sublist (readBy turns) := by
  induction turns with
  | nil => exact .slnil
  | cons turn rest ih =>
      cases turn with
      | scan x => exact ih
      | read key x =>
          show List.Sublist _ (key :: readBy rest)
          cases shown : (Turn.read key x).shown? with
          | none =>
              rw [shownBy, List.filterMap_cons_none shown]
              exact ih.cons key
          | some row =>
              have same : row.1 = key := by
                simp only [Turn.shown?] at shown
                split at shown
                next => cases shown; rfl
                next => cases shown
              rw [shownBy, List.filterMap_cons_some shown, List.map_cons, same]
              exact ih.cons_cons key

/-- A traversal of a connected cache comes to an end, whatever the replies are, and can be
told from its turns. It leaves the cache as it was. No key is read or shown twice. -/
theorem iterate_accounted {r : Remote} {mode : Mode} (connected : r.mode = some mode)
    (quiet : visitor.Quiet) (line : Line) (ns : String) :
    let result := iterate (r, line) ns visitor
    ∃ turns, Account (r, line) ns visitor turns result ∧
      Over (r.keys.root ns) visitor turns result.1 ∧ result.2.1 = r ∧
      result.2.2.log = line.log ++ turns.map Turn.exchange ∧
      (readBy turns).Nodup ∧ (result.1.seen.map (·.1)).Nodup := by
  intro result
  have start : Walking (r, line) ns visitor [] [] [] ⟨(r, line), [], {}⟩ :=
    ⟨.start (r, line) ns visitor, ⟨rfl, rfl⟩, fun key => Iff.rfl, rfl, rfl⟩
  obtain ⟨turns, account, ending⟩ : ∃ turns, Account (r, line) ns visitor turns result ∧
      Over (r.keys.root ns) visitor turns result.1 := by
    simp only [result, iterate, connected]
    exact account_visitPages quiet (line.replies.length + 1) start (.start rfl)
      (Nat.lt_succ_self _)
  refine ⟨turns, account, ending, account.course.cache_of_asides, ?_, account.nodup_readBy, ?_⟩
  · rw [account.course.log]
    simp only [List.flatMap_map, Deed.said, ← List.map_eq_flatMap]
  · rw [account.seen]
    exact account.nodup_readBy.sublist (shownBy_sublist turns)

/-- A page reports a key twice, one of another namespace and one that is no text. One of its
keys is gone by then, and is reported again by the next page, at whose first entry the
visitor asks to stop. -/
theorem iterate_accounted_to_stop :
    let r : Remote := ⟨.standard, some .single, .zero⟩
    let page (next : String) (batch : List Bytes) : Reply :=
      .array [.bulk (Text.encode next), .array (batch.map .bulk)]
    let line : Line := ⟨[page "7" [Text.encode "n:a", Text.encode "x:a", Text.encode "n:a",
        [0x6e, 0x3a, 0xff], Text.encode "n:b"], .bulk [1], .null,
      page "0" [Text.encode "n:b", Text.encode "n:c", Text.encode "n:d"], .bulk [2]], []⟩
    let visitor : Visitor := .quiet fun n _ _ => decide (n < 2)
    let result := iterate (r, line) "n" visitor
    r.mode = some .single ∧ visitor.Quiet ∧
      result.1 = { seen := [("a", [1]), ("c", [2])] } ∧
      result.2.2.sent = [scanCommand 0 "n:*", .onKey "GET" (Text.encode "n:a"),
        .onKey "GET" (Text.encode "n:b"), scanCommand 7 "n:*",
        .onKey "GET" (Text.encode "n:c")] ∧
      ∃ turns, Account (r, line) "n" visitor turns result ∧
        Over (r.keys.root "n") visitor turns result.1 ∧ result.2.1 = r ∧
        result.2.2.log = line.log ++ turns.map Turn.exchange ∧
        (readBy turns).Nodup ∧ (result.1.seen.map (·.1)).Nodup := by
  intro r page line visitor result
  have quiet : visitor.Quiet := fun _ _ _ => rfl
  exact ⟨rfl, quiet, by decide +kernel, by decide +kernel, iterate_accounted rfl quiet line "n"⟩

end Remote

end ExpiringCache
