import ExpiringCache.Proofs.Embedded.Moves
import ExpiringCache.Proofs.Erasure

/-!
# Namespaces apart in embedded caches

Whoever works in one namespace of an embedded cache sees the records under its root
that have not expired, and when the next sweep is due. An expired record cannot be
seen: it may have been reclaimed or not, as traversals of other namespaces happened
to come by, and a record that does not decode stops those.

Every move does to what is seen what it would do if there were nothing else, and the
events of a namespace apart do nothing to it (`screens`).
-/

namespace ExpiringCache

/-! ## Stores through a test -/

namespace Store

variable {s t : Store} {test : Bytes → Bytes → Bool}

/-- A store is what its look-ups tell. -/
theorem ext_find? (same : ∀ key, s.find? key = t.find? key) : s = t := by
  have members : ∀ row, row ∈ s.records ↔ row ∈ t.records := by
    rintro ⟨key, raw⟩
    rw [← Bindings.find?_eq_some s.nodup, ← Bindings.find?_eq_some t.nodup]
    show s.find? key = some raw ↔ t.find? key = some raw
    rw [same key]
  have shuffled : s.records.Perm t.records :=
    (List.perm_ext_iff_of_nodup (.of_map _ s.nodup) (.of_map _ t.nodup)).2 members
  -- Two lists in strict order that have the same members are the same list.
  apply ext
  apply shuffled.eq_of_pairwise _ s.sorted t.sorted
  intro a b _ _ below above
  exact absurd above (List.lt_asymm below)

theorem keep_keep (s : Store) (test test' : Bytes → Bytes → Bool) :
    (s.keep test).keep test' = s.keep fun k raw => test' k raw && test k raw := by
  apply ext
  exact List.filter_filter

theorem keep_comm (s : Store) (test test' : Bytes → Bytes → Bool) :
    (s.keep test).keep test' = (s.keep test').keep test := by
  rw [keep_keep, keep_keep]
  simp only [Bool.and_comm]

/-- A new binding, seen through a test: it hides the old one either way. -/
theorem keep_insert (s : Store) (test : Bytes → Bytes → Bool) (key raw : Bytes) :
    (s.insert key raw).keep test =
      if test key raw then (s.keep test).insert key raw else (s.keep test).erase key := by
  apply ext_find?
  intro k
  by_cases same : key = k
  · subst same
    cases passed : test key raw <;>
      simp [find?_keep, find?_insert, find?_erase, Option.filter, passed]
  · cases passed : test key raw <;> simp [find?_keep, find?_insert, find?_erase, same]

/-- Stores that look alike through a test do so after each move. -/
theorem moved_congr (alike : s.keep test = t.keep test) (keys : Keys) (now : UInt64)
    (move : Move) : (s.moved keys now move).keep test = (t.moved keys now move).keep test := by
  have kept (selects : Bytes → Bytes → Bool) :
      (s.keep selects).keep test = (t.keep selects).keep test := by
    rw [keep_comm, alike, keep_comm]
  cases move with
  | serve q =>
      cases q with
      | set ns key value ttl =>
          simp only [moved]
          rw [keep_insert, keep_insert, alike]
      | get | take | contains | delete => exact kept _
  | reclaim | cleanup => exact kept _
  | close => exact alike

/-- Records that fail the test anyway may go. -/
theorem keep_of_hidden {selects : Bytes → Bytes → Bool}
    (hidden : ∀ k raw, selects k raw = false → test k raw = false) :
    (s.keep selects).keep test = s.keep test := by
  rw [keep_keep]
  apply keep_congr
  intro k raw _
  cases selected : selects k raw with
  | true => rw [Bool.and_true]
  | false => rw [hidden k raw selected, Bool.false_and]

/-- A request about a key outside the test changes nothing inside. -/
theorem moved_outside (s : Store) {keys : Keys} (now : UInt64) {q : Request}
    (outside : ∀ key raw, test (Text.encode (keys.compose q.ns key)) raw = false) :
    (s.moved keys now (.serve q)).keep test = s.keep test := by
  have kept {selects : Bytes → Bytes → Bool} (key : String)
      (others : ∀ k raw, (k != Text.encode (keys.compose q.ns key)) = true →
        selects k raw = true) :
      (s.keep selects).keep test = s.keep test := by
    apply keep_of_hidden
    intro k raw refused
    by_cases same : k = Text.encode (keys.compose q.ns key)
    · rw [same]
      exact outside key raw
    · rw [others k raw (bne_iff_ne.2 same)] at refused
      cases refused
  cases q with
  | set ns key value ttl =>
      have unseen (raw : Bytes) : test (Text.encode (keys.compose ns key)) raw = false :=
        outside key raw
      simp only [moved]
      rw [keep_insert, unseen, if_neg Bool.false_ne_true, erase, keep_comm, keep_of_hidden]
      intro k raw here
      rw [bne_eq_false_iff_eq.1 here]
      exact unseen raw
  | get ns key | contains ns key =>
      apply kept key
      intro k raw other
      rw [show (k != Text.encode (keys.compose ns key)) = true from other, Bool.true_or]
  | take ns key | delete ns key => exact kept key fun _ _ other => other

/-- To reclaim a record that fails the test changes nothing inside. -/
theorem moved_reclaim (s : Store) {keys : Keys} {now : UInt64} {key raw : Bytes}
    (hidden : test key raw = false) :
    (s.moved keys now (.reclaim key raw)).keep test = s.keep test := by
  apply keep_of_hidden
  intro k r here
  obtain ⟨sameKey, sameRaw⟩ := Bool.or_eq_false_iff.1 here
  rw [bne_eq_false_iff_eq.1 sameKey, bne_eq_false_iff_eq.1 sameRaw]
  exact hidden

end Store

namespace Embedded

variable {e e' : Embedded} {store store' : Store} {keys : Keys} {ns ns' root : String}
  {now : Instant}

/-! ## What can be seen of a namespace -/

theorem hasExpired_mono {early late : UInt64} (order : early ≤ late) {raw : Bytes}
    (past : hasExpired early raw = true) : hasExpired late raw = true := by
  unfold hasExpired at past ⊢
  cases read : Record.decode raw with
  | error cause => simp [read] at past
  | ok record =>
      simp only [read, Record.expired, Bool.and_eq_true, decide_eq_true_eq] at past ⊢
      exact ⟨past.1, UInt64.le_trans past.2 order⟩

/-- Whether a record is under a root and has not expired. -/
def visible (root : String) (now : UInt64) (key raw : Bytes) : Bool :=
  Text.beginsWith (Text.encode root) key && !hasExpired now raw

theorem visible_of_expired {now : UInt64} {raw : Bytes} (past : hasExpired now raw = true)
    (root : String) (key : Bytes) : visible root now key raw = false := by
  simp [visible, past]

theorem visible_compose (keys : Keys) (ns key : String) (now : UInt64) (raw : Bytes) :
    visible (keys.root ns) now (Text.encode (keys.compose ns key)) raw =
      !hasExpired now raw := by
  have inside := (Text.beginsWith_encode (keys.root ns) (keys.compose ns key)).2
    ⟨key, keys.compose_eq_root_append ns key⟩
  rw [visible, inside, Bool.true_and]

theorem not_visible_apart (apart : keys.Apart ns ns') (now : UInt64) (key : String) (raw : Bytes) :
    visible (keys.root ns') now (Text.encode (keys.compose ns key)) raw = false := by
  rw [visible, Bool.and_eq_false_iff]
  refine .inl (Bool.eq_false_iff.2 ?_)
  intro inside
  obtain ⟨rest, split⟩ := (Text.beginsWith_encode _ _).1 inside
  -- The composite key begins with its own root and with the other one.
  have own : (keys.root ns).toList <+: (keys.compose ns key).toList :=
    ⟨key.toList, by simp [Keys.compose_eq_root_append]⟩
  exact apart.not_both own ⟨rest.toList, by simp [split]⟩

/-- What is seen of a cache from inside a namespace with the given root. -/
def view (root : String) (now : Instant) (e : Embedded) : Option Schedule × Option Store :=
  (e.schedule, e.store.map (·.keep (visible root now.unixMillis)))

/-- Caches that look alike are both closed, or both open with alike records. -/
theorem view_cases (alike : e.view root now = e'.view root now) :
    (e.store = none ∧ e'.store = none) ∨
      ∃ s t, e.store = some s ∧ e'.store = some t ∧
        s.keep (visible root now.unixMillis) = t.keep (visible root now.unixMillis) := by
  have stores := congrArg Prod.snd alike
  simp only [view] at stores
  cases opened : e.store with
  | none =>
      rw [opened, Option.map_none] at stores
      exact .inl ⟨rfl, Option.map_eq_none_iff.1 stores.symm⟩
  | some s =>
      rw [opened, Option.map_some] at stores
      obtain ⟨t, opened', same⟩ := Option.map_eq_some_iff.1 stores.symm
      exact .inr ⟨s, t, rfl, opened', same.symm⟩

/-- Caches that look alike go on to do so while the clock moves. -/
theorem view_later {later : Instant} (order : now.unixMillis ≤ later.unixMillis)
    (alike : e.view root now = e'.view root now) :
    e.view root later = e'.view root later := by
  have narrower (s : Store) : s.keep (visible root later.unixMillis) =
      (s.keep (visible root now.unixMillis)).keep (visible root later.unixMillis) := by
    refine (Store.keep_of_hidden ?_).symm
    intro k raw unseen
    rcases Bool.and_eq_false_iff.1 unseen with outside | past
    · rw [visible, outside, Bool.false_and]
    · rw [Bool.not_eq_false'] at past
      exact visible_of_expired (hasExpired_mono order past) root k
  have schedules : e.schedule = e'.schedule := congrArg Prod.fst alike
  rcases view_cases alike with ⟨closed, closed'⟩ | ⟨s, t, opened, opened', same⟩
  · simp only [view, schedules, closed, closed']
  · simp only [view, schedules, opened, opened', Option.map_some]
    rw [narrower s, narrower t, same]

/-! ## Moves -/

theorem view_act (same : e.keys = e'.keys) (alike : e.view root now = e'.view root now)
    (move : Move) : (e.act now move).view root now = (e'.act now move).view root now := by
  by_cases closing : move = .close
  · subst closing
    rfl
  · have schedules : e.schedule = e'.schedule := congrArg Prod.fst alike
    simp only [view, schedule_act now _ closing, schedules]
    rcases view_cases alike with ⟨closed, closed'⟩ | ⟨s, t, opened, opened', records⟩
    · rw [store_act_of_closed closed, store_act_of_closed closed']
    · rw [store_act opened now closing, store_act opened' now closing, Option.map_some,
        Option.map_some, ← same, Store.moved_congr records]

theorem view_foldl (same : e.keys = e'.keys) (alike : e.view root now = e'.view root now)
    (made : List Move) :
    (made.foldl (act now) e).view root now = (made.foldl (act now) e').view root now := by
  induction made generalizing e e' with
  | nil => exact alike
  | cons move rest ih =>
      apply ih
      · rw [keys_act, keys_act, same]
      · exact view_act same alike move

/-- A move that leaves the visible part of every store alone cannot be seen. -/
theorem view_unmoved {move : Move} (open_ : move ≠ .close)
    (unmoved : ∀ s : Store, (s.moved e.keys now.unixMillis move).keep
      (visible root now.unixMillis) = s.keep (visible root now.unixMillis)) :
    (e.act now move).view root now = e.view root now := by
  simp only [view, schedule_act now e open_]
  cases opened : e.store with
  | none => rw [store_act_of_closed opened]
  | some s => rw [store_act opened now open_, Option.map_some, unmoved s, Option.map_some]

/-- Where nobody calls back, a traversal does nothing but reclaim expired records. -/
theorem reclaims_of_quiet {visitor : Visitor} (quiet : visitor.Quiet) {count : Nat}
    {rows : List (Bytes × Bytes)} {move : Move}
    (made : move ∈ walk keys now ns visitor count rows) :
    ∃ key raw, move = .reclaim key raw ∧ hasExpired now.unixMillis raw = true := by
  induction rows generalizing count with
  | nil => cases made
  | cons row rest ih =>
      obtain ⟨key, raw⟩ := row
      cases read : Record.decode raw with
      | error cause => simp [walk, read] at made
      | ok record =>
          cases past : record.expired now.unixMillis with
          | true =>
              simp only [walk, read, past, if_true, List.mem_cons] at made
              rcases made with rfl | later
              · exact ⟨key, raw, rfl, (hasExpired_iff read _).trans past⟩
              · exact ih later
          | false =>
              have silent := quiet (count + 1) (keys.logical (Text.decodeLossy key) ns) record.value
              simp only [walk, read, past, Bool.false_eq_true, if_false, silent, List.map_nil,
                List.nil_append] at made
              split at made
              next => exact ih made
              next => cases made

theorem view_traverse {visitor : Visitor} (quiet : visitor.Quiet) :
    (service.step (e, now) (.traverse ns visitor)).2.1.view root now = e.view root now := by
  refine breakdown.keeps (fun e' => e'.view root now = e.view root now)
    (s := (e, now)) (e := .traverse ns visitor) rfl ?_
  intro e' seen move made
  cases opened : e.store with
  | none =>
      simp only [breakdown, moves, opened] at made
      cases made
  | some store =>
      simp only [breakdown, moves, opened] at made
      obtain ⟨key, raw, rfl, past⟩ := reclaims_of_quiet quiet made
      have unseen : (e'.act now (.reclaim key raw)).view root now = e'.view root now := by
        apply view_unmoved
        · intro closing
          cases closing
        · intro s
          exact s.moved_reclaim (visible_of_expired past root key)
      exact unseen.trans seen

/-! ## Answers -/

/-- What comes of reading a byte string that may be there. -/
def inspect : Option Bytes → Except Fault (Option Record)
  | none => .ok none
  | some raw => (Record.decode raw).map some

/-- A look at a key tells what is there and has not expired. -/
theorem look_eq (now : UInt64) (e : Embedded) (store : Store) (key : Bytes) :
    (e.look now store key).1 =
      inspect ((store.find? key).filter fun raw => !hasExpired now raw) := by
  unfold look
  cases found : store.find? key with
  | none => rfl
  | some raw =>
      cases read : Record.decode raw with
      | error cause => simp [Option.filter, hasExpired, read, inspect, Except.map]
      | ok record =>
          cases past : record.expired now <;>
            simp [Option.filter, hasExpired, read, past, inspect, Except.map]

theorem get_answer (now : UInt64) (e : Embedded) (store : Store) (key : Bytes) :
    (e.get now store key).1 =
      match (e.look now store key).1 with
      | .error cause => .fault cause
      | .ok found => .value (found.map (·.value)) := by
  unfold get
  split
  next looked => simp only [looked]
  next looked => simp only [looked]

theorem contains_answer (now : UInt64) (e : Embedded) (store : Store) (key : Bytes) :
    (e.contains now store key).1 =
      match (e.look now store key).1 with
      | .error cause => .fault cause
      | .ok found => .present found.isSome := by
  unfold contains
  split
  next looked => simp only [looked]
  next looked => simp only [looked]

/-- A take answers what a look at the key tells. -/
theorem take_answer (now : UInt64) (e : Embedded) (store : Store) (key : Bytes) :
    (e.take now store key).1 =
      match (e.look now store key).1 with
      | .error cause => .fault cause
      | .ok found => .value (found.map (·.value)) := by
  unfold take look
  cases found : store.find? key with
  | none => rfl
  | some raw =>
      cases read : Record.decode raw with
      | error cause => simp [read]
      | ok record => cases past : record.expired now <;> simp [read, past]

theorem look_congr (same : e.keys = e'.keys) (ns key : String)
    (records : store.keep (visible (e.keys.root ns) now.unixMillis) =
      store'.keep (visible (e.keys.root ns) now.unixMillis)) :
    (e.look now.unixMillis store (e.rawKey ns key)).1 =
      (e'.look now.unixMillis store' (e'.rawKey ns key)).1 := by
  have fresh (u : Store) : (u.keep (visible (e.keys.root ns) now.unixMillis)).find?
      (Text.encode (e.keys.compose ns key)) =
        (u.find? (Text.encode (e.keys.compose ns key))).filter
          fun raw => !hasExpired now.unixMillis raw := by
    rw [Store.find?_keep, funext (visible_compose e.keys ns key now.unixMillis)]
  rw [look_eq, look_eq, rawKey, rawKey, ← same, ← fresh, ← fresh, records]

theorem answer_congr (same : e.keys = e'.keys) {q : Request}
    (alike : e.view (e.keys.root q.ns) now = e'.view (e.keys.root q.ns) now) :
    (e.request now q).1 = (e'.request now q).1 := by
  rcases view_cases alike with ⟨closed, closed'⟩ | ⟨s, t, opened, opened', records⟩
  · simp only [request, closed, closed']
  · simp only [request, opened, opened']
    cases q with
    | set => rfl
    | get ns key => simp only [get_answer, look_congr same ns key records]
    | take ns key => simp only [take_answer, look_congr same ns key records]
    | contains ns key => simp only [contains_answer, look_congr same ns key records]
    | delete ns key =>
        simp only [delete]
        split <;> split <;> rfl

/-! ## Traversals -/

/-- What a visitor that does not call back is shown depends on the records that have
not expired. -/
theorem visit_fresh {visitor : Visitor} (quiet : visitor.Quiet) (count : Nat)
    (rows : List (Bytes × Bytes)) (same : e.keys = e'.keys) :
    (visit now ns visitor count rows e).1 =
      (visit now ns visitor count
        (rows.filter fun row => !hasExpired now.unixMillis row.2) e').1 := by
  induction rows generalizing count e e' with
  | nil => rfl
  | cons row rest ih =>
      obtain ⟨key, raw⟩ := row
      cases read : Record.decode raw with
      | error cause => simp [hasExpired, visit, read]
      | ok record =>
          cases past : record.expired now.unixMillis with
          | true =>
              simp only [visit, read, past, if_true, List.filter_cons, hasExpired_iff read,
                Bool.not_true, Bool.false_eq_true, if_false]
              apply ih
              exact (e.keys_act now (.reclaim key raw)).trans same
          | false =>
              have silent : ∀ logical, visitor.requests (count + 1) logical record.value = [] := by
                intro logical
                exact quiet _ _ _
              simp only [visit, read, past, Bool.false_eq_true, if_false, List.filter_cons,
                hasExpired_iff read, Bool.not_false, if_true, silent, answerAll, same]
              split
              next => simp only [ih (count + 1) same]
              next => rfl

theorem shown_congr (same : e.keys = e'.keys) {visitor : Visitor} (quiet : visitor.Quiet)
    (alike : e.view (e.keys.root ns) now = e'.view (e.keys.root ns) now) :
    (e.iterate now ns visitor).1 = (e'.iterate now ns visitor).1 := by
  rcases view_cases alike with ⟨closed, closed'⟩ | ⟨s, t, opened, opened', records⟩
  · simp only [iterate, closed, closed']
  · have rows (u : Store) : ((u.within (Text.encode (e.keys.root ns))).filter fun row =>
        !hasExpired now.unixMillis row.2) =
          (u.keep (visible (e.keys.root ns) now.unixMillis)).records := by
      show List.filter _ (List.filter _ _) = List.filter _ _
      rw [List.filter_filter]
      simp only [visible, Bool.and_comm]
    simp only [iterate, opened, opened', ← same]
    rw [visit_fresh quiet 0 _ rfl, rows s, records, ← rows t]
    exact (visit_fresh quiet 0 _ same.symm).symm

/-! ## Events -/

theorem keys_step (now : Instant) (e : Embedded) (event : Event) :
    (service.step (e, now) event).2.1.keys = e.keys :=
  breakdown.keeps (fun e' => e'.keys = e.keys) (s := (e, now)) rfl
    fun e' same move _ => (e'.keys_act _ move).trans same

/-- Nobody calls back, and the millisecond clock does not go back, as it never does
before its 64 bits have run out (`Instant.unixMillis_mono`). -/
structure Steady (now : Instant) (event : Event) : Prop where
  quiet : event.Quiet
  forward : now.unixMillis ≤ (event.later now).unixMillis

theorem view_step (same : e.keys = e'.keys) {event : Event} (steady : Steady now event)
    (alike : e.view root now = e'.view root now) :
    (service.step (e, now) event).2.1.view root (event.later now) =
      (service.step (e', now) event).2.1.view root (event.later now) := by
  cases event with
  | traverse ns visitor =>
      refine (view_traverse steady.quiet).trans (alike.trans ?_)
      exact (view_traverse steady.quiet).symm
  | request q => exact view_act same alike (.serve q)
  | cleanup => exact view_act same alike .cleanup
  | close => exact view_act same alike .close
  | sweep | advance =>
      have schedules : e.schedule = e'.schedule := congrArg Prod.fst alike
      rw [step_eq, step_eq]
      simp only [moves, schedules]
      exact view_foldl same (view_later steady.forward alike) _

/-- An event about a namespace leaves what is seen from a namespace apart alone. -/
theorem view_hidden (apart : e.keys.Apart ns ns') {event : Event} (quiet : event.Quiet)
    (about : event.concerns ns = true) :
    (service.step (e, now) event).2.1.view (e.keys.root ns') now =
      e.view (e.keys.root ns') now := by
  cases event with
  | request q =>
      obtain rfl : q.ns = ns := of_decide_eq_true about
      show (e.act now (.serve q)).view _ now = _
      apply view_unmoved
      · nofun
      · intro s
        exact s.moved_outside _ (not_visible_apart apart _)
  | traverse other visitor => exact view_traverse quiet
  | cleanup | sweep | advance | close => simp [Event.concerns] at about

/-- The outcome of an event about a namespace depends on what is seen from there. -/
theorem outcome_congr (same : e.keys = e'.keys) {event : Event} (quiet : event.Quiet)
    (about : event.concerns ns = true)
    (alike : e.view (e.keys.root ns) now = e'.view (e.keys.root ns) now) :
    (service.step (e, now) event).1 = (service.step (e', now) event).1 := by
  cases event with
  | request q =>
      obtain rfl : q.ns = ns := of_decide_eq_true about
      exact congrArg Outcome.answer (answer_congr same alike)
  | traverse other visitor =>
      obtain rfl : other = ns := of_decide_eq_true about
      exact congrArg Outcome.shown (shown_congr same quiet alike)
  | cleanup | sweep | advance | close => simp [Event.concerns] at about

/-- The events of a namespace apart are screened off. -/
theorem screens (apart : keys.Apart ns ns') :
    service.Screens (·.keys = keys) (view (keys.root ns')) Steady
      (Event.concerns ns) (Event.concerns ns') where
  keeps now e event sound := (keys_step now e event).trans sound
  hides now e event sound steady about := by
    subst sound
    exact ⟨event.later_of_concerns about now, view_hidden apart steady.quiet about⟩
  follows now e e' event sound sound' steady alike :=
    view_step (sound.trans sound'.symm) steady alike
  shows now e e' event sound sound' steady about alike := by
    subst sound
    exact outcome_congr sound'.symm steady.quiet about alike
  apart event about := by
    rw [Bool.eq_false_iff]
    intro about'
    exact apart.ne (event.eq_of_concerns about about')

end Embedded

end ExpiringCache
