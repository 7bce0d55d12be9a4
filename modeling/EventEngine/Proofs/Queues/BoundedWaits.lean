import EventEngine.Proofs.Queues.Waiters

/-!
# Bounded waits

A bounded wait is an unbounded one that gives up. It looks at the queue as an unbounded wait does,
and gives up only if a look finds nothing once its time is up. So the limits decide when a consumer
stops waiting for nothing, and never what becomes of an event.
-/
namespace EventEngine

namespace Queue

variable {α : Type} {q : Queue α} {now deadline : Instant} {limit : Duration}

/-- As long as its time is not up, a bounded wait comes to what an unbounded one comes to. -/
theorem waitForLoop_of_notified (limit : Duration) (q : Queue α) (found : List (Queue α)) :
    waitForLoop limit q (found.map .notified) = q.waitLoop found := by
  induction found generalizing q with
  | nil => exact waitForLoop_nil limit q
  | cons next later ih =>
    rw [List.map_cons, waitForLoop_notified, ih]
    rfl

/-- When its time is up, an unbounded wait that were woken then would look once more; the bounded
one returns in any case. -/
theorem waitForLoop_of_expired (limit : Duration) (q last : Queue α) (found : List (Queue α))
    (later : List (Waking α)) :
    waitForLoop limit q (found.map .notified ++ .expired last :: later) =
      some ((q.waitLoop (found ++ [last])).getD (.failed (timedOut limit), last)) := by
  induction found generalizing q with
  | nil =>
    show waitForLoop limit q (.expired last :: later) =
      some ((q.wait.or last.wait).getD (.failed (timedOut limit), last))
    rw [waitForLoop_expired, lastLook_eq]
    cases q.wait with
    | none => rfl
    | some answer => rfl
  | cons next rest ih =>
    show waitForLoop limit q (.notified next :: (rest.map .notified ++ .expired last :: later)) =
      some ((q.wait.or (next.waitLoop (rest ++ [last]))).getD (.failed (timedOut limit), last))
    rw [waitForLoop_notified, ih]
    cases q.wait with
    | none => rfl
    | some answer => rfl

theorem waitFor_of_overflow (beyond : now.add? limit = none) :
    q.waitFor now limit = (.overflow, q) := by
  rw [waitFor_eq, beyond]

theorem waitFor_of_representable (ends : now.add? limit = some deadline) :
    q.waitFor now limit = q.wait.getD (.failed (timedOut limit), q) := by
  rw [waitFor_eq, ends]

/-- A queue that holds no event and no abort makes every wait wait. -/
theorem isSome_wait_iff : q.wait.isSome = true ↔ q.aborted = true ∨ q.events ≠ [] := by
  rw [Option.isSome_iff_ne_none, ne_eq, wait_eq_none, Classical.not_and_iff_not_or_not, or_comm,
    Bool.not_eq_false]

theorem wait_eq_waitFor (ends : now.add? limit = some deadline)
    (ready : q.aborted = true ∨ q.events ≠ []) : q.wait = some (q.waitFor now limit) := by
  obtain ⟨answer, found⟩ := Option.isSome_iff_exists.mp (isSome_wait_iff.mpr ready)
  rw [waitFor_of_representable ends, found, Option.getD_some]

theorem wait_eq_tryDequeue (unaborted : q.aborted = false) (pending : q.events ≠ []) :
    q.wait = some q.tryDequeue := by
  obtain ⟨a, rest, queued⟩ := List.exists_cons_of_ne_nil pending
  simp [wait, tryDequeue, unaborted, queued]

end Queue

/-- Whether a wait was ended by its limit, before it began or at its deadline. -/
def WaitResult.gaveUp {α : Type} : WaitResult α → Bool
  | .failed (.waitError _) => true
  | .overflow => true
  | _ => false

namespace Consumer

variable {α : Type} {c : Consumer} {now later : Instant}

theorem isExpired_of_le (le : now ≤ later) (up : c.isExpired now = true) :
    c.isExpired later = true := by
  obtain ⟨_ | ⟨deadline, limit⟩, awake⟩ := c
  · cases up
  · exact decide_eq_true (Nat.le_trans (of_decide_eq_true up) le)

/-- Once the time of a consumer is up, its error stays the same. -/
theorem expiry?_of_le (le : now ≤ later) (up : c.isExpired now = true) :
    (c.expiry? now : Option (WaitResult α)) = c.expiry? later := by
  have up' := isExpired_of_le le up
  obtain ⟨_ | ⟨deadline, limit⟩, awake⟩ := c
  · rfl
  · have past : deadline ≤ now := of_decide_eq_true up
    have past' : deadline ≤ later := of_decide_eq_true up'
    simp only [expiry?, if_pos past, if_pos past']

theorem gaveUp_of_expiry? {result : WaitResult α} (up : c.expiry? now = some result) :
    result.gaveUp = true := by
  obtain ⟨_ | ⟨deadline, limit⟩, awake⟩ := c
  · cases up
  · simp only [expiry?] at up
    split at up <;> cases up
    rfl

end Consumer

namespace SharedQueue

variable {α : Type} {s t u : SharedQueue α} {requests : List (Request α)}
  {results new : List (WaitResult α)}

/-! ## Time -/

theorem now_perform (s : SharedQueue α) (r : Request α) (le : s.now ≤ .last) :
    s.now ≤ (s.perform r).1.now ∧ (s.perform r).1.now ≤ .last := by
  have same : s.now ≤ s.now ∧ s.now ≤ .last := ⟨Nat.le_refl _, le⟩
  cases r with
  | expire d => exact ⟨Instant.le_advance le d, Instant.advance_le_last _ _⟩
  | fill values =>
    simp only [perform, (fill_cases s values).1]
    exact same
  | wait =>
    simp only [perform]
    split <;> exact same
  | consumerFor limit =>
    simp only [perform]
    split <;> exact same
  | _ => exact same

theorem Run.now (run : Run s requests results u) (le : s.now ≤ .last) :
    s.now ≤ u.now ∧ u.now ≤ .last := by
  induction run with
  | refl => exact ⟨Nat.le_refl _, le⟩
  | move _ move ih => exact move.change.1 ▸ ih
  | @request t _ _ _ r ih =>
    obtain ⟨later, within⟩ := now_perform t r ih.2
    exact ⟨Nat.le_trans ih.1 later, within⟩

/-! ## One look -/

theorem perform_of_overflow {limit : Duration} (beyond : s.now.add? limit = none) :
    s.perform (.consumerFor limit) = (s, .done, [.overflow]) := by
  simp only [perform, beyond]

theorem perform_of_representable {limit : Duration} {deadline : Instant}
    (ends : s.now.add? limit = some deadline) :
    s.perform (.consumerFor limit) = (s.join (some (deadline, limit)), .done, []) := by
  simp only [perform, ends]

/-- Whoever returns has the answer of an unbounded wait, or there is none and his time is up. -/
theorem Move.answered (move : Move s new u) : (new = [] ∧ u.queue = s.queue) ∨
    ∃ c ∈ s.waiting, ∃ result, new = [result] ∧
      (s.queue.wait = some (result, u.queue) ∨
        s.queue.wait = none ∧ c.expiry? s.now = some result ∧ u.queue = s.queue) := by
  cases move with
  | reorder _ => exact .inl ⟨rfl, rfl⟩
  | wake _ => exact .inl ⟨rfl, rfl⟩
  | sleep _ _ _ => exact .inl ⟨rfl, rfl⟩
  | @leave before after c result queue split due leaves =>
    exact .inr ⟨c, by simp [split], result, rfl, answer_of_look due leaves⟩

/-! ## Nothing arrives -/

/-- Whether a request brings neither an event nor an abort nor a consumer. -/
def Request.isBarren : Request α → Bool
  | .tryTake | .wait | .waitFor _ | .expire _ | .reset | .clear | .drain | .describe => true
  | _ => false

/-- Later the same consumers have the same errors. -/
theorem Expired.later (expired : Expired s results t) (crowd : u.crowd = t.crowd)
    (le : t.now ≤ u.now) : Expired s results u := by
  obtain ⟨gone, returned, up, perm⟩ := expired
  refine ⟨gone, ?_, fun c left => Consumer.isExpired_of_le le (up c left), crowd ▸ perm⟩
  rw [returned]
  exact List.filterMap_congr fun c left => Consumer.expiry?_of_le le (up c left)

theorem perform_barren {r : Request α} (barren : r.isBarren = true)
    (bare : s.queue.wait = none) : (s.perform r).1.queue = s.queue ∧
      (s.perform r).1.waiting = s.waiting ∧ (s.perform r).2.2 = [] := by
  obtain ⟨empty, unaborted⟩ := Queue.wait_eq_none.mp bare
  obtain ⟨⟨events, aborted⟩, waiting, now⟩ := s
  obtain rfl : events = [] := empty
  obtain rfl : aborted = false := unaborted
  cases r with
  | waitFor limit =>
    refine ⟨?_, rfl, rfl⟩
    show (Queue.waitFor ⟨[], false⟩ now limit).2 = _
    unfold Queue.waitFor
    split <;> rfl
  | tryTake | wait | expire _ | reset | clear | drain | describe => exact ⟨rfl, rfl, rfl⟩
  | _ => cases barren

/-- Where nothing is to be had and nothing arrives, whoever returns does so because his time is up,
and the queue stays as it is. -/
theorem Run.barren (run : Run s requests results u) (le : s.now ≤ .last)
    (bare : s.queue.wait = none) (barren : ∀ r ∈ requests, r.isBarren = true) :
    u.queue = s.queue ∧ Expired s results u := by
  induction run with
  | refl => exact ⟨rfl, [], by simp⟩
  | @move t u _ results new _ move ih =>
    obtain ⟨queue, expired⟩ := ih barren
    have bare' : t.queue.wait = none := queue ▸ bare
    exact ⟨(move.expire fun _ => bare').1.trans queue, expired.move move fun _ => bare'⟩
  | @request t _ results during r ih =>
    simp only [List.forall_mem_append, List.forall_mem_singleton] at barren
    obtain ⟨queue, expired⟩ := ih barren.1
    -- time may pass, and whoever is gone is expired all the more
    obtain ⟨queue', waiting, early⟩ := perform_barren barren.2 (queue ▸ bare)
    rw [early, List.append_nil]
    refine ⟨queue'.trans queue, expired.later (by rw [crowd, waiting]; rfl) ?_⟩
    exact (now_perform t r (during.now le).2).1

/-! ## There is enough for everybody -/

/-- Whether a request neither takes an event nor brings an abort or a consumer. -/
def Request.isSparing : Request α → Bool
  | .tail _ | .head _ | .fill _ | .expire _ | .reset | .describe => true
  | _ => false

/-- Everybody who waits has an event to come, and there is no abort. -/
structure Supplied (s : SharedQueue α) : Prop where
  unaborted : s.queue.aborted = false
  enough : s.waiting.length ≤ s.queue.events.length

/-- The consumers that returned have taken these events, and nobody has given up. -/
structure Served (s : SharedQueue α) (entering : List α) (results : List (WaitResult α))
    (u : SharedQueue α) (taken : List α) : Prop where
  returned : results = taken.map .event
  consumers : taken.length + u.waiting.length = s.waiting.length
  events : (taken ++ u.queue.events).Perm (s.queue.events ++ entering)
  supplied : u.Supplied

theorem length_crowd (s : SharedQueue α) : s.crowd.length = s.waiting.length := List.length_map _

/-- Whoever looks where there is enough takes an event, even if his time is up. -/
theorem Supplied.move (supplied : s.Supplied) (move : Move s new u) :
    ∃ taken, Served s [] new u taken := by
  obtain ⟨-, change⟩ := move.change
  have enough := supplied.enough
  cases change with
  | rest queue perm =>
    have same := perm.length_eq
    rw [length_crowd, length_crowd] at same
    refine ⟨[], rfl, by rw [same]; exact Nat.zero_add _, by simp [queue], ?_, ?_⟩
    · rw [queue]
      exact supplied.unaborted
    · rwa [queue, same]
  | @leave c result due leaves perm =>
    have fewer := perm.length_eq
    rw [List.length_cons, length_crowd, length_crowd] at fewer
    -- the consumer that looks is one of those for whom there is an event, so the queue is not empty
    have found := looked due s.queue
    rw [leaves] at found
    generalize left : u.queue = q at found
    cases found with
    | abort aborted => exact absurd (supplied.unaborted.symm.trans aborted) nofun
    | expiry _ empty _ =>
      rw [empty, List.length_nil] at enough
      omega
    | @event a rest _ queued =>
      rw [queued, List.length_cons] at enough
      refine ⟨[a], rfl, ?_, by simp [left, queued], ?_, ?_⟩
      · rw [List.length_singleton]
        omega
      · rw [left]
        exact supplied.unaborted
      · rw [left]
        show u.waiting.length ≤ rest.length
        omega

/-- Events may enter, and nobody moves. -/
theorem Supplied.enter {entering : List α} (supplied : s.Supplied)
    (unaborted : u.queue.aborted = false) (same : u.waiting.length = s.waiting.length)
    (events : u.queue.events.Perm (s.queue.events ++ entering)) : Served s entering [] u [] := by
  have longer := events.length_eq
  have enough := supplied.enough
  rw [List.length_append] at longer
  exact ⟨rfl, by rw [same]; exact Nat.zero_add _, events, unaborted, by omega⟩

theorem Supplied.perform (supplied : s.Supplied) {r : Request α} (sparing : r.isSparing = true) :
    (s.perform r).2.2 = [] ∧ Served s r.entering [] (s.perform r).1 [] := by
  have unaborted := supplied.unaborted
  cases r with
  | tail a => exact ⟨rfl, supplied.enter unaborted (length_wakeOne _) (.refl _)⟩
  | head a =>
    exact ⟨rfl, supplied.enter unaborted (length_wakeOne _) (List.perm_append_singleton a _).symm⟩
  | fill values =>
    obtain ⟨-, crowd, aborted, events⟩ := fill_cases s values
    have waiting := congrArg List.length crowd
    rw [length_crowd, length_crowd] at waiting
    exact ⟨rfl, supplied.enter (aborted.trans unaborted) waiting (.of_eq events)⟩
  | reset => exact ⟨rfl, supplied.enter rfl rfl (.of_eq (List.append_nil _).symm)⟩
  | expire d => exact ⟨rfl, supplied.enter unaborted rfl (.of_eq (List.append_nil _).symm)⟩
  | describe => exact ⟨rfl, supplied.enter unaborted rfl (.of_eq (List.append_nil _).symm)⟩
  | _ => cases sparing

theorem Served.trans {entering entering' taken taken' : List α} {results' : List (WaitResult α)}
    (first : Served s entering results t taken) (last : Served t entering' results' u taken') :
    Served s (entering ++ entering') (results ++ results') u (taken ++ taken') := by
  refine ⟨?_, ?_, ?_, last.supplied⟩
  · rw [first.returned, last.returned, List.map_append]
  · have early := first.consumers
    have late := last.consumers
    rw [List.length_append]
    omega
  · exact perm_stages first.events last.events

/-- Where there is enough for everybody, nobody gives up, whatever time passes. -/
theorem Run.served (run : Run s requests results u) (supplied : s.Supplied)
    (sparing : ∀ r ∈ requests, r.isSparing = true) :
    ∃ taken, Served s (requests.flatMap Request.entering) results u taken := by
  induction run with
  | refl => exact ⟨[], rfl, Nat.zero_add _, by simp, supplied⟩
  | move _ move ih =>
    obtain ⟨taken, served⟩ := ih sparing
    obtain ⟨taken', served'⟩ := served.supplied.move move
    exact ⟨_, by simpa using served.trans served'⟩
  | @request t _ _ _ r ih =>
    simp only [List.forall_mem_append, List.forall_mem_singleton] at sparing
    obtain ⟨taken, served⟩ := ih sparing.1
    obtain ⟨early, served'⟩ := served.supplied.perform sparing.2
    refine ⟨taken, ?_⟩
    rw [early]
    simpa using served.trans served'

/-! ## Limits make no difference to the events -/

def Request.unbounded : Request α → Request α
  | .waitFor _ => .wait
  | .consumerFor _ => .consumer
  | r => r

/-- Whether the limit of a request, if it has one, can be added to the time. -/
def Request.fits (now : Instant) : Request α → Bool
  | .waitFor limit => (now.add? limit).isSome
  | .consumerFor limit => (now.add? limit).isSome
  | _ => true

theorem Request.fits_of_le {r : Request α} {now later : Instant} (le : now ≤ later)
    (fits : r.fits later = true) : r.fits now = true := by
  cases r with
  | waitFor _ => exact Instant.isSome_add?_of_le le fits
  | consumerFor _ => exact Instant.isSome_add?_of_le le fits
  | _ => rfl

/-- The queues hold the same at the same time, and as many consumers wait on them, each for whatever
time. -/
structure Alike (s s' : SharedQueue α) : Prop where
  queue : s.queue = s'.queue
  now : s.now = s'.now
  consumers : s.waiting.length = s'.waiting.length

variable {s' t' : SharedQueue α} {requests' : List (Request α)}

theorem Alike.refl (s : SharedQueue α) : s.Alike s := ⟨rfl, rfl, rfl⟩

theorem Alike.symm (alike : s.Alike s') : s'.Alike s :=
  ⟨alike.queue.symm, alike.now.symm, alike.consumers.symm⟩

theorem Alike.trans (first : s.Alike t) (last : t.Alike u) : s.Alike u :=
  ⟨first.queue.trans last.queue, first.now.trans last.now, first.consumers.trans last.consumers⟩

/-- The first consumer is woken and takes the answer. -/
theorem run_first {now : Instant} {q : Queue α} {answer : WaitResult α × Queue α}
    (found : q.wait = some answer) (c : Consumer) (rest : List Consumer) :
    Run ⟨q, c :: rest, now⟩ [] [answer.1] ⟨answer.2, rest, now⟩ := by
  have due : ({ c with awake := true } : Consumer).isDue now = true := rfl
  have wakes : Move ⟨q, c :: rest, now⟩ [] ⟨q, [] ++ { c with awake := true } :: rest, now⟩ :=
    .wake rfl
  have leaves : Move ⟨q, [] ++ { c with awake := true } :: rest, now⟩ [answer.1]
      ⟨answer.2, [] ++ rest, now⟩ :=
    .leave rfl rfl (by rw [look_eq due, found, Option.some_or])
  exact (Run.of_move wakes).move leaves

/-- A consumer that does not give up could be any other. -/
theorem Alike.move (alike : s.Alike s') (move : Move s new u)
    (kept : ∀ r ∈ new, r.gaveUp = false) : ∃ u', Run s' [] new u' ∧ u.Alike u' := by
  obtain ⟨now, change⟩ := move.change
  cases change with
  | rest queue perm =>
    have same := perm.length_eq
    rw [length_crowd, length_crowd] at same
    exact ⟨s', .refl, queue.trans alike.queue, now.trans alike.now, same.trans alike.consumers⟩
  | @leave c result due leaves perm =>
    have fewer := perm.length_eq
    rw [List.length_cons, length_crowd, length_crowd, alike.consumers] at fewer
    rw [alike.queue] at leaves
    rcases answer_of_look due leaves with answer | ⟨-, up, -⟩
    · have now' := now.trans alike.now
      obtain ⟨queue, _ | ⟨c', rest⟩, _⟩ := s'
      · cases fewer
      · exact ⟨_, run_first answer c' rest, rfl, now', Nat.succ.inj fewer⟩
    · have gave := Consumer.gaveUp_of_expiry? up
      exact absurd ((kept _ (List.mem_singleton_self _)).symm.trans gave) nofun

theorem Alike.withQueue (alike : s.Alike s') {q q' : Queue α} (same : q = q') :
    ({ s with queue := q } : SharedQueue α).Alike { s' with queue := q' } :=
  ⟨same, alike.now, alike.consumers⟩

theorem Alike.wakeOne (alike : s.Alike s') : ({ s with waiting := wakeOne s.waiting }).Alike
    { s' with waiting := SharedQueue.wakeOne s'.waiting } := by
  refine ⟨alike.queue, alike.now, ?_⟩
  rw [length_wakeOne, length_wakeOne]
  exact alike.consumers

theorem Alike.enqueueTail (alike : s.Alike s') (a : α) :
    (s.enqueueTail a).Alike (s'.enqueueTail a) :=
  alike.wakeOne.withQueue (congrArg (·.enqueueTail a) alike.queue)

theorem Alike.fill (alike : s.Alike s') (values : List α) :
    (values.foldl SharedQueue.enqueueTail s).Alike (values.foldl SharedQueue.enqueueTail s') := by
  induction values generalizing s s' with
  | nil => exact alike
  | cons a rest ih => exact ih (alike.enqueueTail a)

theorem Alike.join (alike : s.Alike s') (limit limit' : Option (Instant × Duration)) :
    (s.join limit).Alike (s'.join limit') := by
  refine ⟨alike.queue, alike.now, ?_⟩
  simpa [SharedQueue.join] using alike.consumers

/-- A request that fits does the same without its limit. -/
theorem Alike.unbounded (alike : s.Alike s') {r : Request α} (fits : r.fits s.now = true) :
    (s.perform r).2.2 = [] ∧ (s.perform r).1.Alike (s'.perform r.unbounded).1 := by
  have queue := alike.queue
  cases r with
  | tail a => exact ⟨rfl, alike.enqueueTail a⟩
  | head a => exact ⟨rfl, alike.wakeOne.withQueue (congrArg (·.enqueueHead a) queue)⟩
  | fill values => exact ⟨rfl, alike.fill values⟩
  | tryTake => exact ⟨rfl, alike.withQueue (congrArg (·.tryDequeue.2) queue)⟩
  | wait =>
    simp only [SharedQueue.perform, Request.unbounded, queue]
    cases s'.queue.wait with
    | none => exact ⟨rfl, alike⟩
    | some answer => exact ⟨rfl, alike.withQueue rfl⟩
  | waitFor limit =>
    obtain ⟨deadline, ends⟩ := Option.isSome_iff_exists.mp fits
    simp only [SharedQueue.perform, Request.unbounded, Queue.waitFor_of_representable ends, queue]
    cases s'.queue.wait with
    | none => exact ⟨trivial, rfl, alike.now, alike.consumers⟩
    | some answer => exact ⟨trivial, alike.withQueue rfl⟩
  | consumer => exact ⟨rfl, alike.join none none⟩
  | consumerFor limit =>
    obtain ⟨deadline, ends⟩ := Option.isSome_iff_exists.mp fits
    rw [perform_of_representable ends]
    exact ⟨rfl, alike.join _ none⟩
  | expire d => exact ⟨rfl, queue, congrArg (·.advance d) alike.now, alike.consumers⟩
  | abort =>
    refine ⟨rfl, congrArg Queue.abort queue, alike.now, ?_⟩
    show (wakeAll s.waiting).length = (wakeAll s'.waiting).length
    simpa [wakeAll] using alike.consumers
  | reset => exact ⟨rfl, alike.withQueue (congrArg Queue.resetAbort queue)⟩
  | clear => exact ⟨rfl, alike.withQueue (congrArg Queue.clear queue)⟩
  | drain => exact ⟨rfl, alike.withQueue (congrArg Queue.clear queue)⟩
  | describe => exact ⟨rfl, alike⟩

theorem Alike.perform (alike : s.Alike s') {r r' : Request α} (same : r.unbounded = r'.unbounded)
    (fits : r.fits s.now = true) (fits' : r'.fits s.now = true) :
    (s.perform r).2.2 = [] ∧ (s'.perform r').2.2 = [] ∧
      (s.perform r).1.Alike (s'.perform r').1 := by
  obtain ⟨early, first⟩ := alike.unbounded fits
  obtain ⟨early', last⟩ := (Alike.refl s').unbounded (alike.now ▸ fits')
  exact ⟨early, early', first.trans (same ▸ last.symm)⟩

/-- As long as nobody gives up, limits make no difference: what comes of some consumers comes also
of as many others that wait for less, for more or without a limit. -/
theorem Run.alike (run : Run s requests results u) (le : s.now ≤ .last) (alike : s.Alike s')
    (same : requests.map Request.unbounded = requests'.map Request.unbounded)
    (fits : ∀ r ∈ requests ++ requests', r.fits u.now = true)
    (kept : ∀ r ∈ results, r.gaveUp = false) :
    ∃ u', Run s' requests' results u' ∧ u.Alike u' := by
  induction run generalizing requests' with
  | refl =>
    obtain rfl := List.map_eq_nil_iff.mp same.symm
    exact ⟨s', .refl, alike⟩
  | move _ move ih =>
    rw [List.forall_mem_append] at kept
    obtain ⟨t', during, alike'⟩ := ih same (move.change.1 ▸ fits) kept.1
    obtain ⟨u', after, alike''⟩ := alike'.move move kept.2
    exact ⟨u', by simpa using during.trans after, alike''⟩
  | @request t _ results during r ih =>
    rw [List.map_append] at same
    obtain ⟨before, last, rfl, earlier, final⟩ := List.map_eq_append_iff.mp same.symm
    obtain ⟨r', rfl, alone⟩ := List.map_eq_singleton_iff.mp final
    -- what fits at the end has fitted all along, since time only passes
    have later := (now_perform t r (during.now le).2).1
    have fits := fun r' member => Request.fits_of_le later (fits r' member)
    simp only [List.forall_mem_append, List.forall_mem_singleton] at fits kept
    obtain ⟨t', during', alike'⟩ := ih earlier.symm
      (List.forall_mem_append.mpr ⟨fits.1.1, fits.2.1⟩) kept.1
    obtain ⟨early, early', alike''⟩ := alike'.perform alone.symm fits.1.2 fits.2.2
    have after := during'.request r'
    rw [early] 
    rw [early'] at after
    exact ⟨_, after, alike''⟩

/-! ## One consumer -/

/-- A consumer that is alone with an answer takes it, once it has looked. -/
theorem Run.alone (run : Run s requests results u) (still : requests = [])
    (alone : s.waiting.length = 1) {answer : WaitResult α × Queue α}
    (found : s.queue.wait = some answer) :
    (results = [] ∧ u.queue = s.queue ∧ u.waiting.length = 1) ∨
      (results = [answer.1] ∧ u.queue = answer.2 ∧ u.waiting.length = 0) := by
  induction run with
  | refl => exact .inl ⟨rfl, rfl, alone⟩
  | @move t u _ results new _ move ih =>
    obtain ⟨-, change⟩ := move.change
    cases change with
    | rest queue perm =>
      have same := perm.length_eq
      rw [length_crowd, length_crowd] at same
      rw [List.append_nil, queue, same]
      exact ih still
    | @leave c result due leaves perm =>
      have fewer := perm.length_eq
      rw [List.length_cons, length_crowd, length_crowd] at fewer
      rcases ih still with ⟨rfl, queue, one⟩ | ⟨-, -, nobody⟩
      · rw [look_eq due, queue, found, Option.some_or, Option.some.injEq] at leaves
        obtain rfl := leaves
        exact .inr ⟨rfl, rfl, by omega⟩
      · omega
  | request _ r _ => cases List.append_ne_nil_of_right_ne_nil _ (List.cons_ne_nil r []) still

/-- Bounded and unbounded waits agree. Whatever queues they find at their wakings, their loops come
to the same until the time of the bounded one is up, and then it has what one more look brings, or
gives up. A limit that cannot be added to the time fails the wait before it looks. Otherwise a wait
with a limit has the answer of one without, and leaves the same queue, whenever that has one; so has
an attempt without waiting, unless there is an abort. Consumers that are let run come to a state in
which nobody is about to look. One that is alone with an answer has returned with it by then. At any
look, whoever returns has the answer of an unbounded wait, and gives up only if there is none and
his time is up. So if nothing arrives, those whose time is up give up, and only they, and the queue
stays as it is; and if there is enough for everybody, nobody gives up, however late it is, and no
event is lost. While nobody gives up, the consumers do what any other consumers can do, with other
limits or without. -/
theorem bounded_waits_agree {now : Instant} (le : now ≤ .last) {past : List (Request α)}
    {returned : List (WaitResult α)} (run : Run ({ now } : SharedQueue α) past returned s) :
    (∀ limit (q : Queue α) found,
      Queue.waitForLoop limit q (found.map .notified) = q.waitLoop found) ∧
    (∀ limit (q last : Queue α) found later,
      Queue.waitForLoop limit q (found.map .notified ++ .expired last :: later) =
        some ((q.waitLoop (found ++ [last])).getD (.failed (Queue.timedOut limit), last))) ∧
    (∀ (q : Queue α) (t : Instant) limit, t.add? limit = none →
      q.waitFor t limit = (.overflow, q)) ∧
    (∀ (q : Queue α) (t deadline : Instant) limit, t.add? limit = some deadline →
      (q.aborted = true → q.waitFor t limit = (.failed .waitAbort, q)) ∧
      (q.aborted = true ∨ q.events ≠ [] → q.wait = some (q.waitFor t limit)) ∧
      (q.aborted = false → q.events ≠ [] → q.tryDequeue = q.waitFor t limit) ∧
      (q.aborted = false → q.events = [] →
        q.wait = none ∧ q.waitFor t limit = (.failed (Queue.timedOut limit), q))) ∧
    (∀ limit, s.now.add? limit = none → s.perform (.consumerFor limit) = (s, .done, [.overflow])) ∧
    (∀ limit deadline, s.now.add? limit = some deadline →
      s.perform (.consumerFor limit) = (s.join (some (deadline, limit)), .done, [])) ∧
    (Run s [] s.settle.2 s.settle.1 ∧ s.settle.1.Settled) ∧
    (s.waiting.length = 1 → ∀ answer, s.queue.wait = some answer →
      ∀ results u, Run s [] results u → u.Settled →
        results = [answer.1] ∧ u.queue = answer.2 ∧ u.waiting = []) ∧
    (∀ new u, Move s new u → (new = [] ∧ u.queue = s.queue) ∨
      ∃ c ∈ s.waiting, ∃ result, new = [result] ∧
        (s.queue.wait = some (result, u.queue) ∨
          s.queue.wait = none ∧ c.expiry? s.now = some result ∧ u.queue = s.queue)) ∧
    (s.queue.wait = none → ∀ requests results u, (∀ r ∈ requests, r.isBarren = true) →
      Run s requests results u → u.queue = s.queue ∧ Expired s results u ∧
        (u.Settled → ∀ c ∈ u.waiting, c.isExpired u.now = false)) ∧
    (s.Supplied → ∀ requests results u, (∀ r ∈ requests, r.isSparing = true) →
      Run s requests results u →
        ∃ taken, Served s (requests.flatMap Request.entering) results u taken ∧
          (u.Settled → u.waiting = [])) ∧
    (∀ s' requests requests' results u, s.Alike s' →
      requests.map Request.unbounded = requests'.map Request.unbounded →
      (∀ r ∈ requests ++ requests', r.fits u.now = true) → (∀ r ∈ results, r.gaveUp = false) →
      Run s requests results u → ∃ u', Run s' requests' results u' ∧ u.Alike u') := by
  have within : s.now ≤ .last := (run.now le).2
  have covered : s.Covered := run.covered (covered_empty now)
  refine ⟨Queue.waitForLoop_of_notified, Queue.waitForLoop_of_expired,
    fun q t limit => Queue.waitFor_of_overflow, ?_, fun limit => perform_of_overflow,
    fun limit deadline => perform_of_representable, ⟨settle_run s, settled_lookAll _ _ _⟩, ?_,
    fun new u => Move.answered, ?_, ?_, ?_⟩
  · intro q t deadline limit ends
    refine ⟨fun aborted => ?_, Queue.wait_eq_waitFor ends, fun unaborted pending => ?_,
      fun unaborted empty => ?_⟩
    · rw [Queue.waitFor_of_representable ends]
      simp [Queue.wait, aborted]
    · have same := Queue.wait_eq_waitFor ends (.inr pending)
      exact Option.some.inj ((Queue.wait_eq_tryDequeue unaborted pending).symm.trans same)
    · have nothing := Queue.wait_eq_none.mpr ⟨empty, unaborted⟩
      rw [Queue.waitFor_of_representable ends, nothing]
      exact ⟨rfl, rfl⟩
  · intro one answer found results u after settled
    rcases after.alone rfl one found with ⟨-, queue, waits⟩ | ⟨all, queue, nobody⟩
    · have waits : u.waiting ≠ [] := List.ne_nil_of_length_pos (by omega)
      have nothing := Queue.wait_eq_none.mpr ((after.covered covered).idle settled waits)
      rw [queue, found] at nothing
      cases nothing
    · exact ⟨all, queue, List.eq_nil_of_length_eq_zero nobody⟩
  · intro bare requests results u barren after
    obtain ⟨queue, expired⟩ := after.barren within bare barren
    exact ⟨queue, expired, fun settled c waits => (settled.asleep waits).2⟩
  · intro supplied requests results u sparing after
    obtain ⟨taken, served⟩ := after.served supplied sparing
    refine ⟨taken, served, fun settled => ?_⟩
    by_contra waits
    have enough := served.supplied.enough
    rw [((after.covered covered).idle settled waits).1] at enough
    exact waits (List.eq_nil_of_length_eq_zero (Nat.le_zero.mp enough))
  · intro s' requests requests' results u alike same fits kept after
    exact after.alike within alike same fits kept

/-- The time of a consumer is up, and it has not looked yet when an event arrives. -/
theorem late_event_taken :
    let limit : Duration := .ofParts 1 0
    let s := ((({} : SharedQueue Nat).serve [.consumerFor limit]).1.perform (.expire limit)).1
    let t := s.enqueueTail 7
    s.settle.2 = [.failed (Queue.timedOut limit)] ∧
      (t.perform (.consumerFor (.ofParts 9223372036854775807 0))).2.2 = [.overflow] ∧
      t.settle.2 = [.event 7] ∧ ∀ results u, Run t [] results u → u.Settled →
        results = [.event 7] ∧ u.queue.events = [] ∧ u.waiting = [] := by
  intro limit s t
  obtain ⟨results, run⟩ := serve_run ({} : SharedQueue Nat) [.consumerFor limit]
  have run := (run.request (.expire limit)).request (.tail 7)
  obtain ⟨-, -, -, -, fails, -, -, alone, -⟩ := bounded_waits_agree (by decide) run
  have refused : t.perform (.consumerFor (.ofParts 9223372036854775807 0)) =
      (t, .done, [.overflow]) := fails _ (by decide)
  refine ⟨by decide, by rw [refused], by decide, fun results u after settled => ?_⟩
  obtain ⟨all, queue, nobody⟩ := alone (by decide) (.event 7, {}) rfl results u after settled
  exact ⟨all, congrArg Queue.events queue, nobody⟩

end SharedQueue
end EventEngine
