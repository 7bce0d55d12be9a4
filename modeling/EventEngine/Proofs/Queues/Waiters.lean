import EventEngine.Proofs.Queues.Shared

/-!
# Waiting consumers

Between requests the consumers run in any order: each looks at the queue when it is woken, for a
reason or for none, or when its time is up. Nobody sleeps on work, since as many consumers are awake
as there are events for them, and all of them while an abort is outstanding.
-/
namespace EventEngine

namespace Consumer

variable {α : Type}

/-- Whether the consumer is about to look at the queue. -/
def isDue (c : Consumer) (now : Instant) : Bool := c.awake || c.isExpired now

/-- What a consumer that finds nothing returns, if its time is up. -/
def expiry? (c : Consumer) (now : Instant) : Option (WaitResult α) :=
  match c.limit with
  | some (deadline, limit) =>
    if deadline ≤ now then some (.failed (Queue.timedOut limit)) else none
  | none => none

/-- The consumer, whether or not it is awake. -/
def asleep (c : Consumer) : Consumer := { c with awake := false }

theorem expiry?_eq_none {c : Consumer} {now : Instant} :
    (c.expiry? now : Option (WaitResult α)) = none ↔ c.isExpired now = false := by
  obtain ⟨_ | ⟨deadline, limit⟩, awake⟩ := c <;> simp [isExpired, expiry?]

theorem exists_expiry? {c : Consumer} {now : Instant} (up : c.isExpired now = true) :
    ∃ result : WaitResult α, c.expiry? now = some result := by
  refine Option.ne_none_iff_exists'.mp fun stays => ?_
  exact absurd (up.symm.trans (expiry?_eq_none.mp stays)) nofun

theorem isExpired_of_expiry? {c : Consumer} {now : Instant} {result : WaitResult α}
    (up : c.expiry? now = some result) : c.isExpired now = true := by
  by_contra ahead
  have stays : (c.expiry? now : Option (WaitResult α)) = none :=
    expiry?_eq_none.mpr (Bool.eq_false_iff.mpr ahead)
  cases up.symm.trans stays

end Consumer

namespace SharedQueue

variable {α : Type} {s t u : SharedQueue α} {requests : List (Request α)}
  {results new : List (WaitResult α)}

/-- What a consumer does by itself, and its result when it returns. -/
inductive Move (s : SharedQueue α) : List (WaitResult α) → SharedQueue α → Prop where
  /-- Which of the sleepers is the first to be woken is not determined. -/
  | reorder {order : List Consumer} : s.waiting.Perm order → Move s [] { s with waiting := order }
  | wake {before after : List Consumer} {c : Consumer} : s.waiting = before ++ c :: after →
      Move s [] { s with waiting := before ++ { c with awake := true } :: after }
  | sleep {before after : List Consumer} {c : Consumer} : s.waiting = before ++ c :: after →
      c.isDue s.now = true → look c s.queue = none →
      Move s [] { s with waiting := before ++ c.asleep :: after }
  | leave {before after : List Consumer} {c : Consumer} {result : WaitResult α} {queue : Queue α} :
      s.waiting = before ++ c :: after → c.isDue s.now = true →
      look c s.queue = some (result, queue) →
      Move s [result] { s with queue, waiting := before ++ after }

/-- The requests are performed in this order, and consumers move at any time. Yields the results in
the order of the returns. -/
inductive Run (s : SharedQueue α) :
    List (Request α) → List (WaitResult α) → SharedQueue α → Prop where
  | refl : Run s [] [] s
  | move {t u : SharedQueue α} {requests : List (Request α)} {results new : List (WaitResult α)} :
      Run s requests results t → Move t new u → Run s requests (results ++ new) u
  | request {t : SharedQueue α} {requests : List (Request α)} {results : List (WaitResult α)} :
      Run s requests results t → (r : Request α) →
      Run s (requests ++ [r]) (results ++ (t.perform r).2.2) (t.perform r).1

/-- Nobody is about to look: every consumer that has not returned sleeps. -/
def Settled (s : SharedQueue α) : Prop := ∀ c ∈ s.waiting, c.isDue s.now = false

instance : Decidable s.Settled := inferInstanceAs (Decidable (∀ c ∈ s.waiting, _))

theorem Settled.asleep (settled : s.Settled) {c : Consumer} (waits : c ∈ s.waiting) :
    c.awake = false ∧ c.isExpired s.now = false := by
  simpa [Consumer.isDue] using settled c waits

/-- The consumers, whether or not they are awake. -/
def crowd (s : SharedQueue α) : List Consumer := s.waiting.map Consumer.asleep

theorem Run.trans {requests' : List (Request α)} {results' : List (WaitResult α)}
    (first : Run s requests results t) (last : Run t requests' results' u) :
    Run s (requests ++ requests') (results ++ results') u := by
  induction last with
  | refl => simpa using first
  | move _ move ih => simpa using ih.move move
  | request _ r ih => simpa using ih.request r

theorem Run.of_move (move : Move s new u) : Run s [] new u := Run.refl.move move

/-! ## One look -/

/-- A consumer that looks was woken, or its time is up and this is its last look. -/
theorem look_eq {now : Instant} {c : Consumer} (due : c.isDue now = true) (q : Queue α) :
    look c q = q.wait.or (if c.awake then none else (c.expiry? now).map (·, q)) := by
  obtain ⟨_ | ⟨deadline, limit⟩, _ | _⟩ := c
  · cases due
  · exact (Option.or_none).symm
  · have up : (Consumer.expiry? ⟨some (deadline, limit), false⟩ now : Option (WaitResult α)) =
        some (.failed (Queue.timedOut limit)) := if_pos (of_decide_eq_true due)
    show some (q.lastLook limit) = _
    rw [up, Queue.lastLook_eq]
    cases q.wait with
    | none => rfl
    | some answer => rfl
  · exact (Queue.waitForLoop_nil limit q).trans (Option.or_none).symm

/-- A consumer that is let run has the answer of an unbounded wait, or there is none and its time is
up. -/
theorem lookOut_eq {now : Instant} {c : Consumer} (due : c.isDue now = true) (q : Queue α) :
    lookOut now c q = q.wait.or ((c.expiry? now).map (·, q)) := by
  unfold lookOut
  rw [look_eq due]
  cases found : q.wait with
  | some answer => rfl
  | none =>
    cases up : c.isExpired now with
    | false =>
      have awake : c.awake = true := by simpa [Consumer.isDue, up] using due
      rw [Consumer.expiry?_eq_none.mpr up, awake]
      rfl
    | true =>
      obtain ⟨result, expiry⟩ := Consumer.exists_expiry? (α := α) up
      -- a consumer that was woken sleeps until its deadline, and has its last look then
      have due' : c.asleep.isDue now = true := up
      have last : look c.asleep q = some (result, q) := by
        rw [look_eq due', found]
        exact congrArg (Option.map (·, q)) expiry
      rw [expiry]
      cases c.awake with
      | true => exact last
      | false => rfl

/-- What a look may come to. -/
inductive Looked (now : Instant) (c : Consumer) (q : Queue α) :
    Option (WaitResult α × Queue α) → Prop where
  | abort : q.aborted = true → Looked now c q (some (.failed .waitAbort, q))
  | event {a : α} {rest : List α} : q.aborted = false → q.events = a :: rest →
      Looked now c q (some (.event a, { q with events := rest }))
  | expiry {result : WaitResult α} : q.aborted = false → q.events = [] →
      c.expiry? now = some result → Looked now c q (some (result, q))
  | nothing : q.aborted = false → q.events = [] → Looked now c q none

theorem looked {now : Instant} {c : Consumer} (due : c.isDue now = true) (q : Queue α) :
    Looked now c q (look c q) := by
  rw [look_eq due]
  rcases q.wait_cases with ⟨aborted, found⟩ | ⟨unaborted, empty, found⟩ |
    ⟨a, rest, unaborted, queued, found⟩
  · rw [found]
    exact .abort aborted
  · rw [found, Option.none_or]
    cases c.awake with
    | true => exact .nothing unaborted empty
    | false =>
      cases expiry : (c.expiry? now : Option (WaitResult α)) with
      | none => exact .nothing unaborted empty
      | some result => exact .expiry unaborted empty expiry
  · rw [found]
    exact .event unaborted queued

/-- Whoever returns has the answer of an unbounded wait, or there is none and his time is up. -/
theorem answer_of_look {now : Instant} {c : Consumer} {q q' : Queue α} {result : WaitResult α}
    (due : c.isDue now = true) (leaves : look c q = some (result, q')) :
    q.wait = some (result, q') ∨ q.wait = none ∧ c.expiry? now = some result ∧ q' = q := by
  rw [look_eq due] at leaves
  rcases Option.or_eq_some_iff.mp leaves with answer | ⟨nothing, gives⟩
  · exact .inl answer
  · split at gives
    · cases gives
    · obtain ⟨result', up, same⟩ := Option.map_eq_some_iff.mp gives
      obtain ⟨rfl, rfl⟩ := Prod.mk.inj same
      exact .inr ⟨nothing, up, rfl⟩

/-! ## The consumers are let run -/

/-- Whoever returns does so at once, or sleeps first and then returns. -/
theorem lookOut_run {now : Instant} {c : Consumer} {q left : Queue α} {result : WaitResult α}
    (due : c.isDue now = true) (looked : lookOut now c q = some (result, left))
    (before after : List Consumer) :
    Run ⟨q, before ++ c :: after, now⟩ [] [result] ⟨left, before ++ after, now⟩ := by
  unfold lookOut at looked
  split at looked
  · next answer found =>
    have leaves : Move ⟨q, before ++ c :: after, now⟩ [result] ⟨left, before ++ after, now⟩ :=
      .leave rfl due (found.trans looked)
    exact Run.of_move leaves
  · next nothing =>
    split at looked
    · next up =>
      have sleeps : Move ⟨q, before ++ c :: after, now⟩ [] ⟨q, before ++ c.asleep :: after, now⟩ :=
        .sleep rfl due nothing
      have leaves : Move ⟨q, before ++ c.asleep :: after, now⟩ [result]
          ⟨left, before ++ after, now⟩ :=
        .leave rfl up looked
      exact (Run.of_move sleeps).move leaves
    · cases looked

theorem lookAll_run (now : Instant) (q : Queue α) (before consumers : List Consumer) :
    Run ⟨q, before ++ consumers, now⟩ [] (lookAll now q consumers).2.2
      ⟨(lookAll now q consumers).1, before ++ (lookAll now q consumers).2.1, now⟩ := by
  induction consumers generalizing q before with
  | nil => exact .refl
  | cons c rest ih =>
    unfold lookAll
    split
    · next due =>
      split
      · next result left looked => exact (lookOut_run due looked before rest).trans (ih left before)
      · next looked =>
        have nothing : look c q = none := by
          unfold lookOut at looked
          split at looked
          · cases looked
          · next nothing => exact nothing
        have sleeps : Move ⟨q, before ++ c :: rest, now⟩ [] ⟨q, before ++ c.asleep :: rest, now⟩ :=
          .sleep rfl due nothing
        have later := ih q (before ++ [c.asleep])
        simp only [List.append_assoc, List.singleton_append] at later
        exact (Run.of_move sleeps).trans later
    · simpa using ih q (before ++ [c])

theorem settle_run (s : SharedQueue α) : Run s [] s.settle.2 s.settle.1 :=
  lookAll_run s.now s.queue [] s.waiting

/-- One request, and then the consumers in order of arrival. -/
theorem step_run (s : SharedQueue α) (r : Request α) : Run s [r] (s.step r).2.2 (s.step r).1 :=
  (Run.refl.request r).trans (settle_run _)

/-- Requests each followed by the consumers. -/
theorem serve_run (s : SharedQueue α) (requests : List (Request α)) :
    ∃ results, Run s requests results (s.serve requests).1 := by
  induction requests generalizing s with
  | nil => exact ⟨[], .refl⟩
  | cons r rest ih =>
    obtain ⟨results, run⟩ := ih (s.step r).1
    exact ⟨_, (step_run s r).trans run⟩

theorem settled_lookAll (now : Instant) (q : Queue α) (consumers : List Consumer) :
    ∀ c ∈ (lookAll now q consumers).2.1, c.isDue now = false := by
  induction consumers generalizing q with
  | nil => simp [lookAll]
  | cons c rest ih =>
    unfold lookAll
    split
    · split
      · exact ih _
      · next due _ nothing =>
        rw [lookOut_eq due, Option.or_eq_none_iff, Option.map_eq_none_iff] at nothing
        have sleeps : c.asleep.isDue now = false := Consumer.expiry?_eq_none.mp nothing.2
        exact List.forall_mem_cons.mpr ⟨sleeps, ih q⟩
    · next idle =>
      have sleeps : c.isDue now = false := Bool.eq_false_iff.mpr idle
      exact List.forall_mem_cons.mpr ⟨sleeps, ih q⟩

theorem settled_step (s : SharedQueue α) (r : Request α) : (s.step r).1.Settled :=
  settled_lookAll _ _ _

/-! ## Enough consumers are awake -/

/-- All consumers are awake while an abort is outstanding, and at any time as many as there are
events for them. -/
structure Covered (s : SharedQueue α) : Prop where
  abort : s.queue.aborted = true → ∀ c ∈ s.waiting, c.awake = true
  events : min s.queue.events.length s.waiting.length ≤ s.waiting.countP (·.awake)

theorem length_wakeOne (consumers : List Consumer) :
    (wakeOne consumers).length = consumers.length := by
  induction consumers with
  | nil => rfl
  | cons c rest ih =>
    unfold wakeOne
    split <;> simp [ih]

theorem countP_wakeOne (consumers : List Consumer) :
    (wakeOne consumers).countP (·.awake) =
      min consumers.length (consumers.countP (·.awake) + 1) := by
  induction consumers with
  | nil => rfl
  | cons c rest ih =>
    have le : rest.countP (·.awake) ≤ rest.length := List.countP_le_length
    unfold wakeOne
    split
    · next awake =>
      simp only [List.countP_cons, awake, if_true, ih, List.length_cons]
      omega
    · next sleeps =>
      simp only [List.countP_cons, sleeps, if_true, List.length_cons]
      simp only [Bool.false_eq_true, if_false]
      omega

theorem map_asleep_wakeOne (consumers : List Consumer) :
    (wakeOne consumers).map Consumer.asleep = consumers.map Consumer.asleep := by
  induction consumers with
  | nil => rfl
  | cons c rest ih =>
    unfold wakeOne
    split <;> simp [ih, Consumer.asleep]

theorem awake_wakeOne {consumers : List Consumer} (all : ∀ c ∈ consumers, c.awake = true) :
    wakeOne consumers = consumers := by
  induction consumers with
  | nil => rfl
  | cons c rest ih =>
    obtain ⟨awake, all⟩ := List.forall_mem_cons.mp all
    simp [wakeOne, awake, ih all]

/-- One more event, one more consumer awake. -/
theorem Covered.wakeOne {q : Queue α} (covered : s.Covered)
    (more : q.events.length = s.queue.events.length + 1) (same : q.aborted = s.queue.aborted) :
    ({ s with queue := q, waiting := wakeOne s.waiting } : SharedQueue α).Covered := by
  refine ⟨fun aborted => ?_, ?_⟩
  · have all := covered.abort (same.symm.trans aborted)
    rwa [awake_wakeOne all]
  · have enough := covered.events
    simp only [length_wakeOne, countP_wakeOne, more]
    omega

theorem Covered.fewer {q : Queue α} (covered : s.Covered)
    (fewer : q.events.length ≤ s.queue.events.length)
    (same : q.aborted = true → s.queue.aborted = true) :
    ({ s with queue := q } : SharedQueue α).Covered := by
  refine ⟨fun aborted => covered.abort (same aborted), ?_⟩
  have enough := covered.events
  simp only
  omega

theorem Covered.fill (covered : s.Covered) (values : List α) :
    (values.foldl enqueueTail s).Covered := by
  induction values generalizing s with
  | nil => exact covered
  | cons a rest ih => exact ih (covered.wakeOne (by simp) rfl)

theorem covered_abort (s : SharedQueue α) : s.abort.Covered := by
  have all : ∀ c ∈ s.abort.waiting, c.awake = true := by simp [abort, wakeAll]
  refine ⟨fun _ => all, ?_⟩
  rw [List.countP_eq_length.mpr all]
  exact Nat.min_le_right _ _

theorem Covered.join (covered : s.Covered) (limit : Option (Instant × Duration)) :
    (s.join limit).Covered := by
  refine ⟨fun aborted => ?_, ?_⟩
  · simpa [SharedQueue.join, or_imp, forall_and] using covered.abort aborted
  · have enough := covered.events
    simp only [SharedQueue.join, List.length_append, List.countP_append, List.length_singleton,
      List.countP_singleton]
    simp only [if_true]
    omega

theorem wait_fewer {q : Queue α} {a : WaitResult α × Queue α} (found : q.wait = some a) :
    a.2.events.length ≤ q.events.length ∧ a.2.aborted = q.aborted := by
  rcases q.wait_cases with ⟨aborted, found'⟩ | ⟨-, -, found'⟩ | ⟨a, rest, unaborted, queued, found'⟩
  · cases found'.symm.trans found
    simp
  · cases found'.symm.trans found
  · cases found'.symm.trans found
    simp [queued]

theorem tryDequeue_fewer (q : Queue α) :
    q.tryDequeue.2.events.length ≤ q.events.length ∧ q.tryDequeue.2.aborted = q.aborted := by
  unfold Queue.tryDequeue
  split <;> simp [*]

theorem Covered.perform (covered : s.Covered) (r : Request α) : (s.perform r).1.Covered := by
  cases r with
  | tail a => exact covered.wakeOne (by simp) rfl
  | head a => exact covered.wakeOne (by simp) rfl
  | fill values => exact covered.fill values
  | tryTake =>
    obtain ⟨fewer, same⟩ := tryDequeue_fewer s.queue
    exact covered.fewer fewer fun aborted => same ▸ aborted
  | wait =>
    simp only [SharedQueue.perform]
    cases found : s.queue.wait with
    | none => exact covered
    | some a =>
      obtain ⟨fewer, same⟩ := wait_fewer found
      exact covered.fewer fewer fun aborted => same ▸ aborted
  | waitFor limit =>
    simp only [SharedQueue.perform, Queue.waitFor_eq]
    cases s.now.add? limit with
    | none => exact covered
    | some _ =>
      cases found : s.queue.wait with
      | none => exact covered
      | some a =>
        obtain ⟨fewer, same⟩ := wait_fewer found
        exact covered.fewer fewer fun aborted => same ▸ aborted
  | consumer => exact covered.join none
  | consumerFor limit =>
    simp only [SharedQueue.perform]
    cases s.now.add? limit with
    | none => exact covered
    | some deadline => exact covered.join _
  | expire d => exact ⟨covered.abort, covered.events⟩
  | abort => exact covered_abort s
  | reset => exact covered.fewer (Nat.le_refl _) fun aborted => absurd aborted Bool.false_ne_true
  | clear => exact covered.fewer (Nat.zero_le _) id
  | drain => exact covered.fewer (Nat.zero_le _) id
  | describe => exact covered

theorem Covered.move (covered : s.Covered) (move : Move s new u) : u.Covered := by
  have enough := covered.events
  cases move with
  | reorder perm =>
    refine ⟨fun aborted c member => covered.abort aborted c (perm.mem_iff.mpr member), ?_⟩
    simpa [perm.length_eq, perm.countP_eq] using enough
  | @wake before after c split =>
    have all := covered.abort
    rw [split] at all enough
    refine ⟨fun aborted => ?_, ?_⟩
    · have all := all aborted
      simp only [List.forall_mem_append, List.forall_mem_cons] at all ⊢
      exact ⟨all.1, trivial, all.2.2⟩
    · simp only [List.length_append, List.length_cons, List.countP_append, List.countP_cons,
        if_true] at enough ⊢
      split at enough <;> omega
  | @sleep before after c split due nothing =>
    have found := looked due s.queue
    rw [nothing] at found
    cases found with
    | nothing unaborted empty =>
      exact ⟨fun aborted => absurd (unaborted.symm.trans aborted) nofun, by simp [empty]⟩
  | @leave before after c result queue split due leaves =>
    have all := covered.abort
    rw [split] at all enough
    simp only [List.forall_mem_append, List.forall_mem_cons] at all
    simp only [List.length_append, List.length_cons, List.countP_append, List.countP_cons] at enough
    have found := looked due s.queue
    rw [leaves] at found
    cases found with
    | abort aborted =>
      have all := all aborted
      have rest : ∀ c ∈ before ++ after, c.awake = true :=
        List.forall_mem_append.mpr ⟨all.1, all.2.2⟩
      refine ⟨fun _ => rest, ?_⟩
      rw [List.countP_eq_length.mpr rest]
      exact Nat.min_le_right _ _
    | event unaborted queued =>
      refine ⟨fun aborted => absurd (unaborted.symm.trans aborted) nofun, ?_⟩
      simp only [queued, List.length_cons, List.length_append, List.countP_append] at enough ⊢
      split at enough <;> omega
    | expiry unaborted empty _ =>
      exact ⟨fun aborted => absurd (unaborted.symm.trans aborted) nofun, by simp [empty]⟩

theorem Run.covered (run : Run s requests results u) (covered : s.Covered) : u.Covered := by
  induction run with
  | refl => exact covered
  | move _ move ih => exact ih.move move
  | request _ r ih => exact ih.perform r

theorem covered_empty (now : Instant) : ({ now } : SharedQueue α).Covered :=
  ⟨nofun, by simp⟩

/-- Where nobody is awake, whoever waits has nothing to wait for less than an event. -/
theorem Covered.idle (covered : s.Covered) (settled : s.Settled) (waits : s.waiting ≠ []) :
    s.queue.events = [] ∧ s.queue.aborted = false := by
  have sleep : ∀ c ∈ s.waiting, c.awake = false := fun c member => (settled.asleep member).1
  have nobody : s.waiting.countP (·.awake) = 0 := by
    simpa [List.countP_eq_zero] using sleep
  have enough := covered.events
  have some := List.length_pos_of_ne_nil waits
  refine ⟨List.eq_nil_of_length_eq_zero (by omega), ?_⟩
  obtain ⟨c, member⟩ := List.exists_mem_of_ne_nil _ waits
  cases aborted : s.queue.aborted with
  | false => rfl
  | true => exact absurd ((sleep c member).symm.trans (covered.abort aborted c member)) nofun

/-! ## Who returns, and with what -/

/-- What a move does to the queue and the crowd. -/
inductive Change (s u : SharedQueue α) : List (WaitResult α) → Prop where
  | rest : u.queue = s.queue → u.crowd.Perm s.crowd → Change s u []
  | leave {c : Consumer} {result : WaitResult α} : c.isDue s.now = true →
      look c s.queue = some (result, u.queue) → (c.asleep :: u.crowd).Perm s.crowd →
      Change s u [result]

theorem Move.change (move : Move s new u) : u.now = s.now ∧ Change s u new := by
  cases move with
  | reorder perm => exact ⟨rfl, .rest rfl (perm.symm.map _)⟩
  | wake split => exact ⟨rfl, .rest rfl (by simp [crowd, split, Consumer.asleep])⟩
  | sleep split _ _ => exact ⟨rfl, .rest rfl (by simp [crowd, split, Consumer.asleep])⟩
  | leave split due leaves =>
    refine ⟨rfl, .leave due leaves ?_⟩
    simp only [crowd, split, List.map_append, List.map_cons]
    exact List.perm_middle.symm

/-- A consumer that returns with an event has taken the first one. -/
theorem Move.takes_first {a : α} (move : Move s new u) (member : .event a ∈ new) :
    s.queue.events = a :: u.queue.events := by
  obtain ⟨-, change⟩ := move.change
  cases change with
  | rest _ _ => cases member
  | @leave c result due leaves _ =>
    obtain rfl := List.mem_singleton.mp member
    have found := looked due s.queue
    rw [leaves] at found
    generalize u.queue = q at found
    cases found with
    | event _ queued => exact queued
    | expiry _ _ expired =>
      unfold Consumer.expiry? at expired
      split at expired
      · split at expired <;> cases expired
      · cases expired

/-! ## Bursts -/

def Request.enqueues : Request α → Bool
  | .tail _ | .head _ | .fill _ => true
  | _ => false

/-- Whoever waits is waiting for an event only: his time is not up, and there is no abort. -/
def Expectant (s : SharedQueue α) : Prop :=
  ∀ c ∈ s.crowd, s.queue.aborted = false ∧ c.isExpired s.now = false

theorem Covered.expectant (covered : s.Covered) (settled : s.Settled) : s.Expectant := by
  intro c member
  obtain ⟨c, waits, rfl⟩ := List.mem_map.mp member
  exact ⟨(covered.idle settled (List.ne_nil_of_mem waits)).2, (settled.asleep waits).2⟩

theorem Expectant.of_subset (expectant : s.Expectant) (now : u.now = s.now)
    (same : u.queue.aborted = s.queue.aborted) (subset : u.crowd ⊆ s.crowd) : u.Expectant := by
  intro c member
  rw [now, same]
  exact expectant c (subset member)

/-- A burst came to these results: the consumers that returned have taken these events, and the
others wait on. -/
structure Burst (s : SharedQueue α) (entering : List α) (results : List (WaitResult α))
    (u : SharedQueue α) (taken : List α) : Prop where
  returned : results = taken.map .event
  consumers : taken.length + u.crowd.length = s.crowd.length
  events : (taken ++ u.queue.events).Perm (s.queue.events ++ entering)
  front : entering = [] → taken ++ u.queue.events = s.queue.events
  expectant : u.Expectant

/-- What is taken and what is left make up what was there and what entered, also in two stages. -/
theorem perm_stages {taken left old entering taken' left' entering' : List α}
    (first : (taken ++ left).Perm (old ++ entering))
    (last : (taken' ++ left').Perm (left ++ entering')) :
    (taken ++ taken' ++ left').Perm (old ++ (entering ++ entering')) :=
  calc taken ++ taken' ++ left'
    _ = taken ++ (taken' ++ left') := List.append_assoc ..
    _ |>.Perm (taken ++ (left ++ entering')) := last.append_left _
    _ = taken ++ left ++ entering' := (List.append_assoc ..).symm
    _ |>.Perm (old ++ entering ++ entering') := first.append_right _
    _ = old ++ (entering ++ entering') := List.append_assoc ..

/-- More events enter, and nobody moves. -/
theorem Burst.enter {entering more taken : List α} (burst : Burst s entering results t taken)
    (now : u.now = t.now) (same : u.queue.aborted = t.queue.aborted) (crowd : u.crowd = t.crowd)
    (events : u.queue.events.Perm (t.queue.events ++ more))
    (unchanged : more = [] → u.queue.events = t.queue.events) :
    Burst s (entering ++ more) results u taken := by
  refine ⟨burst.returned, crowd ▸ burst.consumers, ?_, fun none => ?_, ?_⟩
  · have later : ([] ++ u.queue.events).Perm (t.queue.events ++ more) := events
    simpa using perm_stages burst.events later
  · obtain ⟨none, none'⟩ := List.append_eq_nil_iff.mp none
    rw [unchanged none', burst.front none]
  · exact burst.expectant.of_subset now same (crowd ▸ List.Subset.refl _)

theorem fill_cases (s : SharedQueue α) (values : List α) :
    (values.foldl enqueueTail s).now = s.now ∧ (values.foldl enqueueTail s).crowd = s.crowd ∧
      (values.foldl enqueueTail s).queue.aborted = s.queue.aborted ∧
      (values.foldl enqueueTail s).queue.events = s.queue.events ++ values := by
  induction values generalizing s with
  | nil => simp
  | cons a rest ih =>
    obtain ⟨now, crowd, aborted, events⟩ := ih (s.enqueueTail a)
    refine ⟨now, crowd.trans (map_asleep_wakeOne _), aborted, events.trans ?_⟩
    simp [enqueueTail]

theorem Burst.perform {entering taken : List α} (burst : Burst s entering results t taken)
    {r : Request α} (enqueues : r.enqueues = true) :
    Burst s (entering ++ r.entering) (results ++ (t.perform r).2.2) (t.perform r).1 taken := by
  cases r with
  | tail a =>
    have entered : Burst s (entering ++ [a]) results (t.enqueueTail a) taken :=
      burst.enter rfl rfl (map_asleep_wakeOne _) (.refl _) nofun
    simpa [SharedQueue.perform, Request.entering] using entered
  | head a =>
    have entered : Burst s (entering ++ [a]) results (t.enqueueHead a) taken :=
      burst.enter rfl rfl (map_asleep_wakeOne _) (List.perm_append_singleton a _).symm nofun
    simpa [SharedQueue.perform, Request.entering] using entered
  | fill values =>
    obtain ⟨now, crowd, aborted, events⟩ := fill_cases t values
    have filled : Burst s (entering ++ values) results (values.foldl enqueueTail t) taken :=
      burst.enter now aborted crowd (.of_eq events) fun none => by simp [none]
    simpa [SharedQueue.perform, Request.entering] using filled
  | _ => cases enqueues

/-- Whoever looks during a burst takes an event, or finds nothing and waits on. -/
theorem Burst.move {entering taken : List α} (burst : Burst s entering results t taken)
    (move : Move t new u) : ∃ taken, Burst s entering (results ++ new) u taken := by
  obtain ⟨now, change⟩ := move.change
  cases change with
  | rest queue perm =>
    refine ⟨taken, ?_, ?_, ?_, ?_, ?_⟩
    · simpa using burst.returned
    · rw [perm.length_eq]
      exact burst.consumers
    · rw [queue]
      exact burst.events
    · rw [queue]
      exact burst.front
    · exact burst.expectant.of_subset now (by rw [queue]) perm.subset
  | @leave c result due leaves perm =>
    obtain ⟨unaborted, ahead⟩ := burst.expectant c.asleep (perm.mem_iff.mp (by simp))
    have found := looked due t.queue
    have shorter := perm.length_eq
    have subset : u.crowd ⊆ t.crowd := fun c member => perm.subset (List.mem_cons_of_mem _ member)
    rw [leaves] at found
    generalize left : u.queue = q at found
    cases found with
    | abort aborted => exact absurd (unaborted.symm.trans aborted) nofun
    | expiry _ _ expired =>
      have stays : (c.expiry? t.now : Option (WaitResult α)) = none :=
        Consumer.expiry?_eq_none.mpr ahead
      cases stays.symm.trans expired
    | @event a rest _ queued =>
      have same : taken ++ [a] ++ u.queue.events = taken ++ t.queue.events := by
        simp [left, queued]
      refine ⟨taken ++ [a], ?_, ?_, ?_, ?_, ?_⟩
      · simp [burst.returned]
      · have all := burst.consumers
        simp only [List.length_append, List.length_cons, List.length_nil] at shorter ⊢
        omega
      · rw [same]
        exact burst.events
      · rw [same]
        exact burst.front
      · exact burst.expectant.of_subset now (by rw [left]) subset

theorem Run.burst (run : Run s requests results u) (expectant : s.Expectant)
    (enqueues : ∀ r ∈ requests, r.enqueues = true) :
    ∃ taken, Burst s (requests.flatMap Request.entering) results u taken := by
  induction run with
  | refl => exact ⟨[], rfl, Nat.zero_add _, by simp, by simp, expectant⟩
  | move _ move ih =>
    obtain ⟨taken, burst⟩ := ih enqueues
    exact burst.move move
  | request _ r ih =>
    simp only [List.forall_mem_append, List.forall_mem_singleton] at enqueues
    obtain ⟨taken, burst⟩ := ih enqueues.1
    refine ⟨taken, ?_⟩
    simpa using burst.perform enqueues.2

/-- As many consumers return as there are events, or consumers. -/
theorem Burst.length_taken {entering taken : List α} (burst : Burst s entering results u taken)
    (covered : s.Covered) (settled : s.Settled) (covered' : u.Covered) (settled' : u.Settled) :
    taken.length = min entering.length s.waiting.length ∧
      u.waiting.length = s.waiting.length - taken.length := by
  have consumers : taken.length + u.waiting.length = s.waiting.length := by
    simpa [crowd] using burst.consumers
  have events := burst.events.length_eq
  simp only [List.length_append] at events
  refine ⟨?_, by omega⟩
  by_cases waits : s.waiting = []
  · simp only [waits, List.length_nil] at consumers ⊢
    omega
  · simp only [(covered.idle settled waits).1, List.length_nil] at events
    by_cases waits' : u.waiting = []
    · simp only [waits', List.length_nil] at consumers
      omega
    · simp only [(covered'.idle settled' waits').1, List.length_nil] at events
      omega

/-! ## Aborts -/

/-- Whoever looks while an abort is outstanding returns, and leaves the events queued. -/
theorem Run.abort (run : Run s requests results u) (still : requests = [])
    (aborted : s.queue.aborted = true) :
    u.queue = s.queue ∧ (∀ r ∈ results, r = .failed .waitAbort) ∧
      results.length + u.crowd.length = s.crowd.length := by
  induction run with
  | refl => simp
  | @move t u _ results new _ move ih =>
    obtain ⟨queue, all, consumers⟩ := ih still
    obtain ⟨-, change⟩ := move.change
    cases change with
    | rest same perm =>
      rw [List.append_nil, same, perm.length_eq]
      exact ⟨queue, all, consumers⟩
    | @leave c result due leaves perm =>
      have shorter := perm.length_eq
      have found := looked due t.queue
      rw [leaves] at found
      generalize left : u.queue = q at found
      rw [queue] at found
      cases found with
      | abort _ =>
        refine ⟨rfl, ?_, ?_⟩
        · simpa [or_imp, forall_and] using all
        · simp only [List.length_append, List.length_cons, List.length_nil] at shorter ⊢
          omega
      | event unaborted _ => exact absurd (unaborted.symm.trans aborted) nofun
      | expiry unaborted _ _ => exact absurd (unaborted.symm.trans aborted) nofun
  | request _ r _ => cases List.append_ne_nil_of_right_ne_nil _ (List.cons_ne_nil r []) still

/-! ## Expiry -/

/-- Where there is nothing to be had, whoever returns does so because his time is up. -/
theorem Move.expire (move : Move s new u) (bare : s.waiting ≠ [] → s.queue.wait = none) :
    u.queue = s.queue ∧ u.now = s.now ∧ ∃ gone : List Consumer,
      new = gone.filterMap (·.expiry? s.now) ∧ (∀ c ∈ gone, c.isExpired s.now = true) ∧
      (gone ++ u.crowd).Perm s.crowd := by
  obtain ⟨now, change⟩ := move.change
  cases change with
  | rest same perm => exact ⟨same, now, [], rfl, by simp, perm⟩
  | @leave c result due leaves perm =>
    have waits : c.asleep ∈ s.crowd := perm.subset List.mem_cons_self
    have nothing := bare fun nobody => by simp [crowd, nobody] at waits
    rcases answer_of_look due leaves with answer | ⟨-, up, queue⟩
    · exact absurd (nothing.symm.trans answer) nofun
    · have up' : c.asleep.expiry? s.now = some result := up
      refine ⟨queue, now, [c.asleep], by simp [up'], ?_, perm⟩
      exact List.forall_mem_singleton.mpr (Consumer.isExpired_of_expiry? up')

/-- These results are those of consumers whose time is up at the end, and the others wait on. -/
def Expired (s : SharedQueue α) (results : List (WaitResult α)) (u : SharedQueue α) : Prop :=
  ∃ gone : List Consumer, results = gone.filterMap (·.expiry? u.now) ∧
    (∀ c ∈ gone, c.isExpired u.now = true) ∧ (gone ++ u.crowd).Perm s.crowd

theorem Expired.move (expired : Expired s results t) (move : Move t new u)
    (bare : t.waiting ≠ [] → t.queue.wait = none) : Expired s (results ++ new) u := by
  obtain ⟨gone, returned, up, perm⟩ := expired
  obtain ⟨-, now, gone', returned', up', perm'⟩ := move.expire bare
  rw [← now] at returned returned' up up'
  refine ⟨gone ++ gone', ?_, List.forall_mem_append.mpr ⟨up, up'⟩, ?_⟩
  · rw [returned, returned', List.filterMap_append]
  · rw [List.append_assoc]
    exact (perm'.append_left gone).trans perm

theorem Run.expire (run : Run s requests results u) (still : requests = [])
    (idle : s.waiting ≠ [] → s.queue.events = [] ∧ s.queue.aborted = false) :
    u.queue = s.queue ∧ u.now = s.now ∧ ∃ gone : List Consumer,
      results = gone.filterMap (·.expiry? s.now) ∧ (∀ c ∈ gone, c.isExpired s.now = true) ∧
      (gone ++ u.crowd).Perm s.crowd := by
  have all : u.queue = s.queue ∧ u.now = s.now ∧ Expired s results u := by
    induction run with
    | refl => exact ⟨rfl, rfl, [], by simp⟩
    | @move t u _ results new _ move ih =>
      obtain ⟨queue, now, expired⟩ := ih still
      have bare : t.waiting ≠ [] → t.queue.wait = none := by
        intro waits
        obtain ⟨gone, -, -, perm⟩ := expired
        have waits' : s.waiting ≠ [] := by
          rintro nobody
          simp [crowd, nobody, waits] at perm
        rw [queue]
        exact Queue.wait_eq_none.mpr (idle waits')
      obtain ⟨queue', now', -⟩ := move.expire bare
      exact ⟨queue'.trans queue, now'.trans now, expired.move move bare⟩
    | request _ r _ => cases List.append_ne_nil_of_right_ne_nil _ (List.cons_ne_nil r []) still
  obtain ⟨queue, now, gone, expired⟩ := all
  exact ⟨queue, now, gone, now ▸ expired⟩

theorem crowd_of_settled (settled : s.Settled) : s.crowd = s.waiting := by
  have same : ∀ c ∈ s.waiting, c.asleep = c := by
    rintro ⟨limit, awake⟩ waits
    obtain ⟨rfl, -⟩ := settled.asleep waits
    rfl
  exact (List.map_congr_left same).trans (List.map_id' _)

/-- In every reachable state in which nobody is about to look, whoever still waits has nothing to
wait for less than an event: the queue is empty and no abort is outstanding. So a burst makes as
many consumers return as there are events, or consumers, each with the first event of the queue
then; an abort makes all return with it and leaves the events; and as time passes those whose time
is up return, each with an error that tells his limit. The consumers may look in any order and wake
for no reason; after each request they are let run until nobody is about to look. -/
theorem no_consumer_sleeps_on_work {now : Instant}
    (run : Run ({ now } : SharedQueue α) requests results s) :
    (∀ r, Run s [r] (s.step r).2.2 (s.step r).1 ∧ (s.step r).1.Settled) ∧
    (s.Settled → s.waiting ≠ [] → s.queue.events = [] ∧ s.queue.aborted = false) ∧
    (∀ new u, Move s new u → ∀ a, .event a ∈ new → s.queue.events = a :: u.queue.events) ∧
    (s.Settled → ∀ burst early t late u, (∀ r ∈ burst, r.enqueues = true) →
      Run s burst early t → Run t [] late u → u.Settled → ∃ first rest : List α,
        early = first.map .event ∧ late = rest.map .event ∧
        (first ++ rest).length = min (burst.flatMap Request.entering).length s.waiting.length ∧
        u.waiting.length = s.waiting.length - (first ++ rest).length ∧
        (first ++ t.queue.events).Perm (s.queue.events ++ burst.flatMap Request.entering) ∧
        rest ++ u.queue.events = t.queue.events) ∧
    (∀ results u, Run (s.perform .abort).1 [] results u → u.Settled →
      results = List.replicate s.waiting.length (.failed .waitAbort) ∧
      u.waiting = [] ∧ u.queue = s.queue.abort) ∧
    (s.Settled → ∀ d results u, Run (s.perform (.expire d)).1 [] results u → u.Settled →
      results.Perm (s.waiting.filterMap (·.expiry? (s.now.advance d))) ∧
      u.waiting.Perm (s.waiting.filter (!·.isExpired (s.now.advance d))) ∧
      u.queue = s.queue) := by
  have covered : s.Covered := run.covered (covered_empty now)
  refine ⟨fun r => ⟨step_run s r, settled_step s r⟩, covered.idle,
    fun new u move a member => move.takes_first member, ?_, ?_, ?_⟩
  · intro settled burst early t late u enqueues during after settled'
    obtain ⟨first, begun⟩ := during.burst (covered.expectant settled) enqueues
    obtain ⟨rest, ended⟩ := after.burst begun.expectant (by simp)
    have whole := during.trans after
    rw [List.append_nil] at whole
    obtain ⟨taken, all⟩ := whole.burst (covered.expectant settled) enqueues
    have injective : Function.Injective (WaitResult.event : α → WaitResult α) :=
      fun _ _ same => WaitResult.event.inj same
    have same : first ++ rest = taken := by
      refine injective.list_map ?_
      rw [List.map_append, ← begun.returned, ← ended.returned, all.returned]
    obtain ⟨many, left⟩ := all.length_taken covered settled (whole.covered covered) settled'
    refine ⟨first, rest, begun.returned, ended.returned, ?_, ?_, begun.events, ended.front rfl⟩
    · rw [same, many]
    · rw [same, left]
  · intro results u run settled
    obtain ⟨queue, all, consumers⟩ := run.abort rfl rfl
    have covered' : u.Covered := run.covered (covered_abort s)
    have nobody : u.waiting = [] := by
      by_contra waits
      have unaborted := (covered'.idle settled waits).2
      rw [queue] at unaborted
      cases unaborted
    refine ⟨List.eq_replicate_iff.mpr ⟨?_, all⟩, nobody, queue⟩
    simpa [crowd, nobody, SharedQueue.perform, SharedQueue.abort, wakeAll] using consumers
  · intro settled d results u run settled'
    obtain ⟨queue, now, gone, returned, expired, perm⟩ := run.expire rfl (covered.idle settled)
    rw [crowd_of_settled settled'] at perm
    have all : (gone ++ u.waiting).Perm s.waiting := crowd_of_settled settled ▸ perm
    have now : u.now = s.now.advance d := now
    have expired : ∀ c ∈ gone, c.isExpired (s.now.advance d) = true := expired
    have stay : ∀ c ∈ u.waiting, c.isExpired (s.now.advance d) = false := by
      intro c waits
      rw [← now]
      exact (settled'.asleep waits).2
    refine ⟨?_, ?_, queue⟩
    · have errors := all.filterMap (fun c => (c.expiry? (s.now.advance d) : Option (WaitResult α)))
      have none : u.waiting.filterMap
          (fun c => (c.expiry? (s.now.advance d) : Option (WaitResult α))) = [] :=
        List.filterMap_eq_nil_iff.mpr fun c waits => Consumer.expiry?_eq_none.mpr (stay c waits)
      rw [List.filterMap_append, none, List.append_nil] at errors
      rw [returned]
      exact errors
    · have others := all.filter (!·.isExpired (s.now.advance d))
      have none : gone.filter (!·.isExpired (s.now.advance d)) = [] :=
        List.filter_eq_nil_iff.mpr fun c left => by simpa using expired c left
      rwa [List.filter_append, none, List.nil_append,
        List.filter_eq_self.mpr fun c waits => by simp [stay c waits]] at others

/-- Two plain consumers and two with limits wait, and two events come in a burst, the second in
front of the first. Two consumers return, and the other two wait on. -/
theorem two_of_four_served :
    let s := (({} : SharedQueue Nat).serve [.consumer, .consumerFor (.ofParts 5 0), .consumer,
      .consumerFor (.ofParts 1 0)]).1
    let t := (s.enqueueTail 1).enqueueHead 2
    (∃ requests results, Run ({ now := .start } : SharedQueue Nat) requests results s) ∧
    s.Settled ∧ s.waiting.length = 4 ∧ t.queue.events = [2, 1] ∧
    Run s [.tail 1, .head 2] [] t ∧ t.settle.2 = [.event 2, .event 1] ∧
    ∀ late u, Run t [] late u → u.Settled →
      u.waiting.length = 2 ∧ ∃ rest, late = rest.map .event ∧ rest ++ u.queue.events = [2, 1] := by
  intro s t
  obtain ⟨results, run⟩ := serve_run ({} : SharedQueue Nat) [.consumer, .consumerFor (.ofParts 5 0),
    .consumer, .consumerFor (.ofParts 1 0)]
  have settled : s.Settled := by decide
  have four : s.waiting.length = 4 := by decide
  have queued : t.queue.events = [2, 1] := by decide
  have entered : Run s [.tail 1, .head 2] [] t := (Run.refl.request (.tail 1)).request (.head 2)
  refine ⟨⟨_, results, run⟩, settled, four, queued, entered, by decide, ?_⟩
  intro late u after settled'
  obtain ⟨-, -, -, served, -⟩ := no_consumer_sleeps_on_work run
  obtain ⟨first, rest, early, same, many, waiting, -, front⟩ :=
    served settled [.tail 1, .head 2] [] t late u (by simp [Request.enqueues]) entered after
      settled'
  obtain rfl := List.map_eq_nil_iff.mp early.symm
  refine ⟨?_, rest, same, front.trans queued⟩
  rw [waiting, many, four]
  rfl

end SharedQueue
end EventEngine
