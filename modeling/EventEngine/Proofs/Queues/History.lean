import EventEngine.Queue.Basic
import Mathlib.Data.List.Induction
import Mathlib.Data.List.Nodup

/-!
# The history of a queue

Calls are made to a queue. Its line is what has been dequeued, then what is pending. An event joins
the line at its end, or ahead of what is pending; everything else only takes events out of the line.
So two events are dequeued as they stand in line when the later one joins it.
-/
namespace EventEngine

/-- Of two entries of a list without repetitions only one comes first. -/
theorem pair_asymm {α : Type} {a b : α} {l : List α} (nodup : l.Nodup)
    (ordered : [a, b].Sublist l) : ¬ [b, a].Sublist l := by
  intro swapped
  induction l with
  | nil => cases ordered
  | cons c l ih =>
    obtain ⟨fresh, nodup⟩ := List.nodup_cons.mp nodup
    cases ordered with
    | cons _ ordered =>
      cases swapped with
      | cons _ swapped => exact ih nodup ordered swapped
      | cons_cons _ _ => exact fresh (ordered.subset (by simp))
    | cons_cons _ last =>
      cases swapped with
      | cons _ swapped => exact fresh (swapped.subset (by simp))
      | cons_cons _ _ => exact fresh (List.singleton_sublist.mp last)

/-- Of two entries of a list one comes first. -/
theorem pair_total {α : Type} {a b : α} {l : List α} (ha : a ∈ l) (hb : b ∈ l) (ne : a ≠ b) :
    [a, b].Sublist l ∨ [b, a].Sublist l := by
  obtain ⟨front, back, rfl⟩ := List.append_of_mem ha
  rcases List.mem_append.mp hb with hb | hb
  · exact .inr ((List.singleton_sublist.mpr hb).append (List.singleton_sublist.mpr (by simp)))
  · have hb : b ∈ back := (List.mem_cons.mp hb).resolve_left (Ne.symm ne)
    exact .inl (.trans (.cons_cons a (List.singleton_sublist.mpr hb))
      (List.sublist_append_right _ _))

/-- Entries of two parts of a list come in the order of the parts. -/
theorem pair_append {α : Type} {a b : α} {front back : List α} (ha : a ∈ front) (hb : b ∈ back) :
    [a, b].Sublist (front ++ back) :=
  (List.singleton_sublist.mpr ha).append (List.singleton_sublist.mpr hb)

/-- What comes before an entry stands in front of it. -/
theorem pair_front {α : Type} {a b : α} {front back : List α} (nodup : (front ++ b :: back).Nodup)
    (ordered : [a, b].Sublist (front ++ b :: back)) : a ∈ front := by
  by_contra absent
  rcases List.mem_append.mp (ordered.subset (List.mem_cons_self ..)) with early | late
  · exact absent early
  · rcases List.mem_cons.mp late with rfl | late
    · exact pair_asymm nodup ordered ordered
    · have swapped : [b, a].Sublist (b :: back) :=
        .cons_cons b (List.singleton_sublist.mpr late)
      exact pair_asymm nodup ordered (swapped.trans (List.sublist_append_right _ _))

/-- Two entries of a list stay in order while it loses entries and others join it that fail `p`. -/
theorem pair_kept {α : Type} {p : α → Bool} {a b : α} {l later part : List α} (nodup : l.Nodup)
    (ordered : [a, b].Sublist l) (old : ∀ c ∈ [a, b], p c = true)
    (lost : (later.filter p).Sublist l) (here : part.Sublist later) (ha : a ∈ part)
    (hb : b ∈ part) : [a, b].Sublist part := by
  have ne : a ≠ b := by
    rintro rfl
    exact pair_asymm nodup ordered ordered
  rcases pair_total ha hb ne with kept | swapped
  · exact kept
  · have inLater := (swapped.trans here).filter p
    simp only [List.filter_cons, old a (by simp), old b (by simp), if_true, List.filter_nil]
      at inLater
    exact absurd (inLater.trans lost) (pair_asymm nodup ordered)

/-- The event that a dequeue brought back. -/
def WaitResult.event? {α : Type} : WaitResult α → Option α
  | .event a => some a
  | _ => none

namespace Queue

variable {α : Type}

/-- A wait fails if an abort is outstanding, else it finds nothing, or it takes the first event. -/
theorem wait_cases (q : Queue α) :
    (q.aborted = true ∧ q.wait = some (.failed .waitAbort, q)) ∨
    (q.aborted = false ∧ q.events = [] ∧ q.wait = none) ∨
    ∃ a rest, q.aborted = false ∧ q.events = a :: rest ∧
      q.wait = some (.event a, { q with events := rest }) := by
  cases flag : q.aborted with
  | true => exact .inl ⟨rfl, by simp [wait, flag]⟩
  | false =>
    cases queued : q.events with
    | nil => exact .inr (.inl ⟨rfl, rfl, by simp [wait, flag, queued]⟩)
    | cons a rest => exact .inr (.inr ⟨a, rest, rfl, rfl, by simp [wait, flag, queued]⟩)

theorem wait_eq_none {q : Queue α} : q.wait = none ↔ q.events = [] ∧ q.aborted = false := by
  rcases q.wait_cases with ⟨aborted, found⟩ | ⟨unaborted, empty, found⟩ |
    ⟨a, rest, unaborted, queued, found⟩ <;> simp [*]

/-- What can be asked of a queue. A wait that finds neither an event nor an abort does not return;
it looks again later, and each of its looks is a `wait`. -/
inductive Call (α : Type) where
  | enqueueTail (a : α)
  | enqueueHead (a : α)
  | tryDequeue
  | wait
  /-- A wait for at most `limit` from `now`. It looks once, and nothing arrives before its end. -/
  | waitFor (now : Instant) (limit : Duration)
  | abort
  | resetAbort
  | clear

/-- A queue and its past: what was enqueued, what the dequeues returned, and what was dropped. -/
structure History (α : Type) where
  queue : Queue α := {}
  enqueued : List α := []
  returned : List (WaitResult α) := []
  dropped : List α := []

def Call.enqueued? : Call α → Option α
  | .enqueueTail a => some a
  | .enqueueHead a => some a
  | _ => none

/-- Whether a call takes an event, if there is one to be had. -/
def Call.dequeues : Call α → Bool
  | .tryDequeue => true
  | .wait => true
  | .waitFor _ _ => true
  | _ => false

namespace History

def dequeued (h : History α) : List α := h.returned.filterMap WaitResult.event?

/-- A dequeue returns. -/
def answer (h : History α) (a : WaitResult α × Queue α) : History α :=
  { h with queue := a.2, returned := h.returned ++ [a.1] }

def after (h : History α) : Call α → History α
  | .enqueueTail a => { h with queue := h.queue.enqueueTail a, enqueued := h.enqueued ++ [a] }
  | .enqueueHead a => { h with queue := h.queue.enqueueHead a, enqueued := h.enqueued ++ [a] }
  | .tryDequeue => h.answer h.queue.tryDequeue
  | .wait => (h.queue.wait.map h.answer).getD h
  | .waitFor now limit => h.answer (h.queue.waitFor now limit)
  | .abort => { h with queue := h.queue.abort }
  | .resetAbort => { h with queue := h.queue.resetAbort }
  | .clear => { h with queue := h.queue.clear, dropped := h.dropped ++ h.queue.events }

def play (h : History α) (calls : List (Call α)) : History α := calls.foldl after h

/-- What has been dequeued, then what is pending. -/
def line (h : History α) : List α := h.dequeued ++ h.queue.events

/-- What a call can do to a queue with its past. -/
inductive Change (h : History α) : Call α → History α → Prop
  | enqueueTail (a : α) : Change h (.enqueueTail a)
      { h with queue := h.queue.enqueueTail a, enqueued := h.enqueued ++ [a] }
  | enqueueHead (a : α) : Change h (.enqueueHead a)
      { h with queue := h.queue.enqueueHead a, enqueued := h.enqueued ++ [a] }
  /-- A dequeue takes the first event. -/
  | take {call : Call α} (a : α) (rest : List α) (dequeues : call.dequeues = true)
      (queued : h.queue.events = a :: rest) :
      Change h call (h.answer (.event a, { h.queue with events := rest }))
  /-- A dequeue returns without an event, or does not return. -/
  | miss {call : Call α} (answers : List (WaitResult α)) (dequeues : call.dequeues = true)
      (empty : answers.filterMap WaitResult.event? = []) :
      Change h call { h with returned := h.returned ++ answers }
  | abort : Change h .abort { h with queue := h.queue.abort }
  | resetAbort : Change h .resetAbort { h with queue := h.queue.resetAbort }
  | clear : Change h .clear
      { h with queue := h.queue.clear, dropped := h.dropped ++ h.queue.events }

variable {h h' : History α} {call : Call α} {calls : List (Call α)} {a b : α}

@[simp] theorem play_nil : h.play [] = h := rfl

@[simp] theorem play_cons : h.play (call :: calls) = (h.after call).play calls := rfl

theorem play_append {more : List (Call α)} : h.play (calls ++ more) = (h.play calls).play more :=
  List.foldl_append

/-- A wait takes the first event, or it returns without an event, or it does not return. -/
theorem change_wait (dequeues : call.dequeues = true) :
    Change h call ((h.queue.wait.map h.answer).getD h) := by
  rcases h.queue.wait_cases with ⟨-, found⟩ | ⟨-, -, found⟩ | ⟨a, rest, -, queued, found⟩ <;>
    rw [found]
  · exact .miss [.failed .waitAbort] dequeues rfl
  · simpa using Change.miss (h := h) [] dequeues rfl
  · exact .take a rest dequeues queued

/-- Every call does one of these. -/
theorem change (h : History α) (call : Call α) : Change h call (h.after call) := by
  cases call with
  | enqueueTail a => exact .enqueueTail a
  | enqueueHead a => exact .enqueueHead a
  | tryDequeue =>
    simp only [after, Queue.tryDequeue]
    split
    · exact .miss [.failed .nonePending] rfl rfl
    · next a rest queued => exact .take a rest rfl queued
  | wait => exact change_wait rfl
  | waitFor now limit =>
    simp only [after, Queue.waitFor_eq]
    cases now.add? limit with
    | none => exact .miss [.overflow] rfl rfl
    | some deadline =>
      cases found : h.queue.wait with
      | none => exact .miss [.failed (timedOut limit)] rfl rfl
      | some a =>
        have waited : Change h (.waitFor now limit) _ := change_wait rfl
        simpa [found] using waited
  | abort => exact .abort
  | resetAbort => exact .resetAbort
  | clear => exact .clear

theorem enqueued_after : (h.after call).enqueued = h.enqueued ++ call.enqueued?.toList := by
  cases call with
  | wait =>
    simp only [after]
    cases h.queue.wait <;> simp [answer, Call.enqueued?]
  | _ => simp [after, answer, Call.enqueued?]

theorem enqueued_play (h : History α) (calls : List (Call α)) :
    (h.play calls).enqueued = h.enqueued ++ calls.filterMap Call.enqueued? := by
  induction calls generalizing h with
  | nil => simp
  | cons call calls ih =>
    rw [play_cons, ih, enqueued_after, List.append_assoc]
    cases entered : call.enqueued? <;> simp [entered]

/-- The books of a queue agree with its past: what was enqueued is pending, dequeued or dropped. -/
def Balanced (h : History α) : Prop :=
  h.enqueued.Perm (h.queue.events ++ h.dequeued ++ h.dropped)

theorem Change.balanced (change : Change h call h') (balanced : h.Balanced) : h'.Balanced := by
  classical
  refine List.perm_iff_count.mpr fun b => ?_
  have counts := List.perm_iff_count.mp balanced b
  simp only [List.count_append] at counts ⊢
  cases change with
  | enqueueTail a | enqueueHead a =>
    simp [dequeued, List.count_cons] at counts ⊢
    omega
  | take a rest _ queued =>
    simp [answer, dequeued, WaitResult.event?, queued, List.count_cons] at counts ⊢
    omega
  | miss answers _ empty => simpa [dequeued, empty] using counts
  | abort | resetAbort => exact counts
  | clear =>
    simp [dequeued] at counts ⊢
    omega

theorem Balanced.play (balanced : h.Balanced) (calls : List (Call α)) :
    (h.play calls).Balanced := by
  induction calls generalizing h with
  | nil => exact balanced
  | cons call calls ih => exact ih ((h.change call).balanced balanced)

theorem Balanced.line_nodup (balanced : h.Balanced) (nodup : h.enqueued.Nodup) : h.line.Nodup := by
  have parts := (balanced.nodup_iff.mp nodup).sublist (List.sublist_append_left _ _)
  exact (List.perm_append_comm.nodup_iff.mp parts)

theorem Balanced.mem_enqueued (balanced : h.Balanced) (member : a ∈ h.line) : a ∈ h.enqueued := by
  refine balanced.symm.subset (List.mem_append_left _ ?_)
  exact List.perm_append_comm.subset member

/-- An event joins the line at its end, or ahead of what is pending; nothing else joins it. -/
theorem Change.line_cases (change : Change h call h') :
    (∃ a, call = .enqueueTail a ∧ h'.line = h.line ++ [a]) ∨
    (∃ a, call = .enqueueHead a ∧ h'.line = h.dequeued ++ a :: h.queue.events) ∨
    h'.line.Sublist h.line := by
  cases change with
  | enqueueTail a => exact .inl ⟨a, rfl, by simp [line, dequeued]⟩
  | enqueueHead a => exact .inr (.inl ⟨a, rfl, rfl⟩)
  | take a rest _ queued =>
    refine .inr (.inr ?_)
    simp [line, dequeued, answer, WaitResult.event?, queued]
  | miss answers _ empty =>
    refine .inr (.inr ?_)
    simp [line, dequeued, empty]
  | abort | resetAbort => exact .inr (.inr (.refl _))
  | clear =>
    refine .inr (.inr ?_)
    simp [line, dequeued]

open Classical in
/-- As calls go on, the line loses events, and those that join are new. -/
theorem line_play (h : History α) (calls : List (Call α))
    (nodup : (h.play calls).enqueued.Nodup) :
    ((h.play calls).line.filter (· ∈ h.enqueued)).Sublist h.line := by
  induction calls using List.reverseRecOn with
  | nil => exact List.filter_sublist
  | append_singleton calls call ih =>
    rw [play_append, play_cons, play_nil] at nodup ⊢
    rw [enqueued_after] at nodup
    have lost := ih (nodup.sublist (List.sublist_append_left _ _))
    have late : ∀ a, call.enqueued? = some a → a ∉ h.enqueued := by
      intro a joins early
      rw [joins, enqueued_play] at nodup
      exact List.disjoint_of_nodup_append nodup (List.mem_append_left _ early) (by simp)
    rcases ((h.play calls).change call).line_cases with ⟨a, rfl, joined⟩ | ⟨a, rfl, joined⟩ | fewer
    · rw [joined]
      simpa [List.filter_append, late a rfl] using lost
    · rw [joined]
      simpa [List.filter_append, List.filter_cons, late a rfl, line] using lost
    · exact (fewer.filter _).trans lost

theorem dequeued_sublist_line : h.dequeued.Sublist h.line := List.sublist_append_left _ _

open Classical in
/-- What was enqueued and is dequeued later stands in line meanwhile. -/
theorem mem_line (nodup : (h.play calls).enqueued.Nodup) (member : a ∈ h.enqueued)
    (later : a ∈ (h.play calls).dequeued) : a ∈ h.line := by
  refine (line_play h calls nodup).subset (List.mem_filter.mpr ⟨?_, decide_eq_true member⟩)
  exact dequeued_sublist_line.subset later

/-- Events are dequeued in the order in which they stand in line. -/
theorem Balanced.dequeued_as_in_line (balanced : h.Balanced)
    (nodup : (h.play calls).enqueued.Nodup) (ordered : [a, b].Sublist h.line)
    (ha : a ∈ (h.play calls).dequeued) (hb : b ∈ (h.play calls).dequeued) :
    [a, b].Sublist (h.play calls).dequeued := by
  classical
  have nodup' : h.line.Nodup := by
    rw [enqueued_play] at nodup
    exact balanced.line_nodup (nodup.sublist (List.sublist_append_left _ _))
  have old : ∀ c ∈ [a, b], decide (c ∈ h.enqueued) = true := fun c member =>
    decide_eq_true (balanced.mem_enqueued (ordered.subset member))
  exact pair_kept nodup' ordered old (line_play h calls nodup) dequeued_sublist_line ha hb

/-- Of two events the later one is dequeued first just if it was put at the head while the earlier
one was pending. -/
theorem Balanced.overtakes_iff (balanced : h.Balanced)
    (nodup : (h.play (call :: calls)).enqueued.Nodup) (joins : call.enqueued? = some b)
    (early : a ∈ h.enqueued) (ha : a ∈ (h.play (call :: calls)).dequeued)
    (hb : b ∈ (h.play (call :: calls)).dequeued) :
    [b, a].Sublist (h.play (call :: calls)).dequeued ↔
      call = .enqueueHead b ∧ a ∈ h.queue.events := by
  have balanced' : (h.play (call :: calls)).Balanced := balanced.play _
  have inLine : a ∈ h.line := mem_line nodup early ha
  have once := (balanced'.line_nodup nodup).sublist dequeued_sublist_line
  have ordered : ∀ {c d}, [c, d].Sublist (h.after call).line →
      c ∈ (h.play (call :: calls)).dequeued → d ∈ (h.play (call :: calls)).dequeued →
      [c, d].Sublist (h.play (call :: calls)).dequeued :=
    fun ordered => ((h.change call).balanced balanced).dequeued_as_in_line nodup ordered
  cases call with
  | enqueueTail c =>
    obtain rfl : c = b := Option.some.inj joins
    have joined : (h.after (.enqueueTail c)).line = h.line ++ [c] := by
      simp [line, dequeued, after]
    refine iff_of_false (fun swapped => ?_) nofun
    exact pair_asymm once swapped (ordered (joined ▸ pair_append inLine (by simp)) ha hb)
  | enqueueHead c =>
    obtain rfl : c = b := Option.some.inj joins
    have joined : (h.after (.enqueueHead c)).line = h.dequeued ++ c :: h.queue.events := rfl
    simp only [true_and]
    constructor
    · intro swapped
      by_contra gone
      have served : a ∈ h.dequeued := (List.mem_append.mp inLine).resolve_right gone
      exact pair_asymm once swapped (ordered (joined ▸ pair_append served (by simp)) ha hb)
    · intro pending
      have ahead := (List.Sublist.cons_cons c (List.singleton_sublist.mpr pending)).trans
        (List.sublist_append_right h.dequeued _)
      exact ordered (joined ▸ ahead) hb ha
  | _ => cases joins

end History

/-- The history of a queue that is empty at first. -/
def history (calls : List (Call α)) : History α := ({} : History α).play calls

variable {calls : List (Call α)} {a b : α}

theorem balanced_history (calls : List (Call α)) : (history calls).Balanced := by
  have empty : ({} : History α).Balanced := List.Perm.nil
  exact empty.play calls

/-- Of two events that are dequeued the one enqueued later comes out first just if it was put at the
head while the other one was pending. -/
theorem dequeued_first_iff (nodup : (history calls).enqueued.Nodup)
    (ordered : [a, b].Sublist (history calls).enqueued) (ha : a ∈ (history calls).dequeued)
    (hb : b ∈ (history calls).dequeued) :
    [b, a].Sublist (history calls).dequeued ↔
      ∃ before after, calls = before ++ .enqueueHead b :: after ∧
        a ∈ (history before).queue.events := by
  constructor
  · intro swapped
    have joined : b ∈ (history calls).enqueued := ordered.subset (by simp)
    rw [history, History.enqueued_play, List.nil_append] at joined
    obtain ⟨call, member, joins⟩ := List.mem_filterMap.mp joined
    obtain ⟨before, after, rfl⟩ := List.append_of_mem member
    have parts : (history (before ++ call :: after)).enqueued =
        (history before).enqueued ++ b :: after.filterMap Call.enqueued? := by
      simp [history, History.enqueued_play, joins]
    have early : a ∈ (history before).enqueued :=
      pair_front (parts ▸ nodup) (parts ▸ ordered)
    rw [history, History.play_append] at nodup ha hb swapped
    obtain ⟨rfl, pending⟩ :=
      ((balanced_history before).overtakes_iff nodup joins early ha hb).mp swapped
    exact ⟨before, after, rfl, pending⟩
  · rintro ⟨before, after, rfl, pending⟩
    have early : a ∈ (history before).enqueued :=
      (balanced_history before).mem_enqueued (List.mem_append_right _ pending)
    rw [history, History.play_append] at nodup ha hb ⊢
    exact ((balanced_history before).overtakes_iff nodup rfl early ha hb).mpr ⟨rfl, pending⟩

end Queue
end EventEngine
