import EventEngine.Proofs.Delivery

/-!
# The mail

Of all that has happened in a world the mail keeps what is about records: which of them have joined
a queue, which dispatches have begun, and whether anything has failed. What one handler accepts and
dispatches can be read off it, and so can a state that only dispatches change.
-/
namespace EventEngine

variable {π : Type}

/-- The part of a history that is about records which join a queue, dispatches which begin, and what
fails. -/
inductive Mail (π : Type) where
  | arrived (h : HandlerId) (place : Place) (record : Record π)
  | began (h : HandlerId) (record : Record π)
  /-- An event is refused, or an action of a dispatcher has another answer than success, or the
  dispatcher panics. -/
  | failed (h : HandlerId)

def Occurrence.mail? : Occurrence π → Option (Mail π)
  | enqueued h place record => some (.arrived h place record)
  | began h record => some (.began h record)
  | replied _ .done => none
  | refused h _ | replied h _ | panicked h _ => some (.failed h)
  | _ => none

namespace Mail

variable {β : Type}

/-- The record, if it has joined the queue of this handler. -/
def accepted? (h : HandlerId) : Mail π → Option (Record π)
  | arrived g _ record => if g = h then some record else none
  | _ => none

/-- The record, if its dispatch by this handler has begun. -/
def dispatched? (h : HandlerId) : Mail π → Option (Record π)
  | began g record => if g = h then some record else none
  | _ => none

/-- What is read from a record that joins a queue. -/
def arriving? (read? : Record π → Option β) : Mail π → Option β
  | arrived _ _ record => read? record
  | _ => none

/-- What is read from a record whose dispatch begins. -/
def beginning? (read? : Record π → Option β) : Mail π → Option β
  | began _ record => read? record
  | _ => none

end Mail

namespace World

/-- What has joined the queues, what has been dispatched and what has failed, the latest first. -/
def mail (w : World π) : List (Mail π) := w.history.filterMap Occurrence.mail?

variable {β : Type} {v w : World π} {o : Occurrence π} {m : Mail π} {read? : Record π → Option β}

/-- What is read from the records that have joined the queues, in order. -/
def arrivals (w : World π) (read? : Record π → Option β) : List β :=
  w.mail.reverse.filterMap (Mail.arriving? read?)

/-- What is read from the records whose dispatches have begun, in order. -/
def beginnings (w : World π) (read? : Record π → Option β) : List β :=
  w.mail.reverse.filterMap (Mail.beginning? read?)

theorem arrivals_cons (mail : w.mail = m :: v.mail) :
    w.arrivals read? = v.arrivals read? ++ (m.arriving? read?).toList := by
  cases told : m.arriving? read? <;> simp [arrivals, mail, told]

theorem beginnings_cons (mail : w.mail = m :: v.mail) :
    w.beginnings read? = v.beginnings read? ++ (m.beginning? read?).toList := by
  cases told : m.beginning? read? <;> simp [beginnings, mail, told]

theorem mail_note (w : World π) (o : Occurrence π) :
    (w.note o).mail = o.mail?.toList ++ w.mail := by
  cases told : o.mail? <;> simp [mail, told]

/-- A state that only the beginnings of dispatches change is seen to be what the records in them
make of it. -/
theorem view_history {σ τ : Type} {observe : Occurrence π → σ → σ} {next : τ → β → τ} {start : σ}
    (view : σ → τ) (other : ∀ o a, (∀ h record, o ≠ .began h record) → observe o a = a)
    (begins : ∀ h record a,
      view (observe (.began h record) a) = (read? record).toList.foldl next (view a))
    (w : World π) :
    view (w.history.foldr observe start) = (w.beginnings read?).foldl next (view start) := by
  have each : ∀ o a, view (observe o a) =
      (o.mail?.bind (Mail.beginning? read?)).toList.foldl next (view a) := by
    intro o a
    cases o with
    | began h record => exact begins h record a
    | replied h reply => cases reply <;> exact congrArg view (other _ a (by simp))
    | _ => exact congrArg view (other _ a (by simp))
  unfold beginnings mail
  induction w.history with
  | nil => rfl
  | cons o rest ih =>
    have later : ((o :: rest).filterMap Occurrence.mail?).reverse.filterMap
        (Mail.beginning? read?) =
          (rest.filterMap Occurrence.mail?).reverse.filterMap (Mail.beginning? read?) ++
            (o.mail?.bind (Mail.beginning? read?)).toList := by
      cases told : o.mail? with
      | none => simp [told]
      | some m => cases begun : m.beginning? read? <;> simp [told, begun]
    rw [List.foldr_cons, each, ih, later, List.foldl_append]

theorem mail_setClock (c : ClockId) (k : Clock AlarmOwner) (notices : List ClockNotice) :
    (w.setClock c k notices).mail = w.mail := by
  have silent : (notices.map (.clock c) : List (Occurrence π)).reverse.filterMap
      Occurrence.mail? = [] := by
    simp [List.filterMap_eq_nil_iff, Occurrence.mail?]
  simp only [mail, setClock, List.filterMap_append, silent, List.nil_append]

theorem mail_setHolder (lock : Option LockId) (who : Option Caller) :
    (w.setHolder lock who).mail = w.mail := by
  simp [mail]

/-- The records put on the queue of a handler, in order. -/
theorem accepted_story (w : World π) (h : HandlerId) : Occurrence.accepted (w.story h) =
    w.mail.reverse.filterMap (Mail.accepted? h) := by
  simp only [Occurrence.accepted, story, mail, List.filterMap_reverse, List.filterMap_filter,
    List.filterMap_filterMap]
  refine congrArg (fun f => (w.history.filterMap f).reverse) (funext fun o => ?_)
  cases o with
  | replied _ reply => cases reply <;> rfl
  | _ => simp [Occurrence.milestone?, Occurrence.accepted?, Occurrence.mail?, Mail.accepted?]

/-- The records handed to the dispatchers of a handler, in order. -/
theorem dispatched_story (w : World π) (h : HandlerId) : Occurrence.dispatched (w.story h) =
    w.mail.reverse.filterMap (Mail.dispatched? h) := by
  simp only [Occurrence.dispatched, story, mail, List.filterMap_reverse, List.filterMap_filter,
    List.filterMap_filterMap]
  refine congrArg (fun f => (w.history.filterMap f).reverse) (funext fun o => ?_)
  cases o with
  | replied _ reply => cases reply <;> rfl
  | _ => simp [Occurrence.milestone?, Occurrence.dispatched?, Occurrence.mail?, Mail.dispatched?]

theorem mem_mail_of_mem_story {h : HandlerId} {place : Place} {record : Record π}
    (told : .enqueued h place record ∈ w.story h) : .arrived h place record ∈ w.mail :=
  List.mem_filterMap.mpr ⟨_, (List.mem_filter.mp told).1, rfl⟩

end World
end EventEngine
