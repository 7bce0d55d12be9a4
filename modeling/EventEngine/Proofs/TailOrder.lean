import EventEngine.Proofs.DispatchOrder

/-!
# The order of records that join at the tail

Whatever is put ahead of a queue, the records that join at its tail stay in their order. So, as long
as nothing is discarded, records of a kind that never goes ahead are dispatched as they were queued.
-/
namespace EventEngine

variable {π : Type} {h : HandlerId}

open Occurrence

namespace Handler

variable {x x' : Handler π} {notes story : List (Occurrence π)} {p : Record π → Bool}

/-- A turn that discards nothing takes nothing out of the line either. -/
theorem Turn.line_eq (turn : Turn h x notes x') (books : x.Accounted story)
    (kept : discarded (notes ++ story) = discarded story)
    (accepts : accepted (notes ++ story) = accepted story)
    (fewer : (x'.line (notes ++ story)).Sublist (x.line story)) :
    x'.line (notes ++ story) = x.line story := by
  have before := books.line_perm.length_eq
  have after := (turn.accounted books).line_perm.length_eq
  rw [kept, accepts] at after
  simp only [List.length_append] at before after
  exact fewer.eq_of_length (by omega)

/-- Records that join at the tail stand in line as they were accepted. -/
theorem Turn.in_order (turn : Turn h x notes x') (books : x.Accounted story)
    (kept : discarded (notes ++ story) = discarded story)
    (tail : ∀ record, .enqueued h .head record ∈ notes → p record = false)
    (ordered : (x.line story).filter p = (accepted story).filter p) :
    (x'.line (notes ++ story)).filter p = (accepted (notes ++ story)).filter p := by
  rcases turn.line_cases story with ⟨place, body, rfl, rfl⟩ | ⟨-, accepts, fewer⟩
  · rw [List.singleton_append, line_enqueue, accepted_cons, List.filter_append, ← ordered]
    cases place with
    | tail => simp [accepted?]
    | head =>
      have passed := tail _ (List.mem_singleton_self _)
      simp [line, accepted?, passed]
  · rw [turn.line_eq books kept accepts fewer, accepts, ordered]

end Handler

namespace World

variable {w : World π} {x : Handler π} {p : Record π → Bool}

theorem discarded_append_eq_nil {notes story : List (Occurrence π)}
    (none : discarded (notes ++ story) = []) : discarded notes = [] ∧ discarded story = [] := by
  simpa [discarded, and_comm] using none

/-- Records of a kind that never goes ahead stand in line as they were accepted, unless some record
has been discarded. -/
theorem Reachable.in_order (reach : Reachable w) (hx : w.outline? h = some x)
    (none : discarded (w.story h) = [])
    (tail : ∀ record, .enqueued h .head record ∈ w.story h → p record = false) :
    (x.line (w.story h)).filter p = (accepted (w.story h)).filter p := by
  refine (reach.turns (h := h) (P := fun x story => x.Accounted story ∧ (discarded story = [] →
    (∀ record, .enqueued h .head record ∈ story → p record = false) →
      (x.line story).filter p = (accepted story).filter p)) ?_ ?_ x hx).2 none tail
  · intro x new
    refine ⟨Handler.accounted_new x new, fun _ _ => ?_⟩
    obtain ⟨_, _, _, _, _, _, rfl⟩ := new
    rfl
  · intro x notes x' story ⟨books, ordered⟩ turn
    refine ⟨turn.accounted books, fun none tail => ?_⟩
    obtain ⟨-, none'⟩ := discarded_append_eq_nil none
    have before := ordered none' fun record told => tail record (List.mem_append_right _ told)
    exact turn.in_order books (none.trans none'.symm)
      (fun record told => tail record (List.mem_append_left _ told)) before

end World
end EventEngine
