import EventEngine.Proofs.DispatchOrder
import Mathlib.Data.Finset.Card
import Mathlib.Data.String.Basic

/-!
# Routing

An event belongs to the first registration of its name. The registration is looked up when the event
is signalled, and the record in the queue carries it. Since a handler keeps its types, the
dispatcher that a record is handed to is the one that its name would lead to at any time, whatever
became of the handler in between.
-/
namespace EventEngine

variable {π : Type}

open Occurrence

def Registration.first? (registrations : List Registration) (name : String) :
    Option Registration :=
  registrations.find? (·.name == name)

def Registration.names (registrations : List Registration) : List String :=
  registrations.map (·.name)

theorem Registration.isSome_first?_iff {registrations : List Registration} {name : String} :
    (first? registrations name).isSome = true ↔ name ∈ names registrations := by
  simp [first?, names]

namespace EventTypes

variable {types : EventTypes} {registrations : List Registration} {name : String}

/-- A name that is taken keeps its registration. -/
theorem find?_register (r : Registration) : (types.register r).find? name =
    (types.find? name).or (if r.name == name then some r else none) := by
  unfold register
  split
  · next taken =>
    split
    · next same =>
      rw [beq_iff_eq] at same
      obtain ⟨r', found⟩ := Option.isSome_iff_exists.mp (same ▸ taken : types.contains name = true)
      have found' : types.find? name = some r' := found
      rw [found', Option.some_or]
    · rw [Option.or_none]
  · rw [find?, List.find?_append, List.find?_singleton]
    rfl

theorem find?_foldl_register (registrations : List Registration) (types : EventTypes) :
    (registrations.foldl register types).find? name =
      (types.find? name).or (Registration.first? registrations name) := by
  induction registrations generalizing types with
  | nil => simp [Registration.first?]
  | cons r rest ih =>
    rw [List.foldl_cons, ih, find?_register, Option.or_assoc]
    cases same : r.name == name <;> simp [Registration.first?, same]

/-- A name leads to its first registration. -/
theorem find?_ofList (registrations : List Registration) (name : String) :
    (ofList registrations).find? name = Registration.first? registrations name :=
  find?_foldl_register registrations {}

theorem resolve_ofList_eq_ok_iff {r : Registration} :
    (ofList registrations).resolve name = .ok r ↔
      Registration.first? registrations name = some r := by
  unfold resolve
  rw [find?_ofList]
  cases Registration.first? registrations name <;> simp

theorem resolve_ofList_of_unknown (unknown : name ∉ Registration.names registrations) :
    (ofList registrations).resolve name = .error (.unknownType name) := by
  have none : Registration.first? registrations name = none := by
    rwa [← Option.not_isSome_iff_eq_none, Registration.isSome_first?_iff]
  rw [resolve, find?_ofList, none]

/-! ## The table -/

theorem mem_table_names_iff :
    name ∈ types.table.map (·.name) ↔ types.contains name = true := by
  simp [contains, find?]

theorem nodup_register {r : Registration} (distinct : (types.table.map (·.name)).Nodup) :
    ((types.register r).table.map (·.name)).Nodup := by
  unfold register
  split
  · exact distinct
  · next free =>
    rw [List.map_append, List.map_singleton, ← List.concat_eq_append]
    refine distinct.concat ?_
    rwa [mem_table_names_iff]

theorem nodup_ofList (registrations : List Registration) :
    ((ofList registrations).table.map (·.name)).Nodup := by
  have steps : ∀ (types : EventTypes), (types.table.map (·.name)).Nodup →
      ((registrations.foldl register types).table.map (·.name)).Nodup := by
    induction registrations with
    | nil => exact fun _ distinct => distinct
    | cons r rest ih => exact fun types distinct => ih _ (nodup_register distinct)
  exact steps {} List.nodup_nil

/-- The table holds each of the registered names once. -/
theorem table_names_perm (registrations : List Registration) :
    ((ofList registrations).table.map (·.name)).Perm (Registration.names registrations).dedup := by
  rw [List.perm_ext_iff_of_nodup (nodup_ofList registrations) (List.nodup_dedup _)]
  intro name
  rw [mem_table_names_iff, contains, find?_ofList, Registration.isSome_first?_iff, List.mem_dedup]

theorem length_ofList (registrations : List Registration) :
    (ofList registrations).length = (Registration.names registrations).toFinset.card := by
  have same := (table_names_perm registrations).length_eq
  rw [List.length_map] at same
  rw [length, same, List.card_toFinset]

theorem names_perm_table (types : EventTypes) : types.names.Perm (types.table.map (·.name)) :=
  List.mergeSort_perm _ _

theorem mem_names_ofList_iff :
    name ∈ (ofList registrations).names ↔ name ∈ Registration.names registrations := by
  rw [(names_perm_table _).mem_iff, (table_names_perm _).mem_iff, List.mem_dedup]

theorem names_pairwise_lt (registrations : List Registration) :
    (ofList registrations).names.Pairwise (· < ·) := by
  have sorted : (ofList registrations).names.Pairwise (· ≤ ·) := by
    refine (List.pairwise_mergeSort ?_ ?_ _).imp of_decide_eq_true
    · simpa using fun a b c => String.le_trans
    · simpa using String.le_total
  have distinct : (ofList registrations).names.Nodup :=
    (names_perm_table _).nodup_iff.mpr (nodup_ofList registrations)
  exact (sorted.and distinct).imp fun ⟨le, ne⟩ => lt_of_le_of_ne le ne

end EventTypes

/-! ## Records keep to the registrations -/

/-- A queued event carries the registration of its type. -/
def RecordBody.Routed (types : EventTypes) : RecordBody π → Prop
  | .event registration e => types.resolve e.typeName = .ok registration
  | .timeout _ _ => True

namespace Handler

variable {h : HandlerId} {x x' : Handler π} {notes story : List (Occurrence π)}

/-- A turn accepts no record that is not routed. -/
theorem Turn.routed (turn : Turn h x notes x')
    (routed : ∀ record ∈ accepted story, record.body.Routed x.types) :
    ∀ record ∈ accepted (notes ++ story), record.body.Routed x'.types := by
  rw [turn.fixed.2.2]
  cases turn with
  | enqueue place body admits =>
    -- the only turn that accepts a record; it has been admitted by the types
    intro record member
    rw [List.singleton_append, accepted_cons, List.mem_append] at member
    rcases member with earlier | new
    · exact routed record earlier
    · obtain rfl : record = x.nextRecord body := by simpa [accepted?] using new
      cases body with
      | event registration e => exact admits
      | timeout setup e => trivial
  | panic record since _ =>
    intro record' member
    rw [List.append_assoc, accepted_exitStory] at member
    exact routed record' (by simpa [accepted?] using member)
  | leave _ _ =>
    intro record member
    rw [accepted_exitStory] at member
    exact routed record member
  | _ => simpa [accepted?] using routed

end Handler

namespace World

variable {h : HandlerId} {x x₀ : Handler π} {v w w₀ : World π}

theorem Reachable.routed (reach : Reachable w) (hx : w.handlers[h]? = some x) :
    ∀ record ∈ accepted (w.story h), record.body.Routed x.types :=
  reach.turns (P := fun x story => ∀ record ∈ accepted story, record.body.Routed x.types)
    (fun _ _ => by simp) (fun _ _ _ _ routed turn => turn.routed routed) x.outline
    (outline?_eq_some.mpr ⟨x, hx, rfl⟩)

theorem Run.types_outline (run : Run v w) (hy : w.outline? h = some x) :
    ∃ x₀, v.outline? h = some x₀ ∧ x.types = x₀.types := by
  induction run generalizing x with
  | refl => exact ⟨x, hy, rfl⟩
  | tail before step ih =>
    obtain ⟨y, hy, -, -, kept⟩ := step.fixed hy
    obtain ⟨x₀, hx, earlier⟩ := ih hy
    exact ⟨x₀, hx, kept.trans earlier⟩

/-- A handler keeps its types in a whole run. -/
theorem Run.types (run : Run v w) (hx : v.handlers[h]? = some x₀) (hy : w.handlers[h]? = some x) :
    x.types = x₀.types := by
  obtain ⟨z, hz, same⟩ := run.types_outline (outline?_eq_some.mpr ⟨x, hy, rfl⟩)
  obtain ⟨y, hy', rfl⟩ := outline?_eq_some.mp hz
  obtain rfl := Option.some.inj (hx.symm.trans hy')
  exact same

theorem perform_signal (found : w.find? h = some x) (who : Caller) (place : Place) (name : String)
    (payload : π) (script : List (Action π)) :
    w.perform who (.signal h place name payload script) =
      match x.types.resolve name with
      | .ok r => (w.enqueue h x place (.event r ⟨name, payload, script⟩), .replied .done)
      | .error e => (w.note (.refused h e), .replied (.failed e)) := by
  simp only [perform, withHandler, found, signal]
  cases x.types.resolve name <;> rfl

/-- A signal queues its event with the first registration of its type, or is refused and changes no
handler if there is none. An event that has been dispatched went to the first registration of its
type, however long it was queued and whatever happened meanwhile. The table counts each name once
and lists the names in increasing order. -/
theorem routed_by_first_registration (fresh : Fresh w₀) (run : Run w₀ w)
    {registrations : List Registration} (created : w₀.handlers[h]? = some x₀)
    (registered : x₀.types = .ofList registrations) (hx : w.handlers[h]? = some x) :
    (x.isDestroyed = false → ∀ who place name payload script,
      let after := w.perform who (.signal h place name payload script)
      (after.2 = .replied .done ↔ name ∈ Registration.names registrations) ∧
      (name ∈ Registration.names registrations →
        ∃ r, Registration.first? registrations name = some r ∧
          after.1 = w.enqueue h x place (.event r ⟨name, payload, script⟩)) ∧
      (name ∉ Registration.names registrations →
        after.2 = .replied (.failed (.unknownType name)) ∧
        after.1 = w.note (.refused h (.unknownType name)) ∧ after.1.handlers = w.handlers)) ∧
    (∀ record ∈ dispatched (w.story h), ∀ r e, record.body = .event r e →
      Registration.first? registrations e.typeName = some r) ∧
    x.types.length = (Registration.names registrations).toFinset.card ∧
    x.types.names.Pairwise (· < ·) ∧
    ∀ name, name ∈ x.types.names ↔ name ∈ Registration.names registrations := by
  have reach : Reachable w := ⟨w₀, fresh, run⟩
  have types : x.types = .ofList registrations := (run.types created hx).trans registered
  refine ⟨?_, ?_, ?_, ?_, ?_⟩
  · intro alive who place name payload script after
    have signalled : after = _ :=
      perform_signal (find?_eq_some.mpr ⟨hx, alive⟩) who place name payload script
    rw [types] at signalled
    by_cases known : name ∈ Registration.names registrations
    · obtain ⟨r, first⟩ :=
        Option.isSome_iff_exists.mp (Registration.isSome_first?_iff.mpr known)
      rw [EventTypes.resolve_ofList_eq_ok_iff.mpr first] at signalled
      rw [signalled]
      exact ⟨iff_of_true rfl known, fun _ => ⟨r, first, rfl⟩, fun unknown => absurd known unknown⟩
    · rw [EventTypes.resolve_ofList_of_unknown known] at signalled
      rw [signalled]
      exact ⟨iff_of_false (by simp) known, fun known' => absurd known' known,
        fun _ => ⟨rfl, rfl, rfl⟩⟩
  · intro record member r e body
    have accepted : record ∈ accepted (w.story h) :=
      (reach.accounted hx).mem_accepted (Handler.dispatched_sublist_line.subset member)
    have routed := reach.routed hx record accepted
    rw [body, types] at routed
    exact EventTypes.resolve_ofList_eq_ok_iff.mp routed
  · rw [types, EventTypes.length_ofList]
  · rw [types]
    exact EventTypes.names_pairwise_lt registrations
  · intro name
    rw [types]
    exact EventTypes.mem_names_ofList_iff

/-- Three events wait for the first start. The dispatcher of the first panics, so that the others
wait for the second start; the one in between has a name that is registered twice. -/
theorem waiting_events_keep_their_registration :
    let registrations : List Registration := [⟨"B", "b"⟩, ⟨"A", "a"⟩, ⟨"A", "again"⟩]
    let v : World Nat :=
      { handlers := [{ config := { name := "routed" }, types := .ofList registrations }] }
    let w := v.steps 20 [.act (.signal 0 .tail "B" 1 [.signal 0 .tail "C" 2 [], .panic]),
      .act (.signal 0 .tail "A" 3 []), .act (.signal 0 .tail "B" 4 []), .act (.start 0),
      .act (.start 0)]
    (dispatched (w.story 0)).map (·.body.typeName) = ["B", "A", "B"] ∧
    (∀ record ∈ dispatched (w.story 0), ∀ r e, record.body = .event r e → e.typeName = "A" →
      r = ⟨"A", "a"⟩) ∧
    (w.perform .outside (.signal 0 .head "A" 5 [])).2 = .replied .done ∧
    (w.perform .outside (.signal 0 .head "C" 6 [])).2 = .replied (.failed (.unknownType "C")) ∧
    (w.handlers[0]?).map (·.types.length) = some 2 := by
  intro registrations v w
  have fresh : Fresh v := by
    refine fresh_of_handlers 1 0 fun x hx => ?_
    exact ⟨_, _, _, _, _, _, List.mem_singleton.mp hx⟩
  have run : Run v w := steps_run 20 v _
  have alive : (w.find? 0).isSome = true := by decide +kernel
  obtain ⟨x, found⟩ := Option.isSome_iff_exists.mp alive
  obtain ⟨hx, standing⟩ := find?_eq_some.mp found
  obtain ⟨signals, routed, count, -⟩ := routed_by_first_registration fresh run rfl rfl hx
  refine ⟨by decide +kernel, ?_, ?_, ?_, ?_⟩
  · intro record member r e body name
    have first := routed record member r e body
    rw [name] at first
    exact Option.some.inj (first.symm.trans rfl)
  · exact (signals standing .outside .head "A" 5 []).1.mpr (by decide)
  · exact ((signals standing .outside .head "C" 6 []).2.2 (by decide)).1
  · rw [hx, Option.map_some, count]
    rfl

end World
end EventEngine
