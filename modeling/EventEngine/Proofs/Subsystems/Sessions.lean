import EventEngine.Proofs.Subsystems.Deeds

/-!
# Sessions with the subsystems

Whatever is asked of the subsystems, in one request or in a batch, comes to deeds in a row: those
that are asked for, and moves of the threads between them and after them. So what holds of every run
holds whenever requests have been carried out.
-/
namespace EventEngine
namespace Subsystems

variable {s t : Subsystems} {d : Deed} {asked asked' deeds deeds' : List Deed}

def Deed.isMove : Deed → Bool
  | worker _ | timer _ _ => true
  | _ => false

/-- What a request asks for. -/
def deedsOf : SubsystemRequest → List Deed
  | .tellWallet place e => [.tellWallet place e]
  | .tellPeers place e => [.tellPeers place e]
  | .startAll => [.start wallet, .start peers]
  | .stopAll => [.stop peers, .stop wallet]
  | .start h => [.start h]
  | .stop h => [.stop h]
  | .clear h => [.clear h]
  | .describe => []
  | .advance d => [.advance d]

/-- What is done is asked for or a move, and everything that is to be signalled is signalled, in
order. A start after one that has failed is left out. -/
structure Follows (asked deeds : List Deed) : Prop where
  only : ∀ d ∈ deeds, d.isMove = true ∨ d ∈ asked
  told : deeds.filter Deed.tells = asked.filter Deed.tells

namespace Follows

theorem moves (moves : ∀ d ∈ deeds, d.isMove = true) : Follows [] deeds := by
  refine ⟨fun d member => .inl (moves d member), List.filter_eq_nil_iff.mpr fun d member => ?_⟩
  have moves := moves d member
  cases d <;> simp_all [Deed.isMove, Deed.tells]

theorem append (first : Follows asked deeds) (second : Follows asked' deeds') :
    Follows (asked ++ asked') (deeds ++ deeds') := by
  refine ⟨fun d member => ?_, ?_⟩
  · rcases List.mem_append.mp member with member | member
    · exact (first.only d member).imp_right (List.mem_append_left _)
    · exact (second.only d member).imp_right (List.mem_append_right _)
  · rw [List.filter_append, List.filter_append, first.told, second.told]

theorem single (d : Deed) (moves : ∀ d ∈ deeds, d.isMove = true) : Follows [d] (d :: deeds) := by
  have alone : Follows [d] [d] := ⟨fun _ member => .inr member, rfl⟩
  exact alone.append (.moves moves)

end Follows

/-! ## The threads run -/

theorem move?_deed (moved : s.move? = some t) :
    ∃ d : Deed, d.isMove = true ∧ t = s.after d.operation := by
  unfold World.move? at moved
  rw [Option.or_eq_some_iff] at moved
  rcases moved with moved | ⟨-, moved⟩
  · obtain ⟨c, -, ready⟩ := List.exists_of_findSome?_eq_some moved
    obtain ⟨thread, -, moved⟩ := Option.bind_eq_some_iff.mp ready
    exact ⟨.timer c thread.generation, rfl, by rw [after_timer, moved]; rfl⟩
  · obtain ⟨h, -, moved⟩ := List.exists_of_findSome?_eq_some moved
    exact ⟨.worker h, rfl, by rw [after_worker, moved]; rfl⟩

theorem settle_play (patience : Nat) (s : Subsystems) :
    ∃ moves : List Deed, (∀ d ∈ moves, d.isMove = true) ∧ s.settle patience = s.play moves := by
  induction patience generalizing s with
  | zero => exact ⟨[], nofun, rfl⟩
  | succ patience ih =>
    cases moved : s.move? with
    | none => exact ⟨[], nofun, by rw [World.settle, moved]; rfl⟩
    | some t =>
      obtain ⟨d, moves, rfl⟩ := move?_deed moved
      obtain ⟨rest, others, settled⟩ := ih (s.after d.operation)
      refine ⟨d :: rest, List.forall_mem_cons.mpr ⟨moves, others⟩, ?_⟩
      rw [World.settle, moved]
      exact settled

/-! ## Requests are carried out -/

/-- The end of a stop's waiting changes nothing. -/
theorem pauseEnd?_eq_self {h : HandlerId} {exits : Nat} {reply : Reply}
    (ended : s.pauseEnd? (.exit h exits false) = some (t, reply)) : t = s := by
  simp only [World.pauseEnd?] at ended
  split at ended
  · cases ended
    rfl
  · split at ended
    · cases ended
    · cases ended
      rfl

/-- Nobody has to wait but for a stop. -/
theorem waits_of_deed {action : Action Payload} {pause : Pause} (acts : d.operation = .act action)
    (waits : (s.perform .outside action).2 = .waits pause) :
    ∃ h exits, pause = .exit h exits false := by
  have signals : ∀ (result : Except EventError Unit), World.replyOf result ≠ .waits pause := by
    intro result
    cases result <;> nofun
  cases d with
  | stop g =>
    cases acts
    simp only [World.perform, World.withHandler] at waits
    split at waits
    · next x found =>
      split at waits
      · next v pause' answered =>
        obtain rfl : pause' = pause := by simpa using waits
        unfold World.requestStop at answered
        split at answered
        · have same := congrArg Prod.snd answered
          exact ⟨g, x.exits, by simpa [eq_comm] using same⟩
        · cases answered
      · cases waits
    · cases waits
  | clear g =>
    cases acts
    simp only [World.perform, World.withHandler] at waits
    split at waits <;> cases waits
  | advance d =>
    cases acts
    cases waits
  | worker g => cases acts
  | timer c generation => cases acts
  | beginStart g => cases acts
  | endStart g c => cases acts
  | start g =>
    cases acts
    simp only [World.perform, World.withHandler] at waits
    split at waits <;> cases waits
  | _ =>
    cases acts
    simp only [World.perform, World.withHandler, walletSignal, peerSignal] at waits
    split at waits
    · exact absurd waits (signals _)
    · cases waits

/-- A call is a deed and moves. -/
theorem call_play (patience : Nat) (s : Subsystems) {action : Action Payload}
    (acts : d.operation = .act action) : ∃ moves : List Deed, (∀ d ∈ moves, d.isMove = true) ∧
      (s.call patience action).1 = s.play (d :: moves) := by
  have done : s.after d.operation = (s.perform .outside action).1 := by rw [acts]; rfl
  unfold World.call
  split
  · next v reply performed =>
    rw [performed] at done
    exact ⟨[], nofun, done.symm⟩
  · next v performed =>
    rw [performed] at done
    exact ⟨[], nofun, done.symm⟩
  · next v pause performed =>
    rw [performed] at done
    obtain ⟨h, exits, rfl⟩ := waits_of_deed acts (congrArg Prod.snd performed)
    obtain ⟨moves, only, settled⟩ := settle_play patience v
    have played : World.settle patience v = s.play (d :: moves) :=
      settled.trans (congrArg (Subsystems.play · moves) done.symm)
    refine ⟨moves, only, ?_⟩
    rw [← played]
    simp only
    cases ended : World.pauseEnd? (World.settle patience v) (.exit h exits false) with
    | none => rfl
    | some result => exact pauseEnd?_eq_self ended

/-- What comes of a request is what comes of deeds that follow it. -/
def Plays (asked : List Deed) (s t : Subsystems) : Prop :=
  ∃ deeds, Follows asked deeds ∧ t = s.play deeds

theorem Plays.trans {u : Subsystems} (first : Plays asked s t) (second : Plays asked' t u) :
    Plays (asked ++ asked') s u := by
  obtain ⟨deeds, follows, rfl⟩ := first
  obtain ⟨deeds', follows', rfl⟩ := second
  exact ⟨deeds ++ deeds', follows.append follows', (play_append ..).symm⟩

theorem plays_call (patience : Nat) (s : Subsystems) {action : Action Payload}
    (acts : d.operation = .act action) : Plays [d] s (s.call patience action).1 := by
  obtain ⟨moves, only, played⟩ := call_play patience s acts
  exact ⟨d :: moves, .single d only, played⟩

theorem plays_startAll (patience : Nat) (s : Subsystems) :
    Plays [.start wallet, .start peers] s (s.startAll patience).1 := by
  have first := plays_call patience s (d := .start wallet) rfl
  unfold startAll
  split
  · next t called =>
    rw [called] at first
    exact first.trans (plays_call patience t (d := .start peers) rfl)
  · next t reply _ called =>
    rw [called] at first
    obtain ⟨deeds, ⟨only, told⟩, played⟩ := first
    have among : ∀ d ∈ deeds, d.isMove = true ∨ d ∈ [Deed.start wallet, .start peers] :=
      fun d member => (only d member).imp_right fun asked => List.mem_append_left _ asked
    exact ⟨deeds, ⟨among, told⟩, played⟩

theorem plays_carryOut (patience : Nat) (s : Subsystems) (request : SubsystemRequest) :
    Plays (deedsOf request) s (s.carryOut patience request).1 := by
  cases request with
  | startAll => exact plays_startAll patience s
  | stopAll =>
    exact (plays_call patience s (d := .stop peers) rfl).trans
      (plays_call patience _ (d := .stop wallet) rfl)
  | describe => exact ⟨[], ⟨nofun, rfl⟩, rfl⟩
  | tellWallet place e => exact plays_call patience s (d := .tellWallet place e) rfl
  | tellPeers place e => exact plays_call patience s (d := .tellPeers place e) rfl
  | start h => exact plays_call patience s (d := .start h) rfl
  | stop h => exact plays_call patience s (d := .stop h) rfl
  | clear h => exact plays_call patience s (d := .clear h) rfl
  | advance time => exact plays_call patience s (d := .advance time) rfl

theorem Plays.settle (plays : Plays asked s t) (patience : Nat) :
    Plays asked s (t.settle patience) := by
  obtain ⟨moves, only, settled⟩ := settle_play patience t
  have both := plays.trans ⟨moves, .moves only, settled⟩
  rwa [List.append_nil] at both

/-- What is asked for in a batch is done with moves of the threads in between and afterwards. -/
theorem plays_batch (patience : Nat) (s : Subsystems) (requests : List SubsystemRequest) :
    Plays (requests.flatMap deedsOf) s (s.batch patience requests).1 := by
  have carried : Plays (requests.flatMap deedsOf) s (s.carryOutAll patience requests).1 := by
    induction requests generalizing s with
    | nil => exact ⟨[], ⟨nofun, rfl⟩, rfl⟩
    | cons request rest ih => exact (plays_carryOut patience s request).trans (ih _)
  exact carried.settle patience

end Subsystems
end EventEngine
