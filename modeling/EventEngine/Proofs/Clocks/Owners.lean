import EventEngine.Proofs.Clocks.Steps

/-!
# Whose alarms a clock knows

A clock knows of an alarm as long as it is scheduled, or taken and still to be fired. It learns of
alarms by their addition only, and an id names one alarm for good: whoever added it owns whatever
is known under this id, now and later.
-/
namespace EventEngine.Clock

variable {α : Type} {kind : Clock α → Alarm α → Prop} {k k' : Clock α} {id : AlarmId} {owner : α}

/-- An alarm with this id and owner is scheduled, or was taken and is still to be fired. -/
def Knows (k : Clock α) (id : AlarmId) (owner : α) : Prop :=
  (∃ a ∈ k.alarms, a.id = id ∧ a.callback = owner) ∨ ∃ f ∈ k.taken, f.id = id ∧ f.callback = owner

instance [DecidableEq α] : Decidable (k.Knows id owner) := inferInstanceAs (Decidable (_ ∨ _))

/-- What a clock knows of after a step it knew of before, or it is an alarm that was added. -/
theorem Step.knows_cases (step : Step kind k k') (knows : k'.Knows id owner) : k.Knows id owner ∨
    ∃ a, kind k a ∧ a.id = k.nextId ∧ a.id = id ∧ a.callback = owner := by
  rcases knows with ⟨a, scheduled, rfl, rfl⟩ | ⟨f, taken, rfl, rfl⟩
  · rcases step.alarms scheduled with ⟨b, earlier, leads⟩ | ⟨added, new⟩
    · exact .inl (.inl ⟨b, earlier, leads.id.symm, leads.callback.symm⟩)
    · exact .inr ⟨a, added, new, rfl, rfl⟩
  · rcases step.taken taken with earlier | ⟨a, scheduled, rfl⟩
    · exact .inl (.inr ⟨f, earlier, rfl, rfl⟩)
    · exact .inl (.inl ⟨a, scheduled, rfl, rfl⟩)

/-- A clock learns of an alarm by its addition only. -/
theorem Step.knows (step : Step kind k k') (foreign : ∀ a, kind k a → a.callback ≠ owner)
    (knows : k'.Knows id owner) : k.Knows id owner := by
  rcases step.knows_cases knows with earlier | ⟨a, added, -, -, rfl⟩
  · exact earlier
  · exact absurd rfl (foreign a added)

theorem Steps.knows (steps : Steps kind k k') (foreign : ∀ k a, kind k a → a.callback ≠ owner)
    (knows : k'.Knows id owner) : k.Knows id owner := by
  induction steps with
  | refl => exact knows
  | tail _ step ih => exact ih (step.knows (foreign _) knows)

theorem Steps.nextId_le (steps : Steps kind k k') : k.nextId ≤ k'.nextId := by
  induction steps with
  | refl => exact Nat.le_refl _
  | tail _ step ih => exact Nat.le_trans ih step.nextId_le

/-- What a clock knows of under an id that it had issued before, it knew of then. -/
theorem Steps.knows_issued (steps : Steps kind k k') (issued : id < k.nextId)
    (knows : k'.Knows id owner) : k.Knows id owner := by
  induction steps with
  | refl => exact knows
  | tail before step ih =>
    rcases step.knows_cases knows with earlier | ⟨a, -, new, same, -⟩
    · exact ih earlier
    · have earlier := Nat.lt_of_lt_of_le issued (Steps.nextId_le before)
      rw [← same, new] at earlier
      exact absurd earlier (Nat.lt_irrefl _)

/-- What a thread fires was taken before. -/
theorem mem_taken_of_fires {now : Instant} {t : Timer α} {f : Firing α} (member : t ∈ k.timers)
    (fires : (k.move now t).2.1 = some f) : f ∈ k.taken := by
  have moved := move_cases k now t
  generalize k.move now t = result at moved fires
  cases moved with
  | fire batch =>
    obtain rfl := Option.some.inj fires
    exact mem_taken.mpr ⟨t, member, by simp [batch, TimerPhase.batch]⟩
  | _ => cases fires

/-! ## Owners -/

/-- Under this id there is no alarm but the owner's, and none will be added. -/
def Owns (k : Clock α) (id : AlarmId) (owner : α) : Prop :=
  id < k.nextId ∧ ∀ a ∈ k.alarms, a.id = id → a.callback = owner

theorem Steps.owns (steps : Steps kind k k') (owns : k.Owns id owner) : k'.Owns id owner := by
  induction steps with
  | refl => exact owns
  | tail _ step ih =>
    obtain ⟨issued, callbacks⟩ := ih
    refine ⟨Nat.lt_of_lt_of_le issued step.nextId_le, fun a member same => ?_⟩
    rcases step.alarms member with ⟨b, earlier, leads⟩ | ⟨-, fresh⟩
    · rw [leads.callback]
      exact callbacks b earlier (leads.id.symm.trans same)
    · exact absurd (same ▸ fresh ▸ issued) (Nat.lt_irrefl _)

/-- Under this id there has been an alarm, and none is scheduled any more. -/
def Spent (k : Clock α) (id : AlarmId) : Prop := id < k.nextId ∧ ∀ a ∈ k.alarms, a.id ≠ id

theorem Steps.spent (steps : Steps kind k k') (spent : k.Spent id) : k'.Spent id := by
  induction steps with
  | refl => exact spent
  | tail _ step ih =>
    obtain ⟨issued, unscheduled⟩ := ih
    refine ⟨Nat.lt_of_lt_of_le issued step.nextId_le, fun a member same => ?_⟩
    rcases step.alarms member with ⟨b, earlier, leads⟩ | ⟨-, fresh⟩
    · exact unscheduled b earlier (leads.id.symm.trans same)
    · exact absurd (same ▸ fresh ▸ issued) (Nat.lt_irrefl _)

/-- Whatever is scheduled or taken under this id, now and later, is the owner's. -/
def Sole (k : Clock α) (id : AlarmId) (owner : α) : Prop :=
  k.Owns id owner ∧ ∀ f ∈ k.taken, f.id = id → f.callback = owner

theorem Steps.sole (steps : Steps kind k k') (sole : k.Sole id owner) : k'.Sole id owner := by
  refine ⟨steps.owns sole.1, ?_⟩
  induction steps with
  | refl => exact sole.2
  | tail before step ih =>
    intro f member named
    rcases step.taken member with earlier | ⟨a, scheduled, rfl⟩
    · exact ih f earlier named
    · exact (Steps.owns before sole.1).2 a scheduled named

/-- Of whatever a clock knows under an id, the owner is the same. -/
def Settled (k : Clock α) : Prop := ∀ id owner, k.Knows id owner → k.Sole id owner

theorem settled_new (config : ClockConfig) (canSpawn : Nat → Bool) :
    ({ config, canSpawn } : Clock α).Settled := by
  rintro id owner (⟨a, scheduled, -⟩ | ⟨f, taken, -⟩)
  · cases scheduled
  · cases taken

theorem Settled.add (settled : k.Settled) (callback : α) (deadline : Instant)
    (period : Option Duration) : (k.add callback deadline period).1.Settled := by
  have step : Step (fun _ _ => True) k (k.add callback deadline period).1 := .add k _ _ _ trivial
  intro id owner knows
  have kept : k.Knows id owner → (k.add callback deadline period).1.Sole id owner :=
    fun earlier => Steps.sole (.single step) (settled id owner earlier)
  have issued : ∀ {id owner}, k.Knows id owner → id ≠ k.nextId := fun earlier =>
    Nat.ne_of_lt (settled _ _ earlier).1.1
  -- what has been taken was known before
  have taken : ∀ f ∈ (k.add callback deadline period).1.taken, k.Knows f.id f.callback := by
    intro f member
    rcases step.taken member with earlier | ⟨a, scheduled, rfl⟩
    · exact .inr ⟨f, earlier, rfl, rfl⟩
    · exact .inl ⟨a, scheduled, rfl, rfl⟩
  rcases knows with ⟨a, scheduled, rfl, rfl⟩ | ⟨f, member, rfl, rfl⟩
  · rcases Schedule.mem_insert.mp scheduled with rfl | earlier
    · refine ⟨⟨Nat.lt_succ_self _, fun b member named => ?_⟩, fun f member named => ?_⟩
      · rcases Schedule.mem_insert.mp member with rfl | earlier
        · rfl
        · exact absurd named (issued (.inl ⟨b, earlier, rfl, rfl⟩))
      · exact absurd named (issued (taken f member))
    · exact kept (.inl ⟨a, earlier, rfl, rfl⟩)
  · exact kept (taken f member)

theorem Step.settled (step : Step kind k k') (settled : k.Settled) : k'.Settled := by
  have kept : Step NoAlarm k k' → k'.Settled := fun step id owner knows =>
    Steps.sole (.single step) (settled id owner (step.knows (NoAlarm.foreign owner k) knows))
  cases step with
  | add callback deadline period _ => exact settled.add callback deadline period
  | start started => exact kept (.start started)
  | stop => exact kept (.stop k)
  | remove id => exact kept (.remove k id)
  | move now member => exact kept (.move now member)
  | drop generation => exact kept (.drop k generation)

end EventEngine.Clock
