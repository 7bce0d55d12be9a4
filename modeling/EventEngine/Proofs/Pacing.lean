import EventEngine.Program.Run
import Mathlib.Algebra.Group.Nat.Defs

/-!
# The pacing of the producer

The producer makes the same pause after each event, so that the events are spread over the run. The
length of the run is divided by the last 32 bits of their number: as long as the number fits into 32
bits the events with their pauses fit into the run, and a number beyond that is taken for a smaller
one, or for zero, and then there is no run at all.
-/
namespace EventEngine.Producer

variable {runMillis events : Nat}

/-- There is a pause, it is the length of the run divided by the number of events, down to the
nanosecond, and all events with their pauses fit into the run. -/
def Paced (runMillis events : Nat) : Prop :=
  let length := (Duration.ofMillis runMillis).nanos
  ∃ pause, pause? runMillis events = some pause ∧ pause.nanos = length / max events 1 ∧
    events * pause.nanos ≤ length

theorem pause?_eq_none_iff : pause? runMillis events = none ↔ events ≠ 0 ∧ 2 ^ 32 ∣ events := by
  unfold pause?
  simp only [ite_eq_left_iff, reduceCtorEq, imp_false, Decidable.not_not]
  omega

theorem nanos_of_pause? {pause : Duration} (found : pause? runMillis events = some pause) :
    pause.nanos = (Duration.ofMillis runMillis).nanos / (max events 1 % 2 ^ 32) := by
  unfold pause? at found
  simp only at found
  split at found
  · cases found
  · cases found
    rfl

/-- Parts of the length that is got by dividing by a smaller number fit in only if they are
empty. -/
theorem mul_div_mod_le_iff {length n : Nat} (wide : 2 ^ 32 ≤ n) (rest : n % 2 ^ 32 ≠ 0) :
    n * (length / (n % 2 ^ 32)) ≤ length ↔ length < n % 2 ^ 32 := by
  have pos : 0 < n % 2 ^ 32 := Nat.pos_of_ne_zero rest
  have double : 2 * (n % 2 ^ 32) < n := by omega
  constructor
  · intro fits
    refine Nat.lt_of_not_le fun long => ?_
    have some_part : 0 < length / (n % 2 ^ 32) := Nat.div_pos long pos
    have below : length < n % 2 ^ 32 * (length / (n % 2 ^ 32) + 1) :=
      Nat.lt_mul_div_succ length pos
    have above : 2 * (n % 2 ^ 32) * (length / (n % 2 ^ 32)) < n * (length / (n % 2 ^ 32)) :=
      Nat.mul_lt_mul_of_pos_right double some_part
    have next : n % 2 ^ 32 * (length / (n % 2 ^ 32) + 1) ≤
        2 * (n % 2 ^ 32) * (length / (n % 2 ^ 32)) := by
      rw [Nat.mul_comm 2, Nat.mul_assoc]
      exact Nat.mul_le_mul_left _ (by omega)
    omega
  · intro short
    rw [Nat.div_eq_of_lt short]
    exact Nat.zero_le _

/-- A number of events that fits into 32 bits is divided by as it is. -/
theorem paced_of_lt (fits : events < 2 ^ 32) : Paced runMillis events := by
  have whole : max events 1 % 2 ^ 32 = max events 1 := Nat.mod_eq_of_lt (by omega)
  have present : pause? runMillis events ≠ none := by
    rw [Ne, pause?_eq_none_iff]
    rintro ⟨some_event, divides⟩
    exact some_event (Nat.eq_zero_of_dvd_of_lt divides fits)
  obtain ⟨pause, found⟩ := Option.ne_none_iff_exists'.mp present
  have nanos := nanos_of_pause? found
  rw [whole] at nanos
  refine ⟨pause, found, nanos, ?_⟩
  calc events * pause.nanos ≤ max events 1 * pause.nanos :=
        Nat.mul_le_mul_right _ (Nat.le_max_left _ _)
    _ ≤ (Duration.ofMillis runMillis).nanos := by
        rw [nanos]
        exact Nat.mul_div_le _ _

/-- Beyond 32 bits the pacing is right only where the run is so short that there is no pause. -/
theorem paced_iff : Paced runMillis events ↔
    events < 2 ^ 32 ∨ (Duration.ofMillis runMillis).nanos < events % 2 ^ 32 := by
  by_cases fits : events < 2 ^ 32
  · exact iff_of_true (paced_of_lt fits) (.inl fits)
  have wide : 2 ^ 32 ≤ events := Nat.not_lt.mp fits
  have many : max events 1 = events := Nat.max_eq_left (by omega)
  rw [or_iff_right fits]
  constructor
  · rintro ⟨pause, found, -, inside⟩
    have rest : events % 2 ^ 32 ≠ 0 := by
      intro divides
      have missing : pause? runMillis events = none :=
        pause?_eq_none_iff.mpr ⟨by omega, Nat.dvd_of_mod_eq_zero divides⟩
      cases missing.symm.trans found
    rw [nanos_of_pause? found, many] at inside
    exact (mul_div_mod_le_iff wide rest).mp inside
  · intro short
    have present : pause? runMillis events ≠ none := by
      rw [Ne, pause?_eq_none_iff]
      rintro ⟨-, divides⟩
      rw [Nat.mod_eq_zero_of_dvd divides] at short
      exact Nat.not_lt_zero _ short
    obtain ⟨pause, found⟩ := Option.ne_none_iff_exists'.mp present
    have nanos : pause.nanos = 0 := by
      rw [nanos_of_pause? found, many]
      exact Nat.div_eq_of_lt short
    have less : (Duration.ofMillis runMillis).nanos < max events 1 := by
      rw [many]
      exact Nat.lt_of_lt_of_le short (Nat.mod_le _ _)
    refine ⟨pause, found, nanos.trans (Nat.div_eq_of_lt less).symm, ?_⟩
    rw [nanos]
    exact Nat.zero_le _

/-- Both managers start: neither start fails or panics. -/
def Starts (patience : Nat) (settings : Settings) (canSpawn : Nat → Bool) : Prop :=
  let reply := ((Subsystems.create settings.events settings.events.alarmClock
    (.ofMillis settings.run.timeoutMillis) canSpawn).startAll patience).2
  (∀ e, reply ≠ .failed e) ∧ ∀ message, reply ≠ .crashed message

/-- A run crashes for want of a pause just if both managers start and there is no pause. -/
theorem crashed_iff {patience : Nat} {settings : Settings} {json : Bool} {canSpawn : Nat → Bool} :
    (Outcome.ofSettings patience settings json canSpawn).ending = .crashed ↔
      Starts patience settings canSpawn ∧
      pause? settings.run.runMillis settings.run.events = none := by
  unfold Outcome.ofSettings Starts
  simp only
  split
  · next failed =>
    rw [failed]
    exact iff_of_false nofun fun both => both.1.1 _ rfl
  · next crashed =>
    rw [crashed]
    exact iff_of_false nofun fun both => both.1.2 _ rfl
  · next started reply unfailing uncrashed answered =>
    rw [answered]
    split
    · next missing => exact iff_of_true rfl ⟨⟨unfailing, uncrashed⟩, missing⟩
    · next pause found =>
      rw [found]
      exact iff_of_false nofun fun both => absurd both.2 nofun

/-- What the settings say on the number of events decides on the pacing. There is no pause, and a
run whose managers have started crashes, just if the number is a multiple of 2^32 other than zero.
Otherwise the pause is the length of the run divided by the last 32 bits of the number. So the
pacing is right for runs of any length if the number fits into 32 bits and only then; beyond that it
is right just for runs that have fewer nanoseconds than the last 32 bits of the number say. -/
theorem paced_iff_fits {env : Environment} {line : CommandLine} {state : FileState}
    {settings : Settings} (patience : Nat) (canSpawn : Nat → Bool)
    (loaded : Settings.load env (line.config.map fun path => (path, state)) = .ok settings) :
    let events := settings.run.events
    let runMillis := line.runMillis.getD settings.run.runMillis
    let length := (Duration.ofMillis runMillis).nanos
    (pause? runMillis events = none ↔ events ≠ 0 ∧ 2 ^ 32 ∣ events) ∧
    (∀ pause, pause? runMillis events = some pause →
      pause.nanos = length / (max events 1 % 2 ^ 32)) ∧
    (Paced runMillis events ↔ events < 2 ^ 32 ∨ length < events % 2 ^ 32) ∧
    ((∀ millis < 2 ^ 64, Paced millis events) ↔ events < 2 ^ 32) ∧
    ((Outcome.ofCommandLine patience line env state canSpawn).ending = .crashed ↔
      Starts patience settings canSpawn ∧ events ≠ 0 ∧ 2 ^ 32 ∣ events) := by
  intro events runMillis length
  refine ⟨pause?_eq_none_iff, fun pause => nanos_of_pause?, paced_iff, ⟨fun paced => ?_, ?_⟩, ?_⟩
  · -- a run of as many milliseconds as the last bits say is too long
    have small : events % 2 ^ 32 < 2 ^ 32 := Nat.mod_lt _ (by decide)
    refine (paced_iff.mp (paced (events % 2 ^ 32) (by omega))).resolve_right ?_
    rw [Duration.nanos_ofMillis]
    omega
  · exact fun fits millis _ => paced_of_lt fits
  · rw [Outcome.ofCommandLine, loaded]
    exact crashed_iff.trans (and_congr_right fun _ => pause?_eq_none_iff)

/-- The settings ask for 2^32 events in a run of no length. They are accepted, and the run crashes
although it has no time for a single event. -/
theorem too_many_to_pace :
    let text := "[demo]\nevents = 4294967296\nrun_ms = 0"
    let state : FileState := .file text.toUTF8
    let line : CommandLine := { config := some "walletcore.toml" }
    ∃ settings, Settings.load {} (some ("walletcore.toml", state)) = .ok settings ∧
      settings.run.events = 2 ^ 32 ∧ ¬ Paced settings.run.runMillis settings.run.events ∧
      (Outcome.ofCommandLine 100 line {} state).ending = .crashed := by
  intro text state line
  have loaded : Settings.load {} (line.config.map fun path => (path, state)) =
      .ok { run := { runMillis := 0, events := 2 ^ 32 } } := by
    have read : (Settings.load {} (line.config.map fun path => (path, state))).toOption =
        some { run := { runMillis := 0, events := 2 ^ 32 } } := by decide +kernel
    cases result : Settings.load {} (line.config.map fun path => (path, state)) with
    | error e => simp [result, Except.toOption] at read
    | ok settings => simpa [result, Except.toOption] using read
  obtain ⟨-, -, paced, -, crashed⟩ := paced_iff_fits 100 fitsAddressSpace loaded
  refine ⟨_, loaded, rfl, fun right => ?_, crashed.mpr ⟨?_, by decide, by decide⟩⟩
  · exact absurd (paced.mp right) (by decide)
  · have started : ((Subsystems.create {} {} (.ofMillis 100)).startAll 100).2 = .done := by
      rfl
    unfold Starts
    dsimp only
    rw [started]
    exact ⟨nofun, nofun⟩

end EventEngine.Producer
