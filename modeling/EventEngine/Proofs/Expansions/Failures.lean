import EventEngine.Proofs.Expansions.Faithful
import Mathlib.Data.List.Find

/-!
# When a text cannot be expanded

The references of a text are expanded in the order in which a scan from left to right meets them,
and the first one of which the name is not found is reported. What the earlier ones have made of the
text does not matter. A name that holds no equals sign is found just if there is a variable of this
name, whatever its value is. But an entry of the environment is searched in its written form, so
that a name which goes on with an equals sign is found in the value of a variable.
-/
namespace EventEngine

namespace Environment

variable {env : Environment} {name : List Char}

/-- There is a variable of this name. -/
def Has (env : Environment) (name : List Char) : Prop :=
  ∃ value, (String.ofList name, value) ∈ env.entries

/-- The written form of an entry begins with the name and an equals sign. -/
def Finds (env : Environment) (name : List Char) : Prop :=
  ∃ entry ∈ env.entries, name ++ ['='] <+: entry.1.toList ++ '=' :: entry.2.toList

/-- What the environment of a process is like: entries are cut at their first equals sign, so that
names of variables hold none, and neither names nor values hold a zero character. -/
def Proper (env : Environment) : Prop :=
  ∀ entry ∈ env.entries,
    '=' ∉ entry.1.toList ∧ '\x00' ∉ entry.1.toList ∧ '\x00' ∉ entry.2.toList

theorem isSome_get?_iff (proper : env.Proper) :
    (env.get? (String.ofList name)).isSome = true ↔ env.Finds name := by
  unfold get?
  split
  · next zero =>
    refine iff_of_false nofun ?_
    rintro ⟨entry, member, begins⟩
    obtain ⟨-, unzeroed, unzeroed'⟩ := proper entry member
    have inside : '\x00' ∈ entry.1.toList ++ '=' :: entry.2.toList :=
      begins.subset (List.mem_append_left _ (by simpa using zero))
    simp [unzeroed, unzeroed'] at inside
  · simp [List.findSome?_isSome_iff, Finds]

/-- A name without equals signs is found if there is a variable of this name, and only then. -/
theorem finds_iff_has (proper : env.Proper) (plain : '=' ∉ name) :
    env.Finds name ↔ env.Has name := by
  constructor
  · rintro ⟨⟨key, value⟩, member, rest, same⟩
    have cut : name ++ '=' :: rest = key.toList ++ '=' :: value.toList := by simpa using same
    obtain ⟨rfl, -⟩ := Expansion.cut_unique plain (proper _ member).1 cut
    exact ⟨value, by simpa using member⟩
  · rintro ⟨value, member⟩
    exact ⟨_, member, value.toList, by simp⟩

end Environment

namespace Expansion

variable {env : Environment} {text name : List Char} {names names' : List (List Char)} {c : Char}

/-! ## Scanning a text -/

/-- A scan of a text from left to right meets references to these names: it goes to the leftmost
written form of a name, and on behind it. -/
inductive Scans : List Char → List (List Char) → Prop where
  | nothing {text : List Char} : (∀ x name y, IsName name → text ≠ x ++ written name ++ y) →
      Scans text []
  | reference {x name rest : List Char} {names : List (List Char)} : IsName name →
      (∀ x' name' y, IsName name' → x ++ written name ++ rest = x' ++ written name' ++ y →
        x.length ≤ x'.length) →
      Scans rest names → Scans (x ++ written name ++ rest) (name :: names)

/-- A scan goes past a character at which no reference begins. -/
theorem Scans.cons (scans : Scans text names)
    (clear : ∀ name y, IsName name → c :: text ≠ written name ++ y) : Scans (c :: text) names := by
  have later : ∀ {x name y}, IsName name → c :: text = x ++ written name ++ y →
      ∃ x', x = c :: x' ∧ text = x' ++ written name ++ y := by
    intro x name y named same
    cases x with
    | nil => exact absurd same (clear name y named)
    | cons d x =>
      obtain ⟨rfl, same⟩ := List.cons.inj same
      exact ⟨x, rfl, by simpa using same⟩
  cases scans with
  | nothing none =>
    refine .nothing fun x name y named same => ?_
    obtain ⟨x', -, same'⟩ := later named same
    exact none x' name y named same'
  | @reference x name rest names named first more =>
    have shifted : Scans ((c :: x) ++ written name ++ rest) (name :: names) := by
      refine .reference named (fun x' name' y named' same => ?_) more
      obtain ⟨x'', rfl, same'⟩ := later named' same
      exact Nat.succ_le_succ (first x'' name' y named' same')
    exact shifted

/-- A scan goes past a reference that it begins with. -/
theorem Scans.behind (scans : Scans text names) (named : IsName name) :
    Scans (written name ++ text) (name :: names) :=
  .reference (x := []) named (fun _ _ _ _ _ => Nat.zero_le _) scans

/-- The pieces of what stands behind the first piece of a text. -/
theorem pieces_tail {p : Piece} {ps : List Piece} (cut : pieces text = p :: ps) :
    pieces (ps.flatMap Piece.chars) = ps := by
  have behind : ∀ {rest : List Char} {q : Piece}, q :: pieces rest = p :: ps →
      pieces (ps.flatMap Piece.chars) = ps := by
    intro rest q same
    obtain ⟨-, rfl⟩ := List.cons.inj same
    rw [flatMap_chars_pieces]
  fun_induction pieces text with
  | case1 => cases cut
  | _ => exact behind cut

theorem scans_pieces {ps : List Piece} (cut : pieces text = ps) :
    Scans text (ps.filterMap Piece.name?) := by
  induction ps generalizing text with
  | nil =>
    have empty : text = [] := by rw [← flatMap_chars_pieces text, cut]; rfl
    refine .nothing fun x name y _ same => ?_
    simp [empty, written] at same
  | cons p ps ih =>
    have chars := flatMap_chars_pieces text
    rw [cut, List.flatMap_cons] at chars
    have more := ih (pieces_tail cut)
    rw [← chars]
    cases p with
    | char c =>
      have first : pieces text = [] ++ .char c :: ps := cut
      exact more.cons fun name y named => leftmost first named
    | reference name =>
      have member : name ∈ references text := by simp [references, cut, Piece.name?]
      exact more.behind (isName_of_mem member)

/-- There is one scan of a text. -/
theorem Scans.unique (scans : Scans text names) (scans' : Scans text names') : names' = names := by
  induction scans generalizing names' with
  | nothing none =>
    cases scans' with
    | nothing _ => rfl
    | reference named _ _ => exact absurd rfl (none _ _ _ named)
  | @reference x name rest names named first _ ih =>
    generalize same : x ++ written name ++ rest = text at scans'
    cases scans' with
    | nothing none => exact absurd same.symm (none _ _ _ named)
    | @reference x' name' rest' names' named' first' more =>
      -- neither of the two references begins before the other
      have length : x.length = x'.length :=
        Nat.le_antisymm (first _ _ _ named' same) (first' _ _ _ named same.symm)
      rw [List.append_assoc, List.append_assoc] at same
      obtain ⟨rfl, same⟩ := List.append_inj same length
      rw [written_append, written_append] at same
      obtain ⟨rfl, rfl⟩ := cut_unique named.2 named'.2 (by simpa using same)
      rw [ih more]

theorem scans_iff : Scans text names ↔ names = references text := by
  constructor
  · intro scans
    exact (scans_pieces rfl).unique scans
  · rintro rfl
    exact scans_pieces rfl

/-! ## Names that are not found -/

/-- Whether a name has no value. -/
def missing (env : Environment) (name : List Char) : Bool :=
  (env.get? (String.ofList name)).isNone

theorem missing_iff (proper : env.Proper) : missing env name = true ↔ ¬ env.Finds name := by
  rw [missing, Option.isNone_iff_eq_none, ← Option.not_isSome_iff_eq_none,
    Environment.isSome_get?_iff proper]

/-- The expansion fails at the first name that has no value, whatever has become of the text. -/
theorem expandAll_eq_error_iff {e : ConfigError} : expandAll env names text = .error e ↔
    ∃ name, names.find? (missing env) = some name ∧ e = .envVarNotSet (String.ofList name) := by
  induction names generalizing text with
  | nil => simp [expandAll]
  | cons n names ih =>
    cases found : env.get? (String.ofList n) with
    | none =>
      have first : missing env n = true := by simp [missing, found]
      simp [expandAll, found, first, eq_comm]
    | some value =>
      have present : missing env n = false := by simp [missing, found]
      simp [expandAll, found, present, ih]

theorem expand_eq_error_iff {text : String} {e : ConfigError} : expand env text = .error e ↔
    ∃ name, (references text.toList).find? (missing env) = some name ∧
      e = .envVarNotSet (String.ofList name) := by
  have fails : expandAll env (references text.toList) text.toList = .error e ↔ _ :=
    expandAll_eq_error_iff
  rw [← fails]
  unfold expand
  cases expandAll env (references text.toList) text.toList with
  | ok out => exact iff_of_false nofun nofun
  | error e' =>
    constructor
    · intro failed
      cases failed
      rfl
    · intro failed
      cases failed
      rfl

/-- The expansion fails just if a name that the text refers to is not found. -/
theorem exists_error_iff (proper : env.Proper) (text : String) :
    (∃ e, expand env text = .error e) ↔ ∃ name ∈ references text.toList, ¬ env.Finds name := by
  constructor
  · rintro ⟨e, failed⟩
    obtain ⟨name, first, -⟩ := expand_eq_error_iff.mp failed
    exact ⟨name, List.mem_of_find?_eq_some first, (missing_iff proper).mp (List.find?_some first)⟩
  · rintro ⟨name, member, unfound⟩
    have there : ((references text.toList).find? (missing env)).isSome = true :=
      List.find?_isSome.mpr ⟨name, member, (missing_iff proper).mpr unfound⟩
    obtain ⟨first, found⟩ := Option.isSome_iff_exists.mp there
    exact ⟨_, expand_eq_error_iff.mpr ⟨first, found, rfl⟩⟩

/-- And then the first such name is reported. -/
theorem expand_reports_first (proper : env.Proper) (text : String) (e : ConfigError) :
    expand env text = .error e ↔ ∃ before name after,
      references text.toList = before ++ name :: after ∧ (∀ n ∈ before, env.Finds n) ∧
      ¬ env.Finds name ∧ e = .envVarNotSet (String.ofList name) := by
  have present : ∀ n, (!missing env n) = true ↔ env.Finds n := by
    intro n
    rw [Bool.not_eq_true', ← Bool.not_eq_true, missing_iff proper, not_not]
  rw [expand_eq_error_iff]
  constructor
  · rintro ⟨name, first, rfl⟩
    obtain ⟨absent, before, after, split, others⟩ := List.find?_eq_some_iff_append.mp first
    exact ⟨before, name, after, split, fun n member => (present n).mp (others n member),
      (missing_iff proper).mp absent, rfl⟩
  · rintro ⟨before, name, after, split, found, unfound, rfl⟩
    have others := fun n member => (present n).mpr (found n member)
    exact ⟨name, List.find?_eq_some_iff_append.mpr
      ⟨(missing_iff proper).mpr unfound, before, after, split, others⟩, rfl⟩

theorem expand_of_no_match {text : String}
    (none : ∀ x name y, IsName name → text.toList ≠ x ++ written name ++ y) :
    expand env text = .ok text := by
  have empty : references text.toList = [] := (scans_iff.mp (.nothing none)).symm
  have set : env.Sets text.toList := by simp [Environment.Sets, empty]
  rw [expand_of_sets set, empty]
  simp

/-- Names without equals signs are found or not, whatever the values are. -/
theorem expand_error_congr {env' : Environment} {text : String} (proper : env.Proper)
    (proper' : env'.Proper) (plain : ∀ name ∈ references text.toList, '=' ∉ name)
    (same : ∀ name ∈ references text.toList, env'.Has name ↔ env.Has name) (e : ConfigError) :
    expand env' text = .error e ↔ expand env text = .error e := by
  have alike : ∀ n ∈ references text.toList, missing env' n = missing env n := by
    intro n member
    rw [Bool.eq_iff_iff, missing_iff proper', missing_iff proper,
      Environment.finds_iff_has proper' (plain n member),
      Environment.finds_iff_has proper (plain n member), same n member]
  rw [expand_eq_error_iff, expand_eq_error_iff, List.find?_congr alike]

/-- The expansion of a text fails just if a scan of the text meets a name that is not found, and the
first such name is reported. A name without equals signs is found if there is a variable of this
name, and only then. A text without references is returned as it is. As long as no name holds an
equals sign, values decide neither on whether the expansion fails nor on what is reported. -/
theorem expand_fails_iff (proper : env.Proper) (text : String) :
    let names := references text.toList
    (∀ names', Scans text.toList names' ↔ names' = names) ∧
    ((∃ e, expand env text = .error e) ↔ ∃ name ∈ names, ¬ env.Finds name) ∧
    (∀ e, expand env text = .error e ↔ ∃ before name after, names = before ++ name :: after ∧
      (∀ n ∈ before, env.Finds n) ∧ ¬ env.Finds name ∧
      e = .envVarNotSet (String.ofList name)) ∧
    (∀ name, '=' ∉ name → (env.Finds name ↔ env.Has name)) ∧
    ((∀ x name y, IsName name → text.toList ≠ x ++ written name ++ y) →
      expand env text = .ok text) ∧
    ((∀ name ∈ names, '=' ∉ name) → ∀ env' : Environment, env'.Proper →
      (∀ name ∈ names, env'.Has name ↔ env.Has name) →
      ∀ e, expand env' text = .error e ↔ expand env text = .error e) :=
  ⟨fun _ => scans_iff, exists_error_iff proper text, expand_reports_first proper text,
    fun _ => Environment.finds_iff_has proper, expand_of_no_match,
    fun plain _ proper' same => expand_error_congr proper proper' plain same⟩

/-- The only variable is `WC_X`, with the value `y=z`. The text refers to `WC_X=y`, which is no
variable, and yet it is expanded. -/
theorem expanded_behind_equals_sign :
    ¬ ∀ (env : Environment) (text : String), env.Proper →
      ((∃ e, expand env text = .error e) ↔ ∃ name ∈ references text.toList, ¬ env.Has name) ∧
      ∀ env' : Environment, env'.Proper → (∀ name, env'.Has name ↔ env.Has name) →
        ∀ e, expand env' text = .error e ↔ expand env text = .error e := by
  intro claimed
  let env : Environment := ⟨[("WC_X", "y=z")]⟩
  let text := "a = \"$\x7bWC_X=y\x7d\""
  have proper : env.Proper := by
    unfold Environment.Proper
    decide
  have read : references text.toList = ["WC_X=y".toList] := by decide +kernel
  have expanded : expand env text = .ok "a = \"z\"" := by decide +kernel
  obtain ⟨fails, -⟩ := claimed env text proper
  have absent : ¬ env.Has "WC_X=y".toList := by simp [Environment.Has, env]
  obtain ⟨e, failed⟩ := fails.mpr ⟨_, by simp [read], absent⟩
  cases expanded.symm.trans failed

/-- One of two variables is not set. -/
theorem second_variable_reported :
    let env : Environment := ⟨[("A", "x")]⟩
    let text := "$\x7bA\x7d$\x7bB\x7d"
    env.Proper ∧ expand env text = .error (.envVarNotSet "B") := by
  intro env text
  have proper : env.Proper := by
    unfold Environment.Proper
    decide
  obtain ⟨-, -, reports, finds_iff, -⟩ := expand_fails_iff proper text
  have read : references text.toList = [['A'], ['B']] := by decide +kernel
  refine ⟨proper, (reports _).mpr ⟨[['A']], ['B'], [], read, ?_, ?_, rfl⟩⟩
  · simp [finds_iff, Environment.Has, env]
  · simp [finds_iff, Environment.Has, env]

end Expansion
end EventEngine
