import EventEngine.Proofs.Expansions.Matches
import Mathlib.Data.List.Basic

/-!
# Expansion stage by stage

The references of a text are expanded in order. If at its turn the written form of each name occurs
only where the text refers to that name, then the references have been replaced by their values in
the end, and nothing else has. Values without dollar signs keep to this.
-/
namespace EventEngine

namespace Environment

/-- The value of a variable, empty if it is not set. -/
def value (env : Environment) (name : List Char) : List Char :=
  ((env.get? (String.ofList name)).getD "").toList

/-- Every variable that the text refers to is set. -/
def Sets (env : Environment) (text : List Char) : Prop :=
  ∀ name ∈ Expansion.references text, (env.get? (String.ofList name)).isSome = true

end Environment

namespace Expansion

variable {env : Environment} {text name rest : List Char} {names done : List (List Char)}
  {ps : List Piece}

/-- The text of a piece, once the references to the names in `done` have been replaced. -/
def Piece.expanded (env : Environment) (done : List (List Char)) : Piece → List Char
  | char c => [c]
  | reference name => if name ∈ done then env.value name else written name

/-- The text of pieces, once the references to the names in `done` have been replaced. -/
def stage (env : Environment) (done : List (List Char)) (ps : List Piece) : List Char :=
  ps.flatMap (Piece.expanded env done)

/-- The text of a piece, a reference being replaced by the value of its name. -/
def Piece.replaced (env : Environment) : Piece → List Char
  | char c => [c]
  | reference name => env.value name

/-- All references of a text are replaced at once, and everything else is kept. -/
def substitute (env : Environment) (text : List Char) : List Char :=
  (pieces text).flatMap (Piece.replaced env)

/-- The written form of a name that is still to be replaced occurs only where there is a reference
to it. -/
def Undisturbed (env : Environment) (done : List (List Char)) (name : List Char)
    (ps : List Piece) : Prop :=
  ∀ x y, stage env done ps = x ++ written name ++ y → ∃ front back,
    ps = front ++ .reference name :: back ∧ name ∉ done ∧
      x = stage env done front ∧ y = stage env done back

/-- At its turn the written form of each name occurs only where the text refers to it. -/
def Separate (env : Environment) (text : List Char) : Prop :=
  ∀ before name after, references text = before ++ name :: after →
    Undisturbed env before name (pieces text)

theorem stage_nil (env : Environment) (ps : List Piece) :
    stage env [] ps = ps.flatMap Piece.chars := by
  have plain : Piece.expanded env [] = Piece.chars := by
    funext p
    cases p <;> simp [Piece.expanded, Piece.chars]
  rw [stage, plain]

theorem stage_cons (env : Environment) (done : List (List Char)) (p : Piece) (ps : List Piece) :
    stage env done (p :: ps) = p.expanded env done ++ stage env done ps :=
  List.flatMap_cons

theorem stage_references (env : Environment) (text : List Char) :
    stage env (references text) (pieces text) = substitute env text := by
  refine List.flatMap_congr fun p member => ?_
  cases p with
  | char c => rfl
  | reference name =>
    have named : name ∈ references text := List.mem_filterMap.mpr ⟨_, member, rfl⟩
    simp [Piece.expanded, Piece.replaced, named]

/-- Replace the written form of a name by its value. -/
def pass (env : Environment) (text name : List Char) : List Char :=
  replace '$' (written name).tail (env.value name) text

/-- If all names are set then they are replaced one after the other. -/
theorem expandAll_of_set (set : ∀ name ∈ names, (env.get? (String.ofList name)).isSome = true)
    (text : List Char) : expandAll env names text = .ok (names.foldl (pass env) text) := by
  induction names generalizing text with
  | nil => rfl
  | cons name names ih =>
    obtain ⟨value, found⟩ := Option.isSome_iff_exists.mp (set name (by simp))
    simp only [expandAll, found, List.foldl_cons]
    rw [ih fun n member => set n (List.mem_cons_of_mem _ member)]
    simp [pass, Environment.value, found]

theorem pass_written (env : Environment) (name rest : List Char) :
    pass env (written name ++ rest) name = env.value name ++ pass env rest name := by
  rw [pass, written_append, replace]
  simp [written, pass]

theorem pass_cons {c : Char} (clear : ¬ written name <+: c :: rest) :
    pass env (c :: rest) name = c :: pass env rest name := by
  have clear' : ('$' :: (written name).tail).isPrefixOf (c :: rest) = false :=
    Bool.eq_false_iff.mpr fun begins => clear (List.isPrefixOf_iff_prefix.mp begins)
  rw [pass, replace, if_neg (Bool.eq_false_iff.mp clear'), pass]

/-- Where no written form begins, the text is kept. -/
theorem pass_append_of_not_prefix {kept : List Char}
    (clear : ∀ a b, kept = a ++ b → b ≠ [] → ¬ written name <+: b ++ rest) :
    pass env (kept ++ rest) name = kept ++ pass env rest name := by
  induction kept with
  | nil => rfl
  | cons c kept ih =>
    have here : ¬ written name <+: c :: (kept ++ rest) := clear [] (c :: kept) rfl (by simp)
    rw [List.cons_append, pass_cons here, ih, List.cons_append]
    exact fun a b same => clear (c :: a) b (by rw [same, List.cons_append])

theorem Undisturbed.tail {p : Piece} (clear : Undisturbed env done name (p :: ps)) :
    Undisturbed env done name ps := by
  intro x y split
  have split' : stage env done (p :: ps) = (p.expanded env done ++ x) ++ written name ++ y := by
    simp [stage_cons, split]
  obtain ⟨front, back, cut, fresh, before, after⟩ := clear _ _ split'
  rcases List.cons_eq_append_iff.mp cut with ⟨rfl, first⟩ | ⟨front, rfl, later⟩
  · obtain ⟨rfl, -⟩ := List.cons.inj first
    simp [Piece.expanded, fresh, written, stage] at before
  · refine ⟨front, back, later, fresh, ?_, after⟩
    rw [stage_cons] at before
    exact List.append_cancel_left before

/-- A name that is undisturbed is replaced where the text refers to it. -/
theorem pass_stage (clear : Undisturbed env done name ps) :
    pass env (stage env done ps) name = stage env (done ++ [name]) ps := by
  induction ps with
  | nil => simp [stage, pass, replace]
  | cons p ps ih =>
    have rest := ih clear.tail
    rw [stage_cons, stage_cons]
    by_cases turn : p = .reference name ∧ name ∉ done
    · obtain ⟨rfl, fresh⟩ := turn
      simp only [Piece.expanded, fresh, List.mem_append, List.mem_singleton, or_true, if_true,
        if_false]
      rw [pass_written, rest]
    · have same : p.expanded env (done ++ [name]) = p.expanded env done := by
        cases p with
        | char c => rfl
        | reference m =>
          by_cases isDone : m ∈ done
          · simp [Piece.expanded, isDone]
          · have other : m ≠ name := fun eq => turn ⟨eq ▸ rfl, eq ▸ isDone⟩
            simp [Piece.expanded, isDone, other]
      rw [same, pass_append_of_not_prefix ?_, rest]
      rintro a b parts nonempty ⟨y, begins⟩
      obtain ⟨front, back, cut, fresh, before, -⟩ := clear a y (by
        rw [stage_cons, parts, List.append_assoc, List.append_assoc, begins])
      rcases List.cons_eq_append_iff.mp cut with ⟨rfl, first⟩ | ⟨front, rfl, later⟩
      · exact turn ⟨(List.cons.inj first).1.symm, fresh⟩
      · have long := congrArg List.length before
        rw [stage_cons, parts] at long
        have short := List.length_pos_iff.mpr nonempty
        simp only [List.length_append] at long
        omega

/-- If every name is undisturbed at its turn, then all references are replaced and nothing else. -/
theorem foldl_pass_stage (clear : ∀ before name after, names = before ++ name :: after →
      Undisturbed env (done ++ before) name ps) :
    names.foldl (pass env) (stage env done ps) = stage env (done ++ names) ps := by
  induction names generalizing done with
  | nil => simp
  | cons name names ih =>
    have first := clear [] name names rfl
    rw [List.append_nil] at first
    rw [List.foldl_cons, pass_stage first, ih, List.append_assoc, List.singleton_append]
    intro before n after split
    have later := clear (name :: before) n after (by rw [split, List.cons_append])
    simpa using later

/-- The references of a text are replaced one after the other, as if at once. -/
theorem foldl_pass_of_separate (clear : Separate env text) :
    (references text).foldl (pass env) text = substitute env text := by
  have staged : (references text).foldl (pass env) (stage env [] (pieces text)) =
      stage env ([] ++ references text) (pieces text) :=
    foldl_pass_stage fun before name after split => clear before name after split
  rwa [stage_nil, flatMap_chars_pieces, List.nil_append, stage_references] at staged

/-- A text with at most one reference is expanded as if at once. -/
theorem separate_of_length (single : (references text).length ≤ 1) : Separate env text := by
  intro before name after split x y occurrence
  have alone : before = [] ∧ after = [] := by
    rw [split, List.length_append, List.length_cons] at single
    exact ⟨List.length_eq_zero_iff.mp (by omega), List.length_eq_zero_iff.mp (by omega)⟩
  obtain ⟨rfl, rfl⟩ := alone
  rw [stage_nil, flatMap_chars_pieces] at occurrence
  have named : IsName name := isName_of_mem (split ▸ List.mem_append_right _ (by simp))
  obtain ⟨front, m, back, a, cut, inside, rfl, rfl⟩ := occurs occurrence named
  have same : front.filterMap Piece.name? ++ m :: back.filterMap Piece.name? = [name] := by
    simpa [references, cut, Piece.name?] using split
  obtain rfl : m = name := List.mem_singleton.mp (same ▸ List.mem_append_right _ (by simp))
  obtain rfl : a = [] := by simpa using inside
  exact ⟨front, back, cut, by simp, by simp [stage_nil], (stage_nil env back).symm⟩

/-- Values that form no reference with what stands around them: names and values hold no dollar
sign, and the value of a reference directly behind a dollar sign does not go on with a brace. -/
structure Plain (env : Environment) (text : List Char) : Prop where
  names : ∀ name ∈ references text, '$' ∉ name
  values : ∀ name ∈ references text, '$' ∉ env.value name
  behind : ∀ front name back, pieces text = front ++ .char '$' :: .reference name :: back →
    ∃ c rest, env.value name = c :: rest ∧ c ≠ '{'

/-- If a name can be read in a stage of some pieces, then one can be read in their text. -/
theorem name_of_stage (named : IsName name) (read : stage env done ps = name ++ '}' :: rest) :
    ∃ n r, IsName n ∧ ps.flatMap Piece.chars = n ++ '}' :: r := by
  have brace : '}' ∈ ps.flatMap Piece.chars := by
    have member : '}' ∈ stage env done ps := by simp [read]
    obtain ⟨p, hp, inside⟩ := List.mem_flatMap.mp member
    refine List.mem_flatMap.mpr ⟨p, hp, ?_⟩
    cases p with
    | char c => exact inside
    | reference m => simp [Piece.chars, written]
  obtain ⟨n, r, split, unread⟩ := List.eq_append_cons_of_mem brace
  refine ⟨n, r, ⟨?_, unread⟩, split⟩
  rintro rfl
  cases ps with
  | nil => simp at split
  | cons p ps =>
    rw [stage_cons] at read
    cases p with
    | char c =>
      obtain ⟨rfl, -⟩ : c = '}' ∧ ps.flatMap Piece.chars = r := by
        simpa [Piece.chars] using split
      obtain ⟨d, name', rfl⟩ := List.exists_cons_of_ne_nil named.1
      obtain ⟨rfl, -⟩ := List.cons.inj read
      exact named.2 (by simp)
    | reference m => simp [Piece.chars, written] at split

theorem Plain.separate (plain : Plain env text) : Separate env text := by
  intro before name after split x y occurrence
  have member : ∀ m ∈ before, m ∈ references text := fun m early =>
    split ▸ List.mem_append_left _ early
  have named : IsName name := isName_of_mem (split ▸ List.mem_append_right _ (by simp))
  rw [List.append_assoc, written_append] at occurrence
  obtain ⟨front, p, back, a, b, cut, inside, rfl, rest⟩ := flatMap_eq_append_cons occurrence
  cases p with
  | char d =>
    -- a dollar sign of the text would go on with a brace and a name, and so it has no such match
    obtain ⟨rfl, rfl, rfl⟩ : a = [] ∧ d = '$' ∧ b = [] := by
      cases a <;> simp_all [Piece.expanded]
    rw [List.nil_append] at rest
    cases back with
    | nil => simp at rest
    | cons q back =>
      rw [List.flatMap_cons] at rest
      cases q with
      | char e =>
        obtain ⟨rfl, read⟩ := List.cons.inj rest
        obtain ⟨n, r, named', chars⟩ := name_of_stage named read.symm
        have unmatched : '$' :: List.flatMap Piece.chars (.char '{' :: back) ≠ written n ++ r :=
          leftmost cut named'
        simp [Piece.chars, chars, written_append] at unmatched
      | reference m =>
        by_cases early : m ∈ before
        · obtain ⟨c, more, value, other⟩ := plain.behind front m back cut
          rw [Piece.expanded, if_pos early, value] at rest
          exact absurd (List.cons.inj rest).1.symm other
        · rw [Piece.expanded, if_neg early, written] at rest
          cases (List.cons.inj rest).1
  | reference m =>
    have referred : m ∈ references text := by simp [references, cut, Piece.name?]
    by_cases early : m ∈ before
    · rw [Piece.expanded, if_pos early] at inside
      exact absurd (inside ▸ List.mem_append_right _ (by simp)) (plain.values m referred)
    · rw [Piece.expanded, if_neg early] at inside
      obtain ⟨w, rfl, closed⟩ := suffix_written inside (isName_of_mem referred)
      rw [List.append_assoc, ← List.cons_append] at rest
      obtain ⟨rfl, rfl⟩ := cut_unique (by simp [named.2]) closed rest
      cases a with
      | nil =>
        obtain rfl : m = name := by simpa [written] using inside
        exact ⟨front, back, cut, early, by simp [stage], rfl⟩
      | cons d a =>
        -- the name would hold a dollar sign
        have later : '{' :: m ++ ['}'] = a ++ '$' :: ('{' :: name ++ ['}']) :=
          (List.cons.inj inside).2
        have dollar : '$' ∈ '{' :: m ++ ['}'] := later ▸ List.mem_append_right _ (by simp)
        exact absurd (by simpa using dollar) (plain.names m referred)


end Expansion
end EventEngine
