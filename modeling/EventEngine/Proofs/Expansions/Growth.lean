import EventEngine.Proofs.Expansions.Stages
import Mathlib.Data.List.Infix

/-!
# Values that refer back

If the value of every variable ends with a closing brace and a reference to the last name of a
text, then the text grows whenever a name is replaced, and once more at the end for what the earlier
values have brought in. So a text with two references is not expanded as if at once.
-/
namespace EventEngine.Expansion

variable {env : Environment} {last name s rest : List Char} {names before : List (List Char)}
  {ps : List Piece}

/-- The value of a name ends with a closing brace and a reference to `last`. -/
def RefersBack (env : Environment) (last name : List Char) : Prop :=
  '}' ∉ name ∧ ∃ w, '}' ∉ w ∧ env.value name = w ++ '}' :: written last

def braces (s : List Char) : Nat := s.count '}'

@[simp] theorem braces_append (s t : List Char) : braces (s ++ t) = braces s + braces t :=
  List.count_append

theorem braces_written (closed : '}' ∉ name) : braces (written name) = 1 := by
  simp [braces, written, List.count_eq_zero_of_not_mem closed]

theorem RefersBack.braces_value (back : RefersBack env last name) (closed : '}' ∉ last) :
    braces (env.value name) = 2 := by
  obtain ⟨-, w, unread, value⟩ := back
  have rest : braces (written last) = 1 := braces_written closed
  have none : braces w = 0 := List.count_eq_zero_of_not_mem unread
  have first : braces ['}'] = 1 := rfl
  rw [value, ← List.singleton_append, braces_append, braces_append, rest, none, first]

theorem RefersBack.written_infix (back : RefersBack env last name) :
    written last <:+: env.value name := by
  obtain ⟨-, w, -, value⟩ := back
  exact ⟨w ++ ['}'], [], by simp [value]⟩

theorem written_eq_cons (name : List Char) : written name = '$' :: (written name).tail := rfl

/-- A pass over a text in which the name does not occur leaves it; any other pass brings in the
value and makes the text grow. -/
theorem pass_cases (grows : braces (written name) < braces (env.value name)) (s : List Char) :
    (¬ written name <:+: s ∧ pass env s name = s) ∨
      (env.value name <:+: pass env s name ∧ braces s < braces (pass env s name)) := by
  unfold pass
  fun_induction replace '$' (written name).tail (env.value name) s with
  | case1 =>
    refine .inl ⟨fun occurs => ?_, rfl⟩
    simpa [written] using List.infix_nil.mp occurs
  | case2 c s begins ih =>
    refine .inr ⟨⟨[], _, rfl⟩, ?_⟩
    obtain ⟨more, split⟩ := List.isPrefixOf_iff_prefix.mp begins
    have after : s.drop (written name).tail.length = more := by
      have tails := congrArg List.tail split
      rw [List.cons_append, List.tail_cons, List.tail_cons] at tails
      rw [← tails, List.drop_left]
    rw [after] at ih ⊢
    rw [← split, ← written_eq_cons, braces_append, braces_append]
    rcases ih with ⟨-, same⟩ | ⟨-, more⟩
    · rw [same]
      omega
    · omega
  | case3 c s begins ih =>
    have clear : ¬ written name <+: c :: s := fun h => begins (List.isPrefixOf_iff_prefix.mpr h)
    rcases ih with ⟨absent, same⟩ | ⟨inside, more⟩
    · refine .inl ⟨fun occurs => ?_, by rw [same]⟩
      exact (List.infix_cons_iff.mp occurs).elim clear absent
    · refine .inr ⟨inside.trans (List.suffix_cons c _).isInfix, ?_⟩
      have before : braces (c :: s) = braces [c] + braces s := braces_append [c] s
      have after := braces_append [c] (replace '$' (written name).tail (env.value name) s)
      rw [List.singleton_append] at after
      omega

/-- Whether a written form begins somewhere is settled at the next closing brace. -/
theorem prefix_closed (closed : '}' ∉ name) (begins : written name <+: s ++ '}' :: rest) :
    written name <+: s ++ ['}'] := by
  obtain ⟨y, split⟩ := begins
  rcases List.append_eq_append_iff.mp split with ⟨t, rfl, -⟩ | ⟨t, longer, back⟩
  · exact ⟨t ++ ['}'], by simp⟩
  · cases t with
    | nil => exact ⟨['}'], by rw [longer, List.append_nil]⟩
    | cons d t =>
      obtain ⟨rfl, -⟩ := List.cons.inj back
      have shape : ('$' :: '{' :: name) ++ '}' :: [] = s ++ '}' :: t := longer
      have ends := (List.append_cons_inj_of_notMem (by simp [closed]) (by simp)).mp shape
      exact ⟨[], by rw [longer, List.append_nil, ← ends.2.2]⟩

/-- A pass over a text that ends with a closing brace does not look beyond it. -/
theorem pass_closed (closed : '}' ∉ name) {v : List Char} (closes : env.value name = v ++ ['}'])
    (s : List Char) : ∃ s', ∀ rest,
      pass env (s ++ '}' :: rest) name = s' ++ '}' :: pass env rest name := by
  cases s with
  | nil =>
    refine ⟨[], fun rest => pass_cons ?_⟩
    rintro ⟨y, split⟩
    cases (List.cons.inj split).1
  | cons c s =>
    by_cases begins : written name <+: c :: s ++ ['}']
    · obtain ⟨t, split⟩ := begins
      rcases List.eq_nil_or_concat t with rfl | ⟨t, d, rfl⟩
      · refine ⟨v, fun rest => ?_⟩
        have whole : c :: s ++ '}' :: rest = written name ++ rest := by
          rw [← List.append_nil (written name), split]
          simp
        rw [whole, pass_written, closes]
        simp
      · rw [List.concat_eq_append, ← List.append_assoc] at split
        obtain ⟨cut, -⟩ := List.append_inj' split rfl
        have shorter : t.length < (c :: s).length := by
          rw [← cut, List.length_append]
          simp [written]
        obtain ⟨s', later⟩ := pass_closed closed closes t
        refine ⟨env.value name ++ s', fun rest => ?_⟩
        rw [← cut, List.append_assoc, pass_written, later, List.append_assoc]
    · obtain ⟨s', later⟩ := pass_closed closed closes s
      refine ⟨c :: s', fun rest => ?_⟩
      have clear : ¬ written name <+: c :: (s ++ '}' :: rest) :=
        fun h => begins (prefix_closed closed h)
      rw [List.cons_append, pass_cons clear, later, List.cons_append]
termination_by s.length
decreasing_by
  · exact shorter
  · exact Nat.lt_add_one s.length

theorem passes_closed (back : ∀ n ∈ names, RefersBack env last n) (s : List Char) :
    ∃ s', ∀ rest, names.foldl (pass env) (s ++ '}' :: rest) =
      s' ++ '}' :: names.foldl (pass env) rest := by
  induction names generalizing s with
  | nil => exact ⟨s, fun _ => rfl⟩
  | cons n names ih =>
    obtain ⟨closed, w, -, value⟩ := back n (by simp)
    have closes : env.value n = (w ++ '}' :: '$' :: '{' :: last) ++ ['}'] := by
      simp [value, written]
    obtain ⟨s', first⟩ := pass_closed closed closes s
    obtain ⟨s'', later⟩ := ih (fun m member => back m (List.mem_cons_of_mem _ member)) s'
    exact ⟨s'', fun rest => by rw [List.foldl_cons, first, later, List.foldl_cons]⟩

theorem passes_nil (env : Environment) (names : List (List Char)) :
    names.foldl (pass env) [] = [] := by
  induction names with
  | nil => rfl
  | cons n names ih =>
    have none : pass env [] n = [] := by rw [pass, replace]
    rw [List.foldl_cons, none, ih]

section Growth

variable (closed : '}' ∉ last)
include closed

theorem RefersBack.grows (back : RefersBack env last name) :
    braces (written name) < braces (env.value name) := by
  rw [back.braces_value closed, braces_written back.1]
  exact Nat.lt_add_one 1

/-- Once the last name occurs it stays, and the text does not shrink. -/
theorem passes_keep (back : ∀ n ∈ names, RefersBack env last n) (occurs : written last <:+: s) :
    written last <:+: names.foldl (pass env) s ∧ braces s ≤ braces (names.foldl (pass env) s) := by
  induction names generalizing s with
  | nil => exact ⟨occurs, Nat.le_refl _⟩
  | cons n names ih =>
    have back' : ∀ m ∈ names, RefersBack env last m :=
      fun m member => back m (List.mem_cons_of_mem _ member)
    have first := back n (by simp)
    rw [List.foldl_cons]
    rcases pass_cases (first.grows closed) s with ⟨-, same⟩ | ⟨inside, more⟩
    · rw [same]
      exact ih back' occurs
    · obtain ⟨stays, more'⟩ := ih back' (first.written_infix.trans inside)
      exact ⟨stays, by omega⟩

/-- Passes leave a text in which none of the names occurs; otherwise it grows, and the last name
occurs in it. -/
theorem passes_cases (back : ∀ n ∈ names, RefersBack env last n) (s : List Char) :
    ((∀ n ∈ names, ¬ written n <:+: s) ∧ names.foldl (pass env) s = s) ∨
      (written last <:+: names.foldl (pass env) s ∧
        braces s < braces (names.foldl (pass env) s)) := by
  induction names generalizing s with
  | nil => exact .inl ⟨nofun, rfl⟩
  | cons n names ih =>
    have back' : ∀ m ∈ names, RefersBack env last m :=
      fun m member => back m (List.mem_cons_of_mem _ member)
    have first := back n (by simp)
    rw [List.foldl_cons]
    rcases pass_cases (first.grows closed) s with ⟨absent, same⟩ | ⟨inside, more⟩
    · rw [same]
      rcases ih back' s with ⟨absent', same'⟩ | grown
      · exact .inl ⟨List.forall_mem_cons.mpr ⟨absent, absent'⟩, same'⟩
      · exact .inr grown
    · obtain ⟨stays, more'⟩ := passes_keep closed back' (first.written_infix.trans inside)
      exact .inr ⟨stays, by omega⟩

theorem passes_le (back : ∀ n ∈ names, RefersBack env last n) (s : List Char) :
    braces s ≤ braces (names.foldl (pass env) s) := by
  rcases passes_cases closed back s with ⟨-, same⟩ | ⟨-, more⟩
  · rw [same]
  · omega

/-- A reference makes the text grow when its name is replaced. If that is before the last pass then
its value makes it grow again. -/
theorem passes_reference (back : ∀ n ∈ before ++ [last], RefersBack env last n)
    (named : name ∈ before ++ [last]) (x : List Char) :
    braces (x ++ written name) + 1 + (if name ∈ before then 1 else 0) ≤
      braces ((before ++ [last]).foldl (pass env) (x ++ written name)) := by
  have back' : ∀ n ∈ before, RefersBack env last n :=
    fun n member => back n (List.mem_append_left _ member)
  have grows := (back last (by simp)).grows closed
  have here : written name <:+: x ++ written name := (List.suffix_append _ _).isInfix
  rw [List.foldl_append, List.foldl_cons, List.foldl_nil]
  rcases passes_cases closed back' (x ++ written name) with ⟨absent, same⟩ | ⟨stays, more⟩
  · have late : name ∉ before := fun member => absent name member here
    obtain rfl : name = last := by simpa [late] using named
    rw [same, if_neg late]
    rcases pass_cases grows (x ++ written name) with ⟨gone, -⟩ | ⟨-, more⟩
    · exact absurd here gone
    · omega
  · rcases pass_cases grows (before.foldl (pass env) (x ++ written name)) with
      ⟨gone, -⟩ | ⟨-, more'⟩
    · exact absurd stays gone
    · split <;> omega

/-- The passes over the text of some pieces make it grow for each of their references. -/
theorem passes_pieces (back : ∀ n ∈ before ++ [last], RefersBack env last n)
    (known : ∀ n ∈ ps.filterMap Piece.name?, n ∈ before ++ [last]) (x : List Char) :
    braces (x ++ ps.flatMap Piece.chars) + (ps.filterMap Piece.name?).length +
        (ps.filterMap Piece.name?).countP (· ∈ before) ≤
      braces ((before ++ [last]).foldl (pass env) (x ++ ps.flatMap Piece.chars)) := by
  induction ps generalizing x with
  | nil => exact passes_le closed back (x ++ [])
  | cons p ps ih =>
    cases p with
    | char c =>
      have later := ih (by simpa [Piece.name?] using known) (x ++ [c])
      simpa [List.filterMap_cons, Piece.name?, Piece.chars] using later
    | reference n =>
      simp only [List.filterMap_cons, Piece.name?, List.forall_mem_cons] at known
      obtain ⟨named, known⟩ := known
      have here := passes_reference closed back named x
      have later := ih known []
      -- nothing in front of the closing brace of the reference meets what comes after it
      obtain ⟨s', cut⟩ := passes_closed back (x ++ '$' :: '{' :: n)
      have alone := cut []
      have split := cut (ps.flatMap Piece.chars)
      have whole : ∀ rest, (x ++ '$' :: '{' :: n) ++ '}' :: rest = x ++ written n ++ rest := by
        simp [written]
      rw [passes_nil, whole, List.append_nil] at alone
      rw [whole] at split
      rw [List.flatMap_cons, Piece.chars, ← List.append_assoc, split, List.append_cons, ← alone]
      simp only [List.filterMap_cons, Piece.name?, List.length_cons, List.countP_cons,
        List.nil_append, decide_eq_true_eq, braces_append] at here later ⊢
      omega

end Growth

end EventEngine.Expansion
