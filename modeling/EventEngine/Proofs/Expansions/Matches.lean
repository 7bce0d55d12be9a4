import EventEngine.Config.Expansion
import Mathlib.Data.List.TakeWhile

/-!
# Where a text refers to the environment

The references of a text are the leftmost matches of a dollar sign with a name between braces, none
of which overlap. So the written form of a name occurs in a text at a reference only, or at the end
of one.
-/
namespace EventEngine.Expansion

/-- What can stand between the braces of a reference. -/
def IsName (name : List Char) : Prop := name ≠ [] ∧ '}' ∉ name

variable {text name rest u v r s x y : List Char} {c d : Char} {ps front back : List Piece}

theorem takeWhile_cut (hu : d ∉ u) : (u ++ d :: r).takeWhile (· != d) = u := by
  have inside : ∀ c ∈ u, (c != d) = true := fun c hc => bne_iff_ne.mpr fun h => hu (h ▸ hc)
  rw [List.takeWhile_append_of_pos inside]
  simp

theorem dropWhile_cut (hu : d ∉ u) : (u ++ d :: r).dropWhile (· != d) = d :: r := by
  have inside : ∀ c ∈ u, (c != d) = true := fun c hc => bne_iff_ne.mpr fun h => hu (h ▸ hc)
  rw [List.dropWhile_append_of_pos inside]
  simp

/-- A text is cut where a character stands first in one way only. -/
theorem cut_unique (hu : d ∉ u) (hv : d ∉ v) (same : u ++ d :: r = v ++ d :: s) :
    u = v ∧ r = s := by
  have front : u = v := by rw [← takeWhile_cut (r := r) hu, same, takeWhile_cut hv]
  have back : d :: r = d :: s := by rw [← dropWhile_cut hu, same, dropWhile_cut hv]
  exact ⟨front, (List.cons.inj back).2⟩

theorem written_append (name rest : List Char) :
    written name ++ rest = '$' :: '{' :: (name ++ '}' :: rest) := by
  simp [written]

/-- A written form ends at its only closing brace. -/
theorem suffix_written (inside : written name = u ++ '$' :: v) (named : IsName name) :
    ∃ w, v = w ++ ['}'] ∧ '}' ∉ w := by
  have shape : ('$' :: '{' :: name) ++ ['}'] = (u ++ ['$']) ++ v := by simpa [written] using inside
  rcases List.append_eq_append_iff.mp shape with ⟨w, front, back⟩ | ⟨w, front, back⟩
  · cases w with
    | nil => exact ⟨[], by simpa using back.symm, by simp⟩
    | cons d w =>
      obtain ⟨rfl, nothing⟩ := List.cons.inj back
      obtain ⟨rfl, -⟩ := List.append_eq_nil_iff.mp nothing.symm
      have last := congrArg List.getLast? front
      rw [List.getLast?_concat, List.getLast?_concat] at last
      simp at last
  · refine ⟨w, back, fun brace => ?_⟩
    have member : '}' ∈ '$' :: '{' :: name := front ▸ List.mem_append_right _ brace
    simp [named.2] at member

/-- The names that a text refers to are names. -/
theorem isName_of_mem (member : name ∈ references text) : IsName name := by
  unfold references at member
  fun_induction pieces text with
  | case1 => simp at member
  | case2 rest _ _ _ _ ih => exact ih (by simpa [Piece.name?] using member)
  | case3 rest close after h named ih =>
    simp only [List.filterMap_cons, Piece.name?, List.mem_cons] at member
    rcases member with rfl | member
    · exact ⟨named, fun brace => by simpa using List.mem_takeWhile_imp brace⟩
    · exact ih member
  | case4 rest _ ih => exact ih (by simpa [Piece.name?] using member)
  | case5 c rest _ ih => exact ih (by simpa [Piece.name?] using member)

/-- No written form begins at a character that is not part of a reference. -/
theorem leftmost (cut : pieces text = front ++ .char c :: back) (named : IsName name) :
    c :: back.flatMap Piece.chars ≠ written name ++ rest := by
  intro matched
  rw [written_append] at matched
  fun_induction pieces text generalizing front with
  | case1 => simp at cut
  | case2 after close unread split unnamed ih =>
    rcases List.cons_eq_append_iff.mp cut with ⟨rfl, first⟩ | ⟨front, rfl, later⟩
    · obtain ⟨-, rfl⟩ := List.cons.inj first
      rw [flatMap_chars_pieces] at matched
      obtain rfl : after = name ++ '}' :: rest := by simpa using (List.cons.inj matched).2
      exact named.1 (by rw [← unnamed, takeWhile_cut named.2])
    · exact ih later
  | case3 after close unread split reads ih =>
    rcases List.cons_eq_append_iff.mp cut with ⟨-, first⟩ | ⟨front, rfl, later⟩
    · cases first
    · exact ih later
  | case4 after split ih =>
    rcases List.cons_eq_append_iff.mp cut with ⟨rfl, first⟩ | ⟨front, rfl, later⟩
    · obtain ⟨-, rfl⟩ := List.cons.inj first
      rw [flatMap_chars_pieces] at matched
      obtain rfl : after = name ++ '}' :: rest := by simpa using (List.cons.inj matched).2
      simp [dropWhile_cut named.2] at split
    · exact ih later
  | case5 d after other ih =>
    rcases List.cons_eq_append_iff.mp cut with ⟨rfl, first⟩ | ⟨front, rfl, later⟩
    · obtain ⟨same, rfl⟩ := List.cons.inj first
      obtain rfl := Piece.char.inj same
      rw [flatMap_chars_pieces] at matched
      obtain ⟨rfl, rfl⟩ := List.cons.inj matched
      exact other _ rfl rfl
    · exact ih later

/-- Where a character stands among the pieces of a text. -/
theorem flatMap_eq_append_cons {f : Piece → List Char} (h : ps.flatMap f = x ++ c :: y) :
    ∃ front p back a b, ps = front ++ p :: back ∧ f p = a ++ c :: b ∧
      x = front.flatMap f ++ a ∧ y = b ++ back.flatMap f := by
  induction ps generalizing x with
  | nil => simp at h
  | cons p ps ih =>
    rcases List.append_eq_append_iff.mp h with ⟨x', rfl, later⟩ | ⟨b, here, rest⟩
    · obtain ⟨front, q, back, a, b, rfl, inside, rfl, rfl⟩ := ih later
      exact ⟨p :: front, q, back, a, b, rfl, inside, by simp, rfl⟩
    · cases b with
      | nil =>
        obtain ⟨front, q, back, a, b, rfl, inside, start, rfl⟩ := ih (x := []) rest.symm
        exact ⟨p :: front, q, back, a, b, rfl, inside, by simp [here, ← start], rfl⟩
      | cons d b =>
        obtain ⟨rfl, rfl⟩ := List.cons.inj rest
        exact ⟨[], p, ps, x, b, rfl, here, rfl, rfl⟩

/-- The written form of a name occurs at a reference only, or at the end of one. -/
theorem occurs (split : text = x ++ written name ++ y) (named : IsName name) :
    ∃ front m back a, pieces text = front ++ .reference m :: back ∧ written m = a ++ written name ∧
      x = front.flatMap Piece.chars ++ a ∧ y = back.flatMap Piece.chars := by
  have chars := flatMap_chars_pieces text
  rw [split, List.append_assoc, written_append] at chars
  obtain ⟨front, p, back, a, b, cut, inside, rfl, rest⟩ := flatMap_eq_append_cons chars
  rw [← written_append, ← List.append_assoc, ← split] at cut
  cases p with
  | char d =>
    obtain ⟨rfl, rfl, rfl⟩ : a = [] ∧ d = '$' ∧ b = [] := by
      cases a <;> simp_all [Piece.chars]
    have unmatched : '$' :: back.flatMap Piece.chars ≠ written name ++ y := leftmost cut named
    rw [written_append] at unmatched
    exact absurd (congrArg (List.cons '$') rest.symm) unmatched
  | reference m =>
    have member : m ∈ references text := by simp [references, cut, Piece.name?]
    have named' : IsName m := isName_of_mem member
    obtain ⟨w, rfl, closed⟩ := suffix_written inside named'
    rw [List.append_assoc, ← List.cons_append] at rest
    obtain ⟨rfl, rfl⟩ := cut_unique (by simp [named.2]) closed rest
    exact ⟨front, m, back, a, cut, by simpa [written, Piece.chars] using inside, rfl, rfl⟩

end EventEngine.Expansion
