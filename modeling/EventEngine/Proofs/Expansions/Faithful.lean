import EventEngine.Proofs.Expansions.Growth

/-!
# When references are replaced as if at once

A text whose references are all set can be expanded. The outcome is that of one simultaneous
substitution if the values form no reference with what stands around them; whatever the values are,
it is so for texts with at most one reference, and for no others.
-/
namespace EventEngine

namespace Environment

/-- The names are set, each to the same value. -/
def ofNames (names : List (List Char)) (value : List Char) : Environment :=
  ⟨names.map fun name => (String.ofList name, String.ofList value)⟩

variable {names : List (List Char)} {name last value : List Char}

/-- What is found for a name comes from an entry whose name goes on with an equals sign, together
with what stands between. -/
theorem exists_get?_ofNames (member : name ∈ names) (zero : '\x00' ∉ name) :
    ∃ key ∈ names, ∃ found, (ofNames names value).get? (String.ofList name) =
        some (String.ofList found) ∧ name ++ '=' :: found = key ++ '=' :: value := by
  have isSet : ((ofNames names value).get? (String.ofList name)).isSome = true := by
    simp only [get?, String.toList_ofList, if_neg zero, ofNames]
    refine List.findSome?_isSome_iff.mpr ⟨_, List.mem_map_of_mem member, ?_⟩
    simp
  obtain ⟨result, found⟩ := Option.isSome_iff_exists.mp isSet
  have searched := found
  simp only [get?, String.toList_ofList, if_neg zero, ofNames] at searched
  obtain ⟨entry, inside, read⟩ := List.exists_of_findSome?_eq_some searched
  obtain ⟨key, hk, rfl⟩ := List.mem_map.mp inside
  obtain ⟨out, begins, rfl⟩ := Option.map_eq_some_iff.mp read
  refine ⟨key, hk, out, found, ?_⟩
  have parts := List.isPrefixOf?_eq_some_iff_append_eq.mp begins
  simpa using parts

open Expansion in
/-- If no name holds a closing brace then values that begin with one are found, behind equals signs
at most. -/
theorem refersBack_ofNames (member : name ∈ names) (zero : '\x00' ∉ name)
    (closed : ∀ n ∈ names, '}' ∉ n) :
    ((ofNames names ('}' :: written last)).get? (String.ofList name)).isSome = true ∧
      RefersBack (ofNames names ('}' :: written last)) last name := by
  obtain ⟨key, hk, found, lookup, same⟩ := exists_get?_ofNames member zero
  refine ⟨by rw [lookup]; rfl, closed name member, ?_⟩
  have value : (ofNames names ('}' :: written last)).value name = found := by
    simp [Environment.value, lookup]
  rw [value]
  rcases List.append_eq_append_iff.mp same with ⟨t, longer, rest⟩ | ⟨t, shorter, rest⟩
  · cases t with
    | nil => exact ⟨[], by simp, (List.cons.inj rest).2⟩
    | cons d t =>
      -- the entry is that of a name which goes on with an equals sign
      refine ⟨t ++ ['='], fun brace => ?_, by simpa using (List.cons.inj rest).2⟩
      have inside : '}' ∈ t := by simpa using brace
      exact closed key hk (by simp [longer, inside])
  · cases t with
    | nil => exact ⟨[], by simp, (List.cons.inj rest).2.symm⟩
    | cons d t =>
      -- the name would go on into the value of the entry, which begins with a brace
      have inName : '}' ∈ name := by
        have later := (List.cons.inj rest).2
        cases t with
        | nil => cases (List.cons.inj later).1
        | cons e t =>
          obtain ⟨rfl, -⟩ := List.cons.inj later
          simp [shorter]
      exact absurd inName (closed name member)

end Environment

namespace Expansion

variable {env : Environment} {text last : List Char} {before : List (List Char)}

theorem expand_of_sets {text : String} (set : env.Sets text.toList) : expand env text =
    .ok (String.ofList ((references text.toList).foldl (pass env) text.toList)) := by
  simp [expand, expandAll_of_set set]

theorem expand_of_separate {text : String} (set : env.Sets text.toList)
    (separate : Separate env text.toList) :
    expand env text = .ok (String.ofList (substitute env text.toList)) := by
  rw [expand_of_sets set, foldl_pass_of_separate separate]

theorem braces_substitute (ps : List Piece)
    (values : ∀ n ∈ ps.filterMap Piece.name?, '}' ∉ n ∧ braces (env.value n) = 2) :
    braces (ps.flatMap (Piece.replaced env)) =
      braces (ps.flatMap Piece.chars) + (ps.filterMap Piece.name?).length := by
  induction ps with
  | nil => rfl
  | cons p ps ih =>
    cases p with
    | char c =>
      have later := ih (by simpa [List.filterMap_cons, Piece.name?] using values)
      simp only [List.flatMap_cons, List.filterMap_cons, Piece.name?, Piece.chars, Piece.replaced,
        braces_append]
      omega
    | reference n =>
      simp only [List.filterMap_cons, Piece.name?, List.forall_mem_cons] at values
      obtain ⟨⟨closed, two⟩, values⟩ := values
      have later := ih values
      simp only [List.flatMap_cons, List.filterMap_cons, Piece.name?, Piece.chars, Piece.replaced,
        braces_append, List.length_cons, two, braces_written closed]
      omega

/-- Values that refer back tell the passes from a substitution. -/
theorem foldl_pass_ne_substitute (split : references text = before ++ [last])
    (several : before ≠ []) (back : ∀ n ∈ references text, RefersBack env last n) :
    (references text).foldl (pass env) text ≠ substitute env text := by
  intro same
  have last_closed : '}' ∉ last := (back last (by simp [split])).1
  have values : ∀ n ∈ references text, '}' ∉ n ∧ braces (env.value n) = 2 := fun n member =>
    ⟨(back n member).1, (back n member).braces_value last_closed⟩
  have once := braces_substitute (pieces text) values
  have known : ∀ n ∈ (pieces text).filterMap Piece.name?, n ∈ before ++ [last] :=
    fun n member => split ▸ member
  have grown := passes_pieces last_closed (split ▸ back) known []
  rw [List.nil_append, flatMap_chars_pieces, ← split, same] at grown
  rw [flatMap_chars_pieces] at once
  have again : 0 < (references text).countP (· ∈ before) := by
    obtain ⟨name, more, rfl⟩ := List.exists_cons_of_ne_nil several
    exact List.countP_pos_iff.mpr ⟨name, by simp [split], by simp⟩
  simp only [references, substitute] at grown once again
  omega

/-- If a text has several references, and all of them can be set, then some values tell the passes
from a substitution. -/
theorem exists_foldl_pass_ne (several : 1 < (references text).length)
    (zero : ∀ name ∈ references text, '\x00' ∉ name) : ∃ env : Environment, env.Sets text ∧
      (references text).foldl (pass env) text ≠ substitute env text := by
  rcases List.eq_nil_or_concat (references text) with empty | ⟨before, last, split⟩
  · simp [empty] at several
  · rw [List.concat_eq_append] at split
    have early : before ≠ [] := by
      rintro rfl
      simp [split] at several
    let env := Environment.ofNames (references text) ('}' :: written last)
    have found : ∀ name ∈ references text,
        (env.get? (String.ofList name)).isSome = true ∧ RefersBack env last name :=
      fun name member => Environment.refersBack_ofNames member (zero name member)
        fun n referred => (isName_of_mem referred).2
    exact ⟨env, fun name member => (found name member).1,
      foldl_pass_ne_substitute split early fun name member => (found name member).2⟩

/-- The references of a text are the leftmost matches of a dollar sign with a name between braces.
If all names are set then the text can be expanded, and the outcome is the substitution of all
references at once, provided that at its turn the written form of each name occurs only where the
text refers to it; this is so if no name and no value holds a dollar sign, and no dollar sign of the
text stands before a value that is empty or begins with a brace. For every choice of values it is so
just for the texts that have at most one reference, or a name that cannot be set. -/
theorem expand_faithful_iff (text : String) :
    ((pieces text.toList).flatMap Piece.chars = text.toList ∧
      (∀ name ∈ references text.toList, name ≠ [] ∧ '}' ∉ name) ∧
      ∀ front c back name rest, pieces text.toList = front ++ .char c :: back → name ≠ [] →
        '}' ∉ name → c :: back.flatMap Piece.chars ≠ written name ++ rest) ∧
    (∀ env : Environment, env.Sets text.toList → ∃ out, expand env text = .ok out) ∧
    (∀ env : Environment, env.Sets text.toList → Separate env text.toList →
      expand env text = .ok (String.ofList (substitute env text.toList))) ∧
    (∀ env : Environment, Plain env text.toList → Separate env text.toList) ∧
    ((∀ env : Environment, env.Sets text.toList →
        expand env text = .ok (String.ofList (substitute env text.toList))) ↔
      (references text.toList).length ≤ 1 ∨ ∃ name ∈ references text.toList, '\x00' ∈ name) := by
  refine ⟨⟨flatMap_chars_pieces _, fun _ => isName_of_mem, ?_⟩, ?_, ?_, fun env => Plain.separate,
    ?_, ?_⟩
  · exact fun front c back name rest cut nonempty closed => leftmost cut ⟨nonempty, closed⟩
  · exact fun env set => ⟨_, expand_of_sets set⟩
  · exact fun env set separate => expand_of_separate set separate
  · intro always
    by_contra none
    obtain ⟨several, zero⟩ := not_or.mp none
    obtain ⟨env, set, differ⟩ := exists_foldl_pass_ne (Nat.lt_of_not_le several)
      fun name member has => zero ⟨name, member, has⟩
    have same := (expand_of_sets set).symm.trans (always env set)
    exact differ (String.ofList_injective (Except.ok.inj same))
  · rintro (single | ⟨name, member, zero⟩) env set
    · exact expand_of_separate set (separate_of_length single)
    · have isSet := set name member
      simp [Environment.get?, zero] at isSet

/-- A value that is a reference itself is expanded by the next reference; with a plain value in its
place the references are replaced as if at once. -/
theorem value_expanded_again :
    let text := "$\x7ba\x7d$\x7bb\x7d"
    let plain : Environment := ⟨[("a", "x"), ("b", "y")]⟩
    let nested : Environment := ⟨[("a", "$\x7bb\x7d"), ("b", "y")]⟩
    expand plain text = .ok "xy" ∧
    expand nested text = .ok "yy" ∧ substitute nested text.toList = "$\x7bb\x7dy".toList := by
  intro text plain nested
  have cut : pieces text.toList = [.reference ['a'], .reference ['b']] := by decide +kernel
  have named : references text.toList = [['a'], ['b']] := by rw [references, cut]; rfl
  have set : plain.Sets text.toList ∧ nested.Sets text.toList := by
    rw [Environment.Sets, Environment.Sets, named]
    decide +kernel
  have isPlain : Plain plain text.toList := by
    refine ⟨by rw [named]; decide, by rw [named]; decide +kernel, fun front name back split => ?_⟩
    have member : .char '$' ∈ pieces text.toList := split ▸ List.mem_append_right _ (by simp)
    simp [cut] at member
  obtain ⟨-, -, faithful, plainly, -⟩ := expand_faithful_iff text
  exact ⟨(faithful plain set.1 (plainly plain isPlain)).trans (congrArg _ (by decide +kernel)),
    (expand_of_sets set.2).trans (congrArg _ (by decide +kernel)), by decide +kernel⟩

end Expansion
end EventEngine
