import EventEngine.Diagnostics

/-!
# References to the environment

A text can refer to a variable of the environment as a dollar sign and its name between braces. The
references are those of the text as it was given. They are expanded one after the other, each at
every place where it stands by then, so that a reference that comes with a value is expanded by a
later one of the same name, and by no other.
-/
namespace EventEngine

/-- The variables of a process. -/
structure Environment where
  entries : List (String × String) := []

/-- The value of a variable: what stands behind the name and an equals sign in one of the entries,
which are written in the same way. No name holds a zero character. -/
def Environment.get? (env : Environment) (name : String) : Option String :=
  if '\x00' ∈ name.toList then none
  else env.entries.findSome? fun (key, value) =>
    (List.isPrefixOf? (name ++ "=").toList (key ++ "=" ++ value).toList).map String.ofList

namespace Expansion

/-- A part of a text. -/
inductive Piece where
  | char (c : Char)
  | reference (name : List Char)
  deriving DecidableEq, Repr

/-- The written form of a reference. -/
def written (name : List Char) : List Char := '$' :: '{' :: name ++ ['}']

/-- Cut a text into references and the characters between them. A name is not empty, and ends
before the first closing brace. -/
def pieces : List Char → List Piece
  | [] => []
  | '$' :: '{' :: rest =>
    match _h : rest.dropWhile (· != '}') with
    | _ :: after =>
      if rest.takeWhile (· != '}') = [] then .char '$' :: pieces ('{' :: rest)
      else .reference (rest.takeWhile (· != '}')) :: pieces after
    | [] => .char '$' :: pieces ('{' :: rest)
  | c :: rest => .char c :: pieces rest
termination_by s => s.length
decreasing_by
  · simp
  · have := (List.dropWhile_sublist (l := rest) (· != '}')).length_le
    simp only [_h, List.length_cons] at this
    simp only [List.length_cons]
    omega
  · simp
  · simp

def Piece.chars : Piece → List Char
  | char c => [c]
  | reference name => written name

/-- Nothing is lost: the pieces of a text make up the text. -/
theorem flatMap_chars_pieces (text : List Char) : (pieces text).flatMap Piece.chars = text := by
  fun_induction pieces text with
  | case1 => rfl
  | case2 rest close after h _ ih =>
    simpa [Piece.chars] using ih
  | case3 rest close after h _ ih =>
    have closes : close = '}' := by
      have := List.head_dropWhile_not (· != '}') (l := rest) (by simp [h])
      simpa [h] using this
    have split := List.takeWhile_append_dropWhile (p := (· != '}')) (l := rest)
    rw [h, closes] at split
    rw [List.flatMap_cons, ih, Piece.chars, written]
    simpa using split
  | case4 rest h ih =>
    simpa [Piece.chars] using ih
  | case5 c rest _ ih =>
    simpa [Piece.chars] using ih

def Piece.name? : Piece → Option (List Char)
  | char _ => none
  | reference name => some name

/-- The names that a text refers to, in order. -/
def references (text : List Char) : List (List Char) := (pieces text).filterMap Piece.name?

/-- Replace a pattern with a first character by a value, everywhere from left to right. -/
def replace (first : Char) (more value : List Char) : List Char → List Char
  | [] => []
  | c :: rest =>
    if (first :: more).isPrefixOf (c :: rest) then
      value ++ replace first more value (rest.drop more.length)
    else c :: replace first more value rest
termination_by s => s.length
decreasing_by
  · simp only [List.length_drop, List.length_cons]; omega
  · simp

/-- Expand the references with given names in a text, one after the other. The first one that is
not set is reported. -/
def expandAll (env : Environment) : (names : List (List Char)) → List Char →
    Except ConfigError (List Char)
  | [], text => .ok text
  | name :: names, text => match env.get? (String.ofList name) with
    | some value => expandAll env names (replace '$' (written name).tail value.toList text)
    | none => .error (.envVarNotSet (String.ofList name))

def expand (env : Environment) (text : String) : Except ConfigError String := do
  return String.ofList (← expandAll env (references text.toList) text.toList)

end Expansion
end EventEngine
