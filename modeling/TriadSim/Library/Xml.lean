import Mathlib.Data.List.Basic

/-!
# Default namespaces in a stream of tags

A start tag may declare a default namespace.  The declaration holds for the element and
for what is inside of it, up to an inner declaration, and ends with the element: the
namespace in scope is kept on a stack.
-/

namespace TriadSim
namespace Library

/-- A tag or a piece of character data. -/
inductive XMLTag (Name Space Text : Type) where
  | opening (name : Name) (declared : Option Space)
  | chars (text : Text)
  | closing (name : Name)
  deriving DecidableEq, Repr

namespace XMLTag

variable {Name Space Text : Type}

/-- The elements of a stream in document order, each with the namespace in scope at it.
`scope` is the namespace in scope where the stream begins, and `outer` holds those of the
elements around the innermost one. -/
def scopes : Space → List Space → List (XMLTag Name Space Text) → List (Name × Space)
  | _, _, [] => []
  | scope, outer, opening name declared :: rest =>
    (name, declared.getD scope) :: scopes (declared.getD scope) (scope :: outer) rest
  | scope, outer, chars _ :: rest => scopes scope outer rest
  | _, scope :: outer, closing _ :: rest => scopes scope outer rest
  | scope, [], closing _ :: rest => scopes scope [] rest

/-- A piece of a stream that closes what it opens: it shows some elements, and the scope
behind it is the scope before it. -/
def Shows (scope : Space) (piece : List (XMLTag Name Space Text))
    (elements : List (Name × Space)) : Prop :=
  ∀ outer rest, scopes scope outer (piece ++ rest) = elements ++ scopes scope outer rest

variable {scope : Space} {piece second : List (XMLTag Name Space Text)}
  {elements more : List (Name × Space)} {declared : Option Space}

theorem shows_nil : Shows scope ([] : List (XMLTag Name Space Text)) [] :=
  fun _ _ => rfl

theorem shows_chars (text : Text) :
    Shows scope ([chars text] : List (XMLTag Name Space Text)) [] :=
  fun _ _ => rfl

/-- Pieces next to each other have the same scope around them. -/
theorem Shows.append (hPiece : Shows scope piece elements) (hSecond : Shows scope second more) :
    Shows scope (piece ++ second) (elements ++ more) := by
  intro outer rest
  rw [List.append_assoc, hPiece outer, hSecond outer, List.append_assoc]

/-- An element shows itself, and then what is inside of it with its own scope. -/
theorem Shows.element (name : Name) (hInner : Shows (declared.getD scope) piece elements) :
    Shows scope (opening name declared :: piece ++ [closing name])
      ((name, declared.getD scope) :: elements) := by
  intro outer rest
  have hAround := hInner (scope :: outer) (closing name :: rest)
  simp only [List.cons_append, List.append_assoc, List.nil_append, scopes]
  rw [hAround]
  rfl

theorem Shows.scopes_eq (hShows : Shows scope piece elements) (outer : List Space) :
    scopes scope outer piece = elements := by
  have hAll := hShows outer []
  rw [List.append_nil] at hAll
  rw [hAll]
  cases outer <;> simp [scopes]

end XMLTag

end Library
end TriadSim
