/-!
# Paths

Empty parts and single dots say nothing, so a path is shown without them.
-/

namespace Calculator

structure Path where
  /-- No slash for a relative path, else one or two. -/
  root : String
  parts : List String
  deriving DecidableEq, Repr

namespace Path

/-- Just two slashes at the start are kept. More of them are one. -/
def rootOf : List Char → String
  | '/' :: '/' :: '/' :: _ => "/"
  | '/' :: '/' :: _ => "//"
  | '/' :: _ => "/"
  | _ => ""

/-- The pieces between the slashes. -/
def pieces : List Char → List (List Char)
  | [] => [[]]
  | '/' :: cs => [] :: pieces cs
  | c :: cs =>
    match pieces cs with
    | [] => [[c]]
    | piece :: others => (c :: piece) :: others

def ofText (s : String) : Path :=
  let said := (pieces s.toList).filter fun piece => piece ≠ [] && piece ≠ ['.']
  ⟨rootOf s.toList, said.map String.ofList⟩

def text (path : Path) : String :=
  if path.root = "" && path.parts.isEmpty then "."
  else path.root ++ String.intercalate "/" path.parts

end Path

end Calculator
