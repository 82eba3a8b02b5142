/-!
Segments: the non-empty stretches of a text between the occurrences of a separating character.
-/

set_option autoImplicit false

namespace ResourceClasses.Text

/-- All stretches of a list between the occurrences of a separator, empty ones included. -/
def stretches (separator : Char) (cs : List Char) : List (List Char) :=
  cs.foldr
    (fun c parts =>
      if c = separator then [] :: parts
      else
        match parts with
        | [] => [[c]]
        | part :: rest => (c :: part) :: rest)
    [[]]

/-- The non-empty stretches of a text between the occurrences of a separator. -/
def segments (separator : Char) (s : String) : List String :=
  ((stretches separator s.toList).filter fun part => !part.isEmpty).map String.ofList

end ResourceClasses.Text
