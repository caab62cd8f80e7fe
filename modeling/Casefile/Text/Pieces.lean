/-!
# Cutting a text at a separator

* `pieces` — the stretches between the separators, one more than there are separators.
* `joined` — texts put behind one another with a separator between them.
* `pieces_append` — cutting a text with a separator in it is cutting its two sides.
-/

set_option autoImplicit false

namespace Casefile.Text

/-- The stretches of `cs` between the separators, empty ones included. -/
def pieces (sep : Char) : List Char → List (List Char)
  | [] => [[]]
  | c :: cs =>
    if c = sep then [] :: pieces sep cs
    else match pieces sep cs with
      | [] => [[c]]
      | p :: ps => (c :: p) :: ps

/-- The lists behind one another with a separator between every two. -/
def joined (sep : Char) : List (List Char) → List Char
  | [] => []
  | [p] => p
  | p :: q :: ps => p ++ sep :: joined sep (q :: ps)

/-- There is always at least one stretch. -/
theorem pieces_ne_nil (sep : Char) (cs : List Char) : pieces sep cs ≠ [] := by
  cases cs with
  | nil => simp [pieces]
  | cons c cs =>
    simp only [pieces]
    split
    · simp
    · split <;> simp

/-- A separator in a text cuts it into its two sides. -/
theorem pieces_append (sep : Char) (xs ys : List Char) :
    pieces sep (xs ++ sep :: ys) = pieces sep xs ++ pieces sep ys := by
  induction xs with
  | nil => simp [pieces]
  | cons x xs ih =>
    simp only [List.cons_append, pieces, ih]
    split
    · simp
    · cases h : pieces sep xs with
      | nil => exact absurd h (pieces_ne_nil sep xs)
      | cons p ps => simp

end Casefile.Text
