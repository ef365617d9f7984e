/-!
# Similar words

How alike two words are, between 0 and 1: the measure takes the letters that the words share at about the same place,
and how many of those stand in another order.
-/
namespace Scriptlet.Text

/-- Takes the first unused place of `letter` in a word, from the place `i` on, among those from `low` below `high`. -/
def claim (letter : Char) (low high : Nat) : (i : Nat) → List (Char × Bool) → Option (List (Char × Bool))
  | _, [] => none
  | i, (c, used) :: rest =>
    if low ≤ i ∧ i < high ∧ c = letter ∧ used = false then some ((c, true) :: rest)
    else (claim letter low high (i + 1) rest).map ((c, used) :: ·)

/-- The letters of a word, from its place `i` on, that find a partner in the other at most `reach` places away, and
the other word with the partners marked. -/
def partners (reach : Nat) : (i : Nat) → List Char → List (Char × Bool) → List Char × List (Char × Bool)
  | _, [], other => ([], other)
  | i, c :: rest, other =>
    match claim c (i - reach) (i + reach + 1) 0 other with
    | some other => let (found, other) := partners reach (i + 1) rest other; (c :: found, other)
    | none => partners reach (i + 1) rest other

/-- The mean of the shared part of each word and of the part of the shared letters that are in order. -/
def similarity (a b : String) : Rat :=
  let reach := max a.length b.length / 2 - 1
  let (shared, marked) := partners reach 0 a.toList (b.toList.map (·, false))
  let images := (marked.filter (·.2)).map (·.1)
  let common := shared.length
  let swapped := ((shared.zip images).filter fun (x, y) => x ≠ y).length / 2
  if common = 0 then 0
  else ((common : Rat) / a.length + (common : Rat) / b.length + ((common - swapped : Nat) : Rat) / common) / 3

end Scriptlet.Text
