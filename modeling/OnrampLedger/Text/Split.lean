/-!
# Splitting and joining at a separator

A text is split at every occurrence of a separator character into the pieces between
them, so `n` separators give `n + 1` pieces (the empty text gives one empty piece).
Joining the pieces with the separator gives the text back (`join_splitAt`).
-/

namespace OnrampLedger

namespace Text

/-- The pieces of `cs` between occurrences of `sep`, the first piece being built up in
`acc` (reversed). -/
def splitAtAux (sep : Char) : List Char → List Char → List (List Char)
  | [], acc => [acc.reverse]
  | c :: cs, acc => if c = sep then acc.reverse :: splitAtAux sep cs [] else splitAtAux sep cs (c :: acc)

/-- The pieces of `cs` between occurrences of `sep`. -/
def splitAt (sep : Char) (cs : List Char) : List (List Char) := splitAtAux sep cs []

/-- The pieces joined with `sep` between neighbours. -/
def joinWith (sep : Char) : List (List Char) → List Char
  | [] => []
  | [p] => p
  | p :: ps => p ++ sep :: joinWith sep ps

/-- Splits a text at every `sep`. -/
def splitText (sep : Char) (s : String) : List String := (splitAt sep s.toList).map String.ofList

/-- Joins texts with `sep` between neighbours. -/
def joinText (sep : Char) (ps : List String) : String :=
  String.ofList (joinWith sep (ps.map String.toList))

theorem splitAtAux_ne_nil (sep : Char) (cs acc : List Char) : splitAtAux sep cs acc ≠ [] := by
  induction cs generalizing acc with
  | nil => simp [splitAtAux]
  | cons c cs ih =>
    simp only [splitAtAux]
    split
    · simp
    · exact ih _

theorem joinWith_cons_of_ne_nil (sep : Char) (p : List Char) {ps : List (List Char)}
    (h : ps ≠ []) : joinWith sep (p :: ps) = p ++ sep :: joinWith sep ps := by
  cases ps with
  | nil => exact absurd rfl h
  | cons q qs => rfl

theorem joinWith_splitAtAux (sep : Char) (cs acc : List Char) :
    joinWith sep (splitAtAux sep cs acc) = acc.reverse ++ cs := by
  induction cs generalizing acc with
  | nil => simp [splitAtAux, joinWith]
  | cons c cs ih =>
    simp only [splitAtAux]
    split
    · next h =>
      rw [joinWith_cons_of_ne_nil sep _ (splitAtAux_ne_nil sep cs []), ih]
      simp [h]
    · rw [ih]
      simp

/-- Joining the pieces gives the text back. -/
theorem join_splitAt (sep : Char) (cs : List Char) : joinWith sep (splitAt sep cs) = cs := by
  simp [splitAt, joinWith_splitAtAux]

end Text

end OnrampLedger
