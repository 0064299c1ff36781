/-!
Contract: sequences that a separator divides into pieces.

Owns:
- `pieces`, what lies between the separators, so that there is one piece more
  than there are separators;
- `joined`, pieces with separators between them;
- the laws that each of them undoes the other.

Does not own: which separator divides lines, keys and paths.
-/

namespace RoomLedger.Text

variable {α : Type}

def joined (separator : α) : List (List α) → List α
  | [] => []
  | [piece] => piece
  | piece :: others => piece ++ separator :: joined separator others

/-- One more item lengthens the first piece. -/
theorem joined_cons_head (separator item : α) (piece : List α) (others : List (List α)) :
    joined separator ((item :: piece) :: others) = item :: joined separator (piece :: others) := by
  cases others with
  | nil => rfl
  | cons next others => rfl

theorem joined_cons {others : List (List α)} (present : others ≠ []) (separator : α)
    (piece : List α) :
    joined separator (piece :: others) = piece ++ separator :: joined separator others := by
  cases others with
  | nil => exact absurd rfl present
  | cons next others => rfl

/-- Every piece but the first has a separator before it. -/
theorem joined_cons_eq_append_flatMap (separator : α) (piece : List α) (others : List (List α)) :
    joined separator (piece :: others) = piece ++ others.flatMap (separator :: ·) := by
  induction others generalizing piece with
  | nil => exact (List.append_nil piece).symm
  | cons next others inductionHypothesis =>
    rw [joined_cons (List.cons_ne_nil next others), inductionHypothesis, List.flatMap_cons,
      List.cons_append]

/-- The last piece stands behind the last separator. -/
theorem joined_concat {front : List (List α)} (present : front ≠ []) (separator : α)
    (last : List α) :
    joined separator (front ++ [last]) = joined separator front ++ separator :: last := by
  induction front with
  | nil => exact absurd rfl present
  | cons piece others inductionHypothesis =>
    by_cases alone : others = []
    · subst alone
      rfl
    · rw [List.cons_append, joined_cons (by simp), joined_cons alone, inductionHypothesis alone,
        List.append_assoc, List.cons_append]

variable [DecidableEq α]

def pieces (separator : α) : List α → List (List α)
  | [] => [[]]
  | item :: rest =>
      if item = separator then [] :: pieces separator rest
      else
        match pieces separator rest with
        | [] => [[item]]
        | piece :: others => (item :: piece) :: others

@[simp] theorem pieces_nil (separator : α) : pieces separator [] = [[]] := rfl

@[simp] theorem pieces_cons_separator (separator : α) (rest : List α) :
    pieces separator (separator :: rest) = [] :: pieces separator rest := by
  simp [pieces]

theorem pieces_ne_nil (separator : α) (items : List α) : pieces separator items ≠ [] := by
  cases items with
  | nil => simp
  | cons item rest =>
    rw [pieces]
    split
    · simp
    · split <;> simp

/-- There is one piece more than there are separators. -/
theorem length_pieces (separator : α) (items : List α) :
    (pieces separator items).length = items.count separator + 1 := by
  induction items with
  | nil => rfl
  | cons item rest inductionHypothesis =>
    rw [pieces]
    split
    · rename_i same
      simp [same, inductionHypothesis]
    · rename_i different
      rw [List.count_cons_of_ne different, ← inductionHypothesis]
      split
      · rename_i none
        exact absurd none (pieces_ne_nil separator rest)
      · rename_i some
        simp [some]

theorem not_mem_of_mem_pieces {separator : α} {items piece : List α}
    (member : piece ∈ pieces separator items) :
    separator ∉ piece := by
  induction items generalizing piece with
  | nil => simp_all
  | cons item rest inductionHypothesis =>
    rw [pieces] at member
    split at member
    · rcases List.mem_cons.mp member with rfl | later
      · simp
      · exact inductionHypothesis later
    · rename_i different
      split at member
      · simp only [List.mem_singleton] at member
        subst member
        simpa using Ne.symm different
      · rename_i first others found
        rcases List.mem_cons.mp member with rfl | later
        · intro holds
          rcases List.mem_cons.mp holds with same | holds
          · exact different same.symm
          · exact inductionHypothesis (by simp [found]) holds
        · exact inductionHypothesis (by simp [found, later])

@[simp] theorem joined_pieces (separator : α) (items : List α) :
    joined separator (pieces separator items) = items := by
  induction items with
  | nil => rfl
  | cons item rest inductionHypothesis =>
    rw [pieces]
    split
    · rename_i same
      have first := pieces_ne_nil separator rest
      cases found : pieces separator rest with
      | nil => exact absurd found first
      | cons piece others =>
        rw [joined, List.nil_append, ← found, inductionHypothesis, same]
        simp
    · split
      · rename_i none
        exact absurd none (pieces_ne_nil separator rest)
      · rename_i piece others found
        rw [joined_cons_head, ← found, inductionHypothesis]

/-- A sequence without a separator is one piece. -/
theorem pieces_of_not_mem {separator : α} {items : List α} (absent : separator ∉ items) :
    pieces separator items = [items] := by
  induction items with
  | nil => rfl
  | cons item rest inductionHypothesis =>
    simp only [List.mem_cons, not_or] at absent
    rw [pieces, if_neg (Ne.symm absent.1), inductionHypothesis absent.2]

/-- The pieces of two sequences with a separator between them. -/
theorem pieces_append_separator (separator : α) (left right : List α) :
    pieces separator (left ++ separator :: right) =
      pieces separator left ++ pieces separator right := by
  induction left with
  | nil => simp
  | cons item rest inductionHypothesis =>
    rw [List.cons_append, pieces, inductionHypothesis, pieces]
    split
    · rfl
    · have first := pieces_ne_nil separator rest
      cases found : pieces separator rest with
      | nil => exact absurd found first
      | cons piece others => rfl

/-- Dividing undoes joining, where there is a piece and none holds a separator. -/
theorem pieces_joined {separator : α} {parts : List (List α)} (present : parts ≠ [])
    (absent : ∀ piece ∈ parts, separator ∉ piece) :
    pieces separator (joined separator parts) = parts := by
  induction parts with
  | nil => exact absurd rfl present
  | cons piece others inductionHypothesis =>
    have alone := pieces_of_not_mem (absent piece (by simp))
    cases others with
    | nil => exact alone
    | cons next others =>
      rw [joined]
      · rw [pieces_append_separator, alone,
          inductionHypothesis (by simp) fun part member => absent part (by simp [member])]
        rfl
      · simp

/-- Items behind without a separator lengthen the last piece. -/
theorem pieces_append_of_not_mem {separator : α} {items more last : List α} {front : List (List α)}
    (shape : pieces separator items = front ++ [last]) (absent : separator ∉ more) :
    pieces separator (items ++ more) = front ++ [last ++ more] := by
  have member : ∀ piece ∈ pieces separator items, separator ∉ piece :=
    fun _ found => not_mem_of_mem_pieces found
  simp only [shape, List.mem_append, List.mem_singleton] at member
  have whole : joined separator (front ++ [last ++ more]) = items ++ more := by
    rw [← joined_pieces separator items, shape]
    by_cases alone : front = []
    · subst alone
      rfl
    · rw [joined_concat alone, joined_concat alone, List.append_assoc, List.cons_append]
  rw [← whole]
  apply pieces_joined (by simp)
  intro piece found
  rcases List.mem_append.mp found with earlier | latest
  · exact member piece (.inl earlier)
  · rw [List.mem_singleton.mp latest, List.mem_append]
    exact not_or.mpr ⟨member last (.inr rfl), absent⟩

end RoomLedger.Text
