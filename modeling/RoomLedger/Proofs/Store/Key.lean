import RoomLedger.Proofs.Disk.Walk
import RoomLedger.Store.Key

/-!
Contract: keys as the names of files.

Owns:
- the components of a key, which are plain names and tell the key;
- `ownEndings`, the endings of the files that belong to a key;
- `withEnding_injective`, by which no two files of keys have one name.

Two endings are kept from keys, and neither of them ends the other, so a file
beside a blob's own is no blob's own and none of the other sort.

Does not own: the directory in which the files are.
-/

namespace RoomLedger.Store

open RoomLedger.Disk

/-! ## Components -/

theorem map_toList_components (key : String) :
    (components key).map String.toList = Text.pieces '/' key.toList := by
  simp [components, Function.comp_def]

theorem components_injective {left right : String} (same : components left = components right) :
    left = right := by
  have joined := congrArg (fun names => Text.joined '/' (names.map String.toList)) same
  simp only [map_toList_components, Text.joined_pieces] at joined
  exact String.toList_inj.mp joined

/-- A key has a last component, and directories before it. -/
theorem components_eq_concat (key : String) :
    ∃ last, components key = Path.parent (components key) ++ [last] := by
  have some : components key ≠ [] := by simp [components, Text.pieces_ne_nil]
  exact ⟨(components key).getLast some, (List.dropLast_concat_getLast some).symm⟩

private theorem joined_nil_cons (separator : Char) (others : List (List Char)) :
    Text.joined separator ([] :: others) = [] ∨
      (Text.joined separator ([] :: others)).head? = some separator := by
  cases others with
  | nil => exact .inl rfl
  | cons next others => exact .inr rfl

private theorem hasDoubleSlash_cons {rest : List Char} (first : Char)
    (double : hasDoubleSlash rest = true) :
    hasDoubleSlash (first :: rest) = true := by
  unfold hasDoubleSlash
  split
  · rfl
  · rename_i equal
    rw [← (List.cons.inj equal).2]
    exact double
  · rename_i equal
    cases equal

/-- A piece without characters that is not the first one comes from a slash at
the end or from two slashes in a row. -/
theorem slash_of_nil_mem_tail {characters : List Char}
    (found : [] ∈ (Text.pieces '/' characters).tail) :
    characters.getLast? = some '/' ∨ hasDoubleSlash characters = true := by
  induction characters with
  | nil => simp at found
  | cons first rest inductionHypothesis =>
      have whole := Text.joined_pieces '/' rest
      obtain ⟨piece, others, shape⟩ := List.exists_cons_of_ne_nil (Text.pieces_ne_nil '/' rest)
      have further (later : [] ∈ others) :
          (first :: rest).getLast? = some '/' ∨ hasDoubleSlash (first :: rest) = true := by
        rcases inductionHypothesis (by rwa [shape]) with last | double
        · left
          rw [List.getLast?_cons, last]
          rfl
        · exact .inr (hasDoubleSlash_cons first double)
      by_cases slash : first = '/'
      · subst slash
        rw [Text.pieces_cons_separator, shape, List.tail_cons] at found
        rcases List.mem_cons.mp found with rfl | later
        · rw [shape] at whole
          rcases joined_nil_cons '/' others with none | next
          · left
            rw [← whole, none]
            rfl
          · right
            rw [whole] at next
            obtain ⟨tail, rfl⟩ := List.head?_eq_some_iff.mp next
            rfl
        · exact further later
      · rw [Text.pieces, if_neg slash, shape] at found
        exact further found

/-- What the check of a key tells about it. -/
structure IsGoodKey (key : String) : Prop where
  start : key.toList.head? ≠ some '/'
  last : key.toList.getLast? ≠ some '/'
  single : hasDoubleSlash key.toList = false
  nonempty : key.toList ≠ []
  visible : ∀ piece ∈ Text.pieces '/' key.toList, piece.head? ≠ some '.'
  unreserved : ∀ ending ∈ reservedEndings, ¬ ending.toList <:+ key.toList

/-- The check of a key, all causes together. -/
theorem checkKey_eq_ok_iff {key : String} :
    checkKey key = .ok () ↔
      IsGoodKey key ∧
        (∀ character ∈ key.toList, Text.isBlank character = false) ∧
        ∀ character ∈ key.toList, character ∉ forbiddenCharacters := by
  constructor
  · intro valid
    unfold checkKey at valid
    simp only at valid
    split at valid
    · cases valid
    case isFalse nonempty =>
      split at valid
      · cases valid
      case isFalse unspaced =>
        split at valid
        · cases valid
        case h_2 allowed =>
          split at valid
          · cases valid
          case isFalse outer =>
            split at valid
            · cases valid
            case isFalse single =>
              split at valid
              · cases valid
              case h_2 visible =>
                split at valid
                · cases valid
                case h_2 unreserved =>
                  simp only [List.find?_eq_none, decide_eq_true_eq, List.isSuffixOf_iff_suffix]
                    at visible unreserved
                  simp only [Bool.or_eq_true, decide_eq_true_eq, not_or] at outer
                  refine ⟨?good, ?unspaced, ?allowed⟩
                  case good =>
                    exact {
                      start := outer.1
                      last := outer.2
                      single := by simpa using single
                      nonempty := by simpa using nonempty
                      visible
                      unreserved }
                  case unspaced => simpa using unspaced
                  case allowed =>
                    intro character member forbidden
                    exact List.find?_eq_none.mp allowed character forbidden (by simpa using member)
  · rintro ⟨good, unspaced, allowed⟩
    have none : forbiddenCharacters.find? key.toList.contains = none := by
      rw [List.find?_eq_none]
      intro character forbidden found
      exact allowed character (by simpa using found) forbidden
    have shown : (Text.pieces '/' key.toList).find? (·.head? = some '.') = Option.none := by
      rw [List.find?_eq_none]
      intro piece member
      simpa using good.visible piece member
    have free : reservedEndings.find? (·.toList.isSuffixOf key.toList) = Option.none := by
      rw [List.find?_eq_none]
      intro ending member
      simpa using good.unreserved ending member
    have white : key.toList.any Text.isBlank = false := by simpa using unspaced
    simp only [checkKey, List.isEmpty_eq_false_iff.mpr good.nonempty, white, none, good.start,
      good.last, good.single, shown, free, decide_false, Bool.or_self, Bool.false_eq_true, if_false]

theorem isGoodKey_of_checkKey {key : String} (valid : checkKey key = .ok ()) : IsGoodKey key :=
  (checkKey_eq_ok_iff.mp valid).1

/-- The components of a key are plain names. -/
theorem isPlain_of_mem_components {key name : String} (valid : checkKey key = .ok ())
    (found : name ∈ components key) :
    Path.IsPlain name := by
  have good := isGoodKey_of_checkKey valid
  obtain ⟨piece, member, rfl⟩ := List.mem_map.mp found
  have some : piece ≠ [] := by
    rintro rfl
    have whole := Text.joined_pieces '/' key.toList
    obtain ⟨first, others, shape⟩ :=
      List.exists_cons_of_ne_nil (Text.pieces_ne_nil '/' key.toList)
    rw [shape] at member whole
    rcases List.mem_cons.mp member with rfl | later
    · rcases joined_nil_cons '/' others with none | slash
      · exact good.nonempty (whole.symm.trans none)
      · rw [whole] at slash
        exact good.start slash
    · rcases slash_of_nil_mem_tail (by rwa [shape]) with last | double
      · exact good.last last
      · rw [good.single] at double
        cases double
  obtain ⟨first, rest, shape⟩ := List.exists_cons_of_ne_nil some
  refine ⟨first, rest, by simp [shape], ?_⟩
  rintro rfl
  exact good.visible piece member (by rw [shape]; rfl)

/-! ## Files of a key -/

/-- The endings of the files that belong to a key: its blob, its lock and its
draft. -/
def ownEndings : List String := ["", lockEnding, draftEnding]

private theorem suffix_joined_concat {α : Type} (separator : α) (front : List (List α))
    (last : List α) :
    last <:+ Text.joined separator (front ++ [last]) := by
  by_cases alone : front = []
  · subst alone
    exact List.suffix_rfl
  · rw [Text.joined_concat alone]
    exact (List.suffix_cons _ _).trans (List.suffix_append _ _)

/-- The last component of a key ends it. -/
theorem suffix_of_components {key last : String} {front : List String}
    (shape : components key = front ++ [last]) :
    last.toList <:+ key.toList := by
  have spelled : Text.pieces '/' key.toList = front.map String.toList ++ [last.toList] := by
    rw [← map_toList_components, shape]
    simp
  have suffix := suffix_joined_concat '/' (front.map String.toList) last.toList
  rwa [← spelled, Text.joined_pieces] at suffix

private theorem not_suffix_of_components {key last ending : String} {front : List String}
    (valid : checkKey key = .ok ()) (reserved : ending ∈ reservedEndings)
    (shape : components key = front ++ [last ++ ending]) :
    False := by
  refine (isGoodKey_of_checkKey valid).unreserved ending reserved ?_
  refine List.IsSuffix.trans ?_ (suffix_of_components shape)
  rw [String.toList_append]
  exact List.suffix_append _ _

theorem withEnding_concat (front : Path) (last ending : String) :
    Path.withEnding (front ++ [last]) ending = front ++ [last ++ ending] := by
  simp [Path.withEnding]

theorem append_lockEnding_ne (left right : String) : left ++ lockEnding ≠ right ++ draftEnding := by
  intro same
  have lockLetter : lockEnding.toList.getLast? = some 'k' := by decide
  have draftLetter : draftEnding.toList.getLast? = some 'p' := by decide
  have letters := congrArg (fun name => name.toList.getLast?) same
  simp [List.getLast?_append, lockLetter, draftLetter] at letters

/-- The files of keys have different names. -/
theorem withEnding_injective {left right leftEnding rightEnding : String}
    (leftValid : checkKey left = .ok ()) (rightValid : checkKey right = .ok ())
    (leftOwn : leftEnding ∈ ownEndings) (rightOwn : rightEnding ∈ ownEndings)
    (same : Path.withEnding (components left) leftEnding =
      Path.withEnding (components right) rightEnding) :
    left = right ∧ leftEnding = rightEnding := by
  obtain ⟨leftLast, leftShape⟩ := components_eq_concat left
  obtain ⟨rightLast, rightShape⟩ := components_eq_concat right
  rw [leftShape, rightShape, withEnding_concat, withEnding_concat] at same
  obtain ⟨front, last⟩ := List.append_singleton_inj.mp same
  by_cases sameEnding : leftEnding = rightEnding
  · subst sameEnding
    have lasts : leftLast = rightLast := (String.append_left_inj leftEnding).mp last
    refine ⟨components_injective ?_, rfl⟩
    rw [leftShape, rightShape, front, lasts]
  · exfalso
    rcases List.mem_cons.mp leftOwn with rfl | leftReserved
    · have rightReserved : rightEnding ∈ reservedEndings :=
        (List.mem_cons.mp rightOwn).resolve_left fun equal => sameEnding equal.symm
      have shape : components left =
          Path.parent (components left) ++ [rightLast ++ rightEnding] := by
        rw [← last, String.append_empty]
        exact leftShape
      exact not_suffix_of_components leftValid rightReserved shape
    · rcases List.mem_cons.mp rightOwn with rfl | rightReserved
      · have shape :
            components right = Path.parent (components right) ++ [leftLast ++ leftEnding] := by
          rw [last, String.append_empty]
          exact rightShape
        exact not_suffix_of_components rightValid leftReserved shape
      · simp only [List.mem_cons, List.not_mem_nil, or_false] at leftReserved rightReserved
        rcases leftReserved with rfl | rfl <;> rcases rightReserved with rfl | rfl
        · exact sameEnding rfl
        · exact append_lockEnding_ne _ _ last
        · exact append_lockEnding_ne _ _ last.symm
        · exact sameEnding rfl

end RoomLedger.Store
