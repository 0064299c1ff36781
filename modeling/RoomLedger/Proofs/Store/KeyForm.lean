import RoomLedger.Proofs.Store.KeyFiles

/-!
Contract: which texts are keys, and which paths they become.

Owns:
- `IsNamePath`, names between slashes that all lead down, in characters that are
  allowed;
- `checkKey_iff`, by which these are the keys, apart from the endings that are kept;
- `keys_are_paths_below_root`, by which a key only adds its names to a root.

The check looks for slashes at the ends, for slashes in a row and for dots in front
one after another. Only together do they say that no name is empty or hidden.

Does not own: the files at these paths.
-/

namespace RoomLedger.Store

open RoomLedger.Disk

/-! ## Names between slashes -/

/-- Names between slashes, none of which is empty or begins with a dot, without white
space and without the characters that no key has. -/
structure IsNamePath (text : String) : Prop where
  plain : ∀ name ∈ components text, Path.IsPlain name
  unspaced : ∀ character ∈ text.toList, Text.isBlank character = false
  allowed : ∀ character ∈ text.toList, character ∉ ['\\', ':', '*', '?']

private theorem exists_of_hasDoubleSlash {characters : List Char}
    (double : hasDoubleSlash characters = true) :
    ∃ front back, characters = front ++ '/' :: '/' :: back := by
  fun_induction hasDoubleSlash characters with
  | case1 back => exact ⟨[], back, rfl⟩
  | case2 first rest _ inductionHypothesis =>
      obtain ⟨front, back, rfl⟩ := inductionHypothesis double
      exact ⟨first :: front, back, rfl⟩
  | case3 => cases double

namespace IsNamePath

variable {text : String}

private theorem nil_not_mem_pieces (path : IsNamePath text) : [] ∉ Text.pieces '/' text.toList := by
  intro member
  obtain ⟨first, rest, spelled, -⟩ := path.plain _ (List.mem_map_of_mem member)
  simp at spelled

private theorem toList_ne_nil (path : IsNamePath text) : text.toList ≠ [] := by
  intro nothing
  apply path.nil_not_mem_pieces
  rw [nothing, Text.pieces_nil]
  exact List.mem_singleton_self []

theorem blank_eq_false (path : IsNamePath text) : Text.blank text = false := by
  obtain ⟨first, rest, spelled⟩ := List.exists_cons_of_ne_nil path.toList_ne_nil
  have visible := path.unspaced first (by simp [spelled])
  rw [Text.blank, spelled, List.all_cons, visible, Bool.false_and]

/-- Every piece of the text has something before and behind the slashes around it, so
the checks for slashes find nothing. -/
theorem isGoodKey (path : IsNamePath text)
    (unreserved : ∀ ending ∈ reservedEndings, ¬ ending.toList <:+ text.toList) :
    IsGoodKey text where
  unreserved := unreserved
  nonempty := path.toList_ne_nil
  start := by
    intro slash
    obtain ⟨rest, spelled⟩ := List.head?_eq_some_iff.mp slash
    apply path.nil_not_mem_pieces
    rw [spelled, Text.pieces_cons_separator]
    exact List.mem_cons_self
  last := by
    intro slash
    obtain ⟨front, spelled⟩ := List.getLast?_eq_some_iff.mp slash
    apply path.nil_not_mem_pieces
    rw [spelled, Text.pieces_append_separator]
    exact List.mem_append_right _ (List.mem_singleton_self [])
  single := by
    rw [Bool.eq_false_iff]
    intro double
    obtain ⟨front, back, spelled⟩ := exists_of_hasDoubleSlash double
    apply path.nil_not_mem_pieces
    rw [spelled, Text.pieces_append_separator, Text.pieces_cons_separator]
    exact List.mem_append_right _ List.mem_cons_self
  visible := by
    intro piece member dot
    obtain ⟨first, rest, spelled, shown⟩ := path.plain _ (List.mem_map_of_mem member)
    rw [String.toList_ofList] at spelled
    rw [spelled] at dot
    exact shown (Option.some.inj dot)

end IsNamePath

/-- The keys are the paths of names that do not end in an ending that is kept. -/
theorem checkKey_iff {key : String} :
    checkKey key = .ok () ↔
      IsNamePath key ∧ ∀ ending ∈ reservedEndings, ¬ ending.toList <:+ key.toList := by
  constructor
  · intro valid
    obtain ⟨good, unspaced, allowed⟩ := checkKey_eq_ok_iff.mp valid
    exact ⟨⟨fun _ found => isPlain_of_mem_components valid found, unspaced, allowed⟩,
      good.unreserved⟩
  · rintro ⟨path, unreserved⟩
    exact checkKey_eq_ok_iff.mpr ⟨path.isGoodKey unreserved, path.unspaced, path.allowed⟩

/-! ## Paths of keys -/

/-- Plain names lead down from any directory, one after another. -/
theorem foldl_enter_of_isPlain {names : Path} (plain : ∀ name ∈ names, Path.IsPlain name)
    (here : Path) :
    names.foldl Path.enter here = here ++ names := by
  induction names generalizing here with
  | nil => exact (List.append_nil here).symm
  | cons name rest inductionHypothesis =>
      have later := inductionHypothesis fun other member => plain other (by simp [member])
      rw [List.foldl_cons, Path.enter_of_isPlain (plain name (by simp)), later,
        List.append_assoc, List.singleton_append]

private theorem ofText_of_checkKey {key : String} (valid : checkKey key = .ok ()) :
    Path.ofText key = components key := by
  apply Path.ofText_of_ne
  rintro rfl
  exact (isGoodKey_of_checkKey valid).nonempty rfl

private theorem parts_blobPath {key : String} (valid : checkKey key = .ok ()) (spelling : String)
    (settings : FileSettings) :
    (FileStore.blobPath ⟨Path.ofText spelling, settings⟩ key).parts =
      (Path.ofText spelling).parts ++ components key :=
  Path.parts_join spelling fun _ found => isPlain_of_mem_components valid found

/-- The keys are the names between slashes that are not empty and not hidden, without
white space, without four characters and without two endings. In a store below any root
the path of a key is the text of the root with the key behind it. As paths are compared
it has the names of the root and then those of the key, each of which leads down from
wherever one is, and no two keys have one path. -/
theorem keys_are_paths_below_root :
    (∀ key, checkKey key = .ok () ↔
      IsNamePath key ∧ ¬ ".lock".toList <:+ key.toList ∧ ¬ ".tmp".toList <:+ key.toList) ∧
    ∀ (spelling : String) (settings : FileSettings),
      let store : FileStore := ⟨Path.ofText spelling, settings⟩
      (∀ key, checkKey key = .ok () →
        store.blobPath key = Path.ofText (Path.appended spelling key) ∧
        (store.blobPath key).parts = store.root.parts ++ components key ∧
        components key ≠ [] ∧
        ∀ here, (components key).foldl Path.enter here = here ++ components key) ∧
      ∀ left right, checkKey left = .ok () → checkKey right = .ok () →
        (store.blobPath left).parts = (store.blobPath right).parts → left = right := by
  constructor
  · intro key
    rw [checkKey_iff]
    simp [reservedEndings, lockEnding, draftEnding]
  · intro spelling settings store
    constructor
    · intro key valid
      have good := isGoodKey_of_checkKey valid
      have present : key ≠ "" := by
        rintro rfl
        exact good.nonempty rfl
      refine ⟨?path, parts_blobPath valid spelling settings, ?some, ?down⟩
      case path =>
        rw [Path.ofText_appended spelling good.start present, ofText_of_checkKey valid]
        rfl
      case some => simp [components, Text.pieces_ne_nil]
      case down =>
        exact foldl_enter_of_isPlain fun _ found => isPlain_of_mem_components valid found
    · intro left right leftValid rightValid same
      rw [parts_blobPath leftValid, parts_blobPath rightValid] at same
      exact components_injective (List.append_cancel_left same)

/-- A root with a slash at its end and a detour on its way. -/
theorem keys_are_paths_below_root_of_history :
    checkKey "history/r-1.jsonl" = .ok () ∧ checkKey "history/../r-1.jsonl" ≠ .ok () ∧
      (FileStore.blobPath ⟨Path.ofText "/srv/./blobs/", {}⟩ "history/r-1.jsonl").parts =
        ["", "srv", "blobs", "history", "r-1.jsonl"] := by
  have valid : checkKey "history/r-1.jsonl" = .ok () := isKey_iff.mp (by decide +kernel)
  refine ⟨valid, ?_, ?_⟩
  · intro above
    have path := ((keys_are_paths_below_root.1 _).mp above).1
    have dots : ".." ∈ components "history/../r-1.jsonl" := by decide +kernel
    exact (path.plain ".." dots).ne (.inr rfl) rfl
  · have found := ((keys_are_paths_below_root.2 "/srv/./blobs/" {}).1 _ valid).2.1
    rw [found]
    decide +kernel

end RoomLedger.Store
