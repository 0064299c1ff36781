import RoomLedger.Proofs.Disk.Walk

/-!
Contract: paths below a directory that a path leads to.

Owns:
- `Path.appended`, the text of a path below a directory, and the names that it has;
- `Path.parts`, the names that count where paths are compared;
- `Tree.Roots`, a path that leads to a directory;
- what is found and made below it;
- the opening of a root, after which its path leads to a directory;
- `Tree.single`, a tree with one directory;
- the form of a path whose last name is shorter, and of the path above.

The root may be the text of any directory, with detours and with a slash at its
end, which `Path.join` takes for the one that divides the names.

Does not own: the files below a root.
-/

namespace RoomLedger.Disk

open RoomLedger.Text (Bytes)

namespace Path

/-! ## Where a walk begins -/

theorem join_append (root names : Path) : root.join names = root.join [] ++ names := by
  unfold join
  split <;> simp

theorem start_of_ne {first : String} (relative : first ≠ "") (rest : Path) :
    start (first :: rest) = ([], first :: rest) := by
  unfold start
  split
  · rename_i equal
    exact absurd (List.cons.inj equal).1 relative
  · rfl

/-- Names behind a path change nothing about where its walk begins. -/
theorem start_append (path names : Path) (plain : ∀ name ∈ names, IsPlain name) :
    start (path ++ names) = (path.start.1, path.start.2 ++ names) := by
  cases path with
  | nil =>
      cases names with
      | nil => rfl
      | cons name rest => exact start_of_ne (plain name (by simp)).ne_empty rest
  | cons first rest =>
      by_cases absolute : first = ""
      · subst absolute
        rfl
      · rw [List.cons_append, start_of_ne absolute, start_of_ne absolute]
        rfl

theorem ofText_ne (spelling : String) : ofText spelling ≠ [""] := by
  intro single
  unfold ofText at single
  split at single
  · cases single
  · rename_i nonempty
    have pieces := congrArg (List.map String.toList) single
    simp only [List.map_map, Function.comp_def, String.toList_ofList, List.map_id_fun', id_eq,
      List.map_cons, List.map_nil] at pieces
    have whole := Text.joined_pieces '/' spelling.toList
    rw [pieces] at whole
    apply nonempty
    rw [String.isEmpty_iff, ← String.toList_inj]
    exact whole.symm

/-! ## Paths as texts -/

/-- The text of a directory's path with another behind it. A slash divides them where
the first has none at its end; a text that begins with a slash stands alone. -/
def appended (directory text : String) : String :=
  if text.toList.head? = some '/' then text
  else if directory = "" ∨ directory.toList.getLast? = some '/' then directory ++ text
  else directory ++ "/" ++ text

/-- The names that count where paths are compared: the first one as it is, and of the
others those that lead somewhere. -/
def parts : Path → Path
  | [] => []
  | first :: others => first :: others.filter fun name => !isStay name

theorem ofText_of_ne {spelling : String} (present : spelling ≠ "") :
    ofText spelling = (Text.pieces '/' spelling.toList).map String.ofList := by
  rw [ofText, if_neg (by rwa [String.isEmpty_iff])]

private theorem ofText_append_slash (directory text : String) :
    ofText (directory ++ "/" ++ text) =
      (Text.pieces '/' directory.toList).map String.ofList ++
        (Text.pieces '/' text.toList).map String.ofList := by
  have slash : (directory ++ "/" ++ text).toList = directory.toList ++ '/' :: text.toList := by
    simp
  have present : directory ++ "/" ++ text ≠ "" := by
    intro empty
    rw [empty] at slash
    simp at slash
  rw [ofText_of_ne present, slash, Text.pieces_append_separator, List.map_append]

/-- A text that does not end with a slash has a last name. -/
theorem getLast?_ofText_ne {spelling : String} (unclosed : spelling.toList.getLast? ≠ some '/') :
    (ofText spelling).getLast? ≠ some "" := by
  by_cases present : spelling = ""
  · subst present
    simp [ofText]
  · rw [ofText_of_ne present]
    intro last
    rw [List.getLast?_map, Option.map_eq_some_iff] at last
    obtain ⟨piece, ends, empty⟩ := last
    have nothing : piece = [] := by simpa using empty
    obtain ⟨front, shape⟩ := List.getLast?_eq_some_iff.mp (nothing ▸ ends)
    have whole := Text.joined_pieces '/' spelling.toList
    rw [shape] at whole
    by_cases alone : front = []
    · subst alone
      exact present (String.toList_inj.mp whole.symm)
    · apply unclosed
      rw [← whole, Text.joined_concat alone]
      simp

/-- The path of a text behind a directory's is the directory's path joined with its
names. -/
theorem ofText_appended (directory : String) {text : String}
    (relative : text.toList.head? ≠ some '/') (present : text ≠ "") :
    ofText (appended directory text) = (ofText directory).join (ofText text) := by
  rw [appended, if_neg relative]
  by_cases nothing : directory = ""
  · subst nothing
    simp [ofText, join]
  · by_cases closed : directory.toList.getLast? = some '/'
    · obtain ⟨front, shape⟩ := List.getLast?_eq_some_iff.mp closed
      have spelled : directory = String.ofList front ++ "/" := by
        rw [← String.toList_inj, shape]
        simp
      have path : ofText directory = (Text.pieces '/' front).map String.ofList ++ [""] := by
        rw [ofText_of_ne nothing, shape, Text.pieces_append_separator]
        simp
      rw [if_pos (.inr closed), join, path, List.getLast?_concat, if_pos rfl, List.dropLast_concat,
        spelled, ofText_append_slash, ofText_of_ne present, String.toList_ofList]
    · rw [if_neg (by simp [nothing, closed]), join, if_neg (getLast?_ofText_ne closed),
        ofText_append_slash, ofText_of_ne nothing, ofText_of_ne present]

private theorem filter_of_isPlain {names : Path} (plain : ∀ name ∈ names, IsPlain name) :
    names.filter (fun name => !isStay name) = names := by
  rw [List.filter_eq_self]
  intro name member
  rw [(plain name member).isStay_eq_false]
  rfl

/-- Plain names behind a directory's path come behind those of it that count. -/
theorem parts_join (directory : String) {names : Path} (plain : ∀ name ∈ names, IsPlain name) :
    ((ofText directory).join names).parts = (ofText directory).parts ++ names := by
  have some := ofText_ne directory
  unfold join
  cases shape : ofText directory with
  | nil =>
      cases names with
      | nil => rfl
      | cons name rest =>
          have plainRest := fun other (member : other ∈ rest) => plain other (by simp [member])
          simp [parts, filter_of_isPlain plainRest]
  | cons first rest =>
      split
      case isFalse => simp [parts, filter_of_isPlain plain]
      case isTrue closed =>
        -- The name that is dropped is empty, and it is not the only one.
        obtain ⟨front, equal⟩ := List.getLast?_eq_some_iff.mp closed
        rw [equal, List.dropLast_concat]
        cases front with
        | nil => exact absurd (shape.trans equal) some
        | cons other front =>
            have dropped : [""].filter (fun name => !isStay name) = [] := rfl
            simp only [List.cons_append, parts, List.filter_append, filter_of_isPlain plain,
              dropped, List.append_nil]

/-! ## The form of a path -/

theorem checkForm_eq_ok_iff (path : Path) :
    path.checkForm = .ok () ↔
      (∀ name ∈ path, '\x00' ∉ name.toList) ∧ (text path).utf8ByteSize ≤ pathLimit := by
  unfold checkForm
  split
  · rename_i found
    simp only [List.any_eq_true, List.contains_iff_mem] at found
    obtain ⟨name, member, zero⟩ := found
    simp only [reduceCtorEq, false_iff, not_and]
    exact fun none => absurd zero (none name member)
  · rename_i none
    simp only [List.any_eq_true, List.contains_iff_mem, not_exists, not_and] at none
    split
    · rename_i long
      simp only [reduceCtorEq, false_iff, not_and]
      intro _
      omega
    · rename_i short
      simp only [true_iff]
      exact ⟨none, by omega⟩

/-- The text of a path is longer than that of the path above by the last name
and the slash before it. -/
theorem utf8ByteSize_text_concat (front : Path) (last : String) :
    (text (front ++ [last])).utf8ByteSize =
      (text front).utf8ByteSize + (if front = [] then 0 else 1) + last.utf8ByteSize := by
  induction front with
  | nil => simp [text]
  | cons first rest inductionHypothesis =>
      cases rest with
      | nil =>
          have slash : "/".utf8ByteSize = 1 := by decide
          simp [text, String.intercalate_cons_cons, slash]
      | cons next others =>
          simp only [text, List.cons_append] at inductionHypothesis ⊢
          rw [String.intercalate_cons_cons, String.intercalate_cons_cons]
          simp only [String.utf8ByteSize_append, inductionHypothesis, reduceCtorEq, if_false]
          omega

/-- A path may be looked up if one may whose last name is longer. -/
theorem checkForm_concat_of_le {front : Path} {last longer : String}
    (form : checkForm (front ++ [longer]) = .ok ()) (clean : '\x00' ∉ last.toList)
    (shorter : last.utf8ByteSize ≤ longer.utf8ByteSize) :
    checkForm (front ++ [last]) = .ok () := by
  rw [checkForm_eq_ok_iff, utf8ByteSize_text_concat] at form ⊢
  obtain ⟨names, size⟩ := form
  constructor
  · intro name member
    rcases List.mem_append.mp member with before | found
    · exact names name (List.mem_append_left _ before)
    · rw [List.mem_singleton.mp found]
      exact clean
  · omega

theorem checkForm_of_concat {front : Path} {last : String}
    (form : checkForm (front ++ [last]) = .ok ()) :
    checkForm front = .ok () := by
  rw [checkForm_eq_ok_iff] at form ⊢
  rw [utf8ByteSize_text_concat] at form
  obtain ⟨names, size⟩ := form
  exact ⟨fun name member => names name (List.mem_append_left _ member), by omega⟩

end Path

namespace Tree

/-! ## Roots -/

/-- A path leads to a directory, apart from a slash at its end. -/
def Roots (tree : Tree) (root place : Path) : Prop :=
  tree.Leads (root.join []).start.1 (root.join []).start.2 place

theorem Roots.keep {tree after : Tree} {root place : Path} (roots : tree.Roots root place)
    (keeps : ∀ place, tree.node? place = some .directory → after.node? place = some .directory) :
    after.Roots root place :=
  Leads.keep roots keeps

/-- A name that stays where it is may be left out at the end. -/
theorem leads_of_concat_empty {tree : Tree} {here names place : Path}
    (leads : tree.Leads here (names ++ [""]) place) :
    tree.Leads here names place := by
  induction names generalizing here with
  | nil => exact leads.2.2
  | cons name rest inductionHypothesis =>
      exact ⟨leads.1, leads.2.1, inductionHypothesis leads.2.2⟩

theorem leads_of_find {tree : Tree} {path place : Path}
    (found : tree.find path = .ok (place, some .directory)) :
    path.checkForm = .ok () ∧ tree.Leads path.start.1 path.start.2 place := by
  unfold find locate at found
  cases form : path.checkForm with
  | error fault => simp [form] at found
  | ok =>
      simp only [form] at found
      cases walked : tree.walk path.start.1 path.start.2 with
      | error fault => simp [walked] at found
      | ok there =>
          simp only [walked, Except.ok.injEq, Prod.mk.injEq] at found
          obtain ⟨rfl, directory⟩ := found
          exact ⟨rfl, leads_of_walk walked directory⟩

/-- A path at which there is a directory leads to it. The path of one empty name
comes from no text. -/
theorem roots_of_find {tree : Tree} {root place : Path}
    (found : tree.find root = .ok (place, some .directory)) (spelled : root ≠ [""]) :
    tree.Roots root place := by
  have leads := (leads_of_find found).2
  unfold Roots Path.join
  split
  · rename_i last
    obtain ⟨front, rfl⟩ := List.getLast?_eq_some_iff.mp last
    rw [List.dropLast_concat, List.append_nil]
    cases front with
    | nil => exact absurd rfl spelled
    | cons first rest =>
        by_cases absolute : first = ""
        · subst absolute
          exact leads_of_concat_empty leads
        · rw [List.cons_append, Path.start_of_ne absolute] at leads
          rw [Path.start_of_ne absolute]
          rw [← List.cons_append] at leads
          exact leads_of_concat_empty leads
  · rw [List.append_nil]
    exact leads

section Below

variable {tree : Tree} {root place names : Path}

theorem find_join (roots : tree.Roots root place) (some : names ≠ [])
    (plain : ∀ name ∈ names, Path.IsPlain name) (form : (root.join names).checkForm = .ok ()) :
    tree.find (root.join names) =
      match tree.walk place names with
      | .error fault => .error fault
      | .ok place => .ok (place, tree.node? place) := by
  have walked : tree.walk (root.join names).start.1 (root.join names).start.2 =
      tree.walk place names := by
    rw [Path.join_append, Path.start_append _ _ plain]
    exact walk_append roots some
  have located : tree.locate (root.join names) = tree.walk place names := by
    rw [locate, form]
    exact walked
  cases outcome : tree.walk place names with
  | error fault => simp only [find, located, outcome]
  | ok there => simp only [find, located, outcome]

theorem makeDirectories_join (roots : tree.Roots root place)
    (plain : ∀ name ∈ names, Path.IsPlain name) (form : (root.join names).checkForm = .ok ()) :
    tree.makeDirectories (root.join names) = makeMissing place names tree := by
  rw [makeDirectories, form]
  rw [Path.join_append, Path.start_append _ _ plain]
  exact makeMissing_append roots names

end Below

/-! ## Opening a root -/

private theorem walk_of_leads {tree : Tree} {here names place : Path}
    (leads : tree.Leads here names place) :
    tree.walk here names = .ok place := by
  induction names generalizing here with
  | nil => exact congrArg Except.ok leads
  | cons name rest inductionHypothesis =>
      obtain ⟨fits, exists_, further⟩ := leads
      cases rest with
      | nil =>
          rw [walk, if_pos fits]
          exact congrArg Except.ok further
      | cons next others =>
          rw [walk]
          · simp only [fits, exists_, Bool.not_true, Bool.false_eq_true, if_false]
            exact inductionHypothesis further
          · simp

private theorem directory_of_leads {tree : Tree} {here names place : Path}
    (leads : tree.Leads here names place) (directory : tree.node? here = some .directory) :
    tree.node? place = some .directory := by
  induction names generalizing here with
  | nil =>
      cases leads
      exact directory
  | cons name rest inductionHypothesis => exact inductionHypothesis leads.2.2 leads.2.1

private theorem node?_start (tree : Tree) (path : Path) :
    tree.node? path.start.1 = some .directory := by
  cases path with
  | nil => rfl
  | cons first rest =>
      by_cases absolute : first = ""
      · subst absolute
        rfl
      · rw [Path.start_of_ne absolute]
        rfl

theorem find_of_leads {tree : Tree} {path place : Path} (form : path.checkForm = .ok ())
    (leads : tree.Leads path.start.1 path.start.2 place) :
    tree.find path = .ok (place, some .directory) := by
  have directory := directory_of_leads leads (tree.node?_start path)
  simp only [find, locate, form, walk_of_leads leads, directory]

/-- A directory is found as long as directories stay. -/
theorem find_of_keeps {tree after : Tree} {path place : Path}
    (found : tree.find path = .ok (place, some .directory))
    (keeps : ∀ place, tree.node? place = some .directory → after.node? place = some .directory) :
    after.find path = .ok (place, some .directory) := by
  obtain ⟨form, leads⟩ := leads_of_find found
  exact find_of_leads form (leads.keep keeps)

/-- Where there is a directory, none is made. -/
theorem makeDirectories_of_find {tree : Tree} {root place : Path}
    (found : tree.find root = .ok (place, some .directory)) :
    tree.makeDirectories root = (.ok (), tree) := by
  obtain ⟨form, leads⟩ := leads_of_find found
  have made := makeMissing_append leads []
  rw [List.append_nil] at made
  rw [makeDirectories, form]
  exact made

theorem node?_put_directory (tree : Tree) (place other : Path) :
    (tree.put place .directory).node? other =
      if other = place then some .directory else tree.node? other := by
  by_cases given : place.isGiven = true
  · by_cases same : other = place
    · subst same
      simp [node?, given]
    · simp [node?, put, Index.find?_put, same]
  · exact node?_put (Bool.eq_false_iff.mpr given) tree .directory other

/-- Names whose directories were made lead through them, and directories that
were there still are. -/
theorem leads_of_makeMissing {tree after : Tree} {here names : Path}
    (made : makeMissing here names tree = (.ok (), after)) :
    (∃ place, after.Leads here names place) ∧
      ∀ place, tree.node? place = some .directory → after.node? place = some .directory := by
  induction names generalizing here tree with
  | nil =>
      cases made
      exact ⟨⟨here, rfl⟩, fun _ found => found⟩
  | cons name rest inductionHypothesis =>
      rw [makeMissing] at made
      split at made
      · cases made
      · rename_i fits
        simp only [Bool.not_eq_true, Bool.not_eq_false'] at fits
        split at made
        · rename_i directory
          obtain ⟨⟨place, leads⟩, keeps⟩ := inductionHypothesis made
          exact ⟨⟨place, fits, keeps _ directory, leads⟩, keeps⟩
        · cases made
        · split at made
          · cases made
          · obtain ⟨⟨place, leads⟩, keeps⟩ := inductionHypothesis made
            have first : (tree.put (here.enter name) .directory).node? (here.enter name) =
                some .directory := by
              rw [node?_put_directory, if_pos rfl]
            refine ⟨⟨place, fits, keeps _ first, leads⟩, ?_⟩
            intro other directory
            apply keeps
            rw [node?_put_directory]
            split
            · rfl
            · exact directory

/-- A directory that was made is found. -/
theorem find_of_makeDirectories {tree after : Tree} {root : Path}
    (made : tree.makeDirectories root = (.ok (), after)) :
    ∃ place, after.find root = .ok (place, some .directory) := by
  rw [makeDirectories] at made
  cases form : root.checkForm with
  | error fault => simp [form] at made
  | ok =>
      simp only [form] at made
      obtain ⟨⟨place, leads⟩, -⟩ := leads_of_makeMissing made
      exact ⟨place, find_of_leads form leads⟩

/-- A tree with one directory in it. -/
def single (name : String) : Tree :=
  empty.put [name] .directory

theorem find_single {name : String} (plain : Path.IsPlain name) (fits : Path.fits name = true)
    (form : Path.checkForm [name] = .ok ()) :
    (single name).find [name] = .ok ([name], some .directory) := by
  apply find_of_leads form
  rw [Path.start_of_ne plain.ne_empty]
  refine ⟨fits, ?_, Path.enter_of_isPlain plain []⟩
  rw [Path.enter_of_isPlain plain, single, node?_put_directory]
  simp

end Tree

end RoomLedger.Disk
