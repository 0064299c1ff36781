import RoomLedger.Disk.Basic

/-!
Contract: what paths lead to below a directory that exists.

Owns:
- the laws that say what each change of a tree does to `Tree.node?`;
- `Path.IsPlain`, the names that lead down;
- `Tree.Leads`, names that lead from directory to directory;
- the walk over plain names, whose directories exist or are missing;
- the making of directories that are missing.

A name that leads to a directory may make a detour. Plain names do not, so the
place that they lead to is the place before with the names added.

Does not own: where a walk begins.
-/

namespace RoomLedger.Disk

open RoomLedger.Text (Bytes)

namespace Path

/-! ## Plain names -/

/-- A name that is not empty and does not begin with a dot. -/
def IsPlain (name : String) : Prop :=
  ∃ first rest, name.toList = first :: rest ∧ first ≠ '.'

theorem IsPlain.append {name : String} (plain : IsPlain name) (ending : String) :
    IsPlain (name ++ ending) := by
  obtain ⟨first, rest, spelled, visible⟩ := plain
  exact ⟨first, rest ++ ending.toList, by simp [spelled], visible⟩

theorem IsPlain.ne {name other : String} (plain : IsPlain name)
    (hidden : other.toList.head? = none ∨ other.toList.head? = some '.') :
    name ≠ other := by
  rintro rfl
  obtain ⟨first, rest, spelled, visible⟩ := plain
  rw [spelled] at hidden
  rcases hidden with none | dot
  · cases none
  · exact visible (Option.some.inj dot)

theorem IsPlain.ne_empty {name : String} (plain : IsPlain name) : name ≠ "" :=
  plain.ne (.inl rfl)

theorem IsPlain.isStay_eq_false {name : String} (plain : IsPlain name) : isStay name = false := by
  have dot : name ≠ "." := plain.ne (.inr rfl)
  simp [isStay, plain.ne_empty, dot]

/-- A plain name leads down. -/
theorem enter_of_isPlain {name : String} (plain : IsPlain name) (here : Path) :
    here.enter name = here ++ [name] := by
  have above : name ≠ ".." := plain.ne (.inr rfl)
  simp [enter, plain.isStay_eq_false, above]

theorem isGiven_append {names : Path} (here : Path) (some : names ≠ [])
    (plain : ∀ name ∈ names, IsPlain name) :
    (here ++ names).isGiven = false := by
  obtain ⟨name, found⟩ := List.exists_mem_of_ne_nil names some
  have member : name ∈ here ++ names := List.mem_append_right here found
  have above : name ≠ ".." := (plain name found).ne (.inr rfl)
  simp only [isGiven, Bool.or_eq_false_iff, decide_eq_false_iff_not]
  constructor
  · intro root
    rw [root] at member
    exact (plain name found).ne_empty (List.mem_singleton.mp member)
  · rw [Bool.eq_false_iff]
    intro ascends
    exact above (by simpa using List.all_eq_true.mp ascends name member)

end Path

/-- A node after a holder has given up all locks. -/
def Node.freed (holder : Holder) : Node → Node
  | .file content (some other) =>
      if other = holder then .file content none else .file content (some other)
  | node => node

namespace Tree

/-! ## Changes of a tree -/

theorem node?_put {place : Path} (notGiven : place.isGiven = false) (tree : Tree) (node : Node)
    (other : Path) :
    (tree.put place node).node? other = if other = place then some node else tree.node? other := by
  by_cases given : other.isGiven = true
  · have apart : other ≠ place := by
      rintro rfl
      rw [notGiven] at given
      cases given
    simp [node?, given, apart]
  · simp [node?, given, put, Index.find?_put]

/-- After a file was moved there is none where it was. -/
theorem node?_drop_put {left place : Path} (leftNotGiven : left.isGiven = false)
    (notGiven : place.isGiven = false) (tree : Tree) (node : Node) (other : Path) :
    (put ⟨tree.nodes.drop left⟩ place node).node? other =
      if other = place then some node else if other = left then none else tree.node? other := by
  rw [node?_put notGiven]
  by_cases given : other.isGiven = true
  · have apart : other ≠ left := by
      rintro rfl
      rw [leftNotGiven] at given
      cases given
    simp [node?, given, apart]
  · simp [node?, given, Index.find?_drop]

theorem node?_dropLocks (holder : Holder) (tree : Tree) (place : Path) :
    (tree.dropLocks holder).node? place = (tree.node? place).map (Node.freed holder) := by
  by_cases given : place.isGiven = true
  · simp [node?, given, Node.freed]
  · obtain ⟨⟨entries⟩⟩ := tree
    have freed : dropLocks holder ⟨⟨entries⟩⟩ =
        ⟨⟨entries.map fun entry => (entry.1, Node.freed holder entry.2)⟩⟩ := by
      rw [dropLocks]
      congr 2
      apply List.map_congr_left
      rintro ⟨first, node⟩ -
      rcases node with _ | ⟨content, _ | other⟩
      · rfl
      · rfl
      · simp only [Node.freed]
        split <;> rfl
    simp only [freed, node?, given, Index.find?, Bool.false_eq_true, if_false]
    clear freed
    induction entries with
    | nil => rfl
    | cons entry rest inductionHypothesis =>
        rw [List.map_cons, Index.firstValue?, Index.firstValue?]
        split
        · rfl
        · exact inductionHypothesis

/-! ## Directories on the way -/

/-- Names of which each leads to a directory, and where they end. -/
def Leads (tree : Tree) : (here names place : Path) → Prop
  | here, [], place => here = place
  | here, name :: rest, place =>
      Path.fits name = true ∧ tree.node? (here.enter name) = some .directory ∧
        tree.Leads (here.enter name) rest place

/-- A walk over directories that exist goes on from where they end. -/
theorem walk_append {tree : Tree} {here directories place names : Path}
    (leads : tree.Leads here directories place) (some : names ≠ []) :
    tree.walk here (directories ++ names) = tree.walk place names := by
  induction directories generalizing here with
  | nil =>
      cases leads
      rfl
  | cons name rest inductionHypothesis =>
      obtain ⟨fits, exists_, further⟩ := leads
      have more : rest ++ names ≠ [] := by simp [some]
      obtain ⟨next, others, shape⟩ := List.exists_cons_of_ne_nil more
      have later := inductionHypothesis further
      rw [List.cons_append, shape, walk]
      · simp only [fits, exists_, Bool.not_true, Bool.false_eq_true, if_false]
        rw [← shape, later]
      · simp

private theorem walk_missing {tree : Tree} {here rest : Path} {name : String}
    (fits : Path.fits name = true) (missing : tree.node? (here.enter name) = none)
    (more : rest ≠ []) :
    tree.walk here (name :: rest) = .error .notFound := by
  rw [walk]
  · simp only [fits, missing, Bool.not_true, Bool.false_eq_true, if_false]
  · exact more

/-- Whatever keeps directories keeps the way. -/
theorem Leads.keep {tree after : Tree} {here names place : Path}
    (leads : tree.Leads here names place)
    (keeps : ∀ place, tree.node? place = some .directory → after.node? place = some .directory) :
    after.Leads here names place := by
  induction names generalizing here with
  | nil => exact leads
  | cons name rest inductionHypothesis =>
      exact ⟨leads.1, keeps _ leads.2.1, inductionHypothesis leads.2.2⟩

/-- A place of a directory was reached over directories. -/
theorem leads_of_walk {tree : Tree} {here names place : Path}
    (found : tree.walk here names = .ok place) (directory : tree.node? place = some .directory) :
    tree.Leads here names place := by
  induction names generalizing here with
  | nil =>
      rw [walk] at found
      exact Except.ok.inj found
  | cons name rest inductionHypothesis =>
      cases rest with
      | nil =>
          rw [walk] at found
          split at found
          · rename_i fits
            cases found
            exact ⟨fits, directory, rfl⟩
          · cases found
      | cons next others =>
          rw [walk] at found
          · split at found
            · cases found
            · rename_i fits
              simp only [Bool.not_eq_true, Bool.not_eq_false'] at fits
              cases node : tree.node? (here.enter name) with
              | none => simp [node] at found
              | some there =>
                  cases there with
                  | file content holder => simp [node] at found
                  | directory =>
                      simp only [node] at found
                      exact ⟨fits, node, inductionHypothesis found⟩
          · simp

/-! ## Plain names below a directory -/

/-- Every directory on the way exists. -/
def IsOpen (tree : Tree) (place directories : Path) : Prop :=
  ∀ front, front ≠ [] → front <+: directories → tree.node? (place ++ front) = some .directory

/-- No directory on the way is a file. -/
def IsClear (tree : Tree) (place directories : Path) : Prop :=
  ∀ front, front ≠ [] → front <+: directories →
    tree.node? (place ++ front) = none ∨ tree.node? (place ++ front) = some .directory

theorem IsOpen.isClear {tree : Tree} {place directories : Path}
    (isOpen : tree.IsOpen place directories) :
    tree.IsClear place directories :=
  fun front some before => .inr (isOpen front some before)

private theorem IsClear.tail {tree : Tree} {place directories : Path} {name : String}
    (clear : tree.IsClear place (name :: directories)) :
    tree.IsClear (place ++ [name]) directories := by
  intro front _ before
  have found := clear (name :: front) (by simp) (List.cons_prefix_cons.mpr ⟨rfl, before⟩)
  simpa using found

theorem leads_of_isOpen {tree : Tree} {place directories : Path}
    (isOpen : tree.IsOpen place directories) (plain : ∀ name ∈ directories, Path.IsPlain name)
    (fits : ∀ name ∈ directories, Path.fits name = true) :
    tree.Leads place directories (place ++ directories) := by
  induction directories generalizing place with
  | nil => simp [Leads]
  | cons name rest inductionHypothesis =>
      have down : place.enter name = place ++ [name] :=
        Path.enter_of_isPlain (plain name (by simp)) _
      have first := isOpen [name] (by simp) (by simp)
      have others : tree.IsOpen (place ++ [name]) rest := by
        intro front _ before
        have found := isOpen (name :: front) (by simp) (List.cons_prefix_cons.mpr ⟨rfl, before⟩)
        simpa using found
      have later := inductionHypothesis others (fun other found => plain other (by simp [found]))
        (fun other found => fits other (by simp [found]))
      refine ⟨fits name (by simp), ?_, ?_⟩
      · rw [down]
        exact first
      · rw [down]
        simpa using later

/-- The walk to a plain name in directories that exist ends there. -/
theorem walk_of_isOpen {tree : Tree} {place directories : Path} {last : String}
    (isOpen : tree.IsOpen place directories)
    (plain : ∀ name ∈ directories ++ [last], Path.IsPlain name)
    (fits : ∀ name ∈ directories ++ [last], Path.fits name = true) :
    tree.walk place (directories ++ [last]) = .ok (place ++ (directories ++ [last])) := by
  have leads := leads_of_isOpen isOpen (fun name found => plain name (by simp [found]))
    (fun name found => fits name (by simp [found]))
  rw [walk_append leads (by simp), walk, if_pos (fits last (by simp)),
    Path.enter_of_isPlain (plain last (by simp)), List.append_assoc]

/-- The walk to a plain name ends there or finds a directory missing. -/
theorem walk_of_isClear {tree : Tree} {place directories : Path} {last : String}
    (clear : tree.IsClear place directories)
    (plain : ∀ name ∈ directories ++ [last], Path.IsPlain name)
    (fits : ∀ name ∈ directories ++ [last], Path.fits name = true) :
    tree.walk place (directories ++ [last]) = .ok (place ++ (directories ++ [last])) ∨
      tree.walk place (directories ++ [last]) = .error .notFound := by
  induction directories generalizing place with
  | nil =>
      left
      exact walk_of_isOpen (fun front some before => absurd (List.prefix_nil.mp before) some)
        plain fits
  | cons name rest inductionHypothesis =>
      have down : place.enter name = place ++ [name] :=
        Path.enter_of_isPlain (plain name (by simp)) _
      have short : Path.fits name = true := fits name (by simp)
      rcases clear [name] (by simp) (by simp) with missing | directory
      · right
        rw [← down] at missing
        exact walk_missing short missing (by simp)
      · have leads : tree.Leads place [name] (place ++ [name]) := by
          refine ⟨short, ?_, down⟩
          rw [down]
          exact directory
        have onward : tree.walk place (name :: rest ++ [last]) =
            tree.walk (place ++ [name]) (rest ++ [last]) :=
          walk_append leads (by simp)
        have later := inductionHypothesis clear.tail
          (fun other found => plain other (by
            simp only [List.cons_append, List.mem_cons]
            exact .inr found))
          (fun other found => fits other (by
            simp only [List.cons_append, List.mem_cons]
            exact .inr found))
        rw [onward]
        simpa using later

/-! ## Making directories -/

theorem makeMissing_append {tree : Tree} {here directories place : Path}
    (leads : tree.Leads here directories place) (names : Path) :
    makeMissing here (directories ++ names) tree = makeMissing place names tree := by
  induction directories generalizing here with
  | nil =>
      cases leads
      rfl
  | cons name rest inductionHypothesis =>
      obtain ⟨fits, exists_, further⟩ := leads
      rw [List.cons_append, makeMissing]
      simp only [fits, exists_, Bool.not_true, Bool.false_eq_true, if_false]
      exact inductionHypothesis further

private theorem endsInDot_of_isPlain {names : Path} (plain : ∀ name ∈ names, Path.IsPlain name) :
    Path.endsInDot names = false := by
  cases names with
  | nil => rfl
  | cons name rest => simp [Path.endsInDot, (plain name (by simp)).isStay_eq_false]

/-- Whether the first directory is there or is made, the rest is made in a tree that
differs from this one at most by that directory. -/
theorem makeMissing_cons {tree : Tree} {place rest : Path} {name : String}
    (clear : tree.node? (place ++ [name]) = none ∨
      tree.node? (place ++ [name]) = some .directory)
    (plain : ∀ other ∈ name :: rest, Path.IsPlain other) (fits : Path.fits name = true) :
    ∃ made : Tree,
      makeMissing place (name :: rest) tree = makeMissing (place ++ [name]) rest made ∧
      made.node? (place ++ [name]) = some .directory ∧
      ∀ other, other ≠ place ++ [name] → made.node? other = tree.node? other := by
  have plainName := plain name (by simp)
  have dotless : Path.endsInDot rest = false :=
    endsInDot_of_isPlain fun other found => plain other (by simp [found])
  have down : place.enter name = place ++ [name] := Path.enter_of_isPlain plainName _
  have notGiven : (place ++ [name]).isGiven = false :=
    Path.isGiven_append place (by simp) (by simpa using plainName)
  rcases clear with missing | directory
  · refine ⟨tree.put (place ++ [name]) .directory, ?_, ?_, ?_⟩
    · rw [makeMissing]
      simp [fits, down, missing, dotless]
    · simp [node?_put notGiven]
    · intro other apart
      simp [node?_put notGiven, apart]
  · refine ⟨tree, ?_, directory, fun _ _ => rfl⟩
    rw [makeMissing]
    simp [fits, down, directory]

/-- Directories of plain names are made where they are missing, and nothing else
changes. -/
theorem makeMissing_of_isClear {tree : Tree} {place directories : Path}
    (clear : tree.IsClear place directories) (plain : ∀ name ∈ directories, Path.IsPlain name)
    (fits : ∀ name ∈ directories, Path.fits name = true) :
    ∃ after, makeMissing place directories tree = (.ok (), after) ∧
      after.IsOpen place directories ∧
      ∀ other, (∀ front, front ≠ [] → front <+: directories → other ≠ place ++ front) →
        after.node? other = tree.node? other := by
  induction directories generalizing place tree with
  | nil =>
      refine ⟨tree, rfl, ?_, fun _ _ => rfl⟩
      exact fun front some before => absurd (List.prefix_nil.mp before) some
  | cons name rest inductionHypothesis =>
      have plainRest : ∀ other ∈ rest, Path.IsPlain other :=
        fun other found => plain other (by simp [found])
      have fitsRest : ∀ other ∈ rest, Path.fits other = true :=
        fun other found => fits other (by simp [found])
      obtain ⟨made, step, first, otherwise⟩ :=
        makeMissing_cons (clear [name] (by simp) (by simp)) plain (fits name (by simp))
      have clearRest : made.IsClear (place ++ [name]) rest := by
        intro front some before
        rw [otherwise _ (by simpa using some)]
        exact clear.tail front some before
      obtain ⟨after, result, isOpen, same⟩ := inductionHypothesis clearRest plainRest fitsRest
      refine ⟨after, step.trans result, ?_, ?_⟩
      · intro front some before
        obtain ⟨head, tail, rfl⟩ := List.exists_cons_of_ne_nil some
        obtain ⟨rfl, further⟩ := List.cons_prefix_cons.mp before
        by_cases alone : tail = []
        · subst alone
          rw [same]
          · exact first
          · intro front some _ equal
            simp at equal
            exact some equal
        · have found := isOpen tail alone further
          simpa using found
      · intro other apart
        rw [same, otherwise]
        · exact apart [name] (by simp) (by simp)
        · intro front _ before equal
          refine apart (name :: front) (by simp) (List.cons_prefix_cons.mpr ⟨rfl, before⟩) ?_
          simpa using equal

end Tree

end RoomLedger.Disk
