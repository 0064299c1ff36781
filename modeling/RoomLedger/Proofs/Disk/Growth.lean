import RoomLedger.Proofs.Disk.Root

/-!
Contract: trees that gain directories and files, and what a reader finds in them.

Owns:
- what a walk over plain names depends on, and what it tells of the way;
- `Tree.Extends`, a change that adds nodes and takes none away;
- `Tree.IsGrown`, a tree in which every node lies in a directory;
- the making of directories below a root, also where it fails half way;
- the content of a file below a root, where names on the way are missing,
  directories or files.

A request that fails may leave directories behind. What it leaves is new, and
lies in directories, so a reader who found nothing on the way before may meet it
in two ways only: as the end of a path, or as a file on the way.

Does not own: whose directories and files they are.
-/

namespace RoomLedger.Disk

open RoomLedger.Text (Bytes)

namespace Tree

/-! ## Walks over plain names -/

private theorem walk_cons (tree : Tree) (here : Path) (name : String) {rest : Path}
    (more : rest ≠ []) :
    tree.walk here (name :: rest) =
      if !Path.fits name then .error .nameTooLong
      else
        match tree.node? (here.enter name) with
        | none => .error .notFound
        | some (.file _ _) => .error .notADirectory
        | some .directory => tree.walk (here.enter name) rest := by
  cases rest with
  | nil => exact absurd rfl more
  | cons next later => rfl

/-- A walk depends on the nodes on its way alone. -/
theorem walk_congr {tree after : Tree} {here names : Path}
    (plain : ∀ name ∈ names, Path.IsPlain name)
    (same : ∀ front, front ≠ [] → front <+: names →
      after.node? (here ++ front) = tree.node? (here ++ front)) :
    after.walk here names = tree.walk here names := by
  induction names generalizing here with
  | nil => rfl
  | cons name rest inductionHypothesis =>
      cases rest with
      | nil => rfl
      | cons next others =>
          have down : here.enter name = here ++ [name] :=
            Path.enter_of_isPlain (plain name (by simp)) here
          have first : after.node? (here ++ [name]) = tree.node? (here ++ [name]) :=
            same [name] (by simp) (by simp)
          have later : after.walk (here ++ [name]) (next :: others) =
              tree.walk (here ++ [name]) (next :: others) := by
            apply inductionHypothesis fun other found => plain other (by simp [found])
            intro front _ before
            have longer : name :: front <+: name :: next :: others :=
              List.cons_prefix_cons.mpr ⟨rfl, before⟩
            simpa using same (name :: front) (by simp) longer
          rw [walk_cons after here name (by simp), walk_cons tree here name (by simp), down, first,
            later]

private theorem IsOpen.cons {tree : Tree} {place directories : Path} {name : String}
    (first : tree.node? (place ++ [name]) = some .directory)
    (rest : tree.IsOpen (place ++ [name]) directories) :
    tree.IsOpen place (name :: directories) := by
  intro front some before
  obtain ⟨head, tail, rfl⟩ := List.exists_cons_of_ne_nil some
  obtain ⟨rfl, further⟩ := List.cons_prefix_cons.mp before
  by_cases alone : tail = []
  · subst alone
    exact first
  · have found := rest tail alone further
    simpa using found

theorem IsOpen.mono {tree : Tree} {place directories front : Path}
    (isOpen : tree.IsOpen place directories) (before : front <+: directories) :
    tree.IsOpen place front :=
  fun shorter some first => isOpen shorter some (first.trans before)

theorem IsOpen.keep {tree after : Tree} {place directories : Path}
    (isOpen : tree.IsOpen place directories)
    (keeps : ∀ place, tree.node? place = some .directory → after.node? place = some .directory) :
    after.IsOpen place directories :=
  fun front some before => keeps _ (isOpen front some before)

private theorem isOpen_nil (tree : Tree) (place : Path) : tree.IsOpen place [] :=
  fun _ some before => absurd (List.prefix_nil.mp before) some

/-- A walk over plain names that comes to its end went over directories. -/
theorem isOpen_of_walk {tree : Tree} {place directories reached : Path} {last : String}
    (plain : ∀ name ∈ directories ++ [last], Path.IsPlain name)
    (walked : tree.walk place (directories ++ [last]) = .ok reached) :
    reached = place ++ (directories ++ [last]) ∧ tree.IsOpen place directories ∧
      ∀ name ∈ directories ++ [last], Path.fits name = true := by
  induction directories generalizing place with
  | nil =>
      rw [List.nil_append, walk] at walked
      split at walked
      · rename_i fits
        cases walked
        refine ⟨Path.enter_of_isPlain (plain last (by simp)) place, isOpen_nil tree place, ?_⟩
        intro name found
        rw [List.mem_singleton.mp found]
        exact fits
      · cases walked
  | cons name rest inductionHypothesis =>
      have down : place.enter name = place ++ [name] :=
        Path.enter_of_isPlain (plain name (by simp)) place
      have plainRest : ∀ other ∈ rest ++ [last], Path.IsPlain other :=
        fun other found => plain other (List.mem_cons_of_mem name found)
      rw [List.cons_append, walk_cons tree place name (by simp), down] at walked
      split at walked
      · cases walked
      · rename_i fits
        simp only [Bool.not_eq_true, Bool.not_eq_false'] at fits
        cases node : tree.node? (place ++ [name]) with
        | none => simp [node] at walked
        | some there =>
            cases there with
            | file content holder => simp [node] at walked
            | directory =>
                simp only [node] at walked
                obtain ⟨end_, isOpen, others⟩ := inductionHypothesis plainRest walked
                refine ⟨by simpa using end_, IsOpen.cons node isOpen, ?_⟩
                intro other found
                rw [List.cons_append] at found
                rcases List.mem_cons.mp found with rfl | later
                · exact fits
                · exact others other later

/-! ## Changes that add -/

/-- A change that takes no node away. What it adds is of the kinds allowed, and
lies in directories. -/
def Extends (place : Path) (isAllowed : Path → Node → Prop) (tree after : Tree) : Prop :=
  ∀ other, after.node? other = tree.node? other ∨
    tree.node? other = none ∧ ∃ directories last node,
      other = place ++ (directories ++ [last]) ∧ after.node? other = some node ∧
        isAllowed (directories ++ [last]) node ∧ after.IsOpen place directories

namespace Extends

variable {place : Path} {isAllowed isAllowedToo : Path → Node → Prop} {tree middle after : Tree}

theorem of_same (same : ∀ other, after.node? other = tree.node? other) :
    Extends place isAllowed tree after :=
  fun other => .inl (same other)

/-- What was there stays. -/
theorem node (extends_ : Extends place isAllowed tree after) {other : Path} {node : Node}
    (found : tree.node? other = some node) :
    after.node? other = some node := by
  rcases extends_ other with same | ⟨missing, -⟩
  · rw [same]
    exact found
  · rw [missing] at found
    cases found

theorem keeps (extends_ : Extends place isAllowed tree after) (other : Path)
    (directory : tree.node? other = some .directory) :
    after.node? other = some .directory :=
  extends_.node directory

theorem mono (extends_ : Extends place isAllowed tree after)
    (wider : ∀ names node, isAllowed names node → isAllowedToo names node) :
    Extends place isAllowedToo tree after := by
  intro other
  rcases extends_ other with same | ⟨missing, added⟩
  · exact .inl same
  · obtain ⟨directories, last, node, equal, found, allowed, isOpen⟩ := added
    exact .inr ⟨missing, directories, last, node, equal, found, wider _ _ allowed, isOpen⟩

theorem trans (first : Extends place isAllowed tree middle)
    (second : Extends place isAllowed middle after) :
    Extends place isAllowed tree after := by
  intro other
  rcases second other with same | ⟨missing, added⟩
  · rw [same]
    rcases first other with before | ⟨missing, added⟩
    · exact .inl before
    · obtain ⟨directories, last, node, equal, found, allowed, isOpen⟩ := added
      exact .inr ⟨missing, directories, last, node, equal, found, allowed,
        isOpen.keep second.keeps⟩
  · right
    refine ⟨?_, added⟩
    rcases first other with before | ⟨-, _, _, _, -, found, -, -⟩
    · rw [← before]
      exact missing
    · rw [missing] at found
      cases found

/-- A change that adds one node where there was none. -/
theorem put {directories : Path} {last : String} {node : Node}
    (notGiven : (place ++ (directories ++ [last])).isGiven = false)
    (missing : tree.node? (place ++ (directories ++ [last])) = none)
    (isOpen : tree.IsOpen place directories) (allowed : isAllowed (directories ++ [last]) node) :
    Extends place isAllowed tree (tree.put (place ++ (directories ++ [last])) node) := by
  have keeps : ∀ other, tree.node? other = some .directory →
      (tree.put (place ++ (directories ++ [last])) node).node? other = some .directory := by
    intro other directory
    rw [node?_put notGiven, if_neg]
    · exact directory
    · rintro rfl
      rw [missing] at directory
      cases directory
  intro other
  by_cases here : other = place ++ (directories ++ [last])
  · subst here
    right
    refine ⟨missing, directories, last, node, rfl, ?_, allowed, isOpen.keep keeps⟩
    rw [node?_put notGiven, if_pos rfl]
  · left
    rw [node?_put notGiven, if_neg here]

end Extends

/-- What differs after the change was not there before it. -/
theorem Extends.of_ne {place directories : Path} {last : String} {isAllowed : Path → Node → Prop}
    {tree after : Tree} (extends_ : Extends place isAllowed tree after)
    (differs : after.node? (place ++ (directories ++ [last])) ≠
      tree.node? (place ++ (directories ++ [last]))) :
    tree.node? (place ++ (directories ++ [last])) = none ∧ after.IsOpen place directories ∧
      ∃ node, after.node? (place ++ (directories ++ [last])) = some node ∧
        isAllowed (directories ++ [last]) node := by
  obtain ⟨missing, others, end_, node, equal, found, allowed, isOpen⟩ :=
    (extends_ _).resolve_left differs
  have names := List.append_cancel_left equal
  obtain ⟨rfl, -⟩ := List.append_singleton_inj.mp names
  rw [← names] at allowed
  exact ⟨missing, isOpen, node, found, allowed⟩

/-! ## Nodes in directories -/

/-- Every node below a place that has a plain name lies in a directory. -/
def IsGrown (tree : Tree) (place : Path) : Prop :=
  ∀ directories last, (∀ name ∈ directories ++ [last], Path.IsPlain name) →
    tree.node? (place ++ (directories ++ [last])) ≠ none → tree.IsOpen place directories

/-- Below a name that is missing all are. -/
theorem IsGrown.missing {tree : Tree} {place front names : Path} (grown : tree.IsGrown place)
    (plain : ∀ name ∈ names, Path.IsPlain name) (some : front ≠ []) (before : front <+: names)
    (missing : tree.node? (place ++ front) = none) :
    tree.node? (place ++ names) = none := by
  by_cases whole : front = names
  · rw [← whole]
    exact missing
  · refine Classical.byContradiction fun found => ?_
    have nonempty : names ≠ [] := by
      rintro rfl
      exact some (List.prefix_nil.mp before)
    obtain ⟨directories, last, rfl⟩ := (List.eq_nil_or_concat names).resolve_left nonempty
    rw [List.concat_eq_append] at *
    have shorter : front <+: directories :=
      (List.prefix_concat_iff.mp before).resolve_left whole
    have directory := grown directories last plain found front some shorter
    rw [missing] at directory
    cases directory

section Grown

variable {place directories : Path} {last : String} {isAllowed : Path → Node → Prop}
  {tree after : Tree}

theorem Extends.isGrown (extends_ : Extends place isAllowed tree after)
    (grown : tree.IsGrown place) :
    after.IsGrown place := by
  intro others end_ plain some
  by_cases same : after.node? (place ++ (others ++ [end_])) =
      tree.node? (place ++ (others ++ [end_]))
  · rw [same] at some
    exact (grown others end_ plain some).keep extends_.keeps
  · exact (extends_.of_ne same).2.1

/-- If anything on the way to a name is new, nothing had that name before, and no
file was on the way. -/
theorem Extends.isClear_of_ne (extends_ : Extends place isAllowed tree after)
    (grown : tree.IsGrown place) (plain : ∀ name ∈ directories ++ [last], Path.IsPlain name)
    {front : Path} (some : front ≠ []) (before : front <+: directories ++ [last])
    (differs : after.node? (place ++ front) ≠ tree.node? (place ++ front)) :
    tree.IsClear place directories ∧ tree.node? (place ++ (directories ++ [last])) = none := by
  obtain ⟨others, end_, rfl⟩ := (List.eq_nil_or_concat front).resolve_left some
  rw [List.concat_eq_append] at *
  obtain ⟨missing, isOpen, -⟩ := extends_.of_ne differs
  refine ⟨?_, grown.missing plain some before missing⟩
  intro shorter nonempty onWay
  have whole := onWay.trans (List.prefix_append directories [last])
  by_cases further : others ++ [end_] <+: shorter
  · left
    exact grown.missing (fun name member => plain name (whole.subset member)) some further missing
  · have earlier := (List.prefix_or_prefix_of_prefix before whole).resolve_left further
    have proper : shorter <+: others :=
      (List.prefix_concat_iff.mp earlier).resolve_left fun equal => further (by simp [equal])
    have directory := isOpen shorter nonempty proper
    rcases extends_ (place ++ shorter) with same | ⟨none, -⟩
    · rw [← same]
      exact .inr directory
    · exact .inl none

end Grown

/-! ## Making directories -/

/-- What is made of plain names are directories on their way, and all of them if
nothing fails. -/
theorem makeMissing_extends {tree after : Tree} {place names : Path} {result : Except Fault Unit}
    (plain : ∀ name ∈ names, Path.IsPlain name)
    (made : makeMissing place names tree = (result, after)) :
    Extends place (fun path node => path <+: names ∧ node = .directory) tree after ∧
      (result = .ok () → after.IsOpen place names) := by
  induction names generalizing place tree with
  | nil =>
      cases made
      exact ⟨.of_same fun _ => rfl, fun _ => isOpen_nil _ place⟩
  | cons name rest inductionHypothesis =>
      have plainRest : ∀ other ∈ rest, Path.IsPlain other :=
        fun other found => plain other (by simp [found])
      have down : place.enter name = place ++ [name] :=
        Path.enter_of_isPlain (plain name (by simp)) place
      by_cases passed : Path.fits name = true ∧
          (tree.node? (place ++ [name]) = none ∨ tree.node? (place ++ [name]) = some .directory)
      · obtain ⟨fits, clear⟩ := passed
        obtain ⟨middle, step, first, otherwise⟩ := makeMissing_cons clear plain fits
        rw [step] at made
        obtain ⟨later, opens⟩ := inductionHypothesis plainRest made
        have here := later.keeps _ first
        constructor
        · intro other
          rcases later other with same | ⟨missing, added⟩
          · by_cases front : other = place ++ [name]
            · subst front
              rcases clear with missing | directory
              · right
                refine ⟨missing, [], name, .directory, rfl, here, ⟨by simp, rfl⟩, ?_⟩
                exact isOpen_nil after place
              · left
                rw [here, directory]
            · left
              rw [same, otherwise other front]
          · obtain ⟨directories, last, node, equal, found, allowed, isOpen⟩ := added
            right
            have apart : other ≠ place ++ [name] := by
              rintro rfl
              rw [first] at missing
              cases missing
            refine ⟨?_, name :: directories, last, node, by simpa using equal, found, ?_, ?_⟩
            · rw [← otherwise other apart]
              exact missing
            · exact ⟨List.cons_prefix_cons.mpr ⟨rfl, allowed.1⟩, allowed.2⟩
            · exact IsOpen.cons here isOpen
        · exact fun done => IsOpen.cons here (opens done)
      · -- The first name is too long or a file, so nothing is made.
        have fails : ∃ fault, makeMissing place (name :: rest) tree = (.error fault, tree) := by
          rw [makeMissing, down]
          split
          · exact ⟨_, rfl⟩
          · rename_i fits
            simp only [Bool.not_eq_true, Bool.not_eq_false'] at fits
            cases node : tree.node? (place ++ [name]) with
            | none => exact absurd ⟨fits, .inl node⟩ passed
            | some there =>
                cases there with
                | directory => exact absurd ⟨fits, .inr node⟩ passed
                | file content holder => exact ⟨_, rfl⟩
        obtain ⟨fault, unchanged⟩ := fails
        rw [unchanged] at made
        cases made
        refine ⟨.of_same fun _ => rfl, ?_⟩
        intro done
        cases done

theorem makeDirectories_extends {tree after : Tree} {root place names : Path}
    {result : Except Fault Unit} (roots : tree.Roots root place)
    (plain : ∀ name ∈ names, Path.IsPlain name)
    (made : tree.makeDirectories (root.join names) = (result, after)) :
    Extends place (fun path node => path <+: names ∧ node = .directory) tree after ∧
      (result = .ok () → after.IsOpen place names) := by
  cases form : (root.join names).checkForm with
  | ok =>
      rw [makeDirectories_join roots plain form] at made
      exact makeMissing_extends plain made
  | error fault =>
      rw [makeDirectories, form] at made
      cases made
      refine ⟨.of_same fun _ => rfl, ?_⟩
      intro impossible
      cases impossible

/-! ## Lookups below a root -/

section Lookups

variable {tree after : Tree} {root place names directories : Path} {last : String}

/-- A file that is looked up below a root is where its names lead over
directories, or is not found. -/
theorem find_join_cases (roots : tree.Roots root place)
    (plain : ∀ name ∈ directories ++ [last], Path.IsPlain name) :
    (∃ fault, tree.find (root.join (directories ++ [last])) = .error fault) ∨
      tree.find (root.join (directories ++ [last])) =
          .ok (place ++ (directories ++ [last]),
            tree.node? (place ++ (directories ++ [last]))) ∧
        tree.IsOpen place directories ∧
        (root.join (directories ++ [last])).checkForm = .ok () ∧
        ∀ name ∈ directories ++ [last], Path.fits name = true := by
  cases form : (root.join (directories ++ [last])).checkForm with
  | error fault => exact .inl ⟨fault, by simp [find, locate, form]⟩
  | ok =>
      rw [find_join roots (by simp) plain form]
      cases walked : tree.walk place (directories ++ [last]) with
      | error fault => exact .inl ⟨fault, rfl⟩
      | ok reached =>
          obtain ⟨rfl, isOpen, fits⟩ := isOpen_of_walk plain walked
          exact .inr ⟨rfl, isOpen, rfl, fits⟩

theorem find_join_of_isOpen (roots : tree.Roots root place)
    (plain : ∀ name ∈ directories ++ [last], Path.IsPlain name)
    (form : (root.join (directories ++ [last])).checkForm = .ok ())
    (fits : ∀ name ∈ directories ++ [last], Path.fits name = true)
    (isOpen : tree.IsOpen place directories) :
    tree.find (root.join (directories ++ [last])) =
      .ok (place ++ (directories ++ [last]), tree.node? (place ++ (directories ++ [last]))) := by
  rw [find_join roots (by simp) plain form, walk_of_isOpen isOpen plain fits]

/-- A reader finds what the file at the end of the names holds, if they lead there. -/
theorem contentOf_join_eq_ok_iff (roots : tree.Roots root place)
    (plain : ∀ name ∈ directories ++ [last], Path.IsPlain name) (content : Bytes) :
    tree.contentOf (root.join (directories ++ [last])) = .ok content ↔
      ((root.join (directories ++ [last])).checkForm = .ok () ∧
        (∀ name ∈ directories ++ [last], Path.fits name = true) ∧
        tree.IsOpen place directories) ∧
      ∃ holder, tree.node? (place ++ (directories ++ [last])) = some (.file content holder) := by
  constructor
  · intro found
    rcases find_join_cases roots plain with ⟨fault, lost⟩ | ⟨located, isOpen, form, fits⟩
    · rw [contentOf, lost] at found
      cases found
    · refine ⟨⟨form, fits, isOpen⟩, ?_⟩
      rw [contentOf, located] at found
      cases node : tree.node? (place ++ (directories ++ [last])) with
      | none => simp [node] at found
      | some there =>
          cases there with
          | directory => simp [node] at found
          | file held holder =>
              simp only [node, Except.ok.injEq] at found
              exact ⟨holder, by rw [found]⟩
  · rintro ⟨⟨form, fits, isOpen⟩, holder, node⟩
    rw [contentOf, find_join_of_isOpen roots plain form fits isOpen, node]

/-- What a reader finds depends on the nodes on the way alone. -/
theorem contentOf_congr (roots : tree.Roots root place) (rootsAfter : after.Roots root place)
    (some : names ≠ []) (plain : ∀ name ∈ names, Path.IsPlain name)
    (same : ∀ front, front ≠ [] → front <+: names →
      after.node? (place ++ front) = tree.node? (place ++ front)) :
    after.contentOf (root.join names) = tree.contentOf (root.join names) := by
  cases form : (root.join names).checkForm with
  | error fault => simp [contentOf, find, locate, form]
  | ok =>
      have found : after.find (root.join names) = tree.find (root.join names) := by
        rw [find_join roots some plain form, find_join rootsAfter some plain form,
          walk_congr plain same]
        cases walked : tree.walk place names with
        | error fault => rfl
        | ok reached =>
            obtain ⟨front, last, rfl⟩ := (List.eq_nil_or_concat names).resolve_left some
            rw [List.concat_eq_append] at *
            obtain ⟨rfl, -, -⟩ := isOpen_of_walk plain walked
            simp only [same _ some List.prefix_rfl]
      rw [contentOf, contentOf, found]

variable (roots : tree.Roots root place) (plain : ∀ name ∈ directories ++ [last], Path.IsPlain name)
  (form : (root.join (directories ++ [last])).checkForm = .ok ())
  (fits : ∀ name ∈ directories ++ [last], Path.fits name = true)

include roots plain form fits

/-- Where nothing is and no file is on the way, a reader finds nothing. -/
theorem contentOf_of_isClear (clear : tree.IsClear place directories)
    (missing : tree.node? (place ++ (directories ++ [last])) = none) :
    tree.contentOf (root.join (directories ++ [last])) = .error .notFound := by
  rw [contentOf, find_join roots (by simp) plain form]
  rcases walk_of_isClear clear plain fits with walked | walked
  · simp only [walked, missing]
  · simp only [walked]

theorem contentOf_of_directory (isOpen : tree.IsOpen place directories)
    (directory : tree.node? (place ++ (directories ++ [last])) = some .directory) :
    tree.contentOf (root.join (directories ++ [last])) = .error .isADirectory := by
  rw [contentOf, find_join_of_isOpen roots plain form fits isOpen]
  simp only [directory]

/-- A file on the way is no directory. -/
theorem contentOf_of_file {before : Path} {name : String} {content : Bytes} {holder : Option Holder}
    (onWay : before ++ [name] <+: directories) (isOpen : tree.IsOpen place before)
    (file : tree.node? (place ++ (before ++ [name])) = some (.file content holder)) :
    tree.contentOf (root.join (directories ++ [last])) = .error .notADirectory := by
  obtain ⟨rest, rfl⟩ := onWay
  have plainBefore : ∀ other ∈ before, Path.IsPlain other :=
    fun other found => plain other (by simp [found])
  have fitsBefore : ∀ other ∈ before, Path.fits other = true :=
    fun other found => fits other (by simp [found])
  have leads := leads_of_isOpen isOpen plainBefore fitsBefore
  have down : (place ++ before).enter name = place ++ (before ++ [name]) := by
    rw [Path.enter_of_isPlain (plain name (by simp)), List.append_assoc]
  have shape : before ++ [name] ++ rest ++ [last] = before ++ (name :: (rest ++ [last])) := by simp
  have walked : tree.walk place (before ++ [name] ++ rest ++ [last]) = .error .notADirectory := by
    rw [shape, walk_append leads (by simp), walk_cons tree _ name (by simp), down]
    simp [fits name (by simp), file]
  rw [contentOf, find_join roots (by simp) plain form]
  simp only [walked]

end Lookups

end Tree

end RoomLedger.Disk
