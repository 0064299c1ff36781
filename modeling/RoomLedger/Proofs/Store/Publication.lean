import RoomLedger.Proofs.Store.Neighbours

/-!
Contract: writers of one key put their blobs one after another, whoever dies.

Owns:
- `latest`, what a reader finds after some publications;
- `Footing`, what holds of a writer that is alive;
- `InOrder`, what holds of a contest after any turns;
- `writers_publish_in_turn`, for every number of writers and every order of
  their turns and deaths.

At most one writer is inside, the one that has the lock. The draft is its own,
whatever was in it, and the blob changes only when a whole draft is moved; so a
reader without a lock finds the blob before or the blob after.

Does not own: readers and writers of other keys.
-/

namespace RoomLedger.Store

open RoomLedger.Disk
open RoomLedger.Text (Bytes)

/-! ## Publications -/

/-- What a reader finds after those writers have published: the blob of the last
one, whose mark counts the publications. -/
def latest (writers : List Writer) (published : List Nat) : Version :=
  match published.getLast?.bind fun index => writers[index]? with
  | none => .absent
  | some writer => writer.version (.ofNat published.length)

/-- Each of those writers expected the mark of the one before, and no mark was
the last one. -/
def AreInTurn (writers : List Writer) (published : List Nat) : Prop :=
  ∀ position index, published[position]? = some index →
    ∃ writer : Writer, writers[index]? = some writer ∧
      writer.expected.number = position ∧ position + 1 < UInt64.size

section Publications

variable {writers : List Writer} {published : List Nat} {index : Nat} {writer : Writer}

private theorem latest_concat (present : writers[index]? = some writer) :
    latest writers (published ++ [index]) = writer.version (.ofNat (published.length + 1)) := by
  simp [latest, present]

private theorem number_ofNat {number : Nat} (small : number < UInt64.size) :
    (Generation.ofNat number).number = number :=
  UInt64.toNat_ofNat_of_lt' small

/-- The mark that a reader finds counts the publications. -/
theorem number_latest (inTurn : AreInTurn writers published) :
    (latest writers published).generation.number = published.length := by
  rcases List.eq_nil_or_concat published with rfl | ⟨before, last, rfl⟩
  · rfl
  · obtain ⟨writer, present, -, small⟩ := inTurn before.length last (by simp)
    rw [List.concat_eq_append, latest_concat present, List.length_append, List.length_singleton]
    exact number_ofNat small

private theorem AreInTurn.before {later : List Nat}
    (inTurn : AreInTurn writers (published ++ later)) :
    AreInTurn writers published := by
  intro position index found
  have bound := (List.getElem?_eq_some_iff.mp found).1
  exact inTurn position index (by rwa [List.getElem?_append_left bound])

/-- Of writers with the same expectation one has published at most. -/
theorem AreInTurn.unique (inTurn : AreInTurn writers published) {left right : Nat}
    {leftWriter rightWriter : Writer} (leftFound : left ∈ published)
    (rightFound : right ∈ published) (leftPresent : writers[left]? = some leftWriter)
    (rightPresent : writers[right]? = some rightWriter)
    (same : leftWriter.expected = rightWriter.expected) :
    left = right := by
  obtain ⟨position, there⟩ := List.mem_iff_getElem?.mp leftFound
  obtain ⟨rightPosition, rightThere⟩ := List.mem_iff_getElem?.mp rightFound
  obtain ⟨writer, present, expected, -⟩ := inTurn position left there
  obtain ⟨other, otherPresent, otherExpected, -⟩ := inTurn rightPosition right rightThere
  rw [leftPresent] at present
  rw [rightPresent] at otherPresent
  cases present
  cases otherPresent
  have positions : position = rightPosition := by
    rw [← expected, ← otherExpected, same]
  rw [← positions, there] at rightThere
  exact Option.some.inj rightThere

private theorem AreInTurn.concat {generation : Generation} (inTurn : AreInTurn writers published)
    (present : writers[index]? = some writer)
    (expected : writer.expected = (latest writers published).generation)
    (following : (latest writers published).generation.next? = some generation) :
    AreInTurn writers (published ++ [index]) ∧
      latest writers (published ++ [index]) = writer.version generation := by
  have count := number_latest inTurn
  have next := Generation.number_of_next? following
  have small := generation.number_lt
  rw [count] at next
  constructor
  · intro position other found
    by_cases before : position < published.length
    · rw [List.getElem?_append_left before] at found
      exact inTurn position other found
    · have bound := (List.getElem?_eq_some_iff.mp found).1
      rw [List.length_append, List.length_singleton] at bound
      have last : position = published.length := by omega
      subst last
      rw [List.getElem?_concat_length] at found
      cases found
      refine ⟨writer, present, ?_, ?_⟩
      · rw [expected, count]
      · omega
  · rw [latest_concat present]
    congr 1
    apply Generation.eq_of_number
    rw [next, number_ofNat (by omega)]

end Publications

/-! ## Writers that are alive -/

/-- What holds of a writer that is alive and has come so far. -/
structure Footing (place : Path) (key : String) (tree : Tree) (files : KeyFiles) (version : Version)
    (published : List Nat) (index : Nat) (writer : Writer) (phase : Phase) : Prop where
  reached : phase = .starting ∨ tree.IsOpen place (folders key)
  stands : phase.Stands key writer index files version
  inside : IsLocked files index → phase.isInside = true
  taken : ∀ generation, phase.taken? = some generation →
    index ∈ published ∧ generation.number = writer.expected.number + 1
  untaken : phase.taken? = none → index ∉ published

/-- The publications after the turn of a writer that has come so far. -/
def publishedAfter (published : List Nat) (index : Nat) (phase : Phase) : List Nat :=
  if phase.isPublishing then published ++ [index] else published

section Footings

variable {place : Path} {key : String} {tree after : Tree} {files filesAfter : KeyFiles}
  {version versionAfter : Version} {published later : List Nat} {index : Nat} {writer : Writer}
  {phase : Phase}

/-- What others do leaves a writer as it was. -/
theorem Footing.spared (footing : Footing place key tree files version published index writer phase)
    (keeps : tree.IsOpen place (folders key) → after.IsOpen place (folders key))
    (spares : Spares index files filesAfter version versionAfter)
    (members : index ∈ later ↔ index ∈ published) :
    Footing place key after filesAfter versionAfter later index writer phase where
  reached := footing.reached.imp_right keeps
  stands := footing.stands.spared spares
  inside locked := footing.inside (spares.taken locked)
  taken generation given := by
    rw [members]
    exact footing.taken generation given
  untaken none := by
    rw [members]
    exact footing.untaken none

private theorem Footing.turn
    (footing : Footing place key tree files version published index writer phase)
    (isOpen : after.IsOpen place (folders key))
    (read : FileStore.interpret key files.answer = .ok version) :
    Footing place key after (phase.turn key writer index files).2
      (phase.versionAfter writer version) (publishedAfter published index phase) index writer
      (phase.turn key writer index files).1 := by
  have given := taken?_turn footing.stands
  constructor
  case reached => exact .inr isOpen
  case stands => exact stands_turn footing.stands read
  case inside => exact isInside_turn footing.stands footing.inside
  case taken =>
    intro generation taken
    rw [given] at taken
    cases phase with
    | publishing mark =>
        obtain ⟨-, marked, -⟩ := footing.stands
        obtain ⟨expected, following⟩ := nextMark_eq_ok_iff.mp marked
        cases taken
        constructor
        · simp [publishedAfter, Phase.isPublishing]
        · rw [expected]
          exact Generation.number_of_next? following
    | _ => exact footing.taken generation taken
  case untaken =>
    intro untaken
    rw [given] at untaken
    cases phase with
    | publishing mark => cases untaken
    | _ => exact footing.untaken untaken

private theorem Footing.partly
    (footing : Footing place key tree files version published index writer phase)
    (keeps : tree.IsOpen place (folders key) → after.IsOpen place (folders key)) (count : Nat) :
    Footing place key after (phase.partly count files).2 version published index writer
      (phase.partly count files).1 := by
  have stands := stands_partly footing.stands count
  cases phase with
  | pouring generation chunk rest =>
      constructor
      case reached => exact footing.reached.imp_left (fun equal => nomatch equal) |>.imp_right keeps
      case stands => exact stands
      case inside => exact fun _ => rfl
      case taken => exact footing.taken
      case untaken => exact footing.untaken
  | _ => exact footing.spared keeps (.refl index files version) Iff.rfl

end Footings

/-! ## Contests -/

/-- What holds of a contest after any turns. -/
structure InOrder (root place : Path) (key : String) (writers : List Writer) (contest : Contest)
    (published : List Nat) (files : KeyFiles) : Prop where
  shows_ : Shows root place key contest.tree files
  read : FileStore.interpret key files.answer = .ok (latest writers published)
  inTurn : AreInTurn writers published
  alive : ∀ index script, contest.script? index = some script →
    ∃ writer phase, writers[index]? = some writer ∧ script = phase.script root key writer ∧
      Footing place key contest.tree files (latest writers published) published index writer phase
  /-- Who has the lock is alive. -/
  lock : ∀ holder, IsLocked files holder → ∃ script, contest.script? holder = some script

section Contests

variable {root place : Path} {key : String} {writers : List Writer} {contest : Contest}
  {published later : List Nat} {files filesAfter : KeyFiles}

/-- The contest after a turn of one writer that spares the others. -/
theorem InOrder.replace (inOrder : InOrder root place key writers contest published files)
    {index : Nat} {script : Script (Except Error Generation)} {writer : Writer} {phase : Phase}
    {after : Tree} (found : contest.script? index = some script)
    (present : writers[index]? = some writer)
    (leaves : Leaves root place key contest.tree after filesAfter)
    (read : FileStore.interpret key filesAfter.answer = .ok (latest writers later))
    (inTurn : AreInTurn writers later)
    (members : ∀ other, other ≠ index → (other ∈ later ↔ other ∈ published))
    (spares : ∀ other, other ≠ index →
      Spares other files filesAfter (latest writers published) (latest writers later))
    (footing : Footing place key after filesAfter
      (latest writers later) later index writer phase) :
    InOrder root place key writers
      ⟨contest.scripts.set index (some (phase.script root key writer)), after⟩ later
      filesAfter := by
  constructor
  case shows_ => exact leaves.shows_
  case read => exact read
  case inTurn => exact inTurn
  case alive =>
    intro other otherScript there
    rw [Contest.script?_set found] at there
    by_cases same : other = index
    · subst same
      rw [if_pos rfl] at there
      cases there
      exact ⟨writer, phase, present, rfl, footing⟩
    · rw [if_neg same] at there
      obtain ⟨otherWriter, otherPhase, otherPresent, shape, otherFooting⟩ :=
        inOrder.alive other otherScript there
      exact ⟨otherWriter, otherPhase, otherPresent, shape,
        otherFooting.spared leaves.isOpen (spares other same) (members other same)⟩
  case lock =>
    intro holder locked
    rw [Contest.script?_set found]
    by_cases same : holder = index
    · exact ⟨_, if_pos same⟩
    · rw [if_neg same]
      exact inOrder.lock holder ((spares holder same).taken locked)

/-- The turn of a writer publishes what it says, and after it a reader finds the
blob that was published last. -/
theorem inTurn_publishedAfter {index : Nat} {writer : Writer} {phase : Phase}
    (inTurn : AreInTurn writers published) (present : writers[index]? = some writer)
    (stands : phase.Stands key writer index files (latest writers published)) :
    AreInTurn writers (publishedAfter published index phase) ∧
      latest writers (publishedAfter published index phase) =
        phase.versionAfter writer (latest writers published) := by
  cases phase with
  | publishing generation =>
      obtain ⟨-, marked, -⟩ := stands
      obtain ⟨expected, following⟩ := nextMark_eq_ok_iff.mp marked
      exact inTurn.concat present expected following
  | _ => exact ⟨inTurn, rfl⟩

private theorem mem_publishedAfter {index other : Nat} (different : other ≠ index) (phase : Phase) :
    other ∈ publishedAfter published index phase ↔ other ∈ published := by
  rw [publishedAfter]
  split
  · simp [different]
  · rfl

private theorem InOrder.request (housed : Housed root key)
    (inOrder : InOrder root place key writers contest published files) {index : Nat}
    {script : Script (Except Error Generation)} (found : contest.script? index = some script) :
    ∃ filesAfter,
      InOrder root place key writers (contest.advance root key (.request index)).1
        (published ++ publishers (contest.advance root key (.request index)).2.toList)
        filesAfter := by
  obtain ⟨writer, phase, present, rfl, footing⟩ := inOrder.alive index script found
  obtain ⟨after, step, isOpen, leaves⟩ :=
    step_script housed inOrder.shows_ footing.reached footing.stands
  have moves := moves_script housed inOrder.shows_ footing.reached footing.stands
  obtain ⟨inTurn, version⟩ := inTurn_publishedAfter inOrder.inTurn present footing.stands
  have shown : published ++ publishers (contest.advance root key (.request index)).2.toList =
      publishedAfter published index phase := by
    simp only [Contest.advance, found, moves, publishedAfter]
    split
    · rfl
    · exact List.append_nil published
  have reached : (contest.advance root key (.request index)).1 =
      ⟨contest.scripts.set index
        (some ((phase.turn key writer index files).1.script root key writer)), after⟩ := by
    simp only [Contest.advance, found, step]
  rw [shown, reached]
  refine ⟨_, inOrder.replace found present leaves ?_ inTurn ?_ ?_ ?_⟩
  · rw [version]
    exact read_turn footing.stands inOrder.read
  · intro other different
    exact mem_publishedAfter different phase
  · intro other different
    rw [version]
    exact spares_turn different footing.stands
  · rw [version]
    exact footing.turn isOpen inOrder.read

private theorem InOrder.part (housed : Housed root key)
    (inOrder : InOrder root place key writers contest published files) {index : Nat}
    {script : Script (Except Error Generation)} (found : contest.script? index = some script)
    (count : Nat) :
    ∃ filesAfter,
      InOrder root place key writers (contest.advance root key (.part index count)).1 published
        filesAfter := by
  obtain ⟨writer, phase, present, rfl, footing⟩ := inOrder.alive index script found
  obtain ⟨after, step, leaves⟩ :=
    stepPartly_script housed inOrder.shows_ footing.reached footing.stands count
  have reached : (contest.advance root key (.part index count)).1 =
      ⟨contest.scripts.set index
        (some ((phase.partly count files).1.script root key writer)), after⟩ := by
    simp only [Contest.advance, found, step]
  rw [reached]
  refine ⟨_, inOrder.replace found present leaves ?_ inOrder.inTurn ?_ ?_ ?_⟩
  · rw [answer_partly]
    exact inOrder.read
  · exact fun _ _ => Iff.rfl
  · intro other different
    exact spares_partly different footing.stands count
  · exact footing.partly leaves.isOpen count

private theorem InOrder.death (inOrder : InOrder root place key writers contest published files)
    (index : Nat) :
    InOrder root place key writers (contest.advance root key (.death index)).1 published
      (files.freed index) := by
  have keeps : contest.tree.IsOpen place (folders key) →
      (contest.tree.dropLocks index).IsOpen place (folders key) := by
    intro isOpen front some before
    rw [Tree.node?_dropLocks, isOpen front some before]
    rfl
  constructor
  case shows_ => exact inOrder.shows_.dropLocks index
  case read =>
    rw [answer_freed]
    exact inOrder.read
  case inTurn => exact inOrder.inTurn
  case alive =>
    intro other script found
    rw [Contest.advance, Contest.script?_set_none] at found
    by_cases same : other = index
    · rw [if_pos same] at found
      cases found
    · rw [if_neg same] at found
      obtain ⟨writer, phase, present, shape, footing⟩ := inOrder.alive other script found
      exact ⟨writer, phase, present, shape,
        footing.spared keeps (spares_freed same files _) Iff.rfl⟩
  case lock =>
    intro holder locked
    rw [Contest.advance, Contest.script?_set_none]
    by_cases same : holder = index
    · subst same
      exact absurd locked (not_isLocked_freed holder files)
    · rw [if_neg same]
      exact inOrder.lock holder ((spares_freed same files (latest writers published)).taken locked)

private theorem InOrder.look (housed : Housed root key)
    (inOrder : InOrder root place key writers contest published files) :
    ((FileStore.read ⟨root, {}⟩ key).run 0 contest.tree).1 = .ok (latest writers published) := by
  rw [run_read housed inOrder.shows_]
  exact inOrder.read

/-- Whatever happens next, a contest stays in order, and a reader that looks
finds the blob that was published last. -/
theorem InOrder.advance (housed : Housed root key)
    (inOrder : InOrder root place key writers contest published files) (turn : Turn) :
    (∃ filesAfter,
      InOrder root place key writers (contest.advance root key turn).1
        (published ++ publishers (contest.advance root key turn).2.toList) filesAfter) ∧
      ∀ answer, (contest.advance root key turn).2 = some (.saw answer) →
        answer = .ok (latest writers published) := by
  cases turn with
  | request index =>
      cases found : contest.script? index with
      | none =>
          have idle : contest.advance root key (.request index) = (contest, none) := by
            simp only [Contest.advance, found]
          rw [idle]
          exact ⟨⟨files, by simpa using inOrder⟩, by simp⟩
      | some script =>
          refine ⟨inOrder.request housed found, ?_⟩
          intro answer shown
          simp only [Contest.advance, found] at shown
          split at shown <;> cases shown
  | part index count =>
      cases found : contest.script? index with
      | none =>
          have idle : contest.advance root key (.part index count) = (contest, none) := by
            simp only [Contest.advance, found]
          rw [idle]
          exact ⟨⟨files, by simpa using inOrder⟩, by simp⟩
      | some script =>
          have silent : (contest.advance root key (.part index count)).2 = none := by
            simp only [Contest.advance, found]
          rw [silent, Option.toList_none, publishers_nil, List.append_nil]
          exact ⟨inOrder.part housed found count, by simp⟩
  | death index =>
      refine ⟨⟨files.freed index, ?_⟩, by simp [Contest.advance]⟩
      have silent : (contest.advance root key (.death index)).2 = none := rfl
      rw [silent, Option.toList_none, publishers_nil, List.append_nil]
      exact inOrder.death index
  | look =>
      constructor
      · refine ⟨files, ?_⟩
        have silent : publishers (contest.advance root key .look).2.toList = [] := rfl
        rw [silent, List.append_nil]
        exact inOrder
      · intro answer shown
        cases shown
        exact inOrder.look housed

/-- So it does after any turns. -/
theorem InOrder.follow (housed : Housed root key)
    (inOrder : InOrder root place key writers contest published files) (turns : List Turn) :
    (∃ filesAfter,
      InOrder root place key writers (contest.follow root key turns)
        (published ++ publishers (contest.history root key turns)) filesAfter) ∧
      ∀ before answer after, contest.history root key turns = before ++ .saw answer :: after →
        answer = .ok (latest writers (published ++ publishers before)) := by
  induction turns generalizing contest published files with
  | nil =>
      constructor
      · exact ⟨files, by simpa [Contest.history, Contest.follow] using inOrder⟩
      · intro before answer after shown
        simp [Contest.history] at shown
  | cons turn turns inductionHypothesis =>
      obtain ⟨⟨between, next⟩, sees⟩ := inOrder.advance housed turn
      obtain ⟨last, looks⟩ := inductionHypothesis next
      constructor
      · simpa only [Contest.follow, Contest.history, publishers_append, List.append_assoc]
          using last
      · intro before answer after shown
        rw [Contest.history] at shown
        cases incident : (contest.advance root key turn).2 with
        | none =>
            rw [incident] at shown looks
            simpa [publishers] using looks before answer after shown
        | some first =>
            rw [incident] at shown looks
            cases before with
            | nil =>
                obtain ⟨rfl, -⟩ := List.cons.inj shown
                simpa [publishers] using sees answer incident
            | cons head rest =>
                obtain ⟨rfl, later⟩ := List.cons.inj shown
                have found := looks rest answer after later
                rw [List.append_assoc, ← publishers_append] at found
                exact found

/-- A key without a blob and with a free lock is where writers start. -/
theorem inOrder_start {tree : Tree} (shows_ : Shows root place key tree files)
    (vacant : files .blob = none) (free : IsFree files) (writers : List Writer) :
    InOrder root place key writers (.start root key writers tree) [] files := by
  have unlocked : ∀ holder, ¬ IsLocked files holder := by
    rintro holder ⟨content, held⟩
    exact free content holder held
  constructor
  case shows_ => exact shows_
  case read =>
    rw [KeyFiles.answer, vacant]
    rfl
  case inTurn =>
    intro position index found
    cases found
  case alive =>
    intro index script found
    obtain ⟨writer, present, rfl⟩ := Contest.script?_start found
    refine ⟨writer, .starting, present, rfl, ?_⟩
    constructor
    case reached => exact .inl rfl
    case stands => trivial
    case inside => exact fun locked => absurd locked (unlocked index)
    case taken =>
      intro generation taken
      cases taken
    case untaken => simp
  case lock => exact fun holder locked => absurd locked (unlocked holder)

/-- A writer that is done has finished. -/
theorem eq_finished_of_script {writer : Writer} {phase : Phase} {result : Except Error Generation}
    (valid : checkKey key = .ok ()) (done : phase.script root key writer = .done result) :
    phase = .finished result := by
  cases phase with
  | starting =>
      rw [script_starting valid] at done
      cases done
  | finished other =>
      cases done
      rfl
  | _ => cases done

private theorem script_of_isInside {phase : Phase} (writer : Writer)
    (inside : phase.isInside = true) :
    ∃ request next, phase.script root key writer = .ask request next := by
  cases phase with
  | starting => cases inside
  | opening => cases inside
  | locking => cases inside
  | finished result => cases inside
  | _ => exact ⟨_, _, rfl⟩

/-- A writer that is told a mark has published its blob with it. -/
theorem InOrder.told (housed : Housed root key)
    (inOrder : InOrder root place key writers contest published files) {index : Nat}
    {generation : Generation} (done : contest.script? index = some (.done (.ok generation))) :
    index ∈ published ∧
      ∃ writer : Writer, writers[index]? = some writer ∧
        generation.number = writer.expected.number + 1 := by
  obtain ⟨writer, phase, present, shape, footing⟩ := inOrder.alive index _ done
  have finished := eq_finished_of_script housed.valid shape.symm
  subst finished
  obtain ⟨member, number⟩ := footing.taken generation rfl
  exact ⟨member, writer, present, number⟩

/-- A writer that is refused has not published. -/
theorem InOrder.refused (housed : Housed root key)
    (inOrder : InOrder root place key writers contest published files) {index : Nat} {error : Error}
    (done : contest.script? index = some (.done (.error error))) :
    index ∉ published := by
  obtain ⟨writer, phase, -, shape, footing⟩ := inOrder.alive index _ done
  have finished := eq_finished_of_script housed.valid shape.symm
  subst finished
  exact footing.untaken rfl

private theorem InOrder.isLocked_of_find (housed : Housed root key)
    (inOrder : InOrder root place key writers contest published files) {settings : FileSettings}
    {there : Path} {content : Bytes} {holder : Holder}
    (held : contest.tree.find (FileStore.lockPath ⟨root, settings⟩ key) =
      .ok (there, some (.file content (some holder)))) :
    IsLocked files holder := by
  rw [FileStore.lockPath_eq] at held
  rcases find_filePath_of_isClear housed inOrder.shows_ .lock with found | missing
  · rw [found] at held
    simp only [Except.ok.injEq, Prod.mk.injEq, Option.map_eq_some_iff, KeyFile.node,
      Node.file.injEq] at held
    obtain ⟨-, ⟨fileContent, occupant⟩, file, -, rfl⟩ := held
    exact ⟨fileContent, file⟩
  · rw [missing] at held
    cases held

private theorem InOrder.find_of_isLocked (housed : Housed root key)
    (inOrder : InOrder root place key writers contest published files) {holder : Holder}
    (locked : IsLocked files holder) (settings : FileSettings) :
    ∃ there content,
      contest.tree.find (FileStore.lockPath ⟨root, settings⟩ key) =
        .ok (there, some (.file content (some holder))) := by
  obtain ⟨content, held⟩ := locked
  have isOpen : contest.tree.IsOpen place (folders key) := by
    apply inOrder.shows_.reached.resolve_right
    intro none
    rw [none .lock] at held
    cases held
  refine ⟨filePlace place key .lock, content, ?_⟩
  rw [FileStore.lockPath_eq, find_filePath housed inOrder.shows_ isOpen, held]
  rfl

/-- The lock is held by a writer that is alive and not done. -/
theorem InOrder.lockHolder (housed : Housed root key)
    (inOrder : InOrder root place key writers contest published files) {settings : FileSettings}
    {there : Path} {content : Bytes} {holder : Holder}
    (held : contest.tree.find (FileStore.lockPath ⟨root, settings⟩ key) =
      .ok (there, some (.file content (some holder)))) :
    ∃ request next, contest.script? holder = some (.ask request next) := by
  have locked := inOrder.isLocked_of_find housed held
  obtain ⟨script, found⟩ := inOrder.lock holder locked
  obtain ⟨writer, phase, -, rfl, footing⟩ := inOrder.alive holder script found
  obtain ⟨request, next, asks⟩ := script_of_isInside writer (footing.inside locked)
  exact ⟨request, next, by rw [found, asks]⟩

/-- Where nobody has the lock, a write by itself answers as the mark rule says,
and a reader finds its blob. -/
theorem InOrder.write (housed : Housed root key)
    (inOrder : InOrder root place key writers contest published files)
    (unlocked : ∀ holder, ¬ IsLocked files holder) (writer : Writer) (holder : Holder) :
    ((writer.script root key).run holder contest.tree).1 =
        (writer.outcome key (latest writers published)).1 ∧
      ((FileStore.read ⟨root, {}⟩ key).run 0
          ((writer.script root key).run holder contest.tree).2).1 =
        .ok (writer.outcome key (latest writers published)).2 := by
  have free : IsFree files := fun content holder held => unlocked holder ⟨content, held⟩
  obtain ⟨after, filesAfter, ran, leaves, read, -⟩ :=
    run_write housed inOrder.shows_ free inOrder.read
  rw [ran]
  refine ⟨rfl, ?_⟩
  rw [run_read housed leaves.shows_]
  exact read

end Contests

/-! ## All runs -/

/-- Any number of writers of a key that has no blob make their requests in any
order, get pieces of their drafts written in any number of parts, and die at any
time; what was left in the lock and in the draft before is of no account. Then
every look finds no blob or the whole blob of the last writer to publish, with a
mark that counts the publications. Each publication is by a writer that expected
the mark of the one before, so of writers with the same expectation one publishes
at most; a writer is told that it has written exactly if it has published, and
the mark that it is told is the one of its blob. The lock is held by nobody but a
writer that is alive and not done; where nobody holds it, the next write answers
as the mark rule says and its blob is read back. -/
theorem writers_publish_in_turn {root place : Path} {key : String} {tree : Tree} {files : KeyFiles}
    (housed : Housed root key) (shows_ : Shows root place key tree files)
    (vacant : files .blob = none) (free : IsFree files) (writers : List Writer)
    (turns : List Turn) :
    let contest := (Contest.start root key writers tree).follow root key turns
    let history := (Contest.start root key writers tree).history root key turns
    (∀ before answer after, history = before ++ .saw answer :: after →
      answer = .ok (latest writers (publishers before)) ∧
        (latest writers (publishers before)).generation.number = (publishers before).length) ∧
    (∀ position index, (publishers history)[position]? = some index →
      ∃ writer : Writer, writers[index]? = some writer ∧ writer.expected.number = position) ∧
    (∀ (left right : Nat) (leftWriter rightWriter : Writer),
      left ∈ publishers history → right ∈ publishers history →
      writers[left]? = some leftWriter → writers[right]? = some rightWriter →
      leftWriter.expected = rightWriter.expected → left = right) ∧
    (∀ index generation, contest.script? index = some (.done (.ok generation)) →
      index ∈ publishers history ∧
        ∃ writer : Writer, writers[index]? = some writer ∧
          generation.number = writer.expected.number + 1) ∧
    (∀ index error, contest.script? index = some (.done (.error error)) →
      index ∉ publishers history) ∧
    (∀ there content holder,
      contest.tree.find (FileStore.lockPath ⟨root, {}⟩ key) =
        .ok (there, some (.file content (some holder))) →
      ∃ request next, contest.script? holder = some (.ask request next)) ∧
    ((∀ there content holder,
      contest.tree.find (FileStore.lockPath ⟨root, {}⟩ key) ≠
        .ok (there, some (.file content (some holder)))) →
      ∀ (writer : Writer) (holder : Holder),
        ((writer.script root key).run holder contest.tree).1 =
            (writer.outcome key (latest writers (publishers history))).1 ∧
          ((FileStore.read ⟨root, {}⟩ key).run 0
              ((writer.script root key).run holder contest.tree).2).1 =
            .ok (writer.outcome key (latest writers (publishers history))).2) := by
  intro contest history
  have start := inOrder_start shows_ vacant free writers
  obtain ⟨⟨filesAfter, inOrder⟩, looks⟩ := start.follow housed turns
  simp only [List.nil_append] at inOrder looks
  refine ⟨?_, ?_, ?_, ?_, ?_, ?_, ?_⟩
  · intro before answer after shown
    refine ⟨looks before answer after shown, number_latest ?_⟩
    have split : publishers history = publishers before ++ publishers (.saw answer :: after) := by
      rw [shown, publishers_append]
    have inTurn : AreInTurn writers (publishers history) := inOrder.inTurn
    rw [split] at inTurn
    exact inTurn.before
  · intro position index found
    obtain ⟨writer, present, expected, -⟩ := inOrder.inTurn position index found
    exact ⟨writer, present, expected⟩
  · intro left right leftWriter rightWriter leftFound rightFound leftPresent rightPresent same
    exact inOrder.inTurn.unique leftFound rightFound leftPresent rightPresent same
  · intro index generation done
    exact inOrder.told housed done
  · intro index error done
    exact inOrder.refused housed done
  · intro there content holder held
    exact inOrder.lockHolder housed held
  · intro unlocked writer holder
    apply inOrder.write housed
    intro occupant locked
    obtain ⟨there, content, held⟩ := inOrder.find_of_isLocked housed locked {}
    exact unlocked there content occupant held

/-- Two writers that expect no blob, and one that expects the first. -/
def contenders : List Writer :=
  [{ contentType := "text", content := [0x61], expected := .absent },
    { settings := { lockTimeout := 30, syncOnWrite := false }, contentType := "text",
      content := [0x62, 0x0A], expected := .absent },
    { contentType := "text", content := [], expected := .ofNat 1 }]

/-- The first writer dies when it has the lock and three bytes of its draft. The
second one then takes the lock, and the third one comes after it. -/
def turnsPastDeath : List Turn :=
  List.replicate 5 (.request 0) ++ [.part 0 3, .request 1, .request 1, .death 0, .look] ++
    List.replicate 8 (.request 1) ++ .look :: List.replicate 11 (.request 2) ++ [.look]

set_option maxRecDepth 20000 in
theorem writers_publish_in_turn_past_death :
    publishers ((Contest.start ["blobs"] "room/log" contenders (.single "blobs")).history
      ["blobs"] "room/log" turnsPastDeath) = [1, 2] ∧
    ∀ before answer after,
      (Contest.start ["blobs"] "room/log" contenders (.single "blobs")).history
        ["blobs"] "room/log" turnsPastDeath = before ++ .saw answer :: after →
      answer = .ok (latest contenders (publishers before)) := by
  have plain : Path.IsPlain "blobs" := ⟨'b', ['l', 'o', 'b', 's'], by decide, by decide⟩
  have fits : Path.fits "blobs" = true := by decide +kernel
  have form : Path.checkForm ["blobs"] = .ok () :=
    (Path.checkForm_eq_ok_iff _).mpr (by decide +kernel)
  have housed : Housed ["blobs"] "room/log" := by decide +kernel
  have shows_ : Shows ["blobs"] ["blobs"] "room/log" (.single "blobs") fun _ => none :=
    shows_of_isFresh housed (Tree.find_single plain fits form) (by decide)
      (isFresh_single plain fits form)
  have free : IsFree fun _ => none := by
    intro content holder held
    cases held
  constructor
  · decide +kernel
  · intro before answer after shown
    have ordered :=
      writers_publish_in_turn housed shows_ rfl free contenders turnsPastDeath
    exact (ordered.1 before answer after shown).1

end RoomLedger.Store
