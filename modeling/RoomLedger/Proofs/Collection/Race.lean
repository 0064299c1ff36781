import RoomLedger.Proofs.Collection.Canonical

/-!
Contract: creates of one key that race have one winner.

Owns:
- `Race`, what candidates for one key find, and the operations that they run;
- `Race.IsOpen` and `Race.IsDecided`, a race before and after the one write that is
  taken;
- `Race.advance`, by which every turn keeps a race in one of these two states;
- `exactly_one_create_wins`, the outcome for every candidate, as long as the blob does not
  have the last generation.

While a race is open nobody has changed the blob, so every pending write names the
mark that the blob has, and the first one is taken. From then on that mark is gone,
and whoever reads finds the key.

Does not own: creates of different keys.
-/

namespace RoomLedger.Collection.Request

open RoomLedger.Store

variable {R : Type} [Record R]

/-- Candidates for one key, and the collection that they find. -/
structure Race (R : Type) [Record R] where
  collection : Collection R
  key : String
  candidates : List R
  store : MemoryStore
  records : List R
  following : Generation
  holds : (store.version collection.blobKey).contentOrEmpty = encode records
  isNew : key ∉ records.map Record.key
  next : (store.version collection.blobKey).generation.next? = some following
  isNamed : Text.blank key = false
  areValid : ∀ candidate ∈ candidates,
    Record.key candidate = key ∧ Record.check candidate = .ok ()

namespace Race

variable {race : Race R} {candidate : R}

/-- The blob once a candidate is in the collection. -/
def blob (race : Race R) (candidate : R) : Blob where
  content := encode (race.records ++ [candidate])
  contentType := contentType
  generation := race.following

/-- The write of a candidate that has read the collection without the key. -/
def pending (race : Race R) (candidate : R) : Operation (Reply R) :=
  race.collection.commit (race.records ++ [candidate])
    (race.store.version race.collection.blobKey).generation race.key (.record candidate)

def stale (race : Race R) : Except Failure (Reply R) :=
  .error (.conflict race.key .staleGeneration)

def duplicate (race : Race R) : Except Failure (Reply R) :=
  .error (.conflict race.key .duplicate)

/-- The candidates before their first calls. -/
def start (race : Race R) : Crowd MemoryStore (Except Failure (Reply R)) :=
  crowd race.collection (race.candidates.map .create) race.store

/-! ## The calls of one candidate -/

private theorem plan_create (member : candidate ∈ race.candidates) :
    (Request.create candidate).plan race.collection =
      race.collection.load fun found =>
        carryOut race.collection found.generation
          ((Request.create candidate).verdict race.collection found.records) := by
  obtain ⟨sameKey, sound⟩ := race.areValid candidate member
  have passed : (Request.create candidate).precheck = .ok () := by
    have named : requireKey (Record.kind R) (Record.key candidate) = .ok () := by
      rw [requireKey, sameKey, race.isNamed]
      rfl
    rw [precheck, named]
    simp only [requireSound, sound]
  rw [plan_eq, passed]
  rfl

/-- A read of the collection without the key leads to a write. -/
theorem step_plan_of_open (member : candidate ∈ race.candidates) :
    ((Request.create candidate).plan race.collection).step race.store =
      (race.pending candidate, race.store) := by
  have decoded : decode (race.store.version race.collection.blobKey).contentOrEmpty =
      .ok race.records := by
    rw [race.holds]
    exact decode_encode race.records
  have missing : find? race.key race.records = none :=
    (find?_eq_none_iff race.key race.records).mpr race.isNew
  have decides : (Request.create candidate).verdict race.collection race.records =
      .change (race.records ++ [candidate]) race.key (.record candidate) := by
    simp only [verdict, (race.areValid candidate member).1, missing]
  rw [plan_create member]
  simp only [load, Plan.step, MemoryStore.read_of_isKey race.collection.isKey, snapshot, decoded,
    Operation.after, decides, carryOut, pending]

/-- A read of the collection with the key ends in a conflict. -/
theorem step_plan_of_decided {champion : R} (member : candidate ∈ race.candidates)
    (isKeyed : Record.key champion = race.key) :
    let after := race.store.after race.collection.blobKey (race.blob champion)
    ((Request.create candidate).plan race.collection).step after =
      (.done race.duplicate, after) := by
  intro after
  have content : (after.version race.collection.blobKey).contentOrEmpty =
      encode (race.records ++ [champion]) := by
    rw [MemoryStore.version_after_self]
    rfl
  have decoded : decode (after.version race.collection.blobKey).contentOrEmpty =
      .ok (race.records ++ [champion]) := by
    rw [content]
    exact decode_encode (race.records ++ [champion])
  obtain ⟨holder, found⟩ : ∃ holder, find? race.key (race.records ++ [champion]) =
      some holder := by
    apply Option.ne_none_iff_exists'.mp
    rw [ne_eq, find?_eq_none_iff, not_not, ← isKeyed]
    exact List.mem_map_of_mem (List.mem_append_right _ (List.mem_singleton_self champion))
  have decides : (Request.create candidate).verdict race.collection
      (race.records ++ [champion]) = .answer race.duplicate := by
    simp only [verdict, (race.areValid candidate member).1, found, duplicate]
  rw [plan_create member]
  simp only [load, Plan.step, MemoryStore.read_of_isKey race.collection.isKey, snapshot, decoded,
    Operation.after, decides, carryOut]

/-- The first write is taken. -/
theorem write_of_open (race : Race R) (candidate : R) :
    BlobStore.write race.store race.collection.blobKey contentType
        (encode (race.records ++ [candidate]))
        (race.store.version race.collection.blobKey).generation =
      (.ok race.following, race.store.after race.collection.blobKey (race.blob candidate)) :=
  MemoryStore.write_of_next? race.collection.isKey race.next contentType _

/-- A write after the one that was taken is refused. -/
theorem write_of_decided (race : Race R) (champion candidate : R) :
    let after := race.store.after race.collection.blobKey (race.blob champion)
    ∃ error,
      BlobStore.write after race.collection.blobKey contentType
          (encode (race.records ++ [candidate]))
          (race.store.version race.collection.blobKey).generation =
        (.error error, after) ∧
      error.isPrecondition = true := by
  intro after
  have raised : (after.version race.collection.blobKey).generation ≠
      (race.store.version race.collection.blobKey).generation := by
    rw [MemoryStore.version_after_self]
    intro same
    have number := Generation.number_of_next? race.next
    have level : race.following = (race.store.version race.collection.blobKey).generation := same
    rw [level] at number
    omega
  rcases MemoryStore.write_cases race.collection.isKey after contentType
      (encode (race.records ++ [candidate]))
      (race.store.version race.collection.blobKey).generation with
    ⟨following, same, -, -⟩ | ⟨error, answer, wrong⟩
  · exact absurd same raised
  · exact ⟨error, answer, wrong.mpr raised⟩

/-! ## The two states of a race -/

/-- Nobody has changed the blob. Whoever has read is about to write. -/
structure IsOpen (race : Race R) (history : List Act)
    (crowd : Crowd MemoryStore (Except Failure (Reply R))) : Prop where
  store : crowd.store = race.store
  entrants : ∀ index candidate, race.candidates[index]? = some candidate →
    .read index ∉ history ∧
      crowd.plans[index]? = some ((Request.create candidate).plan race.collection) ∨
    .read index ∈ history ∧ crowd.plans[index]? = some (race.pending candidate)

/-- How far a candidate has come who is not the winner. -/
inductive Standing (race : Race R) (before after : List Act) (index : Nat) (candidate : R) :
    Plan (Except Failure (Reply R)) → Prop
  | waiting (notBefore : .read index ∉ before) (notAfter : .read index ∉ after) :
      Standing race before after index candidate
        ((Request.create candidate).plan race.collection)
  | overtaken (hasRead : .read index ∈ before) (notAfter : .read index ∉ after) :
      Standing race before after index candidate (race.pending candidate)
  | lostBehind (hasRead : .read index ∈ before) (notAfter : .read index ∉ after) :
      Standing race before after index candidate (.done race.stale)
  | lostLate (notBefore : .read index ∉ before) (hasRead : .read index ∈ after) :
      Standing race before after index candidate (.done race.duplicate)

/-- The winner's record is in the collection, and nobody else's will be. -/
structure IsDecided (race : Race R) (winner : Nat) (champion : R) (before after : List Act)
    (crowd : Crowd MemoryStore (Except Failure (Reply R))) : Prop where
  isCandidate : race.candidates[winner]? = some champion
  store : crowd.store = race.store.after race.collection.blobKey (race.blob champion)
  result : crowd.plans[winner]? = some (.done (.ok (.record champion)))
  others : ∀ index candidate, race.candidates[index]? = some candidate → index ≠ winner →
    ∃ plan,
      crowd.plans[index]? = some plan ∧
      Standing race before after index candidate plan

/-- A race after the calls of a history. -/
def HasCome (race : Race R) (history : List Act)
    (crowd : Crowd MemoryStore (Except Failure (Reply R))) : Prop :=
  IsOpen race history crowd ∨
  ∃ winner champion before after,
    history = before ++ .write winner true :: after ∧
    IsDecided race winner champion before after crowd

private theorem isOpen_start (race : Race R) : IsOpen race [] race.start where
  store := rfl
  entrants := by
    intro index candidate present
    left
    refine ⟨List.not_mem_nil, ?_⟩
    simp only [start, crowd, List.getElem?_map, present, Option.map_some]

/-! ## One turn -/

/-- Another candidate's call is not a read of this one. -/
theorem read_mem_concat_iff {history : List Act} {act : Act} {index : Nat}
    (apart : act ≠ .read index) :
    .read index ∈ history ++ [act] ↔ .read index ∈ history := by
  rw [List.mem_append, List.mem_singleton]
  constructor
  · rintro (earlier | last)
    · exact earlier
    · exact absurd last.symm apart
  · exact Or.inl

private theorem ne_read_of_index_ne {act : Act} {index : Nat} (other : act.index ≠ index) :
    act ≠ .read index := by
  rintro rfl
  exact other rfl

/-- A read leaves the race open. -/
theorem IsOpen.advance_read {history : List Act}
    {crowd : Crowd MemoryStore (Except Failure (Reply R))} (isOpen : IsOpen race history crowd)
    {index : Nat} {candidate : R} (present : race.candidates[index]? = some candidate)
    (plan : crowd.plans[index]? = some ((Request.create candidate).plan race.collection)) :
    crowd.act? index = some (.read index) ∧
      IsOpen race (history ++ [.read index]) (crowd.advance index) := by
  have member : candidate ∈ race.candidates := List.mem_of_getElem? present
  have stepped := step_plan_of_open member
  rw [← isOpen.store] at stepped
  constructor
  · rw [Crowd.act?_of_some plan, plan_create member]
    rfl
  · constructor
    case store =>
      rw [Crowd.advance_of_some plan, stepped]
      exact isOpen.store
    case entrants =>
      intro other rival rivalPresent
      by_cases same : other = index
      · subst same
        rw [present] at rivalPresent
        cases rivalPresent
        right
        refine ⟨List.mem_append_right _ (List.mem_singleton_self _), ?_⟩
        rw [Crowd.getElem?_advance_self plan, stepped]
      · have apart : Act.read index ≠ .read other :=
          ne_read_of_index_ne fun equal => same equal.symm
        rw [read_mem_concat_iff apart, Crowd.getElem?_advance_of_ne crowd same]
        exact isOpen.entrants other rival rivalPresent

/-- A write decides it. -/
theorem IsOpen.advance_write {history : List Act}
    {crowd : Crowd MemoryStore (Except Failure (Reply R))} (isOpen : IsOpen race history crowd)
    {index : Nat} {candidate : R} (present : race.candidates[index]? = some candidate)
    (plan : crowd.plans[index]? = some (race.pending candidate)) :
    crowd.act? index = some (.write index true) ∧
      IsDecided race index candidate history [] (crowd.advance index) := by
  have answer := race.write_of_open candidate
  rw [← isOpen.store] at answer
  have stepped : (race.pending candidate).step crowd.store =
      (.done (.ok (.record candidate)),
        race.store.after race.collection.blobKey (race.blob candidate)) := by
    simp only [pending, commit, Plan.step, ← isOpen.store, answer, settle]
  constructor
  · rw [Crowd.act?_of_some plan]
    simp only [pending, commit, Plan.act?, ← isOpen.store, answer, Except.isOk, Except.toBool]
  · constructor
    case isCandidate => exact present
    case store => rw [Crowd.advance_of_some plan, stepped]
    case result => rw [Crowd.getElem?_advance_self plan, stepped]
    case others =>
      intro other rival rivalPresent apart
      rw [Crowd.getElem?_advance_of_ne crowd apart]
      rcases isOpen.entrants other rival rivalPresent with ⟨unread, stays⟩ | ⟨hasRead, stays⟩
      · exact ⟨_, stays, .waiting unread List.not_mem_nil⟩
      · exact ⟨_, stays, .overtaken hasRead List.not_mem_nil⟩

/-- The call of a candidate in an open race: a read leaves the race open, and a
write decides it. -/
theorem IsOpen.advance {history : List Act} {crowd : Crowd MemoryStore (Except Failure (Reply R))}
    (isOpen : IsOpen race history crowd) {index : Nat} {candidate : R}
    (present : race.candidates[index]? = some candidate) :
    ∃ act,
      crowd.act? index = some act ∧
      HasCome race (history ++ [act]) (crowd.advance index) := by
  rcases isOpen.entrants index candidate present with ⟨unread, plan⟩ | ⟨hasRead, plan⟩
  · obtain ⟨call, next⟩ := isOpen.advance_read present plan
    exact ⟨.read index, call, Or.inl next⟩
  · obtain ⟨call, next⟩ := isOpen.advance_write present plan
    exact ⟨.write index true, call, Or.inr ⟨index, candidate, history, [], rfl, next⟩⟩

/-- Another candidate's call after the decision keeps a standing. -/
theorem Standing.stay {before after : List Act} {index : Nat}
    {plan : Plan (Except Failure (Reply R))}
    (standing : Standing race before after index candidate plan) {act : Act}
    (other : act.index ≠ index) :
    Standing race before (after ++ [act]) index candidate plan := by
  have same : .read index ∈ after ++ [act] ↔ .read index ∈ after :=
    read_mem_concat_iff (ne_read_of_index_ne other)
  cases standing with
  | waiting notBefore notAfter => exact .waiting notBefore (same.not.mpr notAfter)
  | overtaken hasRead notAfter => exact .overtaken hasRead (same.not.mpr notAfter)
  | lostBehind hasRead notAfter => exact .lostBehind hasRead (same.not.mpr notAfter)
  | lostLate notBefore hasRead => exact .lostLate notBefore (same.mpr hasRead)

/-- A candidate's own call after the decision loses, or is the read before it. -/
theorem Standing.step {champion : R} {before after : List Act} {index : Nat}
    {plan : Plan (Except Failure (Reply R))} (member : candidate ∈ race.candidates)
    (isKeyed : Record.key champion = race.key)
    (standing : Standing race before after index candidate plan) {act : Act} :
    let store := race.store.after race.collection.blobKey (race.blob champion)
    plan.act? index store = some act →
    (plan.step store).2 = store ∧
      Standing race before (after ++ [act]) index candidate (plan.step store).1 := by
  intro store made
  cases standing with
  | waiting notBefore notAfter =>
      have isRead : act = .read index := by
        rw [plan_create member] at made
        cases made
        rfl
      subst isRead
      rw [step_plan_of_decided member isKeyed]
      exact ⟨rfl, .lostLate notBefore (List.mem_append_right _ (List.mem_singleton_self _))⟩
  | overtaken hasRead notAfter =>
      obtain ⟨error, answer, late⟩ := race.write_of_decided champion candidate
      have stepped : (race.pending candidate).step store = (.done race.stale, store) := by
        simp only [pending, commit, Plan.step, answer, settle, late, if_true, stale, store]
      have isWrite : act = .write index false := by
        simp only [pending, commit, Plan.act?, answer, Except.isOk, Except.toBool, store,
          Option.some.injEq] at made
        exact made.symm
      rw [stepped]
      refine ⟨rfl, .lostBehind hasRead ?_⟩
      rw [read_mem_concat_iff (by rw [isWrite]; simp)]
      exact notAfter
  | lostBehind hasRead notAfter => cases made
  | lostLate notBefore hasRead => cases made

/-- A call after the decision changes nothing. -/
theorem IsDecided.advance {winner : Nat} {champion : R} {before after : List Act}
    {crowd : Crowd MemoryStore (Except Failure (Reply R))}
    (decided : IsDecided race winner champion before after crowd) {index : Nat} {candidate : R}
    (present : race.candidates[index]? = some candidate) {act : Act}
    (made : crowd.act? index = some act) :
    IsDecided race winner champion before (after ++ [act]) (crowd.advance index) := by
  have isKeyed : Record.key champion = race.key :=
    (race.areValid champion (List.mem_of_getElem? decided.isCandidate)).1
  have apart : index ≠ winner := by
    rintro rfl
    rw [Crowd.act?_of_some decided.result] at made
    cases made
  obtain ⟨plan, found, standing⟩ := decided.others index candidate present apart
  rw [Crowd.act?_of_some found, decided.store] at made
  obtain ⟨kept, next⟩ := standing.step (List.mem_of_getElem? present) isKeyed made
  constructor
  case isCandidate => exact decided.isCandidate
  case store =>
    rw [Crowd.advance_of_some found, decided.store]
    exact kept
  case result =>
    rw [Crowd.getElem?_advance_of_ne crowd apart.symm]
    exact decided.result
  case others =>
    intro other rival rivalPresent notWinner
    by_cases same : other = index
    · subst same
      rw [present] at rivalPresent
      cases rivalPresent
      rw [Crowd.getElem?_advance_self found, decided.store]
      exact ⟨_, rfl, next⟩
    · obtain ⟨stays, stayed, otherStanding⟩ := decided.others other rival rivalPresent notWinner
      rw [Crowd.getElem?_advance_of_ne crowd same]
      refine ⟨stays, stayed, otherStanding.stay ?_⟩
      rw [Plan.index_of_act? made]
      exact fun equal => same equal.symm

/-- Every turn keeps a race in one of its two states. -/
theorem advance {history : List Act} {crowd : Crowd MemoryStore (Except Failure (Reply R))}
    (hasCome : HasCome race history crowd) (size : crowd.plans.length = race.candidates.length)
    (index : Nat) :
    HasCome race (history ++ (crowd.act? index).toList) (crowd.advance index) := by
  cases made : crowd.act? index with
  | none =>
      rw [Crowd.advance_of_act?_eq_none made, Option.toList_none, List.append_nil]
      exact hasCome
  | some act =>
      have inside : index < race.candidates.length := by
        obtain ⟨plan, present, -⟩ := Option.bind_eq_some_iff.mp made
        rw [← size]
        exact (List.getElem?_eq_some_iff.mp present).1
      have present : race.candidates[index]? = some race.candidates[index] :=
        List.getElem?_eq_getElem inside
      rw [Option.toList_some]
      rcases hasCome with isOpen | ⟨winner, champion, before, after, split, decided⟩
      · obtain ⟨same, call, next⟩ := isOpen.advance present
        rw [made] at call
        cases call
        exact next
      · right
        refine ⟨winner, champion, before, after ++ [act], ?_, decided.advance present made⟩
        rw [split, List.append_assoc, List.cons_append]

/-- So does every schedule. -/
theorem follow {history : List Act} {crowd : Crowd MemoryStore (Except Failure (Reply R))}
    (hasCome : HasCome race history crowd) (size : crowd.plans.length = race.candidates.length)
    (schedule : List Nat) :
    HasCome race (history ++ crowd.history schedule) (crowd.follow schedule) := by
  induction schedule generalizing history crowd with
  | nil =>
      rw [Crowd.history, List.append_nil, Crowd.follow_nil]
      exact hasCome
  | cons index schedule inductionHypothesis =>
      rw [Crowd.history, ← List.append_assoc, Crowd.follow_cons]
      apply inductionHypothesis (advance hasCome size index)
      rw [Crowd.length_plans_advance]
      exact size

/-! ## The outcome -/

/-- A candidate of an open race has no result. -/
theorem IsOpen.result?_eq_none {history : List Act}
    {crowd : Crowd MemoryStore (Except Failure (Reply R))} (isOpen : IsOpen race history crowd)
    {index : Nat} {candidate : R} (present : race.candidates[index]? = some candidate) :
    crowd.result? index = none := by
  rcases isOpen.entrants index candidate present with ⟨-, plan⟩ | ⟨-, plan⟩
  · rw [Crowd.result?, plan, plan_create (List.mem_of_getElem? present)]
    rfl
  · rw [Crowd.result?, plan]
    rfl

/-- A loser who is done was told why. -/
theorem Standing.result {before after : List Act} {index : Nat}
    {plan : Plan (Except Failure (Reply R))} (member : candidate ∈ race.candidates)
    (standing : Standing race before after index candidate plan)
    (isDone : plan.result?.isSome = true) :
    (.read index ∈ before ∧ .read index ∉ after ∧ plan.result? = some race.stale) ∨
    (.read index ∉ before ∧ .read index ∈ after ∧ plan.result? = some race.duplicate) := by
  cases standing with
  | waiting notBefore notAfter =>
      rw [plan_create member] at isDone
      cases isDone
  | overtaken hasRead notAfter => cases isDone
  | lostBehind hasRead notAfter => exact Or.inl ⟨hasRead, notAfter, rfl⟩
  | lostLate notBefore hasRead => exact Or.inr ⟨notBefore, hasRead, rfl⟩

end Race

/-- Candidates for one new key, in any order of their reads and writes, have exactly
one winner once all of them are done. The collection is then what it was with the
winner's record at the end, by one write. Everyone else is told of a conflict on
the key: of a duplicate, if the read came after the winner's write, and of a stale
snapshot, if it came before. -/
theorem exactly_one_create_wins (collection : Collection R) (store : MemoryStore)
    (records candidates : List R) (key : String) (schedule : List Nat)
    (holds : (store.version collection.blobKey).contentOrEmpty = encode records)
    (isNew : key ∉ records.map Record.key)
    (room : (store.version collection.blobKey).generation.number + 1 < UInt64.size)
    (isNamed : Text.blank key = false)
    (areValid : ∀ candidate ∈ candidates,
      Record.key candidate = key ∧ Record.check candidate = .ok ())
    (present : 1 ≤ candidates.length)
    (complete : ∀ index < candidates.length,
      (((crowd collection (candidates.map .create) store).follow schedule).result?
        index).isSome = true) :
    let start := crowd collection (candidates.map .create) store
    let history := start.history schedule
    let final := start.follow schedule
    ∃ winner champion before after,
      candidates[winner]? = some champion ∧
      history = before ++ .write winner true :: after ∧
      final.result? winner = some (.ok (.record champion)) ∧
      (∀ index < candidates.length, index ≠ winner →
        (.read index ∈ before ∧ .read index ∉ after ∧
          final.result? index = some (.error (.conflict key .staleGeneration))) ∨
        (.read index ∉ before ∧ .read index ∈ after ∧
          final.result? index = some (.error (.conflict key .duplicate)))) ∧
      final.store.writeCount = store.writeCount + 1 ∧
      (final.store.version collection.blobKey).generation.number =
        (store.version collection.blobKey).generation.number + 1 ∧
      final.store.version collection.blobKey = {
        content := some (encode (records ++ [champion]))
        contentType := some "application/x-ndjson"
        generation := (final.store.version collection.blobKey).generation } := by
  intro start history final
  obtain ⟨following, next⟩ : ∃ following,
      (store.version collection.blobKey).generation.next? = some following := by
    apply Option.ne_none_iff_exists'.mp
    rw [ne_eq, Generation.next?_eq_none_iff]
    omega
  let race : Race R :=
    { collection, key, candidates, store, records, following, holds, isNew, next, isNamed,
      areValid }
  have size : start.plans.length = candidates.length := by
    simp only [start, crowd, List.length_map]
  have hasCome : race.HasCome history final := by
    have begun : race.HasCome [] start := Or.inl race.isOpen_start
    simpa only [List.nil_append] using Race.follow begun size schedule
  rcases hasCome with isOpen | ⟨winner, champion, before, after, split, decided⟩
  · exfalso
    have first : candidates[0]? = some candidates[0] := List.getElem?_eq_getElem present
    have isDone := complete 0 present
    have none : final.result? 0 = none := isOpen.result?_eq_none first
    rw [show (crowd collection (candidates.map .create) store).follow schedule = final from rfl,
      none] at isDone
    cases isDone
  · have version : final.store.version collection.blobKey = (race.blob champion).version := by
      rw [decided.store]
      exact MemoryStore.version_after_self _ _ _
    refine ⟨winner, champion, before, after, decided.isCandidate, split, ?_, ?_, ?_, ?_, ?_⟩
    · rw [Crowd.result?, decided.result]
      rfl
    · intro index inside apart
      have isCandidate : candidates[index]? = some candidates[index] :=
        List.getElem?_eq_getElem inside
      obtain ⟨plan, found, standing⟩ := decided.others index _ isCandidate apart
      have same : final.result? index = plan.result? := by
        rw [Crowd.result?, found]
        rfl
      rw [same]
      apply standing.result (List.mem_of_getElem? isCandidate)
      rw [← same]
      exact complete index inside
    · rw [decided.store]
      rfl
    · rw [version]
      exact Generation.number_of_next? next
    · rw [version]
      rfl

/-- The store with a profile, in which others race for another key. -/
def contestedStore : MemoryStore :=
  MemoryStore.empty.after "profiles.jsonl" ⟨encode [sampleProfile], contentType, ⟨7⟩⟩

/-- Profiles of one user, of which one will be kept. -/
def contestedProfiles : List UserProfile :=
  ["a", "b", "c"].map fun notes => { sampleProfile with userId := "u-2", notes }

/-- Two of three candidates read before the first write, and the third one after
it. -/
theorem exactly_one_create_wins_of_three :
    let start := crowd Profiles.collection (contestedProfiles.map .create) contestedStore
    let history := start.history [0, 1, 1, 0, 2]
    let final := start.follow [0, 1, 1, 0, 2]
    ∃ winner champion before after,
      contestedProfiles[winner]? = some champion ∧
      history = before ++ .write winner true :: after ∧
      final.store.version "profiles.jsonl" = {
        content := some (encode [sampleProfile, champion])
        contentType := some "application/x-ndjson"
        generation := (final.store.version "profiles.jsonl").generation } := by
  intro start history final
  obtain ⟨winner, champion, before, after, isCandidate, split, -, -, -, -, left⟩ :=
    exactly_one_create_wins Profiles.collection contestedStore [sampleProfile] contestedProfiles
      "u-2" [0, 1, 1, 0, 2] rfl (by decide +kernel) (by decide) (by decide +kernel)
      (by decide +kernel) (by decide) (by decide +kernel)
  exact ⟨winner, champion, before, after, isCandidate, split, left⟩

/-- The store with that profile, whose blob has the last generation that there is. -/
def spentStore : MemoryStore :=
  MemoryStore.empty.after "profiles.jsonl"
    ⟨encode [sampleProfile], contentType, ⟨18446744073709551615⟩⟩

/-- Where the blob has the last generation, every candidate is told that the counter is used
up. Nobody wins, nobody is told of a conflict, and nothing is written. -/
theorem no_create_wins_at_last_generation :
    let start := crowd Profiles.collection (contestedProfiles.map .create) spentStore
    let final := start.follow [0, 1, 1, 0, 2, 2]
    (spentStore.version Profiles.collection.blobKey).contentOrEmpty = encode [sampleProfile] ∧
    "u-2" ∉ [sampleProfile].map Record.key ∧
    (∀ candidate ∈ contestedProfiles,
      Record.key candidate = "u-2" ∧ Record.check candidate = .ok ()) ∧
    (∀ index < contestedProfiles.length, final.result? index =
      some (.error (.store "profiles.jsonl" (.corrupt "profiles.jsonl" .exhausted)))) ∧
    final.store = spentStore := by
  refine ⟨rfl, ?isNew, ?areValid, ?results, ?unchanged⟩
  case isNew => decide +kernel
  case areValid => decide +kernel
  case results => decide +kernel
  case unchanged => decide +kernel

end RoomLedger.Collection.Request
