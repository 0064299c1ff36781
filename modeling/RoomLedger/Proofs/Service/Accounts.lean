import Mathlib
import RoomLedger.Proofs.Service.Balance

/-!
Contract: no message of a room's history is lost, doubled or taken twice.

Owns:
- `takenBy`, the ids that the turns of one action took out of the history;
- `Books`, the ids that were appended as those that are left and those that were
  taken;
- `Books.follow`, by which every schedule keeps the books;
- `entries_are_accounted_for`, the balance of a whole schedule.

An action whose write is taken does what it would do alone, so that the balance of
single actions is all that is needed. An action whose write is not taken changes
nothing, and says so.

Does not own: the content of messages.
-/

namespace RoomLedger.Histories

open RoomLedger.Collection (IsKeyed Reply)
open RoomLedger.Collection.Request (IsStale)
open RoomLedger.Store (Act Crowd MemoryStore Plan Progress)

/-! ## Lists over places -/

section Lists

variable {ι α : Type} {places : List ι} {first second : ι → List α}

/-- What comes to one place comes to the whole. -/
theorem perm_flatMap_of_one {place : ι} {extra : List α} (distinct : places.Nodup)
    (member : place ∈ places) (here : (second place).Perm (first place ++ extra))
    (others : ∀ other ∈ places, other ≠ place → second other = first other) :
    (places.flatMap second).Perm (places.flatMap first ++ extra) := by
  induction places with
  | nil => cases member
  | cons head rest inductionHypothesis =>
      obtain ⟨headNotLater, distinctRest⟩ := List.nodup_cons.mp distinct
      rw [List.flatMap_cons, List.flatMap_cons]
      by_cases same : head = place
      · subst same
        have later : rest.flatMap second = rest.flatMap first := by
          apply List.flatMap_congr
          intro other present
          apply others other (List.mem_cons_of_mem _ present)
          rintro rfl
          exact headNotLater present
        rw [later]
        calc
          second head ++ rest.flatMap first
          _ |>.Perm ((first head ++ extra) ++ rest.flatMap first) := here.append_right _
          _ |>.Perm (first head ++ (extra ++ rest.flatMap first)) := by rw [List.append_assoc]
          _ |>.Perm (first head ++ (rest.flatMap first ++ extra)) :=
            List.perm_append_comm.append_left _
          _ |>.Perm (first head ++ rest.flatMap first ++ extra) := by rw [List.append_assoc]
      · have memberLater : place ∈ rest := by
          rcases List.mem_cons.mp member with equal | later
          · exact absurd equal.symm same
          · exact later
        have othersLater : ∀ other ∈ rest, other ≠ place → second other = first other :=
          fun other present => others other (List.mem_cons_of_mem _ present)
        rw [others head List.mem_cons_self same, List.append_assoc]
        exact (inductionHypothesis distinctRest memberLater othersLater).append_left _

end Lists

/-! ## What a schedule appends and takes -/

/-- Actions under way, none of which has made a call. -/
def crowd (name : String) (actions : List Action) (store : MemoryStore) :
    Crowd MemoryStore (Except Failure (Reply HistoryEntry)) where
  plans := actions.map (Action.operation name)
  store := store

/-- The ids in the history of a room. -/
def heldIds (name : String) (store : MemoryStore) : List String :=
  match Collection.decode (R := HistoryEntry) (store.version (blobKey name)).contentOrEmpty with
  | .error _ => []
  | .ok entries => idsOf entries

/-- The ids that the turns of one action take out of the history. -/
def takenBy (name : String) (index : Nat) :
    Crowd MemoryStore (Except Failure (Reply HistoryEntry)) → (schedule : List Nat) → List String
  | _, [] => []
  | crowd, turn :: schedule =>
      let next := crowd.advance turn
      let lost := missing (heldIds name crowd.store) (heldIds name next.store)
      (if turn = index then lost else []) ++ takenBy name index next schedule

/-- The ids that the appends among actions have returned. -/
def appendedIds (actions : List Action)
    (crowd : Crowd MemoryStore (Except Failure (Reply HistoryEntry))) : List String :=
  actions.zipIdx.flatMap fun entry => entry.1.appended (crowd.result? entry.2)

/-- How many of the actions are removes that succeeded. -/
def removeCount (actions : List Action)
    (crowd : Crowd MemoryStore (Except Failure (Reply HistoryEntry))) : Nat :=
  (actions.zipIdx.map fun entry => entry.1.removes (crowd.result? entry.2)).sum

/-- The sum of the numbers that the clears among actions have returned. -/
def clearCount (actions : List Action)
    (crowd : Crowd MemoryStore (Except Failure (Reply HistoryEntry))) : Nat :=
  (actions.zipIdx.map fun entry => entry.1.clears (crowd.result? entry.2)).sum

variable {name : String} {actions : List Action} {collection : Collection HistoryEntry}
  {store : MemoryStore} {entries : List HistoryEntry}

private theorem heldIds_of_holds (holds : Holds name store entries) :
    heldIds name store = idsOf entries := by
  rw [Holds] at holds
  rw [heldIds, holds]

private theorem nodup_zipIdx (actions : List Action) : actions.zipIdx.Nodup :=
  List.Nodup.of_map Prod.snd (List.nodup_zipIdx_map_snd actions)

/-- Two places with one number are one. -/
theorem ne_of_mem_zipIdx {index : Nat} {action : Action} (present : actions[index]? = some action) :
    ∀ other ∈ actions.zipIdx, other ≠ (action, index) → other.2 ≠ index := by
  intro other member apart same
  apply apart
  have found := List.mem_zipIdx_iff_getElem?.mp member
  rw [same, present] at found
  exact Prod.ext (Option.some.inj found).symm same

/-! ## The books -/

/-- The ids that were appended are those that are left and those that were taken.
Every action has taken what its result says, and one that is not done yet will say
nothing unless its write is taken. -/
structure Books (name : String) (actions : List Action)
    (crowd : Crowd MemoryStore (Except Failure (Reply HistoryEntry))) (taken : Nat → List String) :
    Prop where
  held : ∃ entries, Holds name crowd.store entries ∧ IsKeyed entries
  conserved : (appendedIds actions crowd).Perm
    (heldIds name crowd.store ++ actions.zipIdx.flatMap fun entry => taken entry.2)
  took : ∀ index (action : Action), actions[index]? = some action →
    action.Took (crowd.result? index) (taken index)
  told : ∀ index (action : Action), actions[index]? = some action →
    (action.appended (crowd.result? index)).Sublist action.freshIds
  silent : ∀ index (action : Action) plan,
    actions[index]? = some action →
    crowd.plans[index]? = some plan →
    crowd.result? index = none →
    plan.ReturnsUnwritten action.SaysNothing

namespace Books

variable {crowd next : Crowd MemoryStore (Except Failure (Reply HistoryEntry))}
  {taken : Nat → List String} {index : Nat} {action : Action}

/-- The books after an action has come to its end. -/
theorem settle (books : Books name actions crowd taken) (present : actions[index]? = some action)
    (pending : crowd.result? index = none)
    (others : ∀ other, other ≠ index → next.plans[other]? = crowd.plans[other]?)
    {result : Except Failure (Reply HistoryEntry)} (done : next.result? index = some result)
    {left : List HistoryEntry} (before : Holds name crowd.store entries)
    (after : Holds name next.store left) (balances : Balances action result entries left) :
    Books name actions next fun other =>
      taken other ++ if index = other then missing (idsOf entries) (idsOf left) else [] := by
  have kept : ∀ other, other ≠ index → next.result? other = crowd.result? other := by
    intro other apart
    rw [Crowd.result?, Crowd.result?, others other apart]
  have place : (action, index) ∈ actions.zipIdx := List.mk_mem_zipIdx_iff_getElem?.mpr present
  have nothingYet : taken index = [] := by
    have took := books.took index action present
    rw [pending] at took
    cases action <;> exact took
  constructor
  case held => exact ⟨left, after, balances.keyed⟩
  case conserved =>
    have appended : (appendedIds actions next).Perm
        (appendedIds actions crowd ++ action.appended (some result)) := by
      apply perm_flatMap_of_one (nodup_zipIdx actions) place
      · rw [done, pending, action.appended_none, List.nil_append]
      · intro other member apart
        rw [kept other.2 (ne_of_mem_zipIdx present other member apart)]
    have taking : (actions.zipIdx.flatMap fun entry =>
          taken entry.2 ++
            if index = entry.2 then missing (idsOf entries) (idsOf left) else []).Perm
        ((actions.zipIdx.flatMap fun entry => taken entry.2) ++
          missing (idsOf entries) (idsOf left)) := by
      apply perm_flatMap_of_one (nodup_zipIdx actions) place
      · rw [if_pos rfl]
      · intro other member apart
        rw [if_neg (Ne.symm (ne_of_mem_zipIdx present other member apart)), List.append_nil]
    have conserved := books.conserved
    rw [heldIds_of_holds before] at conserved
    rw [heldIds_of_holds after]
    exact balances.perm_of_perm conserved appended taking
  case took =>
    intro other act found
    by_cases same : other = index
    · subst same
      rw [present] at found
      cases found
      rw [if_pos rfl, done, nothingYet]
      exact balances.took
    · rw [if_neg (Ne.symm same), List.append_nil, kept other same]
      exact books.took other act found
  case told =>
    intro other act found
    by_cases same : other = index
    · subst same
      rw [present] at found
      cases found
      rw [done]
      exact balances.told
    · rw [kept other same]
      exact books.told other act found
  case silent =>
    intro other act plan found planned unfinished
    by_cases same : other = index
    · subst same
      rw [done] at unfinished
      cases unfinished
    · rw [kept other same] at unfinished
      rw [others other same] at planned
      exact books.silent other act plan found planned unfinished

/-- The books after a turn that brought no action to its end and changed no
history. -/
theorem wait (books : Books name actions crowd taken) (store : next.store = crowd.store)
    (results : ∀ other, next.result? other = crowd.result? other)
    (silent : ∀ other (action : Action) plan,
      actions[other]? = some action →
      next.plans[other]? = some plan →
      next.result? other = none →
      plan.ReturnsUnwritten action.SaysNothing) :
    Books name actions next taken where
  held := by
    rw [store]
    exact books.held
  conserved := by
    have same : appendedIds actions next = appendedIds actions crowd := by
      apply List.flatMap_congr
      intro entry member
      rw [results]
    rw [same, store]
    exact books.conserved
  took := by
    intro other action present
    rw [results]
    exact books.took other action present
  told := by
    intro other action present
    rw [results]
    exact books.told other action present
  silent := silent

/-- Nothing was appended to a history that does not exist, and nothing taken. -/
theorem start (absent : store.version (blobKey name) = .absent) :
    Books name actions (Histories.crowd name actions store) fun _ => [] := by
  have planned : ∀ (index : Nat) (action : Action), actions[index]? = some action →
      (Histories.crowd name actions store).plans[index]? = some (action.operation name) := by
    intro index action present
    simp only [crowd, List.getElem?_map, present, Option.map_some]
  have nothing : ∀ (index : Nat) (action : Action), actions[index]? = some action →
      action.appended ((Histories.crowd name actions store).result? index) = [] ∧
      action.Took ((Histories.crowd name actions store).result? index) [] := by
    intro index action present
    rw [Crowd.result?, planned index action present]
    exact Action.nothing_of_returnsUnwritten (action.returnsUnwritten_operation name)
  have holds : Holds name (Histories.crowd name actions store).store [] := by
    rw [Holds, show (Histories.crowd name actions store).store = store from rfl, absent]
    exact Collection.decode_nil
  constructor
  case held => exact ⟨[], holds, IsKeyed.nil⟩
  case conserved =>
    have none : appendedIds actions (Histories.crowd name actions store) = [] := by
      apply List.flatMap_eq_nil_iff.mpr
      intro entry member
      exact (nothing entry.2 entry.1 (List.mem_zipIdx_iff_getElem?.mp member)).1
    have untouched : (actions.zipIdx.flatMap fun _ => ([] : List String)) = [] :=
      List.flatMap_eq_nil_iff.mpr fun _ _ => rfl
    rw [none, heldIds_of_holds holds, untouched]
    exact List.Perm.refl _
  case took => exact fun index action present => (nothing index action present).2
  case told =>
    intro index action present
    rw [(nothing index action present).1]
    exact List.nil_sublist _
  case silent =>
    intro index action plan present found unfinished
    rw [planned index action present] at found
    cases found
    exact action.returnsUnwritten_operation name

private theorem isTransaction_of_mem_operations (actions : List Action)
    (found : room name = .ok collection) :
    ∀ plan ∈ actions.map (Action.operation name),
      plan.IsTransaction collection.blobKey IsStale := by
  intro plan member
  obtain ⟨action, -, rfl⟩ := List.mem_map.mp member
  rw [Action.operation_of_room found]
  exact Collection.Request.isTransaction_plan collection _

/-- The books after a turn whose write is taken: the action does what it would do
alone. -/
theorem advance_of_taken (found : room name = .ok collection) {history : List Act}
    (progress : Progress collection.blobKey IsStale (actions.map (Action.operation name)) store
      history crowd)
    (books : Books name actions crowd taken) {turn : Nat}
    (made : crowd.act? turn = some (.write turn true)) (isAction : actions[turn]? = some action) :
    Books name actions (crowd.advance turn) fun other =>
      taken other ++
        if turn = other then
          missing (heldIds name crowd.store) (heldIds name (crowd.advance turn).store)
        else [] := by
  have transactions := isTransaction_of_mem_operations actions found
  obtain ⟨entries, holds, keyed⟩ := books.held
  obtain ⟨plan, result, planned, alone, done⟩ :=
    progress.run_of_taken collection.isKey transactions made
  rw [List.getElem?_map, isAction] at planned
  cases planned
  obtain ⟨left, after, balances⟩ := balances_run found keyed holds action
  rw [alone] at after balances
  rw [heldIds_of_holds holds, heldIds_of_holds after]
  apply books.settle isAction (Crowd.result?_of_act? made) _ done holds after balances
  intro other apart
  exact Crowd.getElem?_advance_of_ne crowd apart

/-- The books after a turn of which no write is taken: the store is as it was, and the
action says nothing if it is done. -/
theorem advance_of_untaken (books : Books name actions crowd taken) {turn : Nat} {act : Act}
    {plan : Plan (Except Failure (Reply HistoryEntry))} (made : crowd.act? turn = some act)
    (untaken : act ≠ .write turn true) (isAction : actions[turn]? = some action)
    (present : crowd.plans[turn]? = some plan) (call : plan.act? turn crowd.store = some act)
    (store : (crowd.advance turn).store = crowd.store) :
    Books name actions (crowd.advance turn) taken := by
  have pending := Crowd.result?_of_act? made
  have others : ∀ other, other ≠ turn →
      (crowd.advance turn).plans[other]? = crowd.plans[other]? :=
    fun other apart => Crowd.getElem?_advance_of_ne crowd apart
  have next := Crowd.getElem?_advance_self present
  obtain ⟨entries, holds, keyed⟩ := books.held
  have unchanged : Holds name (crowd.advance turn).store entries := by
    rw [Holds, store]
    exact holds
  have silent : (plan.step crowd.store).1.ReturnsUnwritten action.SaysNothing := by
    apply Plan.returnsUnwritten_step (books.silent turn action plan isAction present pending)
    rw [call]
    exact fun equal => untaken (Option.some.inj equal)
  cases done : (crowd.advance turn).result? turn with
  | some result =>
      have nothing : action.SaysNothing result := by
        have said := Action.nothing_of_returnsUnwritten silent
        rw [Crowd.result?, next] at done
        rwa [show (plan.step crowd.store).1.result? = some result from done] at said
      have settled := books.settle isAction pending others done holds unchanged
        (balances_of_saysNothing keyed nothing)
      simpa only [missing_self, ite_self, List.append_nil] using settled
  | none =>
      apply books.wait store
      · intro other
        by_cases same : other = turn
        · rw [same, done, pending]
        · rw [Crowd.result?, Crowd.result?, others other same]
      · intro other act plan isOther planned unfinished
        by_cases same : other = turn
        · subst same
          rw [isAction] at isOther
          cases isOther
          rw [next] at planned
          cases planned
          exact silent
        · rw [others other same] at planned
          rw [Crowd.result?, others other same] at unfinished
          exact books.silent other act plan isOther planned unfinished

/-- Every turn keeps the books. -/
theorem advance (found : room name = .ok collection) {history : List Act}
    (progress : Progress collection.blobKey IsStale (actions.map (Action.operation name)) store
      history crowd)
    (books : Books name actions crowd taken) (turn : Nat) :
    Books name actions (crowd.advance turn) fun other =>
      taken other ++
        if turn = other then
          missing (heldIds name crowd.store) (heldIds name (crowd.advance turn).store)
        else [] := by
  have transactions := isTransaction_of_mem_operations actions found
  rcases progress.turn_cases collection.isKey transactions turn with taken | ⟨store, nobody⟩
  · obtain ⟨plan, -, member, -⟩ := progress.turn collection.isKey transactions taken
    rw [List.getElem?_map] at member
    obtain ⟨action, isAction, rfl⟩ := Option.map_eq_some_iff.mp member
    exact books.advance_of_taken found progress taken isAction
  · cases made : crowd.act? turn with
    | none =>
        simpa only [Crowd.advance_of_act?_eq_none made, missing_self, ite_self,
          List.append_nil] using books
    | some act =>
        obtain ⟨origin, plan, member, -, present, -, call, -⟩ :=
          progress.turn collection.isKey transactions made
        rw [List.getElem?_map] at member
        obtain ⟨action, isAction, rfl⟩ := Option.map_eq_some_iff.mp member
        have untaken : act ≠ .write turn true := by
          rintro rfl
          rw [made] at nobody
          cases nobody
        have waited := books.advance_of_untaken made untaken isAction present call store
        simpa only [store, missing_self, ite_self, List.append_nil] using waited

/-- So does every schedule. -/
theorem follow (found : room name = .ok collection) {history : List Act}
    (progress : Progress collection.blobKey IsStale (actions.map (Action.operation name)) store
      history crowd)
    (books : Books name actions crowd taken) (schedule : List Nat) :
    Books name actions (crowd.follow schedule) fun other =>
      taken other ++ takenBy name other crowd schedule := by
  induction schedule generalizing history crowd taken with
  | nil => simpa only [Crowd.follow_nil, takenBy, List.append_nil] using books
  | cons turn schedule inductionHypothesis =>
      have transactions := isTransaction_of_mem_operations actions found
      have later := inductionHypothesis
        (progress.advance collection.isKey transactions turn)
        (books.advance found progress turn)
      simpa only [Crowd.follow_cons, takenBy, List.append_assoc] using later

end Books

/-! ## Every schedule -/

/-- Where there is no room, nothing happens. -/
theorem follow_of_no_room {failure : Failure} (actions : List Action) (store : MemoryStore)
    (refused : room name = .error failure) (schedule : List Nat) :
    (crowd name actions store).follow schedule = crowd name actions store ∧
    ∀ index, takenBy name index (crowd name actions store) schedule = [] := by
  have idle : ∀ turn, (crowd name actions store).advance turn = crowd name actions store := by
    intro turn
    apply Crowd.advance_of_act?_eq_none
    rw [Crowd.act?]
    cases present : (crowd name actions store).plans[turn]? with
    | none => rfl
    | some plan =>
        obtain ⟨action, -, rfl⟩ := List.mem_map.mp (List.mem_of_getElem? present)
        rw [Option.bind_some, Action.operation_of_no_room refused]
        rfl
  induction schedule with
  | nil => exact ⟨rfl, fun index => rfl⟩
  | cons turn schedule inductionHypothesis =>
      constructor
      · rw [Crowd.follow_cons, idle]
        exact inductionHypothesis.1
      · intro index
        simp only [takenBy, idle, missing_self, ite_self, List.nil_append]
        exact inductionHypothesis.2 index

private theorem books_of_schedule (name : String) (actions : List Action) (schedule : List Nat)
    (absent : store.version (blobKey name) = .absent) :
    Books name actions ((crowd name actions store).follow schedule) fun index =>
      takenBy name index (crowd name actions store) schedule := by
  have start : Books name actions (crowd name actions store) fun _ => [] := Books.start absent
  cases found : room name with
  | error failure =>
      obtain ⟨same, nothing⟩ := follow_of_no_room actions store found schedule
      rw [same]
      simpa only [nothing] using start
  | ok collection =>
      have progress : Progress collection.blobKey IsStale (actions.map (Action.operation name))
          store [] (crowd name actions store) :=
        Progress.start collection.blobKey IsStale (actions.map (Action.operation name)) store
      simpa only [List.nil_append] using start.follow found progress schedule

namespace Books

variable {crowd : Crowd MemoryStore (Except Failure (Reply HistoryEntry))}
  {taken : Nat → List String}

/-- Every id was returned once, if every id was made once. -/
theorem nodup_appendedIds (books : Books name actions crowd taken)
    (distinct : (actions.flatMap Action.freshIds).Nodup) :
    (appendedIds actions crowd).Nodup := by
  have fresh : actions.zipIdx.flatMap (fun entry => entry.1.freshIds) =
      actions.flatMap Action.freshIds := by
    rw [← List.flatMap_map (f := Prod.fst), List.zipIdx_map_fst]
  rw [← fresh] at distinct
  refine List.Nodup.sublist (List.Sublist.flatMap_right _ ?_) distinct
  intro entry member
  exact books.told entry.2 entry.1 (List.mem_zipIdx_iff_getElem?.mp member)

/-- What is left and what removes and clears have told of is as much as appends have
told of. -/
theorem length_eq (books : Books name actions crowd taken)
    (holds : Holds name crowd.store entries) :
    entries.length + removeCount actions crowd + clearCount actions crowd =
      (appendedIds actions crowd).length := by
  have each : ∀ entry ∈ actions.zipIdx, (taken entry.2).length =
      entry.1.removes (crowd.result? entry.2) + entry.1.clears (crowd.result? entry.2) := by
    intro entry member
    have took := books.took entry.2 entry.1 (List.mem_zipIdx_iff_getElem?.mp member)
    exact Action.length_of_took took
  have total : (actions.zipIdx.flatMap fun entry => taken entry.2).length =
      removeCount actions crowd + clearCount actions crowd := by
    rw [List.length_flatMap, List.map_congr_left each, List.sum_map_add, removeCount, clearCount]
  have balance := books.conserved.length_eq
  rw [List.length_append, heldIds_of_holds holds, idsOf, List.length_map, total] at balance
  omega

end Books

/-- Appends, edits, removes and clears of one room, in any order of their reads and
writes, lose no message, double none and take none twice, if the history began
empty and every new message has an id of its own. What is left are the ids that
appends returned, each once, without those that were taken; every id that was taken
was taken once, by a remove that named it or a clear that counted it; and the
numbers agree. -/
theorem entries_are_accounted_for (name : String) (actions : List Action) (store : MemoryStore)
    (schedule : List Nat) (absent : store.version (blobKey name) = .absent)
    (distinct : (actions.flatMap Action.freshIds).Nodup) :
    let start := crowd name actions store
    let final := start.follow schedule
    let appended := appendedIds actions final
    let taken := actions.zipIdx.flatMap fun entry => takenBy name entry.2 start schedule
    ∃ entries : List HistoryEntry,
      Collection.decode (final.store.version (blobKey name)).contentOrEmpty = .ok entries ∧
      (entries.map HistoryEntry.id).Nodup ∧
      appended.Nodup ∧
      taken.Nodup ∧
      (∀ id, id ∈ entries.map HistoryEntry.id ↔ id ∈ appended ∧ id ∉ taken) ∧
      (∀ id ∈ taken, id ∈ appended) ∧
      (∀ index (action : Action), actions[index]? = some action →
        action.Took (final.result? index) (takenBy name index start schedule)) ∧
      entries.length + removeCount actions final + clearCount actions final =
        appended.length := by
  intro start final appended taken
  have books : Books name actions final fun index => takenBy name index start schedule :=
    books_of_schedule name actions schedule absent
  obtain ⟨entries, holds, keyed⟩ := books.held
  have conserved : appended.Perm (entries.map HistoryEntry.id ++ taken) := by
    have whole := books.conserved
    rwa [heldIds_of_holds holds] at whole
  have once : appended.Nodup := books.nodup_appendedIds distinct
  have parts := conserved.nodup_iff.mp once
  obtain ⟨onceLeft, onceTaken, apart⟩ := List.nodup_append.mp parts
  refine ⟨entries, holds, onceLeft, once, onceTaken, ?_, ?_, books.took, books.length_eq holds⟩
  · intro id
    rw [conserved.mem_iff, List.mem_append]
    constructor
    · intro left
      exact ⟨Or.inl left, fun gone => apart id left id gone rfl⟩
    · rintro ⟨left | gone, notGone⟩
      · exact left
      · exact absurd gone notGone
  · intro id gone
    exact conserved.mem_iff.mpr (List.mem_append_right _ gone)

/-- Two messages, and actions that would take both. -/
def contendingActions : List Action :=
  let now := Collection.sampleProfile.createdAt
  [.append now "m-1" "ada" .user "hello", .append now "m-2" "bob" .user "hi", .clear,
    .remove "m-1", .edit "m-2" "bye"]

/-- The second message comes between the read and the write of a clear, which fails;
then the first message is removed while the second one is edited. -/
theorem entries_are_accounted_for_amid_clear :
    let final := (crowd "C1" contendingActions .empty).follow [0, 0, 2, 1, 1, 2, 3, 4, 3, 4]
    appendedIds contendingActions final = ["m-1", "m-2"] ∧
    ∃ entries : List HistoryEntry,
      Collection.decode (final.store.version "history/C1.jsonl").contentOrEmpty = .ok entries ∧
      (entries.map HistoryEntry.id).Nodup ∧
      entries.length + removeCount contendingActions final +
        clearCount contendingActions final = 2 := by
  intro final
  obtain ⟨entries, holds, once, -, -, -, -, -, balance⟩ :=
    entries_are_accounted_for "C1" contendingActions .empty [0, 0, 2, 1, 1, 2, 3, 4, 3, 4] rfl
      (by decide)
  have appended : appendedIds contendingActions final = ["m-1", "m-2"] := by decide +kernel
  rw [appended] at balance
  exact ⟨appended, entries, holds, once, balance⟩

end RoomLedger.Histories
