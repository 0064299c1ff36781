import Mathlib.Data.List.Nodup
import Mathlib.Data.List.Perm.Basic
import RoomLedger.Proofs.Collection.Canonical
import RoomLedger.Proofs.Collection.Committal
import RoomLedger.Store.Crowd
import RoomLedger.Service.Histories

/-!
Contract: what single actions append to the history of a room and take out of it.

Owns:
- `Action`, a call on the history of a room, and what its result says of messages;
- `Action.returnsUnwritten_operation`, by which an action of which no write is taken
  says nothing;
- `Balances`, what was there and what was appended as what is left and what was
  taken;
- `balances_run`, the balance of every action that has the store for itself.

Does not own: actions whose calls mix.
-/

namespace RoomLedger.Histories

open RoomLedger.Collection (IsKeyed Reply Request)
open RoomLedger.Store (MemoryStore Plan)

/-- A call on the history of a room, with what the caller tells. -/
inductive Action where
  | append (now : Time.Timestamp) (freshId author : String) (role : Role) (content : String)
  | edit (id content : String)
  | remove (id : String)
  | clear

namespace Action

/-- The operation of an action on the history of a room. -/
def operation (name : String) : Action → Operation (Reply HistoryEntry)
  | .append now freshId author role content =>
      (Histories.append now freshId name author role content).mapResult .record
  | .edit id content => (Histories.edit name id content).mapResult .record
  | .remove id => (Histories.remove name id).mapResult .record
  | .clear => (Histories.clear name).mapResult .count

/-- The id that was made for the action, if it needs one. -/
def freshIds : Action → List String
  | .append _ freshId _ _ _ => [freshId]
  | _ => []

/-- The id that an append returned. -/
def appended : Action → Option (Except Failure (Reply HistoryEntry)) → List String
  | .append .., some (.ok (.record entry)) => [entry.id]
  | _, _ => []

/-- One for a remove that succeeded. -/
def removes : Action → Option (Except Failure (Reply HistoryEntry)) → Nat
  | .remove _, some (.ok _) => 1
  | _, _ => 0

/-- The number that a clear returned. -/
def clears : Action → Option (Except Failure (Reply HistoryEntry)) → Nat
  | .clear, some (.ok (.count number)) => number
  | _, _ => 0

/-- By its result an action has taken those ids: a remove the one that it named, a
clear as many as it returned, and any other action none. -/
def Took : Action → Option (Except Failure (Reply HistoryEntry)) → List String → Prop
  | .remove id, some (.ok _), ids => ids = [id]
  | .clear, some (.ok (.count number)), ids => ids.length = number
  | _, _, ids => ids = []

theorem length_of_took {action : Action} {result : Option (Except Failure (Reply HistoryEntry))}
    {ids : List String} (took : action.Took result ids) :
    ids.length = action.removes result + action.clears result := by
  unfold Took at took
  unfold removes clears
  split at took
  · rw [took]
    rfl
  · simpa using took
  · rw [took]
    split <;> split <;> simp_all

/-- What an action says that made no change. -/
def SaysNothing (action : Action) (result : Except Failure (Reply HistoryEntry)) : Prop :=
  action.appended (some result) = [] ∧ action.Took (some result) []

private theorem saysNothing_error (action : Action) (failure : Failure) :
    action.SaysNothing (.error failure) := by
  cases action <;> exact ⟨rfl, rfl⟩

private theorem took_none (action : Action) : action.Took none [] := by
  cases action <;> rfl

theorem appended_none (action : Action) : action.appended none = [] := by
  cases action <;> rfl

/-! ## Actions as requests -/

/-- The request of an action to the collection of a room. -/
def request (name : String) : Action → Request HistoryEntry
  | .append now freshId author role content =>
      .create { id := freshId, chatRoomId := name, authorId := author, role, content,
                createdAt := now }
  | .edit id content => .update id content
  | .remove id => .remove id
  | .clear => .removeWhere fun _ => true

variable {name : String} {collection : Collection HistoryEntry}

theorem operation_of_room (found : room name = .ok collection) (action : Action) :
    action.operation name = (action.request name).plan collection := by
  cases action with
  | append now freshId author role content =>
      simp only [operation, Histories.append, found, Operation.after, request, Request.plan]
  | edit id content =>
      simp only [operation, Histories.edit, found, Operation.after, request, Request.plan]
  | remove id =>
      simp only [operation, Histories.remove, found, Operation.after, request, Request.plan]
  | clear =>
      simp only [operation, Histories.clear, found, Operation.after, request, Request.plan]

theorem operation_of_no_room {failure : Failure} (refused : room name = .error failure)
    (action : Action) :
    action.operation name = .done (.error failure) := by
  cases action with
  | append now freshId author role content =>
      simp only [operation, Histories.append, refused, Operation.after]
      rfl
  | edit id content =>
      simp only [operation, Histories.edit, refused, Operation.after]
      rfl
  | remove id =>
      simp only [operation, Histories.remove, refused, Operation.after]
      rfl
  | clear =>
      simp only [operation, Histories.clear, refused, Operation.after]
      rfl

/-- The collection of a room is kept under the room's key. -/
theorem blobKey_of_room (found : room name = .ok collection) :
    collection.blobKey = blobKey name := by
  unfold room at found
  split at found
  · cases found
  · cases named : Collection.ofKey (R := HistoryEntry) (blobKey name) with
    | error failure =>
        rw [named] at found
        cases failure <;> cases found
    | ok other =>
        rw [named] at found
        cases found
        unfold Collection.ofKey at named
        split at named
        · cases named
        · cases named
          rfl

/-- What an action decides without a change says nothing. -/
theorem saysNothing_of_verdict {action : Action} {entries : List HistoryEntry}
    {result : Except Failure (Reply HistoryEntry)}
    (decides : (action.request name).verdict collection entries = .answer result) :
    action.SaysNothing result := by
  cases action with
  | append now freshId author role content =>
      simp only [request, Request.verdict] at decides
      split at decides
      · cases decides
        exact saysNothing_error _ _
      · cases decides
  | edit id content =>
      simp only [request, Request.verdict] at decides
      split at decides
      · cases decides
        exact saysNothing_error _ _
      · cases decides
  | remove id =>
      simp only [request, Request.verdict] at decides
      split at decides
      · cases decides
        exact saysNothing_error _ _
      · cases decides
  | clear =>
      simp only [request, Request.verdict] at decides
      split at decides
      · cases decides
        exact ⟨rfl, rfl⟩
      · cases decides

/-- An action of which no write is taken says nothing. -/
theorem returnsUnwritten_operation (name : String) (action : Action) :
    (action.operation name).ReturnsUnwritten action.SaysNothing := by
  cases found : room name with
  | error failure =>
      rw [operation_of_no_room found]
      exact saysNothing_error action failure
  | ok collection =>
      rw [operation_of_room found]
      exact Request.returnsUnwritten_plan (saysNothing_error action)
        fun _ _ decides => saysNothing_of_verdict decides

/-- An action that is done without a write has said nothing, and one that is not
done has not either. -/
theorem nothing_of_returnsUnwritten {action : Action}
    {plan : Plan (Except Failure (Reply HistoryEntry))}
    (returns : plan.ReturnsUnwritten action.SaysNothing) :
    action.appended plan.result? = [] ∧ action.Took plan.result? [] := by
  cases plan with
  | done result => exact returns
  | read key next => exact ⟨action.appended_none, action.took_none⟩
  | write key contentType content expected next =>
      exact ⟨action.appended_none, action.took_none⟩

end Action

/-! ## One action that has the store for itself -/

/-- The ids of one list that are not in another. -/
def missing (before after : List String) : List String :=
  before.filter fun id => id ∉ after

theorem missing_self (ids : List String) : missing ids ids = [] := by
  rw [missing, List.filter_eq_nil_iff]
  intro id member
  simp [member]

private theorem missing_of_subset {before after : List String} (kept : ∀ id ∈ before, id ∈ after) :
    missing before after = [] := by
  rw [missing, List.filter_eq_nil_iff]
  intro id member
  simp [kept id member]

private theorem missing_nil (ids : List String) : missing ids [] = ids := by
  rw [missing, List.filter_eq_self]
  intro id member
  simp

private theorem missing_filter_ne {ids : List String} {id : String} (distinct : ids.Nodup)
    (member : id ∈ ids) :
    missing ids (ids.filter fun other => other ≠ id) = [id] := by
  have same : ∀ other ∈ ids,
      decide (other ∉ ids.filter fun other => other ≠ id) = decide (other = id) := by
    intro other present
    simp [present]
  rw [missing, List.filter_congr same, List.filter_eq, List.count_eq_one_of_mem distinct member]
  rfl

/-- Distinct ids are those that are left and the one that was taken. -/
theorem perm_filter_ne {ids : List String} {id : String} (distinct : ids.Nodup)
    (member : id ∈ ids) :
    ids.Perm (ids.filter (fun other => other ≠ id) ++ [id]) := by
  have parts := List.filter_append_perm (fun other => decide (other ≠ id)) ids
  have taken : ids.filter (fun other => !decide (other ≠ id)) = [id] := by
    have same : ∀ other ∈ ids, (!decide (other ≠ id)) = decide (other = id) := by
      intro other present
      simp
    rw [List.filter_congr same, List.filter_eq, List.count_eq_one_of_mem distinct member]
    rfl
  rw [taken] at parts
  exact parts.symm

def idsOf (entries : List HistoryEntry) : List String :=
  entries.map HistoryEntry.id

/-- The books of one action: what it appended and what was there is what is left
and what it took. -/
structure Balances (action : Action) (result : Except Failure (Reply HistoryEntry))
    (before after : List HistoryEntry) : Prop where
  keyed : IsKeyed after
  told : (action.appended (some result)).Sublist action.freshIds
  conserved : (idsOf before ++ action.appended (some result)).Perm
    (idsOf after ++ missing (idsOf before) (idsOf after))
  took : action.Took (some result) (missing (idsOf before) (idsOf after))

theorem balances_of_saysNothing {action : Action} {result : Except Failure (Reply HistoryEntry)}
    {entries : List HistoryEntry} (keyed : IsKeyed entries) (nothing : action.SaysNothing result) :
    Balances action result entries entries where
  keyed := keyed
  told := by
    rw [nothing.1]
    exact List.nil_sublist _
  conserved := by rw [nothing.1, missing_self]
  took := by
    rw [missing_self]
    exact nothing.2

/-- The books of one action on top of the books before it. -/
theorem Balances.perm_of_perm {action : Action} {result : Except Failure (Reply HistoryEntry)}
    {before after : List HistoryEntry} (balances : Balances action result before after)
    {appended next already taken : List String}
    (conserved : appended.Perm (idsOf before ++ already))
    (more : next.Perm (appended ++ action.appended (some result)))
    (taking : taken.Perm (already ++ missing (idsOf before) (idsOf after))) :
    next.Perm (idsOf after ++ taken) := by
  calc
    next
    _ |>.Perm (appended ++ action.appended (some result)) := more
    _ |>.Perm ((idsOf before ++ already) ++ action.appended (some result)) :=
      conserved.append_right _
    _ |>.Perm ((idsOf before ++ action.appended (some result)) ++ already) := by
      rw [List.append_assoc, List.append_assoc]
      exact List.perm_append_comm.append_left _
    _ |>.Perm ((idsOf after ++ missing (idsOf before) (idsOf after)) ++ already) :=
      balances.conserved.append_right _
    _ |>.Perm (idsOf after ++ (already ++ missing (idsOf before) (idsOf after))) := by
      rw [List.append_assoc]
      exact List.perm_append_comm.append_left _
    _ |>.Perm (idsOf after ++ taken) := taking.symm.append_left _

/-! ### Changes that are written -/

section Changes

variable {entries changed : List HistoryEntry} {id : String}

private theorem balances_append {now : Time.Timestamp} {author content : String} {role : Role}
    {entry : HistoryEntry} (keyedAfter : IsKeyed (entries ++ [entry])) (named : entry.id = id) :
    Balances (.append now id author role content) (.ok (.record entry)) entries
      (entries ++ [entry]) := by
  have none : missing (idsOf entries) (idsOf (entries ++ [entry])) = [] := by
    apply missing_of_subset
    intro other member
    rw [idsOf, List.map_append]
    exact List.mem_append_left _ member
  subst named
  constructor
  case keyed => exact keyedAfter
  case told => exact List.Sublist.refl _
  case conserved =>
    rw [none, List.append_nil, idsOf, idsOf, List.map_append]
    rfl
  case took =>
    rw [none]
    rfl

private theorem balances_edit {content : String} {reply : Reply HistoryEntry}
    (keyedAfter : IsKeyed changed) (same : idsOf changed = idsOf entries) :
    Balances (.edit id content) (.ok reply) entries changed := by
  constructor
  case keyed => exact keyedAfter
  case told => exact List.nil_sublist _
  case conserved =>
    rw [same, missing_self]
    rfl
  case took =>
    rw [same, missing_self]
    rfl

private theorem balances_remove {reply : Reply HistoryEntry} (distinct : (idsOf entries).Nodup)
    (member : id ∈ idsOf entries) (keyedAfter : IsKeyed changed)
    (left : idsOf changed = (idsOf entries).filter fun other => other ≠ id) :
    Balances (.remove id) (.ok reply) entries changed := by
  constructor
  case keyed => exact keyedAfter
  case told => exact List.nil_sublist _
  case conserved =>
    rw [left, missing_filter_ne distinct member]
    simpa only [Action.appended, List.append_nil] using perm_filter_ne distinct member
  case took =>
    rw [left, missing_filter_ne distinct member]
    rfl

private theorem balances_clear (entries : List HistoryEntry) :
    Balances .clear (.ok (.count entries.length)) entries [] := by
  have whole : missing (idsOf entries) (idsOf []) = idsOf entries := missing_nil _
  constructor
  case keyed => exact IsKeyed.nil
  case told => exact List.nil_sublist _
  case conserved =>
    have appended : Action.clear.appended (some (.ok (.count entries.length))) = [] := rfl
    rw [whole, appended, List.append_nil]
    exact List.Perm.refl _
  case took =>
    rw [whole]
    exact List.length_map _

end Changes

variable {name : String} {collection : Collection HistoryEntry}

/-- The books balance for a change that is written. -/
theorem balances_of_verdict {action : Action} {entries changed : List HistoryEntry}
    {recordKey : String} {reply : Reply HistoryEntry} (keyed : IsKeyed entries)
    (passed : (action.request name).precheck = .ok ())
    (decides : (action.request name).verdict collection entries =
      .change changed recordKey reply) :
    Balances action (.ok reply) entries changed := by
  have keyedAfter := Request.keyed_of_verdict keyed passed decides
  cases action with
  | append now freshId author role content =>
      simp only [Action.request, Request.verdict] at decides
      split at decides
      · cases decides
      · cases decides
        exact balances_append keyedAfter rfl
  | edit id content =>
      simp only [Action.request, Request.verdict] at decides
      cases found : Collection.find? id entries with
      | none =>
          rw [Collection.amendIn_eq_none found] at decides
          cases decides
      | some entry =>
          obtain ⟨amended, equation, inPlace⟩ := Collection.amendIn_eq_some content found
          rw [equation] at decides
          cases decides
          exact balances_edit keyedAfter (Collection.keys_eq_of_putEntry found inPlace)
  | remove id =>
      simp only [Action.request, Request.verdict] at decides
      cases found : Collection.find? id entries with
      | none =>
          rw [Collection.removeFrom_eq_none found] at decides
          cases decides
      | some entry =>
          have member : id ∈ idsOf entries := by
            apply Classical.byContradiction
            intro absent
            rw [(Collection.find?_eq_none_iff id entries).mpr absent] at found
            cases found
          have left : idsOf (entries.filter fun other => Record.key other ≠ id) =
              (idsOf entries).filter fun other => other ≠ id := by
            rw [idsOf, idsOf, List.filter_map]
            rfl
          rw [Collection.removeFrom_eq_some keyed.distinct found] at decides
          cases decides
          exact balances_remove keyed.distinct member keyedAfter left
  | clear =>
      have nothing : (entries.filter fun _ => !true) = [] :=
        List.filter_eq_nil_iff.mpr (by simp)
      simp only [Action.request, Request.verdict, nothing, List.length_nil, Nat.sub_zero] at decides
      split at decides
      · cases decides
      · cases decides
        exact balances_clear entries

/-- What the history of a room holds. -/
def Holds (name : String) (store : MemoryStore) (entries : List HistoryEntry) : Prop :=
  Collection.decode (store.version (blobKey name)).contentOrEmpty = .ok entries

/-- The books balance for an action that has the store for itself. -/
theorem balances_run (found : room name = .ok collection) {store : MemoryStore}
    {entries : List HistoryEntry} (keyed : IsKeyed entries) (holds : Holds name store entries)
    (action : Action) :
    ∃ left,
      Holds name ((action.operation name).run store).2 left ∧
      Balances action ((action.operation name).run store).1 entries left := by
  have sameKey := Action.blobKey_of_room found
  rw [Action.operation_of_room found]
  cases passed : (action.request name).precheck with
  | error failure =>
      rw [Request.run_plan_of_precheck passed]
      exact ⟨entries, holds, balances_of_saysNothing keyed (action.saysNothing_error failure)⟩
  | ok done =>
      rw [Holds, ← sameKey] at holds
      rw [Request.run_plan_of_decode passed holds]
      cases decides : (action.request name).verdict collection entries with
      | answer result =>
          refine ⟨entries, ?_, balances_of_saysNothing keyed ?_⟩
          · rw [Holds, ← sameKey]
            exact holds
          · exact Action.saysNothing_of_verdict decides
      | change changed recordKey reply =>
          simp only [Request.carryOut, Collection.commit, Plan.run]
          rcases MemoryStore.write_cases collection.isKey store Collection.contentType
              (Collection.encode changed) (store.version collection.blobKey).generation with
            ⟨following, -, -, answer⟩ | ⟨error, answer, -⟩
          · rw [answer]
            refine ⟨changed, ?_, balances_of_verdict keyed passed decides⟩
            rw [Holds, ← sameKey, MemoryStore.version_after_self]
            exact Collection.decode_encode changed
          · rw [answer]
            refine ⟨entries, ?_, balances_of_saysNothing keyed ?_⟩
            · rw [Holds, ← sameKey]
              exact holds
            · simp only [Collection.settle]
              split
              · exact action.saysNothing_error _
              · exact action.saysNothing_error _

end RoomLedger.Histories
