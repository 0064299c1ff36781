import RoomLedger.Proofs.Collection.Changes
import RoomLedger.Proofs.Collection.Committal
import RoomLedger.Proofs.Collection.RoundTrip
import RoomLedger.Service.Groups

/-!
Contract: what joining, renaming and leaving make of the members that are stored.

Owns:
- `GroupMember.check_eq_ok_iff`, what a new member must satisfy, and
  `GroupMember.membershipKey_injective`, by which no two memberships have one key;
- `Action`, a call that changes a membership, and `Action.run_cases`, what it does alone;
- `lastTaken?`, the last action on a membership that succeeded;
- `AreNamed`, by which every member has the nickname that this action gave and no member
  is missing, and `AreNamed.change`, by which every change keeps it so;
- `members_pass_check_iff`, for every sequence of actions;
- a member whose nickname no join would have taken.

Rooms and users are checked by every action. A nickname is checked when a user joins and
not when it is changed.

Does not own: actions whose calls mix.
-/

namespace RoomLedger

/-! ## The check of a new member -/

namespace GroupMember

/-- A name that may be a part of the key of a membership. -/
structure IsKeyPart (name : String) : Prop where
  named : Text.blank name = false
  whole : '/' ∉ name.toList

theorem requireKeyPart_eq_ok_iff {field name : String} :
    Record.requireKeyPart field name = .ok () ↔ IsKeyPart name := by
  have named : Record.require field name = .ok () ↔ Text.blank name = false :=
    Record.require_eq_ok_iff
  rw [Record.requireKeyPart]
  cases required : Record.require field name with
  | error flaw =>
      constructor
      · intro impossible
        cases impossible
      · intro isPart
        rw [named.mpr isPart.named] at required
        cases required
  | ok done =>
      by_cases slash : '/' ∈ name.toList
      · simp only [List.contains_iff_mem, slash, if_true]
        constructor
        · intro impossible
          cases impossible
        · intro isPart
          exact absurd slash isPart.whole
      · simp only [List.contains_iff_mem, slash, if_false, true_iff]
        exact ⟨named.mp required, slash⟩

theorem check_eq_ok_iff (member : GroupMember) :
    member.check = .ok () ↔
      IsKeyPart member.chatRoomId ∧ IsKeyPart member.userId ∧
        Text.blank member.nickname = false := by
  have room : Record.requireKeyPart "chat_room_id" member.chatRoomId = .ok () ↔
      IsKeyPart member.chatRoomId := requireKeyPart_eq_ok_iff
  have user : Record.requireKeyPart "user_id" member.userId = .ok () ↔
      IsKeyPart member.userId := requireKeyPart_eq_ok_iff
  rw [← room, ← user]
  unfold GroupMember.check
  cases Record.requireKeyPart "chat_room_id" member.chatRoomId with
  | error flaw => simp [bind, Except.bind]
  | ok roomPart =>
      cases Record.requireKeyPart "user_id" member.userId with
      | error flaw => simp [bind, Except.bind]
      | ok userPart => simp [bind, Except.bind]

/-- The room and the user of a member. -/
def membership (member : GroupMember) : String × String :=
  (member.chatRoomId, member.userId)

/-- A key without another slash is the key of one membership. -/
theorem membershipKey_injective {room user otherRoom otherUser : String} (roomPart : IsKeyPart room)
    (userPart : IsKeyPart user)
    (same : membershipKey otherRoom otherUser = membershipKey room user) :
    (otherRoom, otherUser) = (room, user) := by
  have spelled : room.toList ++ '/' :: user.toList =
      otherRoom.toList ++ '/' :: otherUser.toList := by
    have characters := congrArg String.toList same.symm
    simpa [membershipKey] using characters
  obtain ⟨rooms, -, users⟩ :=
    (List.append_cons_inj_of_notMem roomPart.whole userPart.whole).mp spelled
  rw [String.toList_inj.mp rooms, String.toList_inj.mp users]

private theorem key_eq_of_membership_eq {member other : GroupMember}
    (same : member.membership = other.membership) :
    Record.key member = Record.key other := by
  obtain ⟨rooms, users⟩ := Prod.mk.inj same
  show membershipKey member.chatRoomId member.userId = membershipKey other.chatRoomId other.userId
  rw [rooms, users]

end GroupMember

namespace Groups

open RoomLedger.Collection (IsKeyed Reply Request contentType)
open RoomLedger.GroupMember (IsKeyPart membershipKey)
open RoomLedger.Store (MemoryStore Plan)

/-- Only parts make a key. -/
theorem parts_of_memberKey {room user key : String} (accepted : memberKey room user = .ok key) :
    IsKeyPart room ∧ IsKeyPart user ∧ key = membershipKey room user := by
  unfold memberKey requirePart at accepted
  cases roomChecked : Record.requireKeyPart "chat_room_id" room with
  | error flaw =>
      rw [roomChecked] at accepted
      cases accepted
  | ok roomPart =>
      cases userChecked : Record.requireKeyPart "user_id" user with
      | error flaw =>
          rw [roomChecked, userChecked] at accepted
          cases accepted
      | ok userPart =>
          rw [roomChecked, userChecked] at accepted
          cases accepted
          exact ⟨GroupMember.requireKeyPart_eq_ok_iff.mp roomChecked,
            GroupMember.requireKeyPart_eq_ok_iff.mp userChecked, rfl⟩

/-! ## Actions -/

/-- A call that changes a membership, with the time that the caller tells. -/
inductive Action where
  | join (now : Time.Timestamp) (room user nickname : String) (role : MemberRole)
  | rename (room user nickname : String)
  | leave (room user : String)
deriving DecidableEq

namespace Action

def operation : Action → Operation (Reply GroupMember)
  | .join now room user nickname role =>
      (Groups.join now room user nickname role).mapResult .record
  | .rename room user nickname => (Groups.rename room user nickname).mapResult .record
  | .leave room user => (Groups.leave room user).mapResult .record

/-- The room and the user that an action is about. -/
def membership : Action → String × String
  | .join _ room user _ _ | .rename room user _ | .leave room user => (room, user)

/-- The nickname that an action gives. -/
def nickname? : Action → Option String
  | .join _ _ _ nickname _ | .rename _ _ nickname => some nickname
  | .leave _ _ => none

/-- The request of an action, unless it is about names that make no key. -/
def request : Action → Except Failure (Request GroupMember)
  | .join now room user nickname role =>
      .ok (.create { chatRoomId := room, userId := user, nickname, role, joinedAt := now })
  | .rename room user nickname => (memberKey room user).map fun key => .update key nickname
  | .leave room user => (memberKey room user).map fun key => .remove key

variable {action : Action} {request : Request GroupMember}

private theorem parts_of_request {room user : String} {ask : String → Request GroupMember}
    (isRequest : (memberKey room user).map ask = .ok request) :
    IsKeyPart room ∧ IsKeyPart user ∧ request = ask (membershipKey room user) := by
  cases accepted : memberKey room user with
  | error failure =>
      rw [accepted] at isRequest
      cases isRequest
  | ok key =>
      rw [accepted] at isRequest
      cases isRequest
      obtain ⟨roomPart, userPart, rfl⟩ := parts_of_memberKey accepted
      exact ⟨roomPart, userPart, rfl⟩

theorem request_rename {room user nickname : String}
    (isRequest : (rename room user nickname).request = .ok request) :
    IsKeyPart room ∧ IsKeyPart user ∧ request = .update (membershipKey room user) nickname :=
  parts_of_request isRequest

theorem request_leave {room user : String} (isRequest : (leave room user).request = .ok request) :
    IsKeyPart room ∧ IsKeyPart user ∧ request = .remove (membershipKey room user) :=
  parts_of_request isRequest

private theorem isChange_of_request (isRequest : action.request = .ok request) :
    request.isChange = true := by
  cases action with
  | join now room user nickname role =>
      cases isRequest
      rfl
  | rename room user nickname =>
      obtain ⟨-, -, rfl⟩ := request_rename isRequest
      rfl
  | leave room user =>
      obtain ⟨-, -, rfl⟩ := request_leave isRequest
      rfl

private theorem operation_eq (action : Action) :
    action.operation = Operation.after action.request fun request => request.plan collection := by
  cases action with
  | join now room user nickname role => rfl
  | rename room user nickname =>
      rw [operation, Groups.rename, Operation.mapResult_after, Action.request]
      cases memberKey room user with
      | error failure => rfl
      | ok key => rfl
  | leave room user =>
      rw [operation, Groups.leave, Operation.mapResult_after, Action.request]
      cases memberKey room user with
      | error failure => rfl
      | ok key => rfl

/-- An action that has the store for itself fails and leaves the store as it is, or makes
the change of its request and succeeds. -/
theorem run_cases {store : MemoryStore} {members : List GroupMember}
    (holds : Collection.decode (store.version collection.blobKey).contentOrEmpty = .ok members)
    (action : Action) :
    (∃ failure, action.operation.run store = (.error failure, store)) ∨
    ∃ request changed reply following,
      action.request = .ok request ∧
      request.precheck = .ok () ∧
      request.Changes members changed reply ∧
      action.operation.run store =
        (.ok reply,
          store.after collection.blobKey ⟨Collection.encode changed, contentType, following⟩) := by
  rw [operation_eq]
  cases isRequest : action.request with
  | error failure => exact Or.inl ⟨failure, rfl⟩
  | ok request =>
      rcases request.run_plan_outcome holds with
        ⟨result, unchanged, run⟩ | ⟨changed, reply, following, passed, changes, run⟩
      · left
        have fails : IsFailure result := by
          rcases unchanged with failed | decides
          · exact failed
          · exact Request.isFailure_of_verdict (isChange_of_request isRequest) decides
        obtain ⟨failure, rfl⟩ := fails
        exact ⟨failure, run⟩
      · exact Or.inr ⟨request, changed, reply, following, rfl, passed, changes, run⟩

end Action

/-! ## Actions in a row -/

/-- Actions with what they returned. -/
abbrev Log : Type := List (Action × Except Failure (Reply GroupMember))

/-- The last action on a membership that succeeded. -/
def lastTaken? (log : Log) (membership : String × String) : Option Action :=
  (log.filter fun (action, result) =>
    result.isOk && action.membership = membership).getLast?.map Prod.fst

variable {log : Log} {action : Action}

private theorem lastTaken?_concat_of_error (log : Log) (action : Action) (failure : Failure)
    (membership : String × String) :
    lastTaken? (log ++ [(action, .error failure)]) membership = lastTaken? log membership := by
  simp [lastTaken?, Except.isOk, Except.toBool]

private theorem lastTaken?_concat_of_ok (log : Log) (action : Action) (reply : Reply GroupMember) :
    lastTaken? (log ++ [(action, .ok reply)]) action.membership = some action := by
  simp [lastTaken?, Except.isOk, Except.toBool]

private theorem lastTaken?_concat_of_ne {membership : String × String}
    (apart : membership ≠ action.membership) (log : Log)
    (result : Except Failure (Reply GroupMember)) :
    lastTaken? (log ++ [(action, result)]) membership = lastTaken? log membership := by
  simp [lastTaken?, apart.symm]

private theorem mem_of_lastTaken? {actions : List Action}
    {results : List (Except Failure (Reply GroupMember))} {membership : String × String}
    (isLast : lastTaken? (actions.zip results) membership = some action) :
    action ∈ actions := by
  obtain ⟨entry, last, rfl⟩ := Option.map_eq_some_iff.mp isLast
  have member := (List.mem_filter.mp (List.mem_of_getLast? last)).1
  exact (List.of_mem_zip member).1

/-! ## Members and their nicknames -/

/-- A member as an action has made it. One who joins has passed the check. -/
inductive Names : Action → GroupMember → Prop
  | join (member : GroupMember) (passed : member.check = .ok ()) :
      Names
        (.join member.joinedAt member.chatRoomId member.userId member.nickname member.role)
        member
  | rename (member : GroupMember) :
      Names (.rename member.chatRoomId member.userId member.nickname) member

private theorem Names.nickname?_eq {member : GroupMember} (names : Names action member) :
    action.nickname? = some member.nickname := by
  cases names with
  | join _ passed => rfl
  | rename _ => rfl

/-- The last action on a member's membership that succeeded has given the nickname. -/
def IsNamed (log : Log) (member : GroupMember) : Prop :=
  ∃ action, lastTaken? log member.membership = some action ∧ Names action member

/-- Every member is named by the last action on the membership, and every membership is
there of which that action was not a leave. -/
structure AreNamed (log : Log) (members : List GroupMember) : Prop where
  keyed : IsKeyed members
  parts : ∀ member ∈ members, IsKeyPart member.chatRoomId ∧ IsKeyPart member.userId
  named : ∀ member ∈ members, IsNamed log member
  kept : ∀ membership action nickname, lastTaken? log membership = some action →
    action.nickname? = some nickname → membership ∈ members.map GroupMember.membership

namespace AreNamed

private theorem start : AreNamed [] [] where
  keyed := IsKeyed.nil
  parts := by
    intro member present
    cases present
  named := by
    intro member present
    cases present
  kept := by
    intro membership action nickname isLast
    cases isLast

variable {members changed : List GroupMember} {reply : Reply GroupMember}

private theorem fail (areNamed : AreNamed log members) (action : Action) (failure : Failure) :
    AreNamed (log ++ [(action, .error failure)]) members where
  keyed := areNamed.keyed
  parts := areNamed.parts
  named := by
    intro member present
    obtain ⟨last, isLast, names⟩ := areNamed.named member present
    refine ⟨last, ?_, names⟩
    rw [lastTaken?_concat_of_error]
    exact isLast
  kept := by
    intro membership last nickname isLast gives
    rw [lastTaken?_concat_of_error] at isLast
    exact areNamed.kept membership last nickname isLast gives

/-- Whoever an action is not about keeps the nickname. -/
theorem named_of_apart {member : GroupMember} (named : IsNamed log member)
    (apart : member.membership ≠ action.membership) (result : Except Failure (Reply GroupMember)) :
    IsNamed (log ++ [(action, result)]) member := by
  obtain ⟨last, isLast, names⟩ := named
  refine ⟨last, ?_, names⟩
  rw [lastTaken?_concat_of_ne apart]
  exact isLast

/-- Apart from the member that an action is about all keep their nicknames. -/
theorem others {before later : List GroupMember} {found : GroupMember}
    (areNamed : AreNamed log (before ++ found :: later))
    (own : found.membership = action.membership) (result : Except Failure (Reply GroupMember)) :
    ∀ member ∈ before ++ later,
      IsKeyPart member.chatRoomId ∧ IsKeyPart member.userId ∧
        IsNamed (log ++ [(action, result)]) member := by
  intro member other
  have present : member ∈ before ++ found :: later :=
    ((List.sublist_cons_self found later).append_left before).subset other
  obtain ⟨roomPart, userPart⟩ := areNamed.parts member present
  refine ⟨roomPart, userPart, named_of_apart (areNamed.named member present) ?_ result⟩
  intro same
  apply Collection.key_not_mem_others areNamed.keyed.distinct
  have sameKey := GroupMember.key_eq_of_membership_eq (same.trans own.symm)
  exact List.mem_map.mpr ⟨member, other, sameKey⟩

private theorem join {now : Time.Timestamp} {room user nickname : String} {role : MemberRole}
    {request : Request GroupMember} (areNamed : AreNamed log members)
    (isRequest : (Action.join now room user nickname role).request = .ok request)
    (passed : request.precheck = .ok ()) (changes : request.Changes members changed reply) :
    AreNamed (log ++ [(.join now room user nickname role, .ok reply)]) changed := by
  have keyed := changes.isKeyed areNamed.keyed passed
  cases isRequest
  have checked := (Request.sound_of_precheck passed).2
  cases changes with
  | create member _ isNew =>
      constructor
      case keyed => exact keyed
      case parts =>
        intro member present
        rcases List.mem_append.mp present with earlier | last
        · exact areNamed.parts member earlier
        · obtain ⟨roomPart, userPart, -⟩ := (GroupMember.check_eq_ok_iff _).mp checked
          rw [List.mem_singleton.mp last]
          exact ⟨roomPart, userPart⟩
      case named =>
        intro member present
        rcases List.mem_append.mp present with earlier | last
        · refine named_of_apart (areNamed.named member earlier) ?_ _
          intro same
          apply isNew
          exact List.mem_map.mpr ⟨member, earlier, GroupMember.key_eq_of_membership_eq same⟩
        · rw [List.mem_singleton.mp last]
          exact ⟨_, lastTaken?_concat_of_ok log _ _, Names.join _ checked⟩
      case kept =>
        intro membership last given isLast gives
        rw [List.map_append]
        by_cases own : membership = (room, user)
        · rw [own]
          exact List.mem_append_right _ (List.mem_singleton.mpr rfl)
        · rw [lastTaken?_concat_of_ne own] at isLast
          exact List.mem_append_left _ (areNamed.kept membership last given isLast gives)

private theorem rename {room user nickname : String} {request : Request GroupMember}
    (areNamed : AreNamed log members)
    (isRequest : (Action.rename room user nickname).request = .ok request)
    (passed : request.precheck = .ok ()) (changes : request.Changes members changed reply) :
    AreNamed (log ++ [(.rename room user nickname, .ok reply)]) changed := by
  have keyed := changes.isKeyed areNamed.keyed passed
  obtain ⟨roomPart, userPart, rfl⟩ := Action.request_rename isRequest
  cases changes with
  | update _ _ before found later isFirst isKeyed =>
      have own : found.membership = (Action.rename room user nickname).membership :=
        GroupMember.membershipKey_injective roomPart userPart isKeyed
      have others := areNamed.others own (.ok (.record (Record.amend nickname found)))
      have cases_mem : ∀ member ∈ before ++ Record.amend nickname found :: later,
          member = Record.amend nickname found ∨ member ∈ before ++ later := by
        intro member present
        simp only [List.mem_append, List.mem_cons] at present ⊢
        tauto
      constructor
      case keyed => exact keyed
      case parts =>
        intro member present
        rcases cases_mem member present with rfl | other
        · exact areNamed.parts found (by simp)
        · obtain ⟨room, user, -⟩ := others member other
          exact ⟨room, user⟩
      case named =>
        obtain ⟨rfl, rfl⟩ := Prod.mk.inj own
        intro member present
        rcases cases_mem member present with rfl | other
        · exact ⟨.rename found.chatRoomId found.userId nickname,
            lastTaken?_concat_of_ok log _ _, Names.rename { found with nickname }⟩
        · exact (others member other).2.2
      case kept =>
        have same : (before ++ Record.amend nickname found :: later).map GroupMember.membership =
            (before ++ found :: later).map GroupMember.membership := by
          rw [List.map_append, List.map_append]
          rfl
        intro membership last given isLast gives
        rw [same]
        by_cases isOwn : membership = (Action.rename room user nickname).membership
        · rw [isOwn, ← own]
          exact List.mem_map.mpr ⟨found, by simp, rfl⟩
        · rw [lastTaken?_concat_of_ne isOwn] at isLast
          exact areNamed.kept membership last given isLast gives

private theorem leave {room user : String} {request : Request GroupMember}
    (areNamed : AreNamed log members) (isRequest : (Action.leave room user).request = .ok request)
    (passed : request.precheck = .ok ()) (changes : request.Changes members changed reply) :
    AreNamed (log ++ [(.leave room user, .ok reply)]) changed := by
  have keyed := changes.isKeyed areNamed.keyed passed
  obtain ⟨roomPart, userPart, rfl⟩ := Action.request_leave isRequest
  cases changes with
  | remove _ before found later isFirst isKeyed =>
      have own : found.membership = (Action.leave room user).membership :=
        GroupMember.membershipKey_injective roomPart userPart isKeyed
      have others := areNamed.others own (.ok (.record found))
      constructor
      case keyed => exact keyed
      case parts =>
        intro member other
        obtain ⟨room, user, -⟩ := others member other
        exact ⟨room, user⟩
      case named => exact fun member other => (others member other).2.2
      case kept =>
        intro membership last given isLast gives
        by_cases isOwn : membership = (Action.leave room user).membership
        · -- The last action on this membership is the leave, which gives no nickname.
          rw [isOwn, lastTaken?_concat_of_ok] at isLast
          cases isLast
          cases gives
        · rw [lastTaken?_concat_of_ne isOwn] at isLast
          have present := areNamed.kept membership last given isLast gives
          rw [List.map_append, List.map_cons] at present
          rw [List.map_append]
          rcases List.mem_append.mp present with earlier | here
          · exact List.mem_append_left _ earlier
          · rcases List.mem_cons.mp here with isFound | after
            · exact absurd (isFound.trans own) isOwn
            · exact List.mem_append_right _ after

/-- The change of an action keeps every member named. -/
theorem change {request : Request GroupMember} (areNamed : AreNamed log members)
    (isRequest : action.request = .ok request) (passed : request.precheck = .ok ())
    (changes : request.Changes members changed reply) :
    AreNamed (log ++ [(action, .ok reply)]) changed := by
  cases action with
  | join now room user nickname role => exact areNamed.join isRequest passed changes
  | rename room user nickname => exact areNamed.rename isRequest passed changes
  | leave room user => exact areNamed.leave isRequest passed changes

/-- Where there was no blob, the members are named after any actions one after another. -/
theorem run {store : MemoryStore} (absent : store.version collection.blobKey = .absent)
    (actions : List Action) :
    ∃ members : List GroupMember,
      Collection.decode
        ((Plan.runAll (actions.map Action.operation) store).2.version
          collection.blobKey).contentOrEmpty = .ok members ∧
      AreNamed (actions.zip (Plan.runAll (actions.map Action.operation) store).1) members := by
  induction actions using List.reverseRecOn with
  | nil =>
      refine ⟨[], ?_, start⟩
      show Collection.decode (store.version collection.blobKey).contentOrEmpty = .ok []
      rw [absent]
      exact Collection.decode_nil
  | append_singleton actions action inductionHypothesis =>
      obtain ⟨members, holds, areNamed⟩ := inductionHypothesis
      have lengths : actions.length =
          (Plan.runAll (actions.map Action.operation) store).1.length := by
        rw [Plan.length_runAll, List.length_map]
      rw [List.map_append, List.map_singleton, Plan.runAll_append]
      simp only [Plan.runAll, List.zip_append lengths]
      rcases action.run_cases holds with
        ⟨failure, run⟩ | ⟨request, changed, reply, following, isRequest, passed, changes, run⟩
      · rw [run]
        exact ⟨members, holds, areNamed.fail action failure⟩
      · rw [run]
        refine ⟨changed, ?_, areNamed.change isRequest passed changes⟩
        rw [MemoryStore.version_after_self]
        exact Collection.decode_encode changed

/-- All members pass the check of those who join, unless the last action on a membership
was a rename to white space. -/
theorem check_iff (areNamed : AreNamed log members) :
    (∀ member ∈ members, member.check = .ok ()) ↔
      ∀ room user nickname,
        lastTaken? log (room, user) = some (.rename room user nickname) →
        Text.blank nickname = false := by
  constructor
  · intro sound room user nickname isLast
    obtain ⟨member, present, about⟩ :=
      List.mem_map.mp (areNamed.kept (room, user) _ nickname isLast rfl)
    obtain ⟨action, isAction, names⟩ := areNamed.named member present
    rw [about, isLast] at isAction
    cases isAction
    have same : member.nickname = nickname := Option.some.inj names.nickname?_eq.symm
    rw [← same]
    exact ((GroupMember.check_eq_ok_iff member).mp (sound member present)).2.2
  · intro visible member present
    obtain ⟨action, isLast, names⟩ := areNamed.named member present
    cases names with
    | join _ passed => exact passed
    | rename _ =>
        obtain ⟨roomPart, userPart⟩ := areNamed.parts member present
        exact (GroupMember.check_eq_ok_iff member).mpr
          ⟨roomPart, userPart, visible _ _ _ isLast⟩

end AreNamed

/-- Whatever users join, change and leave where no group blob was, the rooms and the users of
all members that are stored are named and hold no slash, and each member has the nickname
that the last successful action on the membership gave. All of them pass the check of those
who join exactly if none of these actions was a rename to white space. -/
theorem members_pass_check_iff (actions : List Action) (store : MemoryStore)
    (absent : store.version "groupsim.jsonl" = .absent) :
    let results := (Plan.runAll (actions.map Action.operation) store).1
    let final := (Plan.runAll (actions.map Action.operation) store).2
    let log := actions.zip results
    ∃ members : List GroupMember,
      Collection.decode (final.version "groupsim.jsonl").contentOrEmpty = .ok members ∧
      (members.map GroupMember.membership).Nodup ∧
      (∀ member ∈ members,
        Text.blank member.chatRoomId = false ∧ '/' ∉ member.chatRoomId.toList ∧
        Text.blank member.userId = false ∧ '/' ∉ member.userId.toList ∧
        ∃ action,
          lastTaken? log (member.chatRoomId, member.userId) = some action ∧
          action.nickname? = some member.nickname) ∧
      ((∀ member ∈ members, member.check = .ok ()) ↔
        ∀ room user nickname,
          lastTaken? log (room, user) = some (.rename room user nickname) →
          Text.blank nickname = false) := by
  intro results final log
  obtain ⟨members, holds, areNamed⟩ := AreNamed.run absent actions
  refine ⟨members, holds, ?_, ?_, areNamed.check_iff⟩
  · have keys : members.map Record.key =
        (members.map GroupMember.membership).map fun (room, user) => membershipKey room user := by
      rw [List.map_map]
      rfl
    have distinct := areNamed.keyed.distinct
    rw [keys] at distinct
    exact distinct.of_map _
  · intro member present
    obtain ⟨roomPart, userPart⟩ := areNamed.parts member present
    obtain ⟨action, isLast, names⟩ := areNamed.named member present
    exact ⟨roomPart.named, roomPart.whole, userPart.named, userPart.whole, action, isLast,
      names.nickname?_eq⟩

/-- A user who goes by white space for a while, and another one who leaves. -/
def renamingActions : List Action :=
  let now := Collection.sampleProfile.createdAt
  [.join now "C1" "U1" "Aiko" .member, .join now "C1" "U2" "Bo" .admin,
    .rename "C1" "U1" "  ", .rename "C1" "U2" "", .rename "C1" "U1" "Ai", .leave "C1" "U2"]

/-- Neither of the nicknames that hold nothing is left. -/
theorem members_pass_check_iff_after_renames :
    let final := (Plan.runAll (renamingActions.map Action.operation) MemoryStore.empty).2
    ∃ members : List GroupMember,
      Collection.decode (final.version "groupsim.jsonl").contentOrEmpty = .ok members ∧
      members.map GroupMember.nickname = ["Ai"] ∧
      ∀ member ∈ members, member.check = .ok () := by
  intro final
  obtain ⟨members, holds, -, -, passIff⟩ := members_pass_check_iff renamingActions .empty rfl
  have named : (Collection.decode (R := GroupMember)
      (final.version "groupsim.jsonl").contentOrEmpty).toOption.map
        (List.map GroupMember.nickname) = some ["Ai"] := by
    decide +kernel
  rw [holds] at named
  refine ⟨members, holds, Option.some.inj named, passIff.mpr ?_⟩
  intro room user nickname isLast
  have among := mem_of_lastTaken? isLast
  simp only [renamingActions, List.mem_cons, reduceCtorEq, Action.rename.injEq, false_or,
    List.not_mem_nil, or_false] at among
  rcases among with ⟨rfl, rfl, rfl⟩ | ⟨rfl, rfl, rfl⟩ | ⟨-, -, rfl⟩
  · exact absurd isLast (by decide +kernel)
  · exact absurd isLast (by decide +kernel)
  · decide +kernel

/-- A user joins and goes by white space then, by which nobody could join. -/
theorem renamed_member_has_no_name :
    let now := Collection.sampleProfile.createdAt
    let actions : List Action := [.join now "C1" "U1" "Aiko" .member, .rename "C1" "U1" "  "]
    let final := (Plan.runAll (actions.map Action.operation) MemoryStore.empty).2
    MemoryStore.empty.version "groupsim.jsonl" = .absent ∧
    (((Action.join now "C1" "U1" "  " .member).operation.run MemoryStore.empty).1 =
      .error (.invalid "C1/U1" (.flaw (.blank "nickname")))) ∧
    ∃ member : GroupMember,
      Collection.decode (final.version "groupsim.jsonl").contentOrEmpty = .ok [member] ∧
      member.nickname = "  " ∧
      member.check = .error (.blank "nickname") := by
  intro now actions final
  refine ⟨rfl, ?_, ⟨"C1", "U1", "  ", .member, now⟩, ?_, rfl, ?_⟩
  · decide +kernel
  · decide +kernel
  · decide +kernel

end Groups

end RoomLedger
