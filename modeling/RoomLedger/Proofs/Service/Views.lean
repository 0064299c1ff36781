import RoomLedger.Proofs.Collection.Effects
import RoomLedger.Proofs.Collection.Ordering
import RoomLedger.Proofs.Service.Memberships

/-!
Contract: three ways to ask for a membership.

Owns:
- `requirePart_of_part` and `requirePart_of_not_part`, what the check of a name answers;
- `lookup`, what the request for one member returns by the members that are stored;
- `filter_membership`, by which the members of one room and one user are those that the
  request for one member finds;
- `Action.lookup_changed`, by which an action changes no other membership;
- `views_of_membership_agree`, for every sequence of actions.

One request looks for the key, with a slash between the room and the user, and the two others
compare the names. They agree because no name that is stored holds a slash, and no two members
have one key.

Does not own: who is a member.
-/

namespace RoomLedger.Groups

open RoomLedger.Collection (Change IsKeyed Request find?)
open RoomLedger.GroupMember (IsKeyPart membershipKey)
open RoomLedger.Store (MemoryStore Plan)

/-! ## Names and keys -/

theorem requirePart_of_part {name : String} (isPart : IsKeyPart name) (field : String) :
    requirePart field name = .ok () := by
  rw [requirePart, GroupMember.requireKeyPart_eq_ok_iff.mpr isPart]

theorem requirePart_of_not_part {name : String} (noPart : ¬ IsKeyPart name) (field : String) :
    ∃ flaw, requirePart field name = .error (.invalid name (.flaw flaw)) := by
  rw [requirePart]
  cases checked : Record.requireKeyPart field name with
  | error flaw => exact ⟨flaw, rfl⟩
  | ok done => exact absurd (GroupMember.requireKeyPart_eq_ok_iff.mp checked) noPart

private theorem memberKey_of_parts {room user : String} (roomPart : IsKeyPart room)
    (userPart : IsKeyPart user) :
    memberKey room user = .ok (membershipKey room user) := by
  rw [memberKey, requirePart_of_part roomPart, requirePart_of_part userPart]

/-- The slash in the key of a membership is no white space. -/
theorem blank_membershipKey (room user : String) :
    Text.blank (membershipKey room user) = false := by
  have slash : Text.isBlank '/' = false := by decide
  simp [Text.blank, membershipKey, slash]

/-! ## One member -/

/-- What the request for one member returns by the members that are stored. -/
def lookup (members : List GroupMember) (room user : String) : Except Failure GroupMember :=
  match memberKey room user with
  | .error failure => .error failure
  | .ok key => (find? key members).elim (.error (.notFound key)) .ok

private theorem run_member {store : MemoryStore} {members : List GroupMember}
    (holds : Collection.decode (store.version collection.blobKey).contentOrEmpty = .ok members)
    (room user : String) :
    (member room user).run store = (lookup members room user, store) := by
  rw [member, lookup]
  cases accepted : memberKey room user with
  | error failure => rfl
  | ok key =>
      obtain ⟨-, -, rfl⟩ := parts_of_memberKey accepted
      exact Collection.run_get (MemoryStore.read_of_isKey collection.isKey store) holds
        (blank_membershipKey room user)

variable {members : List GroupMember} {room user : String}

private theorem lookup_of_parts (roomPart : IsKeyPart room) (userPart : IsKeyPart user) :
    lookup members room user =
      (find? (membershipKey room user) members).elim
        (.error (.notFound (membershipKey room user))) .ok := by
  rw [lookup, memberKey_of_parts roomPart userPart]

private theorem lookup_of_not_room_part (noPart : ¬ IsKeyPart room) :
    ∃ flaw, lookup members room user = .error (.invalid room (.flaw flaw)) := by
  obtain ⟨flaw, refused⟩ := requirePart_of_not_part noPart "chat_room_id"
  exact ⟨flaw, by rw [lookup, memberKey, refused]⟩

private theorem lookup_of_not_user_part (roomPart : IsKeyPart room) (noPart : ¬ IsKeyPart user) :
    ∃ flaw, lookup members room user = .error (.invalid user (.flaw flaw)) := by
  obtain ⟨flaw, refused⟩ := requirePart_of_not_part noPart "user_id"
  exact ⟨flaw, by rw [lookup, memberKey, requirePart_of_part roomPart, refused]⟩

/-! ## Members of one room and one user -/

/-- The members of one room and one user. -/
def ofMembership (room user : String) (members : List GroupMember) : List GroupMember :=
  members.filter fun member => member.membership = (room, user)

/-- Where names are parts of keys and keys are distinct, these are the members that the
request for one member finds. -/
theorem ofMembership_eq (keyed : IsKeyed members)
    (parts : ∀ member ∈ members, IsKeyPart member.chatRoomId ∧ IsKeyPart member.userId)
    (room user : String) :
    ofMembership room user members = (lookup members room user).toOption.toList := by
  cases accepted : memberKey room user with
  | error failure =>
      -- The names make no key, so no member that is stored has them.
      rw [lookup, accepted]
      apply List.filter_eq_nil_iff.mpr
      intro member present isOwn
      obtain ⟨roomPart, userPart⟩ := parts member present
      obtain ⟨rfl, rfl⟩ := Prod.mk.inj (of_decide_eq_true isOwn)
      rw [memberKey_of_parts roomPart userPart] at accepted
      cases accepted
  | ok key =>
      obtain ⟨roomPart, userPart, rfl⟩ := parts_of_memberKey accepted
      have sameTest : ∀ member ∈ members,
          decide (member.membership = (room, user)) =
            decide (Record.key member = membershipKey room user) := by
        intro member present
        apply decide_eq_decide.mpr
        constructor
        · intro own
          obtain ⟨rfl, rfl⟩ := Prod.mk.inj own
          rfl
        · exact GroupMember.membershipKey_injective roomPart userPart
      rw [ofMembership, List.filter_congr sameTest, Collection.filter_key_eq keyed.distinct,
        lookup_of_parts roomPart userPart]
      cases find? (membershipKey room user) members with
      | none => rfl
      | some member => rfl

/-- The list of a room has of each user the members of this room and this user. -/
theorem run_members {store : MemoryStore}
    (holds : Collection.decode (store.version collection.blobKey).contentOrEmpty = .ok members)
    (room : String) :
    ∃ present : List GroupMember,
      (Groups.members room).run store = (.ok present, store) ∧
      ∀ user, (present.filter fun member => member.userId = user).Perm
        (ofMembership room user members) := by
  refine ⟨(Query.all.apply members).filter fun member => member.chatRoomId == room, ?_, ?_⟩
  · rw [Groups.members, run_mapResult,
      Collection.run_list (MemoryStore.read_of_isKey collection.isKey store) holds]
    rfl
  · intro user
    have whole : (Query.all.apply members).Perm members := by
      have selected := Query.all.apply_perm rfl members
      have selectsAll : Query.all.selects (R := GroupMember) = fun _ => true := rfl
      rwa [selectsAll, List.filter_true] at selected
    have sameTest : ∀ member ∈ Query.all.apply members,
        (decide (member.userId = user) && member.chatRoomId == room) =
          decide (member.membership = (room, user)) := by
      intro member present
      rw [Bool.eq_iff_iff]
      simp [GroupMember.membership, and_comm]
    rw [List.filter_filter, List.filter_congr sameTest]
    exact whole.filter _

/-- The list of a user has each room as often as there are members of this room and this
user. -/
theorem run_roomsOf {store : MemoryStore}
    (holds : Collection.decode (store.version collection.blobKey).contentOrEmpty = .ok members)
    (user : String) :
    ∃ rooms : List String,
      (roomsOf user).run store = (.ok rooms, store) ∧
      ∀ room, rooms.count room = (ofMembership room user members).length := by
  refine ⟨((Query.all.createdBy user).apply members).map GroupMember.chatRoomId, ?_, ?_⟩
  · rw [roomsOf, run_mapResult,
      Collection.run_list (MemoryStore.read_of_isKey collection.isKey store) holds]
    rfl
  · intro room
    have selected := (Query.all.createdBy user).apply_perm rfl members
    have sameTest : ∀ member ∈ members,
        ((member.chatRoomId == room) && (Query.all.createdBy user).selects member) =
          decide (member.membership = (room, user)) := by
      intro member present
      have owns : (Query.all.createdBy user).selects member = decide (member.userId = user) :=
        (Bool.and_true _).trans (Bool.and_true _)
      rw [owns, Bool.eq_iff_iff]
      simp [GroupMember.membership]
    rw [(selected.map GroupMember.chatRoomId).count_eq room, List.count_eq_countP, List.countP_map,
      List.countP_filter, List.countP_eq_length_filter]
    exact congrArg List.length (List.filter_congr sameTest)

/-! ## Other memberships -/

namespace Action

variable {action : Action} {request : Request GroupMember}

/-- The request of an action changes at most the member of its key. -/
theorem exists_change (isRequest : action.request = .ok request) :
    ∃ change : Change GroupMember,
      request = change.request ∧
      change.key = membershipKey action.membership.1 action.membership.2 := by
  cases action with
  | join now room user nickname role =>
      cases isRequest
      exact ⟨.create ⟨room, user, nickname, role, now⟩, rfl, rfl⟩
  | rename room user nickname =>
      obtain ⟨-, -, rfl⟩ := request_rename isRequest
      exact ⟨.update (membershipKey room user) nickname, rfl, rfl⟩
  | leave room user =>
      obtain ⟨-, -, rfl⟩ := request_leave isRequest
      exact ⟨.remove (membershipKey room user), rfl, rfl⟩

/-- An action changes no other membership. -/
theorem lookup_of_changes {changed : List GroupMember} {reply : Collection.Reply GroupMember}
    (keyed : IsKeyed members) (isRequest : action.request = .ok request)
    (changes : request.Changes members changed reply) (apart : action.membership ≠ (room, user)) :
    lookup changed room user = lookup members room user := by
  cases accepted : memberKey room user with
  | error failure => rw [lookup, lookup, accepted]
  | ok key =>
      obtain ⟨roomPart, userPart, rfl⟩ := parts_of_memberKey accepted
      obtain ⟨change, rfl, own⟩ := exists_change isRequest
      have otherKey : change.key ≠ membershipKey room user := by
        intro same
        exact apart (GroupMember.membershipKey_injective roomPart userPart (own.symm.trans same))
      rw [lookup_of_parts roomPart userPart, lookup_of_parts roomPart userPart,
        change.eq_effect_of_changes changes keyed.distinct,
        Change.find?_effect_of_ne otherKey members]

/-- So the request for another member returns the same after an action. -/
theorem member_after {store : MemoryStore}
    (holds : Collection.decode (store.version collection.blobKey).contentOrEmpty = .ok members)
    (keyed : IsKeyed members) (apart : action.membership ≠ (room, user)) :
    ((member room user).run (action.operation.run store).2).1 =
      ((member room user).run store).1 := by
  rcases action.run_cases holds with
    ⟨failure, run⟩ | ⟨request, changed, reply, following, isRequest, passed, changes, run⟩
  · rw [run]
  · have holdsAfter : Collection.decode
        ((action.operation.run store).2.version collection.blobKey).contentOrEmpty =
          .ok changed := by
      rw [run, MemoryStore.version_after_self]
      exact Collection.decode_encode changed
    rw [run_member holdsAfter, run_member holds]
    exact lookup_of_changes keyed isRequest changes apart

end Action

/-! ## All three views -/

section Agreement

variable {found : Except Failure GroupMember} {present : List GroupMember} {rooms : List String}

private theorem found_iff_mem
    (users : (present.filter fun one => one.userId = user).Perm found.toOption.toList)
    (one : GroupMember) :
    found = .ok one ↔ one ∈ present ∧ one.userId = user := by
  have listed : one ∈ found.toOption.toList ↔ found = .ok one := by
    cases found with
    | error failure => simp [Except.toOption]
    | ok other => simp [Except.toOption, eq_comm]
  rw [← listed, ← users.mem_iff, List.mem_filter, decide_eq_true_eq]

private theorem exists_found_iff_mem (count : rooms.count room = found.toOption.toList.length) :
    (∃ one, found = .ok one) ↔ room ∈ rooms := by
  rw [← List.count_pos_iff, count]
  cases found with
  | error failure => simp [Except.toOption]
  | ok other => simp [Except.toOption]

end Agreement

/-- Whatever users join, change and leave where no group blob was, for all names the request
for one member returns a member exactly if it is one of the room's members and of that user,
and exactly if the room is one of the user's rooms. Then it is once in each list. Else no such
member is found, or a name is refused, which is white space or holds a slash. And no action
on another membership changes what is returned. -/
theorem views_of_membership_agree (actions : List Action) (store : MemoryStore)
    (absent : store.version "groupsim.jsonl" = .absent) (room user : String) :
    let final := (Plan.runAll (actions.map Action.operation) store).2
    ∃ (found : Except Failure GroupMember) (present : List GroupMember) (rooms : List String),
      (member room user).run final = (found, final) ∧
      (Groups.members room).run final = (.ok present, final) ∧
      (roomsOf user).run final = (.ok rooms, final) ∧
      (∀ one, found = .ok one ↔ one ∈ present ∧ one.userId = user) ∧
      ((∃ one, found = .ok one) ↔ room ∈ rooms) ∧
      (∀ one, found = .ok one →
        (present.filter fun other => other.userId = user) = [one] ∧ rooms.count room = 1) ∧
      (room ∉ rooms → IsKeyPart room → IsKeyPart user →
        found = .error (.notFound (membershipKey room user))) ∧
      (¬ IsKeyPart room → ∃ flaw, found = .error (.invalid room (.flaw flaw))) ∧
      (IsKeyPart room → ¬ IsKeyPart user →
        ∃ flaw, found = .error (.invalid user (.flaw flaw))) ∧
      ∀ action : Action,
        action.membership ≠ (room, user) →
        ((member room user).run (action.operation.run final).2).1 = found := by
  intro final
  obtain ⟨members, holds, areNamed⟩ := AreNamed.run absent actions
  obtain ⟨present, runMembers, ofRoom⟩ := run_members holds room
  obtain ⟨rooms, runRooms, ofUser⟩ := run_roomsOf holds user
  have runMember := run_member holds room user
  have same := ofMembership_eq areNamed.keyed areNamed.parts room user
  have users := ofRoom user
  have count := ofUser room
  rw [same] at users count
  refine ⟨lookup members room user, present, rooms, runMember, runMembers, runRooms,
    found_iff_mem users, exists_found_iff_mem count, ?_, ?_, lookup_of_not_room_part,
    lookup_of_not_user_part, ?_⟩
  · intro one isFound
    rw [isFound] at users count
    exact ⟨List.perm_singleton.mp users, count⟩
  · intro notThere roomPart userPart
    rw [← exists_found_iff_mem count, lookup_of_parts roomPart userPart] at notThere
    rw [lookup_of_parts roomPart userPart]
    cases isFound : find? (membershipKey room user) members with
    | none => rfl
    | some one =>
        rw [isFound] at notThere
        exact absurd ⟨one, rfl⟩ notThere
  · intro action apart
    rw [Action.member_after holds areNamed.keyed apart, runMember]

/-- A user who is in two rooms, is called otherwise in one of them and leaves the other one. -/
def movingActions : List Action :=
  let now := Collection.sampleProfile.createdAt
  [.join now "C1" "U1" "Aiko" .member, .join now "C2" "U2" "Bo" .admin,
    .join now "C2" "U1" "Aiko" .member, .rename "C2" "U1" "Ai", .leave "C1" "U1"]

/-- All views show the user in the room where the user is, also after another user leaves it. -/
theorem views_of_membership_agree_after_moves :
    let final := (Plan.runAll (movingActions.map Action.operation) MemoryStore.empty).2
    let later := ((Action.leave "C2" "U2").operation.run final).2
    ∃ (one : GroupMember) (present : List GroupMember) (rooms : List String),
      (member "C2" "U1").run final = (.ok one, final) ∧
      one.nickname = "Ai" ∧
      (Groups.members "C2").run final = (.ok present, final) ∧
      (present.filter fun other => other.userId = "U1") = [one] ∧
      (roomsOf "U1").run final = (.ok rooms, final) ∧
      rooms.count "C2" = 1 ∧
      ((member "C2" "U1").run later).1 = .ok one := by
  intro final later
  obtain ⟨found, present, rooms, runMember, runMembers, runRooms, -, -, once, -, -, -, others⟩ :=
    views_of_membership_agree movingActions .empty rfl "C2" "U1"
  have named : ((member "C2" "U1").run final).1.toOption.map GroupMember.nickname = some "Ai" := by
    decide +kernel
  rw [runMember] at named
  obtain ⟨one, isFound, nickname⟩ := Option.map_eq_some_iff.mp named
  cases found with
  | error failure => cases isFound
  | ok other =>
      cases isFound
      obtain ⟨users, count⟩ := once one rfl
      exact ⟨one, present, rooms, runMember, nickname, runMembers, users, runRooms, count,
        others (.leave "C2" "U2") (by decide)⟩

end RoomLedger.Groups
