import RoomLedger.Proofs.Collection.Protocol
import RoomLedger.Proofs.Collection.RoundTrip
import RoomLedger.Proofs.Record.Amended
import RoomLedger.Record.Event
import RoomLedger.Record.GroupMember
import RoomLedger.Record.HistoryEntry
import RoomLedger.Record.MediaItem

/-!
Contract: which bytes of a blob a request replaces.

Owns:
- `encode_append_cons`, the bytes before, of and behind the line of one record;
- `CutsLine` and `ReplacesLine`, what may happen to one line among others;
- `Frames`, what a request that succeeds has put in the place of the bytes it read;
- `changes_are_framed`, for the five kinds of records.

Every change decodes all records and encodes them again. That the lines of the other
records stay as they were is the round trip of the whole blob.

Does not own: requests that fail, and those that take out many records at once.
-/

namespace RoomLedger.Collection

open RoomLedger.Record
open RoomLedger.Store (Exchange Plan Respondent Talk Version)
open RoomLedger.Text (Bytes)

/-! ## Lines among others -/

/-- One line is taken out of the bytes, together with one newline beside it. -/
inductive CutsLine (line : Bytes) : (before after : Bytes) → Prop
  | only : CutsLine line line []
  | followed (front back : Bytes) (begins : front = [] ∨ front.getLast? = some newline) :
      CutsLine line (front ++ (line ++ newline :: back)) (front ++ back)
  | last (front : Bytes) : CutsLine line (front ++ newline :: line) front

/-- One line of the bytes becomes another one. -/
inductive ReplacesLine (line other : Bytes) : (before after : Bytes) → Prop
  | intro (front back : Bytes) (begins : front = [] ∨ front.getLast? = some newline)
      (ends : back = [] ∨ back.head? = some newline) :
      ReplacesLine line other (front ++ (line ++ back)) (front ++ (other ++ back))

section Lines

variable {R : Type} [Record R]

/-- The lines of records, each with the newline behind it. -/
def heading (records : List R) : Bytes :=
  records.flatMap fun record => Record.write record ++ [newline]

/-- The lines of records, each with the newline before it. -/
def trailing (records : List R) : Bytes :=
  records.flatMap fun record => newline :: Record.write record

private theorem encode_cons (record : R) {others : List R} (some : others ≠ []) :
    encode (record :: others) = Record.write record ++ newline :: encode others := by
  obtain ⟨next, rest, rfl⟩ := List.exists_cons_of_ne_nil some
  rfl

private theorem encode_cons_eq (record : R) (later : List R) :
    encode (record :: later) = Record.write record ++ trailing later := by
  induction later generalizing record with
  | nil => exact (List.append_nil _).symm
  | cons next rest inductionHypothesis =>
      rw [encode_cons record (by simp), inductionHypothesis next]
      rfl

/-- The bytes of a blob around the line of one record. -/
theorem encode_append_cons (before : List R) (record : R) (later : List R) :
    encode (before ++ record :: later) =
      heading before ++ (Record.write record ++ trailing later) := by
  induction before with
  | nil => exact encode_cons_eq record later
  | cons first rest inductionHypothesis =>
      rw [List.cons_append, encode_cons first (by simp), inductionHypothesis]
      simp [heading]

private theorem heading_concat (records : List R) (last : R) :
    heading (records ++ [last]) = encode (records ++ [last]) ++ [newline] := by
  rw [encode_append_cons]
  simp [heading, trailing]

private theorem heading_begins (records : List R) :
    heading records = [] ∨ (heading records).getLast? = some newline := by
  rcases List.eq_nil_or_concat records with rfl | ⟨others, last, rfl⟩
  · exact .inl rfl
  · right
    rw [List.concat_eq_append, heading_concat, List.getLast?_concat]

private theorem trailing_ends (records : List R) :
    trailing records = [] ∨ (trailing records).head? = some newline := by
  cases records with
  | nil => exact .inl rfl
  | cons next rest => exact .inr rfl

/-- The line of a new last record comes behind a newline, if there are other lines. -/
theorem encode_concat (records : List R) (record : R) :
    (records = [] → encode (records ++ [record]) = Record.write record) ∧
      (records ≠ [] →
        encode (records ++ [record]) = encode records ++ newline :: Record.write record) := by
  constructor
  · rintro rfl
    rfl
  · intro some
    obtain ⟨others, last, rfl⟩ := (List.eq_nil_or_concat records).resolve_left some
    rw [List.concat_eq_append, encode_append_cons, heading_concat]
    simp [trailing]

/-- A record that is taken out leaves the other lines, with one newline less. -/
theorem cutsLine (before : List R) (record : R) (later : List R) :
    CutsLine (Record.write record) (encode (before ++ record :: later))
      (encode (before ++ later)) := by
  cases later with
  | cons next rest =>
      rw [encode_append_cons, encode_append_cons]
      exact .followed (heading before) _ (heading_begins before)
  | nil =>
      rw [List.append_nil]
      by_cases alone : before = []
      · subst alone
        exact .only
      · rw [(encode_concat before record).2 alone]
        exact .last (encode before)

/-- A record that is put in the place of another takes its line. -/
theorem replacesLine (before : List R) (record other : R) (later : List R) :
    ReplacesLine (Record.write record) (Record.write other)
      (encode (before ++ record :: later)) (encode (before ++ other :: later)) := by
  rw [encode_append_cons, encode_append_cons]
  exact .intro _ _ (heading_begins before) (trailing_ends later)

end Lines

/-! ## Requests -/

section Requests

variable {R : Type} [Record R]

/-- Whatever store answers: a request that reads those records and succeeds has put
such bytes in the place of theirs. -/
def Frames (request : Request R) (records : List R) (isFramed : Bytes → Prop) : Prop :=
  ∀ {S : Type} (respondent : Respondent S) (state : S) (collection : Collection R)
    (version : Version) (reply : Reply R),
    let talk := (request.plan collection).talk respondent state
    (respondent.read state collection.blobKey).1 = .ok version →
    version.contentOrEmpty = encode records →
    talk.result = .ok reply →
    ∃ content generation,
      talk.exchanges =
        [.read collection.blobKey (.ok version),
          .write collection.blobKey contentType content version.generation (.ok generation)] ∧
      isFramed content

/-- The first call of a request is the read of its blob. -/
theorem read_of_exchanges {S : Type} {respondent : Respondent S} {state : S}
    {collection : Collection R} {request : Request R} {first : Exchange} {others : List Exchange}
    (exchanges : ((request.plan collection).talk respondent state).exchanges = first :: others) :
    first = .read collection.blobKey (respondent.read state collection.blobKey).1 := by
  rw [Request.plan_eq] at exchanges
  cases passed : request.precheck with
  | error failure =>
      rw [passed] at exchanges
      cases exchanges
  | ok done =>
      rw [passed, Operation.after, load, Plan.talk_read] at exchanges
      exact (List.cons.inj exchanges).1.symm

/-- A talk that ends well, and had something to change, has had the change written. -/
theorem Request.Course.written_of_ok {collection : Collection R} {request : Request R}
    {talk : Talk (Except Failure (Reply R))} {reply : Reply R}
    (course : request.Course collection talk) (isMutating : request.isMutating = true)
    (single : ∀ unwanted, request ≠ .removeWhere unwanted) (succeeds : talk.result = .ok reply) :
    ∃ version records changed generation,
      talk.exchanges =
        [.read collection.blobKey (.ok version),
          .write collection.blobKey contentType (encode changed) version.generation
            (.ok generation)] ∧
      decode version.contentOrEmpty = .ok records ∧
      ∃ reply, request.Changes records changed reply := by
  cases course with
  | refused key objection => cases succeeds
  | unread error => cases succeeds
  | undecoded version found => cases succeeds
  | answered decodes settles =>
      cases settles with
      | read reply isReading =>
          rw [isReading] at isMutating
          cases isMutating
      | nothing unwanted none => exact absurd rfl (single unwanted)
      | missing key => cases succeeds
      | duplicate key => cases succeeds
  | @written version records changed _ decodes changes answer =>
      cases answer with
      | ok generation => exact ⟨version, records, changed, generation, rfl, decodes, _, changes⟩
      | error error =>
          simp only [settle] at succeeds
          split at succeeds <;> cases succeeds

/-- What holds of the bytes of all changes that a request may make holds of what it
has put. -/
theorem frames_of_changes {request : Request R} {records : List R} {isFramed : Bytes → Prop}
    (isMutating : request.isMutating = true) (single : ∀ unwanted, request ≠ .removeWhere unwanted)
    (framed : ∀ changed reply, request.Changes records changed reply → isFramed (encode changed)) :
    Frames request records isFramed := by
  intro S respondent state collection version reply talk answered content succeeds
  have course : request.Course collection talk :=
    Request.course_talk respondent state collection request
  obtain ⟨found, others, changed, generation, exchanges, decodes, changeReply, changes⟩ :=
    course.written_of_ok isMutating single succeeds
  have first := read_of_exchanges exchanges
  rw [answered] at first
  cases first
  rw [content, decode_encode] at decodes
  cases decodes
  exact ⟨encode changed, generation, exchanges, framed changed changeReply changes⟩

private theorem frames_create (records : List R) (record : R) :
    Frames (.create record) records fun content =>
      (records = [] → content = Record.write record) ∧
        (records ≠ [] → content = encode records ++ newline :: Record.write record) := by
  refine frames_of_changes rfl (fun _ same => by cases same) ?_
  intro changed reply changes
  cases changes with
  | create _ _ isNew => exact encode_concat records record

private theorem frames_remove (records : List R) (key : String) :
    Frames (.remove key) records fun content =>
      ∃ found ∈ records, Record.key found = key ∧
        CutsLine (Record.write found) (encode records) content := by
  refine frames_of_changes rfl (fun _ same => by cases same) ?_
  intro changed reply changes
  cases changes with
  | remove _ before found later isFirst isKeyed =>
      exact ⟨found, by simp, isKeyed, cutsLine before found later⟩

private theorem frames_update
    (isText : hasText (Record.amendable R) (Record.schema (R := R)).fields = true)
    (records : List R) (key value : String) :
    Frames (.update key value) records fun content =>
      ∃ found ∈ records, Record.key found = key ∧
        let line := Record.write (Record.amend value found)
        ReplacesLine (Record.write found) line (encode records) content ∧
          DiffersInText (Record.amendable R) value (Record.write found) line := by
  refine frames_of_changes rfl (fun _ same => by cases same) ?_
  intro changed reply changes
  cases changes with
  | update _ _ before found later isFirst isKeyed =>
      exact ⟨found, by simp, isKeyed, replacesLine before found _ later,
        differsInText_amend isText value found⟩

end Requests

/-- What create, remove and update put in the place of a blob of records of one kind,
of which the field of that name may change. -/
structure FramesChanges (R : Type) [Record R] (field : String) : Prop where
  /-- The new line comes last, behind a newline if there are other lines. -/
  create : ∀ (records : List R) (record : R),
    Frames (.create record) records fun content =>
      (records = [] → content = Record.write record) ∧
        (records ≠ [] → content = encode records ++ newline :: Record.write record)
  /-- The line of the key is taken out, together with one newline. -/
  remove : ∀ (records : List R) (key : String),
    Frames (.remove key) records fun content =>
      ∃ found ∈ records, Record.key found = key ∧
        CutsLine (Record.write found) (encode records) content
  /-- The line of the key gets another text in the field, and all bytes around it stay. -/
  update : ∀ (records : List R) (key value : String),
    Frames (.update key value) records fun content =>
      ∃ found ∈ records, Record.key found = key ∧
        let line := Record.write (Record.amend value found)
        ReplacesLine (Record.write found) line (encode records) content ∧
          DiffersInText field value (Record.write found) line

private theorem framesChanges {R : Type} [Record R]
    (isText : hasText (Record.amendable R) (Record.schema (R := R)).fields = true) :
    FramesChanges R (Record.amendable R) where
  create := frames_create
  remove := frames_remove
  update := frames_update isText

/-- For records of all kinds and whatever they hold, on a blob that is the encoding of
records: a create that succeeds puts the bytes of the blob and the new line behind them,
a remove those without one line, and an update those with one text of one line changed. -/
theorem changes_are_framed :
    FramesChanges Event "description" ∧ FramesChanges HistoryEntry "content" ∧
      FramesChanges UserProfile "notes" ∧ FramesChanges MediaItem "caption" ∧
      FramesChanges GroupMember "nickname" :=
  ⟨framesChanges (by decide), framesChanges (by decide), framesChanges (by decide),
    framesChanges (by decide), framesChanges (by decide)⟩

/-- Two profiles of which the first is taken out. -/
theorem changes_are_framed_of_removed_profile :
    let others := { sampleProfile with userId := "u-2" }
    let collection : Collection UserProfile := ⟨"profiles", by decide⟩
    let version : Version :=
      { content := some (encode [sampleProfile, others]), contentType := some contentType,
        generation := ⟨7⟩ }
    let respondent : Respondent Unit :=
      { read := fun _ _ => (.ok version, ()), write := fun _ _ _ _ _ => (.ok ⟨8⟩, ()) }
    let talk := (Request.plan collection (.remove "u-1")).talk respondent ()
    talk.result = .ok (.record sampleProfile) ∧
      talk.exchanges =
        [.read "profiles" (.ok version),
          .write "profiles" contentType (encode [others]) ⟨7⟩ (.ok ⟨8⟩)] ∧
      CutsLine (Record.write sampleProfile) (encode [sampleProfile, others])
        (encode [others]) := by
  intro others collection version respondent talk
  have decodes : decode version.contentOrEmpty = .ok [sampleProfile, others] :=
    decode_encode [sampleProfile, others]
  have talked : talk =
      ⟨[.read "profiles" (.ok version),
          .write "profiles" contentType (encode [others]) ⟨7⟩ (.ok ⟨8⟩)],
        .ok (.record sampleProfile)⟩ := by
    have named : (Request.remove "u-1" : Request UserProfile).precheck = .ok () := by
      decide +kernel
    have removes : (Request.remove "u-1").verdict collection [sampleProfile, others] =
        .change [others] "u-1" (.record sampleProfile) := rfl
    change (Request.plan collection (.remove "u-1")).talk respondent () = _
    rw [Request.plan_eq, named, Operation.after, load, Plan.talk_read]
    simp only [respondent, snapshot, decodes, Operation.after, removes]
    rfl
  have result : talk.result = .ok (.record sampleProfile) := congrArg Talk.result talked
  obtain ⟨content, generation, exchanges, found, member, isKeyed, cuts⟩ :=
    changes_are_framed.2.2.1.remove [sampleProfile, others] "u-1" respondent () collection version
      _ rfl rfl result
  have same := exchanges.symm.trans (congrArg Talk.exchanges talked)
  simp only [List.cons.injEq, Exchange.write.injEq, and_true, true_and] at same
  rcases List.mem_cons.mp member with rfl | last
  · rw [same.2.2.1] at cuts
    exact ⟨result, congrArg Talk.exchanges talked, cuts⟩
  · rw [List.mem_singleton.mp last] at isKeyed
    exact absurd isKeyed (by decide)

end RoomLedger.Collection
