import RoomLedger.Proofs.Collection.Changes
import RoomLedger.Proofs.Store.Conversation

/-!
Contract: what requests say to a store, whatever it answers.

Owns:
- what is refused before a read, which is always the request itself;
- `Course`, the ways in which the talk of a request with a store can go;
- `requests_keep_to_protocol`, the rules of every such talk.

Does not own: what a store makes of the calls.
-/

namespace RoomLedger.Collection

open RoomLedger.Store (Error Exchange Generation Plan Respondent Talk Version)
open RoomLedger.Text (Bytes)

variable {R : Type} [Record R]

/-! ## Objections -/

theorem invalid_of_requireKey {kind key : String} {failure : Failure}
    (refused : requireKey kind key = .error failure) :
    ∃ subject objection, failure = .invalid subject objection := by
  unfold requireKey at refused
  split at refused
  · cases refused
    exact ⟨_, _, rfl⟩
  · cases refused

theorem invalid_of_requireSound {record : R} {failure : Failure}
    (refused : requireSound record = .error failure) :
    ∃ subject objection, failure = .invalid subject objection := by
  unfold requireSound at refused
  split at refused
  · cases refused
    exact ⟨_, _, rfl⟩
  · cases refused

/-- What is refused before a read is the request itself. -/
theorem Request.invalid_of_precheck {request : Request R} {failure : Failure}
    (refused : request.precheck = .error failure) :
    ∃ subject objection, failure = .invalid subject objection := by
  cases request with
  | create record =>
      rw [precheck] at refused
      cases named : requireKey (Record.kind R) (Record.key record) with
      | error other =>
          rw [named] at refused
          cases refused
          exact invalid_of_requireKey named
      | ok passed =>
          rw [named] at refused
          exact invalid_of_requireSound refused
  | get key => exact invalid_of_requireKey refused
  | update key value => exact invalid_of_requireKey refused
  | remove key => exact invalid_of_requireKey refused
  | removeWhere unwanted => cases refused
  | list query => cases refused
  | all => cases refused

namespace Request

/-- The request is one that may write. -/
def isMutating : Request R → Bool
  | .create _ | .update _ _ | .remove _ | .removeWhere _ => true
  | .get _ | .list _ | .all => false

/-- What a failed write is told as: a wrong expectation is a conflict, and any other
failure is passed on. -/
def writeFailure (collection : Collection R) (request : Request R) : Error → Failure
  | .alreadyExists _ => .conflict (request.subject collection) .staleGeneration
  | .generationMismatch _ _ _ => .conflict (request.subject collection) .staleGeneration
  | error => .store collection.blobKey error

/-! ## The courses of a talk -/

/-- A verdict without a change: what was asked for, or why it cannot be. Of the
requests that may write only a remove of nothing succeeds without one. -/
inductive Settles : Request R → List R → Except Failure (Reply R) → Prop
  | read {request : Request R} {records : List R} (reply : Reply R)
      (isReading : request.isMutating = false) :
      Settles request records (.ok reply)
  | nothing (unwanted : R → Bool) {records : List R}
      (none : ∀ record ∈ records, unwanted record = false) :
      Settles (.removeWhere unwanted) records (.ok (.count 0))
  | missing {request : Request R} {records : List R} (key : String) :
      Settles request records (.error (.notFound key))
  | duplicate {request : Request R} {records : List R} (key : String) :
      Settles request records (.error (.conflict key .duplicate))

private theorem settles_of_verdict {collection : Collection R} {request : Request R}
    {records : List R} {result : Except Failure (Reply R)}
    (decides : request.verdict collection records = .answer result) :
    request.Settles records result := by
  cases request with
  | create record =>
      rw [verdict] at decides
      split at decides
      · cases decides
        exact .duplicate _
      · cases decides
  | get key =>
      rw [verdict] at decides
      split at decides
      · cases decides
        exact .missing key
      · cases decides
        exact .read _ rfl
  | update key value =>
      rw [verdict] at decides
      split at decides
      · cases decides
        exact .missing key
      · cases decides
  | remove key =>
      rw [verdict] at decides
      split at decides
      · cases decides
        exact .missing key
      · cases decides
  | removeWhere unwanted =>
      simp only [verdict, length_sub_length_filter_not] at decides
      split at decides
      case isTrue none =>
        cases decides
        apply Settles.nothing
        simpa [List.filter_eq_nil_iff] using none
      · cases decides
  | list query =>
      cases decides
      exact .read _ rfl
  | all =>
      cases decides
      exact .read _ rfl

/-- The ways in which the talk of a request can go. -/
inductive Course (collection : Collection R) (request : Request R) :
    Talk (Except Failure (Reply R)) → Prop
  | refused (key : String) (objection : Objection) :
      Course collection request ⟨[], .error (.invalid key objection)⟩
  | unread (error : Error) :
      Course collection request
        ⟨[.read collection.blobKey (.error error)], .error (.store collection.blobKey error)⟩
  | undecoded (version : Version) (found : LineFault) :
      Course collection request
        ⟨[.read collection.blobKey (.ok version)],
          .error (.store collection.blobKey
            (.corrupt collection.blobKey (.badLine found.line found.fault)))⟩
  | answered {version : Version} {records : List R} {result : Except Failure (Reply R)}
      (decodes : decode version.contentOrEmpty = .ok records)
      (settles : request.Settles records result) :
      Course collection request ⟨[.read collection.blobKey (.ok version)], result⟩
  | written {version : Version} {records changed : List R} {reply : Reply R}
      (decodes : decode version.contentOrEmpty = .ok records)
      (changes : request.Changes records changed reply) (answer : Except Error Generation) :
      Course collection request
        ⟨[.read collection.blobKey (.ok version),
            .write collection.blobKey contentType (encode changed) version.generation answer],
          collection.settle (request.subject collection) reply answer⟩

/-- Every talk of a request takes one of the courses. -/
theorem course_talk {S : Type} (respondent : Respondent S) (state : S) (collection : Collection R)
    (request : Request R) :
    request.Course collection ((request.plan collection).talk respondent state) := by
  rw [plan_eq]
  cases passed : request.precheck with
  | error failure =>
      obtain ⟨key, objection, rfl⟩ := invalid_of_precheck passed
      exact .refused key objection
  | ok done =>
      rw [Operation.after, load, Plan.talk_read]
      generalize respondent.read state collection.blobKey = reading
      obtain ⟨answer, after⟩ := reading
      cases answer with
      | error error => exact .unread error
      | ok version =>
          simp only [snapshot]
          cases decodes : decode (R := R) version.contentOrEmpty with
          | error found => exact .undecoded version found
          | ok records =>
              simp only [Operation.after]
              cases decides : request.verdict collection records with
              | answer result => exact .answered decodes (settles_of_verdict decides)
              | change changed recordKey reply =>
                  obtain ⟨changes, rfl⟩ := changes_of_verdict decides
                  exact .written decodes changes _

/-! ## The rules of a talk -/

section Rules

variable {collection : Collection R} {request : Request R} {talk : Talk (Except Failure (Reply R))}

/-- No call, one read, or one read and then one write of the change. -/
theorem Course.exchanges (course : request.Course collection talk) :
    talk.exchanges = [] ∨
      (∃ answer, talk.exchanges = [.read collection.blobKey answer]) ∨
      ∃ version records changed reply answer,
        talk.exchanges =
          [.read collection.blobKey (.ok version),
            .write collection.blobKey contentType (encode changed) version.generation answer] ∧
        decode version.contentOrEmpty = .ok records ∧
        request.Changes records changed reply := by
  cases course with
  | refused key objection => exact Or.inl rfl
  | unread error => exact Or.inr (Or.inl ⟨.error error, rfl⟩)
  | undecoded version found => exact Or.inr (Or.inl ⟨.ok version, rfl⟩)
  | @answered version records result decodes settles => exact Or.inr (Or.inl ⟨.ok version, rfl⟩)
  | @written version records changed reply decodes changes answer =>
      exact Or.inr (Or.inr ⟨version, records, changed, reply, answer, rfl, decodes, changes⟩)

/-- A request that may write succeeds by a write that was taken, unless there was
nothing to remove. -/
theorem Course.taken_of_ok (course : request.Course collection talk) {reply : Reply R}
    (isMutating : request.isMutating = true) (succeeds : talk.result = .ok reply) :
    (∃ key contentType content expected generation,
      .write key contentType content expected (.ok generation) ∈ talk.exchanges) ∨
    ∃ unwanted version records,
      request = .removeWhere unwanted ∧
      talk.exchanges = [.read collection.blobKey (.ok version)] ∧
      decode version.contentOrEmpty = .ok records ∧
      (∀ record ∈ records, unwanted record = false) ∧
      reply = .count 0 := by
  cases course with
  | refused key objection => cases succeeds
  | unread error => cases succeeds
  | undecoded version found => cases succeeds
  | @answered version records result decodes settles =>
      right
      cases settles with
      | read reply isReading =>
          rw [isReading] at isMutating
          cases isMutating
      | nothing unwanted none =>
          cases succeeds
          exact ⟨unwanted, version, records, rfl, rfl, decodes, none, rfl⟩
      | missing key => cases succeeds
      | duplicate key => cases succeeds
  | @written version records changed reply decodes changes answer =>
      left
      cases answer with
      | ok generation =>
          exact ⟨_, _, _, _, generation, List.mem_cons_of_mem _ (List.mem_singleton_self _)⟩
      | error error =>
          simp only [settle] at succeeds
          split at succeeds <;> cases succeeds

private theorem Course.result_of_read_error (course : request.Course collection talk) {key : String}
    {error : Error} (failed : .read key (.error error) ∈ talk.exchanges) :
    talk.result = .error (.store collection.blobKey error) := by
  cases course with
  | refused key objection => cases failed
  | unread other =>
      cases List.mem_singleton.mp failed
      rfl
  | undecoded version found => cases List.mem_singleton.mp failed
  | answered decodes settles => cases List.mem_singleton.mp failed
  | written decodes changes answer => simp at failed

private theorem Course.result_of_write_error (course : request.Course collection talk)
    {key contentType : String} {content : Bytes} {expected : Generation} {error : Error}
    (failed : .write key contentType content expected (.error error) ∈ talk.exchanges) :
    talk.result = .error (request.writeFailure collection error) := by
  cases course with
  | refused key objection => cases failed
  | unread other => cases List.mem_singleton.mp failed
  | undecoded version found => cases List.mem_singleton.mp failed
  | answered decodes settles => cases List.mem_singleton.mp failed
  | written decodes changes answer =>
      have same : answer = .error error := by
        simp only [List.mem_cons, reduceCtorEq, Exchange.write.injEq, List.not_mem_nil, or_false,
          false_or] at failed
        exact failed.2.2.2.2.symm
      rw [same]
      cases error <;> rfl

/-- What is invalid, missing or a duplicate is told before any write. -/
theorem Course.unwritten (course : request.Course collection talk) {key : String}
    (fails :
      (∃ objection, talk.result = .error (.invalid key objection)) ∨
        talk.result = .error (.notFound key) ∨
        talk.result = .error (.conflict key .duplicate)) :
    ∀ exchange ∈ talk.exchanges, exchange.isWrite = false := by
  intro exchange member
  cases course with
  | refused other objection => cases member
  | unread error =>
      rw [List.mem_singleton.mp member]
      rfl
  | undecoded version found =>
      rw [List.mem_singleton.mp member]
      rfl
  | answered decodes settles =>
      rw [List.mem_singleton.mp member]
      rfl
  | written decodes changes answer =>
      exfalso
      cases answer with
      | ok generation => simp [settle] at fails
      | error error =>
          simp only [settle] at fails
          split at fails <;> simp at fails

end Rules

/-- Whatever a store answers, with any faults and any bytes: a request makes no call,
or one read of its blob, or this read and then one write of the same blob at the mark
that was read. It writes only after it has read and decoded, and then nothing but the
records that it read with the one change that it asks for. A request that may write
succeeds only if its write was taken, or if there was nothing to remove. A failed
read is passed on, and so is a failed write, except that a wrong expectation is told as
a conflict. What is invalid, missing or a duplicate has written nothing. -/
theorem requests_keep_to_protocol {S : Type} (respondent : Respondent S) (state : S)
    (collection : Collection R) (request : Request R) :
    let talk := (request.plan collection).talk respondent state
    (talk.exchanges = [] ∨
      (∃ answer, talk.exchanges = [.read collection.blobKey answer]) ∨
      ∃ version records changed reply answer,
        talk.exchanges =
          [.read collection.blobKey (.ok version),
            .write collection.blobKey "application/x-ndjson" (encode changed) version.generation
              answer] ∧
        decode version.contentOrEmpty = .ok records ∧
        request.Changes records changed reply) ∧
    (∀ reply, request.isMutating = true → talk.result = .ok reply →
      (∃ key contentType content expected generation,
        .write key contentType content expected (.ok generation) ∈ talk.exchanges) ∨
      ∃ unwanted version records,
        request = .removeWhere unwanted ∧
        talk.exchanges = [.read collection.blobKey (.ok version)] ∧
        decode version.contentOrEmpty = .ok records ∧
        (∀ record ∈ records, unwanted record = false) ∧
        reply = .count 0) ∧
    (∀ key error, .read key (.error error) ∈ talk.exchanges →
      talk.result = .error (.store collection.blobKey error)) ∧
    (∀ key contentType content expected error,
      .write key contentType content expected (.error error) ∈ talk.exchanges →
      talk.result = .error (request.writeFailure collection error)) ∧
    (∀ key,
      (∃ objection, talk.result = .error (.invalid key objection)) ∨
        talk.result = .error (.notFound key) ∨
        talk.result = .error (.conflict key .duplicate) →
      ∀ exchange ∈ talk.exchanges, exchange.isWrite = false) := by
  intro talk
  have course : request.Course collection talk := course_talk respondent state collection request
  refine ⟨course.exchanges, ?_, ?_, ?_, ?_⟩
  · exact fun reply => course.taken_of_ok
  · exact fun key error => course.result_of_read_error
  · exact fun key contentType content expected error => course.result_of_write_error
  · exact fun key => course.unwritten

end Request

end RoomLedger.Collection
