import RoomLedger.Record.Basic

/-!
Contract: the selection, order and cap of lists of records.

Owns:
- `Query`, an owner, two inclusive bounds on the time and a cap, each optional;
- `Query.direction` and `Query.effectiveLimit`, which depend on the bounds given;
- `Query.apply`.

A query with only an end asks what came before it, so the records closest to the
end come first. A cap counts only where exactly one bound is given. Records of
one time are ordered by key, and records of one time and key keep their order.

Does not own: where the records come from.
-/

namespace RoomLedger

/-- What a list of records should hold. -/
structure Query where
  /-- Only records of this owner. -/
  creatorId : Option String := none
  /-- Only records at this time or later. -/
  start : Option Time.Timestamp := none
  /-- Only records at this time or earlier. -/
  finish : Option Time.Timestamp := none
  /-- No more records than this. -/
  limit : Option Nat := none
deriving DecidableEq, Repr

/-- The order of a list. -/
inductive Direction where
  | ascending
  | descending
deriving DecidableEq, Repr

/-- The ascending order: by time, and by key where the times are the same. -/
def inOrder {R : Type} [Record R] (left right : R) : Bool :=
  let leftMoment := (Record.timestamp left).moment
  let rightMoment := (Record.timestamp right).moment
  leftMoment < rightMoment ||
    (leftMoment == rightMoment && decide (Record.key left ≤ Record.key right))

def Direction.before {R : Type} [Record R] : Direction → R → R → Bool
  | .ascending, left, right => inOrder left right
  | .descending, left, right => inOrder right left

namespace Query

def all : Query := {}

def createdBy (query : Query) (creatorId : String) : Query :=
  { query with creatorId := some creatorId }

def since (query : Query) (start : Time.Timestamp) : Query :=
  { query with start := some start }

def upTo (query : Query) (finish : Time.Timestamp) : Query :=
  { query with finish := some finish }

def capped (query : Query) (limit : Nat) : Query :=
  { query with limit := some limit }

/-- Descending for a query with only an end. -/
def direction (query : Query) : Direction :=
  match query.start, query.finish with
  | none, some _ => .descending
  | _, _ => .ascending

/-- The cap of a query with exactly one bound. -/
def effectiveLimit (query : Query) : Option Nat :=
  match query.start, query.finish with
  | some _, none => query.limit
  | none, some _ => query.limit
  | _, _ => none

variable {R : Type} [Record R]

/-- The record has the owner that the query names, if it names one. -/
def ownerMatches (query : Query) (record : R) : Bool :=
  match query.creatorId with
  | none => true
  | some creatorId => Record.owner record = creatorId

/-- The record is not before the start, if there is one. -/
def notBefore (query : Query) (record : R) : Bool :=
  match query.start with
  | none => true
  | some start => start ≤ Record.timestamp record

/-- The record is not after the end, if there is one. -/
def notAfter (query : Query) (record : R) : Bool :=
  match query.finish with
  | none => true
  | some finish => Record.timestamp record ≤ finish

/-- The record is one that the query asks for. -/
def selects (query : Query) (record : R) : Bool :=
  query.ownerMatches record && query.notBefore record && query.notAfter record

def sort (query : Query) (records : List R) : List R :=
  records.mergeSort (Direction.before query.direction)

/-- The records up to the cap, if one counts. -/
def cap (query : Query) (records : List R) : List R :=
  match query.effectiveLimit with
  | none => records
  | some limit => records.take limit

/-- The records that the query asks for, in its order and up to its cap. -/
def apply (query : Query) (records : List R) : List R :=
  query.cap (query.sort (records.filter query.selects))

end Query

end RoomLedger
