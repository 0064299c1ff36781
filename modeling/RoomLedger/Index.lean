/-!
Contract: a finite map that keeps its entries in the order in which they came.

Owns:
- `Index`, keys with values, with `find?`, `put` and `drop`;
- the laws that say what each operation does to `find?` and to the keys.

Does not own: the order of keys, which a reader of the entries chooses.
-/

namespace RoomLedger

/-- Keys with values, in the order in which they came. -/
structure Index (Key Value : Type) where
  entries : List (Key × Value) := []
deriving DecidableEq, Repr

namespace Index

variable {Key Value : Type} [DecidableEq Key]

def empty : Index Key Value := ⟨[]⟩

def keys (index : Index Key Value) : List Key :=
  index.entries.map Prod.fst

def firstValue? (key : Key) : List (Key × Value) → Option Value
  | [] => none
  | (other, value) :: rest => if other = key then some value else firstValue? key rest

def find? (key : Key) (index : Index Key Value) : Option Value :=
  firstValue? key index.entries

/-- Gives a key its value in a list of entries, in its place if it has one. -/
def putEntry (key : Key) (value : Value) : List (Key × Value) → List (Key × Value)
  | [] => [(key, value)]
  | (other, old) :: rest =>
      if other = key then (key, value) :: rest else (other, old) :: putEntry key value rest

/-- The index in which a key has that value. -/
def put (key : Key) (value : Value) (index : Index Key Value) : Index Key Value :=
  ⟨putEntry key value index.entries⟩

def drop (key : Key) (index : Index Key Value) : Index Key Value :=
  ⟨index.entries.filter fun entry => entry.1 ≠ key⟩

@[simp] theorem find?_empty (key : Key) : (empty : Index Key Value).find? key = none := rfl

theorem firstValue?_putEntry (key other : Key) (value : Value) (entries : List (Key × Value)) :
    firstValue? other (putEntry key value entries) =
      if other = key then some value else firstValue? other entries := by
  induction entries with
  | nil => simp [putEntry, firstValue?, eq_comm]
  | cons entry rest inductionHypothesis =>
    obtain ⟨first, old⟩ := entry
    by_cases hit : first = key <;> by_cases same : other = key <;>
      by_cases front : first = other <;> simp_all [putEntry, firstValue?]

/-- After `put` the key has the new value and every other key its old one. -/
theorem find?_put (key other : Key) (value : Value) (index : Index Key Value) :
    (index.put key value).find? other = if other = key then some value else index.find? other :=
  firstValue?_putEntry key other value index.entries

@[simp] theorem find?_put_self (key : Key) (value : Value) (index : Index Key Value) :
    (index.put key value).find? key = some value := by
  simp [find?_put]

/-- After `drop` the key has no value and every other key its old one. -/
theorem find?_drop (key other : Key) (index : Index Key Value) :
    (index.drop key).find? other = if other = key then none else index.find? other := by
  obtain ⟨entries⟩ := index
  simp only [drop, find?]
  induction entries with
  | nil => simp [firstValue?]
  | cons entry rest inductionHypothesis =>
    obtain ⟨first, value⟩ := entry
    by_cases hit : first = key <;> by_cases same : other = key <;>
      by_cases front : first = other <;> simp_all [firstValue?]

/-- The keys after `put`: a key that had a value keeps its place, and a new one
comes last. -/
theorem keys_put (key : Key) (value : Value) (index : Index Key Value) :
    (index.put key value).keys =
      if key ∈ index.keys then index.keys else index.keys ++ [key] := by
  obtain ⟨entries⟩ := index
  simp only [put, keys]
  induction entries with
  | nil => simp [putEntry]
  | cons entry rest inductionHypothesis =>
    obtain ⟨first, old⟩ := entry
    by_cases hit : first = key
    · subst hit
      simp [putEntry]
    · have apart : key ≠ first := fun same => hit same.symm
      by_cases known : key ∈ rest.map Prod.fst <;>
        simp_all [putEntry]

/-- A key has a value exactly if it is one of the keys. -/
theorem find?_eq_none_iff (key : Key) (index : Index Key Value) :
    index.find? key = none ↔ key ∉ index.keys := by
  obtain ⟨entries⟩ := index
  simp only [find?, keys]
  induction entries with
  | nil => simp [firstValue?]
  | cons entry rest inductionHypothesis =>
    obtain ⟨first, value⟩ := entry
    by_cases same : first = key
    · simp [firstValue?, same]
    · have apart : key ≠ first := fun equal => same equal.symm
      simp [firstValue?, same, apart, inductionHypothesis]

end Index

end RoomLedger
