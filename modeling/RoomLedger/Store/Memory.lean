import RoomLedger.Index
import RoomLedger.Store.Basic

/-!
Contract: blobs that are kept in memory.

Owns:
- `MemoryStore`, blobs under their keys and a counter of the writes taken;
- its reads and writes, which refuse what is no key;
- `MemoryStore.keys`, the keys in order, and `MemoryStore.describe`.

The counter has sixty-four bits and starts again from zero after the last
number.

Does not own: collections.
-/

namespace RoomLedger.Store

open RoomLedger.Text (Bytes)

/-- A blob that is kept in memory. -/
structure Blob where
  content : Bytes
  contentType : String
  generation : Generation
deriving DecidableEq, Repr

/-- What a read finds where there is that blob. -/
def Blob.version (blob : Blob) : Version where
  content := some blob.content
  contentType := some blob.contentType
  generation := blob.generation

/-- Blobs that are kept in memory. -/
structure MemoryStore where
  blobs : Index String Blob := .empty
  /-- How many writes were taken. -/
  writeCount : UInt64 := 0
deriving DecidableEq, Repr

namespace MemoryStore

def empty : MemoryStore := {}

def length (store : MemoryStore) : Nat :=
  store.blobs.keys.length

def keys (store : MemoryStore) : List String :=
  store.blobs.keys.mergeSort fun left right => decide (left ≤ right)

/-- The text that names the store in a log. -/
def describe (store : MemoryStore) : String :=
  s!"InMemoryBlobStore \x7b blob_count: {store.length}, write_count: {store.writeCount} \x7d"

/-- What there is under a key, whatever its form. -/
def version (store : MemoryStore) (key : String) : Version :=
  match store.blobs.find? key with
  | none => .absent
  | some blob => blob.version

def read (store : MemoryStore) (key : String) : Except Error Version :=
  match checkKey key with
  | .error fault => .error (.invalidKey key (.form fault))
  | .ok () => .ok (store.version key)

/-- Puts a blob under a key, provided that the key has the expected mark. -/
def write (store : MemoryStore) (key contentType : String) (content : Bytes)
    (expected : Generation) : Except Error Generation × MemoryStore :=
  match checkKey key with
  | .error fault => (.error (.invalidKey key (.form fault)), store)
  | .ok () =>
      match nextMark key (store.version key).generation expected with
      | .error error => (.error error, store)
      | .ok generation =>
          (.ok generation,
            { blobs := store.blobs.put key { content, contentType, generation },
              writeCount := store.writeCount + 1 })

instance : BlobStore MemoryStore := ⟨read, write⟩

end MemoryStore

end RoomLedger.Store
