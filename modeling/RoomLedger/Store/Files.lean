import RoomLedger.Disk.Script
import RoomLedger.Store.FileFormat
import RoomLedger.Store.Plan

/-!
Contract: blobs that are kept in files.

Owns:
- `FileStore`, a directory with the settings of its writers;
- `FileStore.read`, which looks at the file of a key and takes no lock;
- `FileStore.write`, which takes the lock beside the file, looks at the file,
  fills a draft beside it and moves the draft into its place;
- `Plan.onFiles`, an operation on a store as the requests it makes;
- `MountedStore`, a file store with the tree it lies in.

A lock file stays behind. A draft is moved only when it is whole, so that a
reader finds the blob before or the blob after.

Does not own: the content of a blob's file.
-/

namespace RoomLedger.Store

open RoomLedger.Disk
open RoomLedger.Text (Bytes)

/-- The settings of writers. -/
structure FileSettings where
  /-- How many milliseconds a writer waits for a lock. -/
  lockTimeout : Nat := 2000
  /-- A draft must have reached the medium before it is moved. -/
  syncOnWrite : Bool := true
deriving DecidableEq, Repr

/-- A directory of blobs. -/
structure FileStore where
  root : Path
  settings : FileSettings := {}
deriving DecidableEq, Repr

/-- A length of time as a number of its largest whole unit, or of seconds with a
fraction. -/
def durationText (millis : Nat) : String :=
  if millis = 0 then "0ns"
  else if millis < 1000 then s!"{millis}ms"
  else
    let fraction := (Decimal.fixed 3 (millis % 1000)).map Decimal.digitChar
    let shown := (fraction.reverse.dropWhile (· == '0')).reverse
    let point := if shown.isEmpty then "" else "."
    s!"{millis / 1000}{point}{String.ofList shown}s"

namespace FileStore

/-- The text that names the store in a log. -/
def describe (store : FileStore) : String :=
  let settings :=
    s!"FileStoreConfig \x7b lock_timeout: {durationText store.settings.lockTimeout}, " ++
      s!"sync_on_write: {store.settings.syncOnWrite} \x7d"
  s!"FileBlobStore \x7b root: {Text.quoted store.root.text}, config: {settings} \x7d"

def blobPath (store : FileStore) (key : String) : Path :=
  store.root.join (components key)

/-- Where the writers of a key take their lock. -/
def lockPath (store : FileStore) (key : String) : Path :=
  (store.blobPath key).withEnding lockEnding

/-- Where a writer of a key fills its draft. -/
def draftPath (store : FileStore) (key : String) : Path :=
  (store.blobPath key).withEnding draftEnding

/-- The store of a directory, which is made if there is none. -/
def openAt (root : Path) (settings : FileSettings) : Script (Except Error FileStore) :=
  .ask (.makeDirectories root) fun answer =>
    match answer with
    | .error _ => .done (.error .io)
    | .ok () => .done (.ok { root, settings })

/-- What the content of a blob's file says, if there is a file. -/
def interpret (key : String) : Except Fault Bytes → Except Error Version
  | .error .notFound => .ok .absent
  | .error _ => .error .io
  | .ok content =>
      match decodeFile content with
      | .error damage => .error (.corrupt key damage)
      | .ok version => .ok version

def read (store : FileStore) (key : String) : Script (Except Error Version) :=
  match checkKey key with
  | .error fault => .done (.error (.invalidKey key (.form fault)))
  | .ok () => .ask (.read (store.blobPath key)) fun answer => .done (interpret key answer)

/-- The end of a write that has the lock: the lock is given up whatever the
result is. -/
def release (store : FileStore) (key : String) (result : Except Error Generation) :
    Script (Except Error Generation) :=
  .ask (.dropLock (store.lockPath key)) fun () => .done result

/-- A request of a writer that has the lock. If it fails, so does the write. -/
def proceed (store : FileStore) (key : String) (answer : Except Fault Unit)
    (next : Script (Except Error Generation)) : Script (Except Error Generation) :=
  match answer with
  | .error _ => store.release key (.error .io)
  | .ok () => next

/-- Moves the draft into the place of the blob. -/
def publish (store : FileStore) (key : String) (generation : Generation) :
    Script (Except Error Generation) :=
  .ask (.rename (store.draftPath key) (store.blobPath key)) fun answer =>
    store.proceed key answer (store.release key (.ok generation))

/-- Moves the draft into the place of the blob, after it has reached the medium
if that is asked for. -/
def settle (store : FileStore) (key : String) (generation : Generation) :
    Script (Except Error Generation) :=
  if store.settings.syncOnWrite then
    .ask (.sync (store.draftPath key)) fun answer =>
      store.proceed key answer (store.publish key generation)
  else store.publish key generation

/-- Fills the draft piece by piece, and moves it. -/
def fill (store : FileStore) (key contentType : String) (content : Bytes)
    (generation : Generation) : Script (Except Error Generation) :=
  let draft := store.draftPath key
  let line := (headerOf generation contentType content).write
  .ask (.create draft) fun created =>
    store.proceed key created <|
      .ask (.append draft line) fun headed =>
        store.proceed key headed <|
          .ask (.append draft [0x0A]) fun ended =>
            store.proceed key ended <|
              .ask (.append draft content) fun filled =>
                store.proceed key filled (store.settle key generation)

/-- The write of a writer that has the lock. -/
def replace (store : FileStore) (key contentType : String) (content : Bytes)
    (expected : Generation) : Script (Except Error Generation) :=
  .ask (.read (store.blobPath key)) fun answer =>
    match interpret key answer with
    | .error error => store.release key (.error error)
    | .ok version =>
        match nextMark key version.generation expected with
        | .error error => store.release key (.error error)
        | .ok generation => store.fill key contentType content generation

/-- Puts a blob under a key, provided that the key has the expected mark. -/
def write (store : FileStore) (key contentType : String) (content : Bytes) (expected : Generation) :
    Script (Except Error Generation) :=
  match checkKey key with
  | .error fault => .done (.error (.invalidKey key (.form fault)))
  | .ok () =>
      .ask (.makeDirectories (store.blobPath key).parent) fun made =>
        match made with
        | .error _ => .done (.error .io)
        | .ok () =>
            .ask (.openFile (store.lockPath key)) fun opened =>
              match opened with
              | .error _ => .done (.error .io)
              | .ok () =>
                  .ask (.takeLock (store.lockPath key) store.settings.lockTimeout) fun taken =>
                    match taken with
                    | .error _ => .done (.error .io)
                    | .ok false => .done (.error (.lockTimeout key))
                    | .ok true => store.replace key contentType content expected

end FileStore

/-- An operation on a store as the requests that it makes of the file system. -/
def Plan.onFiles {α : Type} (files : FileStore) : Plan α → Script α
  | .done result => .done result
  | .read key next => (files.read key).bind fun answer => (next answer).onFiles files
  | .write key contentType content expected next =>
      (files.write key contentType content expected).bind fun answer =>
        (next answer).onFiles files

/-- A file store with the tree that it lies in. -/
structure MountedStore where
  files : FileStore
  tree : Tree
  /-- The holder of the locks that writes take. -/
  holder : Holder := 0

namespace MountedStore

def read (store : MountedStore) (key : String) : Except Error Version :=
  ((store.files.read key).run store.holder store.tree).1

/-- Puts a blob under a key, provided that the key has the expected mark. -/
def write (store : MountedStore) (key contentType : String) (content : Bytes)
    (expected : Generation) : Except Error Generation × MountedStore :=
  let (result, tree) :=
    (store.files.write key contentType content expected).run store.holder store.tree
  (result, { store with tree })

instance : BlobStore MountedStore := ⟨read, write⟩

end MountedStore

end RoomLedger.Store
