import RoomLedger.Text.Bytes

/-!
Contract: the digest by which a stored payload is known again.

Owns:
- `Blake3.digest`, the BLAKE3 hash of a byte string, which has thirty-two bytes;
- its parts: the mixing of a block, the chain over the blocks of a chunk, and
  the tree over the chunks.

A chunk has at most sixteen blocks of at most sixty-four bytes. Chunks are the
leaves of a binary tree, in which every left subtree is as large as it can be;
joining neighbours level by level builds that tree.

Does not own: the written form of a digest.
-/

namespace RoomLedger.Digest.Blake3

open RoomLedger.Text (Bytes)

/-! ## Mixing -/

/-- A row of the state: four words that are mixed side by side. -/
structure Row where
  first : UInt32
  second : UInt32
  third : UInt32
  fourth : UInt32
deriving DecidableEq, Repr

namespace Row

def zip (combine : UInt32 → UInt32 → UInt32) (left right : Row) : Row where
  first := combine left.first right.first
  second := combine left.second right.second
  third := combine left.third right.third
  fourth := combine left.fourth right.fourth

/-- The words moved one place to the left, the first one to the end. -/
def turn (row : Row) : Row :=
  ⟨row.second, row.third, row.fourth, row.first⟩

def words (row : Row) : List UInt32 :=
  [row.first, row.second, row.third, row.fourth]

end Row

/-- A word turned to the right by so many bits. -/
def rotateRight (count word : UInt32) : UInt32 :=
  (word >>> count) ||| (word <<< (32 - count))

def addRows (left right : Row) : Row :=
  left.zip (· + ·) right

/-- The exclusive or of two rows, each word turned. -/
def foldRows (count : UInt32) (left right : Row) : Row :=
  left.zip (fun one other => rotateRight count (one ^^^ other)) right

/-- The state: sixteen words in four rows. -/
structure State where
  top : Row
  upper : Row
  lower : Row
  bottom : Row
deriving DecidableEq, Repr

/-- Half of a mixing step over the four columns. -/
def State.halfMix (firstTurn secondTurn : UInt32) (message : Row) (state : State) : State :=
  let top := addRows (addRows state.top state.upper) message
  let bottom := foldRows firstTurn state.bottom top
  let lower := addRows state.lower bottom
  let upper := foldRows secondTurn state.upper lower
  ⟨top, upper, lower, bottom⟩

/-- A mixing step over the four columns, with eight words of the message. -/
def State.mix (even odd : Row) (state : State) : State :=
  (state.halfMix 16 12 even).halfMix 8 7 odd

/-- The state with its diagonals in place of its columns. -/
def State.toDiagonals (state : State) : State :=
  ⟨state.top, state.upper.turn, state.lower.turn.turn, state.bottom.turn.turn.turn⟩

/-- The state with its columns in place again. -/
def State.toColumns (state : State) : State :=
  ⟨state.top, state.upper.turn.turn.turn, state.lower.turn.turn, state.bottom.turn⟩

/-- Sixteen words of a message. -/
structure Block where
  /-- The words 0, 2, 4 and 6. -/
  columnEven : Row
  /-- The words 1, 3, 5 and 7. -/
  columnOdd : Row
  /-- The words 8, 10, 12 and 14. -/
  diagonalEven : Row
  /-- The words 9, 11, 13 and 15. -/
  diagonalOdd : Row
deriving DecidableEq, Repr

/-- The message with its words in the order of the next round. -/
def Block.permute (block : Block) : Block where
  columnEven :=
    ⟨block.columnEven.second, block.columnOdd.second, block.columnOdd.fourth,
      block.columnEven.third⟩
  columnOdd :=
    ⟨block.columnEven.fourth, block.diagonalEven.second, block.columnEven.first,
      block.diagonalOdd.third⟩
  diagonalEven :=
    ⟨block.columnOdd.first, block.diagonalEven.third, block.diagonalOdd.first,
      block.diagonalOdd.fourth⟩
  diagonalOdd :=
    ⟨block.diagonalOdd.second, block.columnOdd.third, block.diagonalEven.fourth,
      block.diagonalEven.first⟩

/-- One round: the columns, then the diagonals. -/
def State.round (block : Block) (state : State) : State :=
  ((state.mix block.columnEven block.columnOdd).toDiagonals.mix
    block.diagonalEven block.diagonalOdd).toColumns

/-- So many rounds, the message permuted after each. -/
def State.rounds : (count : Nat) → Block → State → State
  | 0, _, state => state
  | count + 1, block, state => rounds count block.permute (state.round block)

/-! ## Compression -/

/-- Eight words that stand for all that has been compressed. -/
structure Chain where
  upper : Row
  lower : Row
deriving DecidableEq, Repr

/-- The chain at the start of every chunk and of every parent. -/
def Chain.start : Chain :=
  ⟨⟨0x6A09E667, 0xBB67AE85, 0x3C6EF372, 0xA54FF53A⟩,
    ⟨0x510E527F, 0x9B05688C, 0x1F83D9AB, 0x5BE0CD19⟩⟩

/-- The mark of the first block of a chunk. -/
def chunkStart : UInt32 := 1

def chunkEnd : UInt32 := 2

/-- The mark of a block that holds two chains. -/
def parentMark : UInt32 := 4

/-- The mark of the last compression of all. -/
def rootMark : UInt32 := 8

def compress (chain : Chain) (block : Block) (counter : UInt64) (length marks : UInt32) : Chain :=
  let bottom : Row := ⟨counter.toUInt32, (counter >>> 32).toUInt32, length, marks⟩
  let mixed := State.rounds 7 block ⟨chain.upper, chain.lower, Chain.start.upper, bottom⟩
  ⟨mixed.top.zip (· ^^^ ·) mixed.lower, mixed.upper.zip (· ^^^ ·) mixed.bottom⟩

/-- The words of a byte string, the lowest byte of a word first. -/
def wordsOf : Bytes → List UInt32
  | first :: second :: third :: fourth :: rest =>
      (first.toUInt32 ||| (second.toUInt32 <<< 8) ||| (third.toUInt32 <<< 16) |||
        (fourth.toUInt32 <<< 24)) :: wordsOf rest
  | _ => []

/-- Sixteen words as a block; missing words are zero. -/
def blockOf (words : List UInt32) : Block :=
  let word (index : Nat) : UInt32 := words.getD index 0
  { columnEven := ⟨word 0, word 2, word 4, word 6⟩
    columnOdd := ⟨word 1, word 3, word 5, word 7⟩
    diagonalEven := ⟨word 8, word 10, word 12, word 14⟩
    diagonalOdd := ⟨word 9, word 11, word 13, word 15⟩ }

/-- The bytes of a word, the lowest one first. -/
def wordBytes (word : UInt32) : Bytes :=
  [word.toUInt8, (word >>> 8).toUInt8, (word >>> 16).toUInt8, (word >>> 24).toUInt8]

def Chain.words (chain : Chain) : List UInt32 :=
  chain.upper.words ++ chain.lower.words

/-! ## Chunks -/

def blockLength : Nat := 64

def chunkLength : Nat := 1024

/-- A byte string in pieces of one size, of which the last may be shorter. There
is always a piece. -/
def pieces (size : Nat) (positive : 0 < size) (content : Bytes) : List Bytes :=
  if content.length ≤ size then [content]
  else content.take size :: pieces size positive (content.drop size)
termination_by content.length
decreasing_by
  rw [List.length_drop]
  omega

/-- The chain over the blocks of a chunk. `startMark` marks the first block and
`extraMarks` the last one. -/
def chainBlocks (counter : UInt64) (extraMarks : UInt32) :
    (startMark : UInt32) → Chain → List Bytes → Chain
  | _, chain, [] => chain
  | startMark, chain, [last] =>
      let padded := last ++ List.replicate (blockLength - last.length) 0
      compress chain (blockOf (wordsOf padded)) counter (UInt32.ofNat last.length)
        (startMark ||| chunkEnd ||| extraMarks)
  | startMark, chain, block :: rest =>
      let after :=
        compress chain (blockOf (wordsOf block)) counter (UInt32.ofNat blockLength) startMark
      chainBlocks counter extraMarks 0 after rest

def chunkChain (extraMarks : UInt32) (counter : UInt64) (content : Bytes) : Chain :=
  chainBlocks counter extraMarks chunkStart Chain.start (pieces blockLength (by decide) content)

/-- The chains of the chunks from one number on. -/
def chunkChains : (counter : UInt64) → List Bytes → List Chain
  | _, [] => []
  | counter, chunk :: rest => chunkChain 0 counter chunk :: chunkChains (counter + 1) rest

/-! ## The tree -/

def parent (extraMarks : UInt32) (left right : Chain) : Chain :=
  compress Chain.start (blockOf (left.words ++ right.words)) 0 (UInt32.ofNat blockLength)
    (parentMark ||| extraMarks)

/-- The next level of the tree; a chain without a neighbour moves up as it is. -/
def joinNeighbours : List Chain → List Chain
  | left :: right :: rest => parent 0 left right :: joinNeighbours rest
  | rest => rest

theorem length_joinNeighbours_le (chains : List Chain) :
    (joinNeighbours chains).length ≤ chains.length := by
  fun_induction joinNeighbours chains with
  | case1 left right rest inductionHypothesis =>
    simp only [List.length_cons]
    omega
  | case2 => exact Nat.le_refl _

def root : List Chain → Chain
  | [] => Chain.start
  | [only] => only
  | [left, right] => parent rootMark left right
  | left :: right :: third :: rest =>
      root (parent 0 left right :: joinNeighbours (third :: rest))
termination_by chains => chains.length
decreasing_by
  have bound := length_joinNeighbours_le (third :: rest)
  simp only [List.length_cons] at bound ⊢
  omega

def hash (content : Bytes) : Chain :=
  match pieces chunkLength (by decide) content with
  | [only] => chunkChain rootMark 0 only
  | chunks => root (chunkChains 0 chunks)

def digest (content : Bytes) : Bytes :=
  (hash content).words.flatMap wordBytes

@[simp] theorem length_digest (content : Bytes) : (digest content).length = 32 := by
  simp [digest, Chain.words, Row.words, wordBytes]

end RoomLedger.Digest.Blake3
