import Mlxcel.Lib.Sha256

/-!
# BLAKE3

The unkeyed BLAKE3 hash function with its default output of 32 bytes. A message is cut into chunks
of 1024 bytes and a chunk into blocks of 64. The chunks are the leaves of a binary tree whose left
subtrees are full, and the root of the tree is compressed once more under the root flag. Like
`sha256`, the function works on natural numbers below `2 ^ 32` and is written to be evaluated by
the kernel.
-/

namespace Blake3

/-- The sixteen words of the compression function. -/
structure State where
  (v0 v1 v2 v3 v4 v5 v6 v7 v8 v9 v10 v11 v12 v13 v14 v15 : ℕ)

/-- The words that chaining starts from. They are those of SHA-256. -/
def iv : List ℕ :=
  [0x6a09e667, 0xbb67ae85, 0x3c6ef372, 0xa54ff53a, 0x510e527f, 0x9b05688c, 0x1f83d9ab, 0x5be0cd19]

def chunkStart : ℕ := 1

def chunkEnd : ℕ := 2

def parent : ℕ := 4

def root : ℕ := 8

/-- The mixing function on four words and two message words. -/
def mix (a b c d x y : ℕ) : ℕ × ℕ × ℕ × ℕ :=
  let a := (a + b + x) % 2 ^ 32
  let d := Sha256.rotr (d ^^^ a) 16
  let c := (c + d) % 2 ^ 32
  let b := Sha256.rotr (b ^^^ c) 12
  let a := (a + b + y) % 2 ^ 32
  let d := Sha256.rotr (d ^^^ a) 8
  let c := (c + d) % 2 ^ 32
  let b := Sha256.rotr (b ^^^ c) 7
  (a, b, c, d)

/-- One round: the columns are mixed, then the diagonals. -/
def round (s : State) (m : List ℕ) : State :=
  let w (i : ℕ) := m.getD i 0
  let (v0, v4, v8, v12) := mix s.v0 s.v4 s.v8 s.v12 (w 0) (w 1)
  let (v1, v5, v9, v13) := mix s.v1 s.v5 s.v9 s.v13 (w 2) (w 3)
  let (v2, v6, v10, v14) := mix s.v2 s.v6 s.v10 s.v14 (w 4) (w 5)
  let (v3, v7, v11, v15) := mix s.v3 s.v7 s.v11 s.v15 (w 6) (w 7)
  let (v0, v5, v10, v15) := mix v0 v5 v10 v15 (w 8) (w 9)
  let (v1, v6, v11, v12) := mix v1 v6 v11 v12 (w 10) (w 11)
  let (v2, v7, v8, v13) := mix v2 v7 v8 v13 (w 12) (w 13)
  let (v3, v4, v9, v14) := mix v3 v4 v9 v14 (w 14) (w 15)
  ⟨v0, v1, v2, v3, v4, v5, v6, v7, v8, v9, v10, v11, v12, v13, v14, v15⟩

/-- The order in which the next round reads the message words. -/
def permute (m : List ℕ) : List ℕ :=
  [2, 6, 3, 10, 7, 0, 4, 13, 1, 11, 12, 5, 9, 14, 15, 8].map fun i => m.getD i 0

def rounds : ℕ → State → List ℕ → State
  | 0, s, _ => s
  | n + 1, s, m => rounds n (round s m) (permute m)

/-- What a block or a parent node is compressed with. -/
structure Node where
  cv : List ℕ
  block : List ℕ
  counter : ℕ
  blockLen : ℕ
  flags : ℕ

/-- The first eight words of the compression of a node. -/
def compress (node : Node) : List ℕ :=
  let c (i : ℕ) := node.cv.getD i 0
  let s := rounds 7 ⟨c 0, c 1, c 2, c 3, c 4, c 5, c 6, c 7, iv.getD 0 0, iv.getD 1 0, iv.getD 2 0,
    iv.getD 3 0, node.counter % 2 ^ 32, node.counter / 2 ^ 32 % 2 ^ 32, node.blockLen,
    node.flags⟩ node.block
  [s.v0 ^^^ s.v8, s.v1 ^^^ s.v9, s.v2 ^^^ s.v10, s.v3 ^^^ s.v11,
    s.v4 ^^^ s.v12, s.v5 ^^^ s.v13, s.v6 ^^^ s.v14, s.v7 ^^^ s.v15]

/-- The little-endian words of a byte string. -/
def words : List ℕ → List ℕ
  | a :: b :: c :: d :: rest => (a + b <<< 8 + c <<< 16 + d <<< 24) :: words rest
  | _ => []

/-- The node of the last block of a chunk, after `n` blocks before it were chained. -/
def chunkBlocks (counter : ℕ) : ℕ → ℕ → List ℕ → List ℕ → Node
  | 0, start, cv, bytes =>
    ⟨cv, words (bytes ++ List.replicate (64 - bytes.length) 0), counter, bytes.length,
      start ||| chunkEnd⟩
  | n + 1, start, cv, bytes =>
    let next := compress ⟨cv, words (bytes.take 64), counter, 64, start⟩
    chunkBlocks counter n 0 next (bytes.drop 64)

def chunk (counter : ℕ) (bytes : List ℕ) : Node :=
  chunkBlocks counter ((bytes.length - 1) / 64) chunkStart iv bytes

/-- The node at the top of the tree over `bytes`, whose first chunk has number `counter`. -/
def tree : ℕ → ℕ → List ℕ → Node
  | 0, counter, bytes => chunk counter bytes
  | fuel + 1, counter, bytes =>
    if bytes.length ≤ 1024 then chunk counter bytes
    else
      let chunks := 2 ^ Nat.log2 ((bytes.length - 1) / 1024)
      let left := compress (tree fuel counter (bytes.take (1024 * chunks)))
      let right := compress (tree fuel (counter + chunks) (bytes.drop (1024 * chunks)))
      ⟨iv, left ++ right, 0, 64, parent⟩

/-- The `w`-byte little-endian rendering of `n`. -/
def leBytes (w n : ℕ) : List ℕ := (List.range w).map fun i => (n >>> (8 * i)) % 256

end Blake3

/-- BLAKE3 of a byte string. The tree is at most as deep as the length has bits. -/
def blake3 (message : List UInt8) : Digest :=
  let node := Blake3.tree (Nat.log2 message.length + 1) 0 (message.map UInt8.toNat)
  let out := Blake3.compress { node with flags := node.flags ||| Blake3.root }
  ⟨out.flatMap fun w => (Blake3.leBytes 4 w).map UInt8.ofNat,
    by simp [out, Blake3.compress, Blake3.leBytes]⟩

-- The hash of the empty message.
example : (blake3 []).bytes = [
    0xaf, 0x13, 0x49, 0xb9, 0xf5, 0xf9, 0xa1, 0xa6, 0xa0, 0x40, 0x4d, 0xea, 0x36, 0xdc, 0xc9, 0x49,
    0x9b, 0xcb, 0x25, 0xc9, 0xad, 0xc1, 0x12, 0xb7, 0xcc, 0x9a, 0x93, 0xca, 0xe4, 0x1f, 0x32,
    0x62] := by
  decide +kernel
