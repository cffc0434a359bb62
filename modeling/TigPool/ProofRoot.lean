/-
# `TigPool.ProofRoot` — the root that a proof leads to

A member commits to all outputs of a benchmark by the root of a hash tree and later opens
it at the sampled nonces.  `proofRoot` follows the branch of a proof up from its leaf.
The branch says itself at which depths it has siblings, since an odd node is carried up
unpaired; the code checks that the depths rise and stay below the height of the tree,
not that they are those of this tree.

`blake3` is a parameter.
-/
import TigPool.Basis.Merkle
import TigPool.Chain

namespace TigPool

open Basis

/-! ## Bytes and texts -/

structure Digest where
  bytes : List UInt8
  size : bytes.length = 32
deriving DecidableEq

abbrev Blake3 := List UInt8 → Digest

/-- `s.encode()` -/
def encode (s : String) : List UInt8 :=
  s.toUTF8.data.toList

def hexChars (bytes : List UInt8) : List Char :=
  bytes.flatMap fun b => [Nat.digitChar (b.toNat / 16), Nat.digitChar (b.toNat % 16)]

/-- `bytes.hex()` -/
def Digest.hex (digest : Digest) : String :=
  String.ofList (hexChars digest.bytes)

/-- The zeros of the decimal digits that `int` understands. -/
def decimalZeros : List ℕ :=
  [0x30, 0x660, 0x6f0, 0x7c0, 0x966, 0x9e6, 0xa66, 0xae6, 0xb66, 0xbe6, 0xc66, 0xce6, 0xd66,
    0xde6, 0xe50, 0xed0, 0xf20, 0x1040, 0x1090, 0x17e0, 0x1810, 0x1946, 0x19d0, 0x1a80, 0x1a90,
    0x1b50, 0x1bb0, 0x1c40, 0x1c50, 0xa620, 0xa8d0, 0xa900, 0xa9d0, 0xa9f0, 0xaa50, 0xabf0,
    0xff10, 0x104a0, 0x10d30, 0x11066, 0x110f0, 0x11136, 0x111d0, 0x112f0, 0x11450, 0x114d0,
    0x11650, 0x116c0, 0x11730, 0x118e0, 0x11950, 0x11c50, 0x11d50, 0x11da0, 0x11f50, 0x16a60,
    0x16ac0, 0x16b50, 0x1d7ce, 0x1d7d8, 0x1d7e2, 0x1d7ec, 0x1d7f6, 0x1e140, 0x1e2f0, 0x1e4f0,
    0x1e950, 0x1fbf0]

def digitOf (c : Char) : Option ℕ :=
  if isHexDigit c then some (digitValue c)
  else (decimalZeros.find? fun z => z ≤ c.toNat ∧ c.toNat < z + 10).map (c.toNat - ·)

def natOf (digits : List Char) : Option ℕ :=
  if digits = [] then none
  else digits.foldlM (fun n c => (digitOf c).map (16 * n + ·)) 0

/-- `int(text, 16)` for a text of at most two characters, which has no room for a prefix or
an underscore. -/
def intOf (chars : List Char) : Option ℤ :=
  match ((chars.dropWhile isSpace).reverse.dropWhile isSpace).reverse with
  | '-' :: digits => (natOf digits).map (-·)
  | '+' :: digits => (natOf digits).map (↑)
  | digits => (natOf digits).map (↑)

/-- White space that `bytes.fromhex` skips between bytes. -/
def isAsciiSpace (c : Char) : Bool :=
  c.toNat ∈ [0x9, 0xa, 0xb, 0xc, 0xd, 0x20]

/-- `bytes.fromhex` -/
def fromHex : List Char → Option (List UInt8)
  | [] => some []
  | c :: rest =>
      if isAsciiSpace c then fromHex rest
      else match rest with
        | [] => none
        | d :: rest =>
            if isHexDigit c ∧ isHexDigit d then
              (fromHex rest).map (UInt8.ofNat (16 * digitValue c + digitValue d) :: ·)
            else none

/-- A character inside a JSON string. -/
def escape (c : Char) : List Char :=
  let backslash := Char.ofNat 92
  match c.toNat with
  | 34 => [backslash, Char.ofNat 34]
  | 92 => [backslash, backslash]
  | 8 => [backslash, 'b']
  | 9 => [backslash, 't']
  | 10 => [backslash, 'n']
  | 12 => [backslash, 'f']
  | 13 => [backslash, 'r']
  | n =>
      if n < 32 then
        [backslash, 'u', '0', '0', Nat.digitChar (n / 16), Nat.digitChar (n % 16)]
      else [c]

/-- `_json` of a text -/
def quoted (s : String) : String :=
  String.ofList (Char.ofNat 34 :: s.toList.flatMap escape ++ [Char.ofNat 34])

namespace MemberProtocol

open Protocol

/-! ## Leaves -/

/-- An output of one nonce. -/
structure Leaf where
  nonce : ℕ
  runtimeSignature : ℕ
  fuelConsumed : ℕ
  solution : String
  cpuArch : String
  uint64 : nonce < 2 ^ 64 ∧ runtimeSignature < 2 ^ 64 ∧ fuelConsumed < 2 ^ 64
  known : cpuArch = "amd64" ∨ cpuArch = "arm64"
deriving DecidableEq

/-- The first eight bytes of the solution's hash, as a number. -/
def Leaf.solutionSignature (blake3 : Blake3) (leaf : Leaf) : ℕ :=
  ((blake3 (encode (quoted leaf.solution))).bytes.take 8).foldr (fun b n => b.toNat + 256 * n) 0

/-- The key of a member of a JSON object. -/
def jsonKey (name : String) : List Char :=
  Char.ofNat 34 :: name.toList ++ [Char.ofNat 34, ':']

/-- `_json` of the metadata -/
def Leaf.metadata (blake3 : Blake3) (leaf : Leaf) : String :=
  String.ofList ('\x7b' :: jsonKey "fuel_consumed" ++ (Nat.toDigits 10 leaf.fuelConsumed ++ ',' ::
    (jsonKey "nonce" ++ (Nat.toDigits 10 leaf.nonce ++ ',' ::
      (jsonKey "runtime_signature" ++ (Nat.toDigits 10 leaf.runtimeSignature ++ ',' ::
        (jsonKey "solution_signature" ++
          (Nat.toDigits 10 (leaf.solutionSignature blake3) ++ ['\x7d']))))))))

def Leaf.hash (blake3 : Blake3) (leaf : Leaf) : Digest :=
  blake3 (encode (leaf.metadata blake3))

def readUint64 (value : Json) (e : Error) : Result (Fin (2 ^ 64)) :=
  match value with
  | .int n =>
      if h : n.toNat < 2 ^ 64 then do
        require (0 ≤ n) e
        return ⟨n.toNat, h⟩
      else .error e
  | _ => .error e

/-- A leaf of a benchmark with so many nonces. -/
def readLeaf (count : ℕ) (leaf : Json) : Result Leaf := do
  let invalid := Error.funds "invalid TIG output leaf"
  let members ← membersOf leaf invalid
  require (hasFields members
    ["nonce", "runtime_signature", "fuel_consumed", "solution", "cpu_arch"]) invalid
  let metadata := Error.funds "TIG output metadata must use uint64 integers"
  let nonce ← readUint64 (← field leaf "nonce") metadata
  let runtimeSignature ← readUint64 (← field leaf "runtime_signature") metadata
  let fuelConsumed ← readUint64 (← field leaf "fuel_consumed") metadata
  let mismatch := Error.funds "TIG output does not match the benchmark"
  require (nonce.val < count) mismatch
  match ← field leaf "cpu_arch", ← field leaf "solution" with
  | .str cpuArch, .str solution =>
      if h : cpuArch = "amd64" ∨ cpuArch = "arm64" then
        return ⟨nonce, runtimeSignature, fuelConsumed, solution, cpuArch,
          ⟨nonce.2, runtimeSignature.2, fuelConsumed.2⟩, h⟩
      else throw mismatch
  | _, _ => throw mismatch

/-! ## Branches -/

/-- One step of a branch: its depth and the sibling there.  An error about the depth is a
`ValueError` as well, and so is reported as one of the encoding. -/
def checkStep (maximum level : ℕ) (depth : ℤ) (other : List UInt8) : Result (ℕ × Digest) :=
  if h : other.length = 32 ∧ level ≤ depth ∧ depth < maximum then
    .ok (depth.toNat, ⟨other, h.1⟩)
  else .error (.funds "invalid Merkle proof encoding")

/-- The steps of so many encoded ones. -/
def readBranch (maximum : ℕ) : (steps level : ℕ) → List Char → Result (List (ℕ × Digest))
  | 0, _, _ => .ok []
  | steps + 1, level, chars => do
      let invalid := Error.funds "invalid Merkle proof encoding"
      let depth ← fetch (intOf (chars.take 2)) invalid
      let other ← fetch (fromHex ((chars.drop 2).take 64)) invalid
      let step ← checkStep maximum level depth other
      let rest ← readBranch maximum steps (step.1 + 1) (chars.drop 66)
      return step :: rest

/-- What a proof says: a leaf, and the siblings on its way up. -/
structure Opening where
  leaf : Leaf
  steps : List (ℕ × Digest)

def readOpening (count : ℕ) (proof : Json) : Result Opening := do
  let invalid := Error.funds "invalid Merkle proof structure"
  let members ← membersOf proof invalid
  require (hasFields members ["leaf", "branch"]) invalid
  let leaf ← readLeaf count (← field proof "leaf")
  match ← field proof "branch" with
  | .str branch => do
      require (branch.length % 66 = 0) (.funds "invalid Merkle branch encoding")
      let maximum := (count - 1).size
      require (branch.length / 66 ≤ maximum) (.funds "Merkle branch exceeds benchmark depth")
      let steps ← readBranch maximum (branch.length / 66) 0 branch.toList
      return ⟨leaf, steps⟩
  | _ => throw (.funds "invalid Merkle branch encoding")

/-- Two digests put together. -/
def node (blake3 : Blake3) (left right : Digest) : Digest :=
  blake3 (left.bytes ++ right.bytes)

def Opening.root (blake3 : Blake3) (opening : Opening) : Digest :=
  Merkle.climb (node blake3) opening.leaf.nonce 0 (opening.leaf.hash blake3) opening.steps

/-- The root that a proof leads to. -/
def proofRoot (blake3 : Blake3) (count : ℕ) (proof : Json) : Result String := do
  let opening ← readOpening count proof
  return (opening.root blake3).hex

end MemberProtocol

end TigPool
