/-
# `TigPool.MerkleProofs` — opening a committed root at a nonce

A proof that a member's tools write for an output is read back and leads to the root of the
tree of all outputs.  Two accepted proofs of one nonce that turn alike open it to one output.

What is proved of a hash is proved for the byte strings that are hashed on the way, so that
the assumption can be met by a function with 32-byte values.
-/
import TigPool.ProofRoot

namespace TigPool

open Basis

namespace MemberProtocol

open Protocol

/-! ## What is written can be read -/

def leafJson (leaf : Leaf) : Json :=
  .obj [("cpu_arch", .str leaf.cpuArch), ("fuel_consumed", .int leaf.fuelConsumed),
    ("nonce", .int leaf.nonce), ("runtime_signature", .int leaf.runtimeSignature),
    ("solution", .str leaf.solution)]

def encodeStep (step : ℕ × Digest) : List Char :=
  hexChars [UInt8.ofNat step.1] ++ hexChars step.2.bytes

/-- A proof as a member's tools write it. -/
def proofJson (leaf : Leaf) (steps : List (ℕ × Digest)) : Json :=
  .obj [("branch", .str (String.ofList (steps.flatMap encodeStep))), ("leaf", leafJson leaf)]

theorem length_hexChars (bytes : List UInt8) : (hexChars bytes).length = 2 * bytes.length := by
  induction bytes with
  | nil => rfl
  | cons b bytes ih =>
      rw [hexChars, List.flatMap_cons, ← hexChars, List.length_append, ih, List.length_cons]
      simp only [List.length_cons, List.length_nil]
      omega

theorem nibble_chars : ∀ d < 16, isAsciiSpace (Nat.digitChar d) = false := by
  decide

theorem fromHex_hexChars (bytes : List UInt8) : fromHex (hexChars bytes) = some bytes := by
  induction bytes with
  | nil => rfl
  | cons b bytes ih =>
      have hb : b.toNat < 256 := b.toNat_lt
      obtain ⟨hhigh, hhigh'⟩ := digit_digitChar (b.toNat / 16) (by omega)
      obtain ⟨hlow, hlow'⟩ := digit_digitChar (b.toNat % 16) (by omega)
      have hspace := nibble_chars (b.toNat / 16) (by omega)
      have hvalue : UInt8.ofNat (16 * (b.toNat / 16) + b.toNat % 16) = b := by
        rw [Nat.div_add_mod]
        exact UInt8.ofNat_toNat
      change fromHex (Nat.digitChar (b.toNat / 16) :: Nat.digitChar (b.toNat % 16) ::
        hexChars bytes) = _
      simp only [fromHex, hspace, hhigh', hlow', hhigh, hlow, hvalue, ih]
      rfl

theorem intOf_hexChars : ∀ d < 256, intOf (hexChars [UInt8.ofNat d]) = some (d : ℤ) := by
  decide +kernel

theorem length_encodeStep (step : ℕ × Digest) : (encodeStep step).length = 66 := by
  rw [encodeStep, List.length_append, length_hexChars, length_hexChars, step.2.size]
  rfl

theorem readBranch_encode {maximum level : ℕ} {steps : List (ℕ × Digest)}
    (hfits : Merkle.Fits maximum level steps) (hmaximum : maximum ≤ 256) :
    readBranch maximum steps.length level (steps.flatMap encodeStep) = .ok steps := by
  induction steps generalizing level with
  | nil => rfl
  | cons step steps ih =>
      obtain ⟨hlevel, hdepth, hrest⟩ := hfits
      have hlength : (hexChars [UInt8.ofNat step.1]).length = 2 := length_hexChars _
      have htake : ((step :: steps).flatMap encodeStep).take 2 = hexChars [UInt8.ofNat step.1] := by
        rw [List.flatMap_cons, encodeStep, List.append_assoc]
        exact List.take_left' hlength
      have hother : (((step :: steps).flatMap encodeStep).drop 2).take 64
          = hexChars step.2.bytes := by
        rw [List.flatMap_cons, encodeStep, List.append_assoc, List.drop_left' hlength]
        exact List.take_left' (by rw [length_hexChars, step.2.size])
      have hdrop : ((step :: steps).flatMap encodeStep).drop 66 = steps.flatMap encodeStep := by
        rw [List.flatMap_cons]
        exact List.drop_left' (length_encodeStep step)
      have hstep : checkStep maximum level step.1 step.2.bytes = .ok step := by
        rw [checkStep, dif_pos ⟨step.2.size, by exact_mod_cast hlevel, by exact_mod_cast hdepth⟩]
        rfl
      rw [List.length_cons, readBranch, htake, hother, hdrop, intOf_hexChars _ (by omega),
        fromHex_hexChars]
      simp only [bind_eq_ok, fetch_eq_ok, pure_eq_ok]
      exact ⟨_, rfl, _, rfl, step, hstep, steps, ih hrest, rfl⟩

theorem readUint64_int {n : ℕ} (h : n < 2 ^ 64) {e : Error} :
    readUint64 (.int n) e = .ok ⟨n, h⟩ := by
  have hint : (n : ℤ).toNat < 2 ^ 64 := by simpa using h
  simp only [readUint64, dif_pos hint, bind_eq_ok, require_eq_ok, exists_const, pure_eq_ok]
  exact ⟨Int.natCast_nonneg n, rfl⟩

theorem readLeaf_leafJson {count : ℕ} {leaf : Leaf} (h : leaf.nonce < count) :
    readLeaf count (leafJson leaf) = .ok leaf := by
  obtain ⟨hnonce, hsignature, hfuel⟩ := leaf.uint64
  have hfields : hasFields [("cpu_arch", .str leaf.cpuArch),
      ("fuel_consumed", .int leaf.fuelConsumed), ("nonce", .int leaf.nonce),
      ("runtime_signature", .int leaf.runtimeSignature), ("solution", .str leaf.solution)]
      ["nonce", "runtime_signature", "fuel_consumed", "solution", "cpu_arch"] := by
    simp [hasFields]
  simp only [readLeaf, bind_eq_ok, require_eq_ok, exists_const]
  refine ⟨_, rfl, hfields, _, rfl, _, readUint64_int hnonce, _, rfl, _,
    readUint64_int hsignature, _, rfl, _, readUint64_int hfuel, h, _, rfl, _, rfl, ?_⟩
  exact dif_pos leaf.known

theorem readOpening_proofJson {count : ℕ} {leaf : Leaf} {steps : List (ℕ × Digest)}
    (hnonce : leaf.nonce < count) (hcount : (count - 1).size ≤ 256)
    (hfits : Merkle.Fits (count - 1).size 0 steps) :
    readOpening count (proofJson leaf steps) = .ok ⟨leaf, steps⟩ := by
  have hlength : (String.ofList (steps.flatMap encodeStep)).length = 66 * steps.length := by
    rw [String.length_ofList, List.length_flatMap]
    simp [length_encodeStep, Nat.mul_comm]
  have hsteps : steps.length ≤ (count - 1).size := by
    have hle := hfits.length_le (Nat.zero_le _)
    omega
  have hread := readBranch_encode hfits hcount
  have hfields : hasFields [("branch", .str (String.ofList (steps.flatMap encodeStep))),
      ("leaf", leafJson leaf)] ["leaf", "branch"] := by
    simp [hasFields]
  simp only [readOpening, bind_eq_ok, require_eq_ok, exists_const]
  refine ⟨_, rfl, hfields, _, rfl, leaf, readLeaf_leafJson hnonce, _, rfl, ?_⟩
  simp only [bind_eq_ok, require_eq_ok, exists_const, pure_eq_ok, hlength, String.toList_ofList]
  refine ⟨by omega, ?_, steps, ?_, rfl⟩
  · rw [Nat.mul_div_cancel_left _ (by decide)]
    exact hsteps
  · rw [Nat.mul_div_cancel_left _ (by decide)]
    exact hread

/-! ## The tree over all outputs -/

/-- The root of the outputs of a benchmark. -/
def treeRoot (blake3 : Blake3) (leaves : List Leaf) : Option Digest :=
  Merkle.root (node blake3) (leaves.map (Leaf.hash blake3))

/-- The proof of an output: the siblings of its ancestors, where there are any. -/
def honestProof (blake3 : Blake3) (leaves : List Leaf) (leaf : Leaf) : Json :=
  proofJson leaf (Merkle.branch (node blake3) leaf.nonce 0 (leaves.map (Leaf.hash blake3)))

/-- A benchmark has no more nonces than a nonce can count. -/
theorem size_le_of_nonces {leaves : List Leaf}
    (hnonces : ∀ i (h : i < leaves.length), leaves[i].nonce = i) :
    (leaves.length - 1).size ≤ 64 := by
  rw [Nat.size_le]
  rcases Nat.eq_zero_or_pos leaves.length with hzero | hpos
  · rw [hzero]
    decide
  · have hlast := hnonces (leaves.length - 1) (by omega)
    rw [← hlast]
    exact (leaves[leaves.length - 1]).uint64.1

/-- A hash for examples: a polynomial in the bytes, written in 32 bytes, the highest first. -/
def foldHash (s : List UInt8) : Digest where
  bytes := (List.range 32).map fun i =>
    UInt8.ofNat (s.foldl (fun n b => (65599 * n + b.toNat + 1) % 2 ^ 256) 0 >>> (8 * (31 - i)))
  size := by rw [List.length_map, List.length_range]

/-- An output of an example. -/
def output (nonce runtimeSignature : ℕ) (solution : String)
    (h : nonce < 2 ^ 64 ∧ runtimeSignature < 2 ^ 64) : Leaf :=
  ⟨nonce, runtimeSignature, 3, solution, "amd64", ⟨h.1, h.2, by decide⟩, .inl rfl⟩

end MemberProtocol

open MemberProtocol in
/-- Every honest proof is accepted and leads to the root of the tree. -/
theorem honest_proofs_accepted (blake3 : Blake3) {leaves : List Leaf}
    (hnonces : ∀ i (h : i < leaves.length), leaves[i].nonce = i) {i : ℕ}
    (hi : i < leaves.length) :
    ∃ root, treeRoot blake3 leaves = some root ∧
      proofRoot blake3 leaves.length (honestProof blake3 leaves leaves[i]) = .ok root.hex := by
  have hle : leaves.length ≤ 2 ^ (leaves.length - 1).size := by
    have hlt := Nat.lt_size_self (leaves.length - 1)
    omega
  have hmap : (leaves.map (Leaf.hash blake3)).length ≤ 2 ^ (leaves.length - 1).size := by
    rwa [List.length_map]
  have hleaf : (leaves.map (Leaf.hash blake3))[leaves[i].nonce]?
      = some (leaves[i].hash blake3) := by
    rw [hnonces i hi, List.getElem?_map, List.getElem?_eq_getElem hi]
    rfl
  have hclimb := @Merkle.climb_branch _ (node blake3) _ leaves[i].nonce 0 _ _ hmap hleaf
  refine ⟨_, hclimb, ?_⟩
  have hfits := @Merkle.fits_branch _ (node blake3) _ leaves[i].nonce 0 _ hmap
  rw [Nat.zero_add] at hfits
  have hsize := size_le_of_nonces hnonces
  have hnonce : leaves[i].nonce < leaves.length := by rwa [hnonces i hi]
  have hread := readOpening_proofJson hnonce (by omega) hfits
  rw [proofRoot, honestProof, hread]
  rfl

open MemberProtocol in
theorem honest_proofs_accepted_last :
    let leaves := [output 0 10 "x" (by decide), output 1 20 "y" (by decide),
      output 2 30 "z" (by decide)]
    ∃ root, treeRoot foldHash leaves = some root ∧
      proofRoot foldHash 3 (honestProof foldHash leaves leaves[2]) = .ok root.hex :=
  @honest_proofs_accepted foldHash [output 0 10 "x" (by decide), output 1 20 "y" (by decide),
    output 2 30 "z" (by decide)] (by decide) 2 (by decide)

/-! ## What a root is bound to -/

namespace MemberProtocol

/-- On which sides the siblings stand, on the way up. -/
def Opening.sides (opening : Opening) : List Bool :=
  (Merkle.turns opening.leaf.nonce 0 opening.steps).map (·.1)

/-- The byte strings that are hashed on the way up. -/
def Opening.hashed (blake3 : Blake3) (opening : Opening) : List (List UInt8) :=
  encode (quoted opening.leaf.solution) :: encode (opening.leaf.metadata blake3) ::
    (Merkle.pairs (node blake3) (opening.leaf.hash blake3)
      (Merkle.turns opening.leaf.nonce 0 opening.steps)).map fun p => p.1.bytes ++ p.2.bytes

theorem Digest.hex_inj {a b : Digest} (h : a.hex = b.hex) : a = b := by
  have hchars : hexChars a.bytes = hexChars b.bytes := String.ofList_injective h
  have hbytes := congrArg fromHex hchars
  rw [fromHex_hexChars, fromHex_hexChars] at hbytes
  cases a
  cases b
  cases Option.some.inj hbytes
  rfl

theorem encode_inj {s t : String} (h : encode s = encode t) : s = t := by
  refine String.toByteArray_inj.mp (ByteArray.ext (Array.toList_inj.mp h))

theorem encode_ofList (chars : List Char) :
    encode (String.ofList chars) = chars.flatMap String.utf8EncodeChar := by
  simp [encode, List.utf8Encode]

/-- A character is at least one byte. -/
theorem length_le_encode (chars : List Char) :
    chars.length ≤ (encode (String.ofList chars)).length := by
  rw [encode_ofList]
  induction chars with
  | nil => exact Nat.zero_le _
  | cons c chars ih =>
      have hbyte : 0 < (String.utf8EncodeChar c).length :=
        List.length_pos_iff.mpr String.utf8EncodeChar_ne_nil
      rw [List.flatMap_cons, List.length_append, List.length_cons]
      omega

/-- The metadata of a leaf is longer than two digests. -/
theorem length_metadata (blake3 : Blake3) (leaf : Leaf) :
    64 < (encode (leaf.metadata blake3)).length := by
  refine lt_of_lt_of_le ?_ (length_le_encode _)
  have h₁ : (jsonKey "fuel_consumed").length = 16 := rfl
  have h₂ : (jsonKey "nonce").length = 8 := rfl
  have h₃ : (jsonKey "runtime_signature").length = 20 := rfl
  have h₄ : (jsonKey "solution_signature").length = 21 := rfl
  simp only [List.length_append, List.length_cons, h₁, h₂, h₃, h₄]
  omega

/-- What stands before the first separator can be told from what stands after it. -/
theorem split_inj {α : Type} {c : α} {xs ys rest rest' : List α} (hx : c ∉ xs) (hy : c ∉ ys)
    (h : xs ++ c :: rest = ys ++ c :: rest') : xs = ys ∧ rest = rest' := by
  rcases List.append_eq_append_iff.mp h with ⟨more, rfl, hmore⟩ | ⟨more, rfl, hmore⟩
  · cases more with
    | nil => exact ⟨(List.append_nil _).symm, (List.cons.inj hmore).2⟩
    | cons d more =>
        obtain rfl := (List.cons.inj hmore).1
        exact absurd (List.mem_append_right xs (List.mem_cons_self ..)) hy
  · cases more with
    | nil => exact ⟨List.append_nil _, (List.cons.inj hmore).2.symm⟩
    | cons d more =>
        obtain rfl := (List.cons.inj hmore).1
        exact absurd (List.mem_append_right ys (List.mem_cons_self ..)) hx

/-- A number that is followed by something else can be told. -/
theorem digits_inj {m n : ℕ} {c : Char} {rest rest' : List Char} (hc : c.isDigit = false)
    (h : Nat.toDigits 10 m ++ c :: rest = Nat.toDigits 10 n ++ c :: rest') :
    m = n ∧ rest = rest' := by
  have hnot : ∀ k, c ∉ Nat.toDigits 10 k := by
    intro k hmem
    have hdigit := Nat.isDigit_of_mem_toDigits (by decide) (by decide) hmem
    rw [hc] at hdigit
    cases hdigit
  obtain ⟨hdigits, hrest⟩ := split_inj (hnot m) (hnot n) h
  have hvalue := congrArg (fun chars => Nat.ofDigitChars 10 chars 0) hdigits
  simp only [Nat.ofDigitChars_ten_toDigits] at hvalue
  exact ⟨hvalue, hrest⟩

/-- The metadata of a leaf says its numbers and the signature of its solution. -/
theorem metadata_inj {blake3 : Blake3} {leaf leaf' : Leaf}
    (h : leaf.metadata blake3 = leaf'.metadata blake3) :
    leaf.fuelConsumed = leaf'.fuelConsumed ∧ leaf.nonce = leaf'.nonce ∧
      leaf.runtimeSignature = leaf'.runtimeSignature ∧
      leaf.solutionSignature blake3 = leaf'.solutionSignature blake3 := by
  have hchars := String.ofList_injective h
  obtain ⟨hfuel, hrest⟩ := digits_inj (by decide) (List.append_cancel_left hchars)
  obtain ⟨hnonce, hrest⟩ := digits_inj (by decide) (List.append_cancel_left hrest)
  obtain ⟨hsignature, hrest⟩ := digits_inj (by decide) (List.append_cancel_left hrest)
  obtain ⟨hsolution, -⟩ := digits_inj (by decide) (List.append_cancel_left hrest)
  exact ⟨hfuel, hnonce, hsignature, hsolution⟩

theorem node_bytes_inj {p q : Digest × Digest}
    (h : p.1.bytes ++ p.2.bytes = q.1.bytes ++ q.2.bytes) : p = q := by
  obtain ⟨⟨a, ha⟩, ⟨b, hb⟩⟩ := p
  obtain ⟨⟨c, hc⟩, ⟨d, hd⟩⟩ := q
  obtain ⟨rfl, rfl⟩ := List.append_inj h (ha.trans hc.symm)
  rfl

/-- What a list of steps ends with is two digests put together. -/
theorem ascend_eq_node {blake3 : Blake3} {value : Digest} {turns : List (Bool × Digest)}
    (h : turns ≠ []) :
    ∃ p ∈ Merkle.pairs (node blake3) value turns,
      Merkle.ascend (node blake3) value turns = node blake3 p.1 p.2 := by
  induction turns generalizing value with
  | nil => exact absurd rfl h
  | cons turn rest ih =>
      cases rest with
      | nil => exact ⟨_, List.mem_singleton_self _, rfl⟩
      | cons next rest =>
          obtain ⟨p, hp, hroot⟩ := @ih (node blake3 (Merkle.pair value turn).1
            (Merkle.pair value turn).2) (List.cons_ne_nil _ _)
          exact ⟨p, List.mem_cons_of_mem _ hp, hroot⟩

theorem Opening.root_eq (blake3 : Blake3) (opening : Opening) :
    opening.root blake3 = Merkle.ascend (node blake3) (opening.leaf.hash blake3)
      (Merkle.turns opening.leaf.nonce 0 opening.steps) :=
  Merkle.climb_eq_ascend

/-- The leaves of two openings of one root that turn the same way at every step of the
shorter one are the same leaf, up to what is hashed of it. -/
theorem metadata_eq_of_root {blake3 : Blake3} {o o' : Opening}
    (hinj : ∀ s ∈ o.hashed blake3 ++ o'.hashed blake3,
      ∀ t ∈ o.hashed blake3 ++ o'.hashed blake3, blake3 s = blake3 t → s = t)
    (hsides : o.sides <:+ o'.sides) (hroot : o.root blake3 = o'.root blake3) :
    o.leaf.metadata blake3 = o'.leaf.metadata blake3 := by
  obtain ⟨below, hbelow⟩ := hsides
  -- The longer way: first to the height at which the shorter one starts, then up with it.
  obtain ⟨first, last, hturns, -, hlast⟩ := List.map_eq_append_iff.mp hbelow.symm
  rw [Opening.root_eq, Opening.root_eq, hturns, Merkle.ascend_append] at hroot
  have hpairs : ∀ q ∈ Merkle.pairs (node blake3) (o'.leaf.hash blake3)
      (Merkle.turns o'.leaf.nonce 0 o'.steps), q.1.bytes ++ q.2.bytes ∈ o'.hashed blake3 :=
    fun q hq => List.mem_cons_of_mem _ (List.mem_cons_of_mem _ (List.mem_map_of_mem hq))
  rw [hturns, Merkle.pairs_append] at hpairs
  have hstart := Merkle.ascend_inj hlast.symm (fun p hp q hq heq => by
    have hp' : p.1.bytes ++ p.2.bytes ∈ o.hashed blake3 :=
      List.mem_cons_of_mem _ (List.mem_cons_of_mem _ (List.mem_map_of_mem hp))
    exact node_bytes_inj (hinj _ (List.mem_append_left _ hp') _
      (List.mem_append_right _ (hpairs q (List.mem_append_right _ hq))) heq)) hroot
  have hmetadata : encode (o.leaf.metadata blake3) ∈ o.hashed blake3 :=
    List.mem_cons_of_mem _ (List.mem_cons_self ..)
  have hmetadata' : encode (o'.leaf.metadata blake3) ∈ o'.hashed blake3 :=
    List.mem_cons_of_mem _ (List.mem_cons_self ..)
  rcases eq_or_ne first [] with rfl | hfirst
  · exact encode_inj (hinj _ (List.mem_append_left _ hmetadata) _
      (List.mem_append_right _ hmetadata') hstart)
  · -- A leaf's metadata is no pair of digests: it is longer.
    obtain ⟨p, hp, hnode⟩ := @ascend_eq_node _ (o'.leaf.hash blake3) _ hfirst
    have hbytes := hinj _ (List.mem_append_left _ hmetadata) _
      (List.mem_append_right _ (hpairs p (List.mem_append_left _ hp))) (hstart.trans hnode)
    have hlong := length_metadata blake3 o.leaf
    rw [hbytes, List.length_append, p.1.size, p.2.size] at hlong
    exact absurd hlong (by decide)

theorem root_of_proofRoot {blake3 : Blake3} {count : ℕ} {proof : Json} {root : String}
    {o : Opening} (ho : readOpening count proof = .ok o)
    (h : proofRoot blake3 count proof = .ok root) : (o.root blake3).hex = root := by
  rw [proofRoot, ho] at h
  exact Except.ok.inj h

theorem proofRoot_proofJson {blake3 : Blake3} {count : ℕ} {leaf : Leaf}
    {steps : List (ℕ × Digest)} (hnonce : leaf.nonce < count) (hcount : (count - 1).size ≤ 256)
    (hfits : Merkle.Fits (count - 1).size 0 steps) :
    proofRoot blake3 count (proofJson leaf steps) =
      .ok ((⟨leaf, steps⟩ : Opening).root blake3).hex := by
  rw [proofRoot, readOpening_proofJson hnonce hcount hfits]
  rfl

end MemberProtocol

open MemberProtocol in
/-- Two accepted proofs of one nonce that turn the same way at every step, counted from the
root, open it to the same output. -/
theorem opens_to_one_output {blake3 : Blake3} {count : ℕ} {root : String} {proof proof' : Json}
    {o o' : Opening} (ho : readOpening count proof = .ok o)
    (ho' : readOpening count proof' = .ok o') (hproof : proofRoot blake3 count proof = .ok root)
    (hproof' : proofRoot blake3 count proof' = .ok root)
    (hinj : ∀ s ∈ o.hashed blake3 ++ o'.hashed blake3,
      ∀ t ∈ o.hashed blake3 ++ o'.hashed blake3, blake3 s = blake3 t → s = t)
    (hsides : o.sides <:+ o'.sides ∨ o'.sides <:+ o.sides) :
    o.leaf.nonce = o'.leaf.nonce ∧ o.leaf.runtimeSignature = o'.leaf.runtimeSignature ∧
      o.leaf.fuelConsumed = o'.leaf.fuelConsumed ∧
      o.leaf.solutionSignature blake3 = o'.leaf.solutionSignature blake3 := by
  have hroot := Digest.hex_inj
    ((root_of_proofRoot ho hproof).trans (root_of_proofRoot ho' hproof').symm)
  have hmetadata : o.leaf.metadata blake3 = o'.leaf.metadata blake3 := by
    rcases hsides with hsides | hsides
    · exact metadata_eq_of_root hinj hsides hroot
    · refine (metadata_eq_of_root (fun s hs t ht => ?_) hsides hroot.symm).symm
      exact hinj s (List.mem_append.mpr (List.mem_append.mp hs).symm) t
        (List.mem_append.mpr (List.mem_append.mp ht).symm)
  obtain ⟨hfuel, hnonce, hsignature, hsolution⟩ := metadata_inj hmetadata
  exact ⟨hnonce, hsignature, hfuel, hsolution⟩

open MemberProtocol in
theorem opens_to_one_output_at_two :
    (output 1 10 "x" (by decide)).solutionSignature foldHash
      = (output 1 10 "y" (by decide)).solutionSignature foldHash := by
  let x := output 1 10 "x" (by decide)
  let y := output 1 10 "y" (by decide)
  let steps := [(0, foldHash [7])]
  have hfits : Merkle.Fits (2 - 1).size 0 steps := by decide +kernel
  have hx : readOpening 2 (proofJson x steps) = .ok ⟨x, steps⟩ :=
    readOpening_proofJson (by decide) (by decide +kernel) hfits
  have hy : readOpening 2 (proofJson y steps) = .ok ⟨y, steps⟩ :=
    readOpening_proofJson (by decide) (by decide +kernel) hfits
  have hsame : (⟨y, steps⟩ : Opening).root foldHash = (⟨x, steps⟩ : Opening).root foldHash := by
    decide +kernel
  have hroot : proofRoot foldHash 2 (proofJson y steps)
      = .ok ((⟨x, steps⟩ : Opening).root foldHash).hex := by
    rw [proofRoot_proofJson (by decide) (by decide +kernel) hfits, hsame]
  exact (opens_to_one_output hx hy
    (proofRoot_proofJson (by decide) (by decide +kernel) hfits) hroot
    (by decide +kernel) (.inl (by decide +kernel))).2.2.2

open MemberProtocol in
/-- A root can open a nonce to two outputs: one proof stops a level lower than the other, or
the solutions differ beyond what the metadata say of them. -/
theorem root_opens_twice :
    let a := output 1 10 "x" (by decide)
    let b := output 1 20 "x" (by decide)
    let c := output 1 10 "y" (by decide)
    let atLeaves : Opening := ⟨a, [(0, b.hash foldHash)]⟩
    let above : Opening := ⟨b, [(1, a.hash foldHash)]⟩
    let other : Opening := ⟨c, [(0, b.hash foldHash)]⟩
    let hashed := atLeaves.hashed foldHash ++ above.hashed foldHash ++ other.hashed foldHash
    (∀ s ∈ hashed, ∀ t ∈ hashed, foldHash s = foldHash t → s = t) ∧
      (∃ root, proofRoot foldHash 4 (proofJson a atLeaves.steps) = .ok root ∧
        proofRoot foldHash 4 (proofJson b above.steps) = .ok root ∧
        proofRoot foldHash 4 (proofJson c other.steps) = .ok root) ∧
      a.nonce = b.nonce ∧ a.runtimeSignature ≠ b.runtimeSignature ∧
      a.nonce = c.nonce ∧ a.solution ≠ c.solution := by
  refine ⟨by decide +kernel, ⟨_, proofRoot_proofJson (by decide) (by decide +kernel)
    (by decide +kernel), ?_, ?_⟩, rfl, by decide, rfl, by decide⟩
  · rw [proofRoot_proofJson (by decide) (by decide +kernel) (by decide +kernel)]
    exact congrArg (fun digest => Except.ok (Digest.hex digest)) (by decide +kernel)
  · rw [proofRoot_proofJson (by decide) (by decide +kernel) (by decide +kernel)]
    exact congrArg (fun digest => Except.ok (Digest.hex digest)) (by decide +kernel)

end TigPool
