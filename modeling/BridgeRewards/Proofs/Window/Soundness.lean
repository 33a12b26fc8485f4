import BridgeRewards.Proofs.Merkle.Descent
import BridgeRewards.Proofs.Window.Tree
import BridgeRewards.Window.Artifact

/-!
# What a valid proof proves

A recipient whose proof leads to the root of a window's tree stands in that tree, with its index,
its address and its amount, or else two different byte strings that were hashed have one hash.
The byte strings are those that were hashed to build the tree and to check the recipient: packed
leaves of 84 bytes and pairs of 64 bytes.  A proof may be of any length and made up of anything.

A proof that leads to the root passes through a leaf (`Merkle.collides_or_mem_of_climb_eq_top`).
If it passes there after its first step then a pair has the hash of a packed leaf, which is
longer; so it starts there, and packed leaves determine what they stand for.
-/

set_option autoImplicit false

namespace BridgeRewards

/-- The packed bytes of a leaf, if it can be packed. -/
def Leaf.inputs (leaf : Leaf) : List (List UInt8) := leaf.packed.toOption.toList

/-- The packed leaves of a tree. -/
def WindowTree.packed (tree : WindowTree) : List (List UInt8) :=
  (tree.leaves.map (·.leaf)).flatMap Leaf.inputs

/-- The byte strings that are hashed to build a tree: its packed leaves and the pairs above. -/
def WindowTree.inputs (tree : WindowTree) : List (List UInt8) :=
  tree.packed ++ Merkle.nodeInputs (tree.packed.map Hash32.keccak256)

/-- The leaf that a recipient claims to have, if its amount is an integer. -/
def RecipientArtifact.leaf? (artifact : RecipientArtifact) : Option Leaf :=
  (Decimal.parseInteger "amount" artifact.amount).toOption.map fun amount =>
    ⟨artifact.accountIndex, artifact.address, amount⟩

/-- The byte strings that are hashed to check a recipient: its packed leaf and the pairs along
its proof. -/
def RecipientArtifact.inputs (artifact : RecipientArtifact) : List (List UInt8) :=
  (artifact.leaf?.toList.flatMap Leaf.inputs).flatMap fun packed =>
    packed :: Merkle.climbInputs (Hash32.keccak256 packed) artifact.proof

namespace Leaf

theorem inputs_of_packed {leaf : Leaf} {bytes : List UInt8} (h : leaf.packed = .ok bytes) :
    leaf.inputs = [bytes] := by
  rw [inputs, h]
  rfl

theorem packed_of_mem_inputs {leaf : Leaf} {bytes : List UInt8} (h : bytes ∈ leaf.inputs) :
    leaf.packed = .ok bytes := by
  cases packed : leaf.packed with
  | error e => simp [inputs, packed, Except.toOption] at h
  | ok whole =>
      obtain rfl : bytes = whole := by simpa [inputs_of_packed packed] using h
      rfl

end Leaf

theorem map_keccak256_flatMap_inputs {leaves : List Leaf} {hashes : List Hash32}
    (hashed : List.Forall₂ (fun leaf hash => leaf.hash = .ok hash) leaves hashes) :
    (leaves.flatMap Leaf.inputs).map Hash32.keccak256 = hashes := by
  induction hashed with
  | nil => rfl
  | cons first _ ih =>
      obtain ⟨bytes, packed, rfl⟩ := Leaf.hash_eq_ok.mp first
      rw [List.flatMap_cons, Leaf.inputs_of_packed packed, List.map_append, ih]
      rfl

namespace WindowTree

variable {totals : List Total} {tree : WindowTree}

theorem root_eq_top (built : build totals = .ok tree) :
    tree.root = Merkle.top (Merkle.levels (tree.packed.map Hash32.keccak256)) := by
  have leaves := map_leaf_of_build built
  obtain ⟨-, -, hashes, hashed, rfl⟩ := build_eq_ok.mp built
  rw [packed, leaves, map_keccak256_flatMap_inputs hashed]

theorem packed_ne_nil (built : build totals = .ok tree) : tree.packed ≠ [] := by
  have leaves := map_leaf_of_build built
  obtain ⟨some, -, hashes, hashed, -⟩ := build_eq_ok.mp built
  intro none
  have noHashes := map_keccak256_flatMap_inputs hashed
  rw [← leaves, ← packed, none, List.map_nil] at noHashes
  have length := hashed.length_eq
  rw [length_number, (perm_inOrder totals).length_eq, ← noHashes] at length
  exact some (List.length_eq_zero_iff.mp length)

theorem exists_of_mem_packed {bytes : List UInt8} (h : bytes ∈ tree.packed) :
    ∃ proven ∈ tree.leaves, proven.leaf.packed = .ok bytes := by
  obtain ⟨leaf, isLeaf, isPacked⟩ := List.mem_flatMap.mp h
  obtain ⟨proven, isProven, rfl⟩ := List.mem_map.mp isLeaf
  exact ⟨proven, isProven, Leaf.packed_of_mem_inputs isPacked⟩

/-- Everything that is hashed to build a tree is a packed leaf or a pair. -/
theorem length_of_mem_inputs {bytes : List UInt8} (h : bytes ∈ tree.inputs) :
    bytes.length = 84 ∨ bytes.length = 64 := by
  rcases List.mem_append.mp h with leaf | node
  · obtain ⟨proven, -, isPacked⟩ := exists_of_mem_packed leaf
    exact .inl (Leaf.length_packed isPacked)
  · exact .inr (Merkle.length_of_mem_nodeInputs node)

end WindowTree

namespace RecipientArtifact

variable {artifact : RecipientArtifact} {root : Hash32}

/-- A proof is valid when the amount is an integer, the leaf can be packed and its hash climbs to
the root. -/
theorem verify_eq_ok_true :
    artifact.verify root = .ok true ↔
      ∃ leaf, artifact.leaf? = some leaf ∧ ∃ bytes, leaf.packed = .ok bytes ∧
        Merkle.climb (Hash32.keccak256 bytes) artifact.proof = root := by
  unfold verify leaf?
  cases Decimal.parseInteger "amount" artifact.amount with
  | error e => simp [bind, Except.bind, Except.toOption]
  | ok amount =>
      simp only [Except.toOption, Option.map_some, Option.some.injEq, exists_eq_left']
      show ((Leaf.hash _ >>= fun hash => .ok _) = .ok true) ↔ _
      rw [Outcome.bind_eq_ok]
      simp only [Leaf.hash_eq_ok]
      constructor
      · rintro ⟨hash, ⟨bytes, packed, rfl⟩, climbs⟩
        exact ⟨bytes, packed, eq_of_beq (Except.ok.inj climbs)⟩
      · rintro ⟨bytes, packed, rfl⟩
        exact ⟨_, ⟨bytes, packed, rfl⟩, congrArg Except.ok (beq_self_eq_true _)⟩

theorem leaf?_eq_some {leaf : Leaf} :
    artifact.leaf? = some leaf ↔
      ∃ amount, Decimal.parseInteger "amount" artifact.amount = .ok amount ∧
        ⟨artifact.accountIndex, artifact.address, amount⟩ = leaf := by
  unfold leaf?
  cases Decimal.parseInteger "amount" artifact.amount with
  | error e => simp [Except.toOption]
  | ok amount => simp [Except.toOption]

theorem inputs_of_packed {leaf : Leaf} {bytes : List UInt8} (claimed : artifact.leaf? = some leaf)
    (packed : leaf.packed = .ok bytes) :
    artifact.inputs = bytes :: Merkle.climbInputs (Hash32.keccak256 bytes) artifact.proof := by
  simp [inputs, claimed, Leaf.inputs_of_packed packed]

/-- Everything that is hashed to check a recipient is a packed leaf or a pair. -/
theorem length_of_mem_inputs {bytes : List UInt8} (h : bytes ∈ artifact.inputs) :
    bytes.length = 84 ∨ bytes.length = 64 := by
  obtain ⟨packed, isPacked, h⟩ := List.mem_flatMap.mp h
  rcases List.mem_cons.mp h with rfl | h
  · obtain ⟨leaf, -, isPacked⟩ := List.mem_flatMap.mp isPacked
    exact .inl (Leaf.length_packed (Leaf.packed_of_mem_inputs isPacked))
  · exact .inr (Merkle.length_of_mem_climbInputs h)

end RecipientArtifact

section Soundness

variable {totals : List Total} {tree : WindowTree} {artifact : RecipientArtifact}

/-- A proof from packed bytes to the root starts at a leaf of the tree with these bytes, unless
there is a collision. -/
theorem mem_packed_or_collides {bytes : List UInt8} {leaf : Leaf}
    (built : WindowTree.build totals = .ok tree) (claimed : artifact.leaf? = some leaf)
    (packed : leaf.packed = .ok bytes)
    (climbs : Merkle.climb (Hash32.keccak256 bytes) artifact.proof = tree.root) :
    bytes ∈ tree.packed ∨ Collides (tree.inputs ++ artifact.inputs) := by
  have inputs := RecipientArtifact.inputs_of_packed claimed packed
  have isStart : bytes ∈ tree.inputs ++ artifact.inputs := by simp [inputs]
  have ofLeaf : tree.packed ⊆ tree.inputs ++ artifact.inputs :=
    fun _ h => List.mem_append_left _ (List.mem_append_left _ h)
  have ofNode : Merkle.nodeInputs (tree.packed.map Hash32.keccak256) ⊆
      tree.inputs ++ artifact.inputs :=
    fun _ h => List.mem_append_left _ (List.mem_append_right _ h)
  have ofProof : Merkle.climbInputs (Hash32.keccak256 bytes) artifact.proof ⊆
      tree.inputs ++ artifact.inputs := by
    rw [inputs]
    exact fun _ h => List.mem_append_right _ (List.mem_cons_of_mem _ h)
  have long : bytes.length ≠ 64 := by
    rw [Leaf.length_packed packed]
    decide
  have someLeaf : tree.packed.map Hash32.keccak256 ≠ [] := by
    simpa using WindowTree.packed_ne_nil built
  rw [WindowTree.root_eq_top built] at climbs
  rcases Merkle.collides_or_mem_of_climb_eq_top long someLeaf isStart ofNode ofProof climbs with
    collides | ⟨lower, upper, split, atLeaf⟩
  · exact .inr collides
  obtain ⟨stored, isStored, equal⟩ := List.mem_map.mp atLeaf
  cases lower using List.reverseRecOn with
  | nil =>
      rcases eq_or_collides (ofLeaf isStored) isStart equal with rfl | collides
      · exact .inl isStored
      · exact .inr collides
  | append_singleton lower sibling _ =>
      -- The pair that was hashed last has 64 bytes, where the leaf has 84.
      rw [Merkle.climb_concat] at equal
      have isPair := ofProof (split ▸ Merkle.pairBytes_mem_climbInputs _ lower sibling upper)
      rcases eq_or_collides (ofLeaf isStored) isPair equal with rfl | collides
      · obtain ⟨proven, -, isPacked⟩ := WindowTree.exists_of_mem_packed isStored
        have length := Leaf.length_packed isPacked
        simp at length
      · exact .inr collides

/-- **Soundness of proofs.**  A recipient with a valid proof has the index, the address and the
amount of one leaf of the tree, or two of the byte strings that were hashed collide; and each of
these has the length of a packed leaf or of a pair. -/
theorem isLeaf_or_collides_of_verify (built : WindowTree.build totals = .ok tree)
    (valid : artifact.verify tree.root = .ok true) :
    (∀ bytes ∈ tree.inputs ++ artifact.inputs, bytes.length = 84 ∨ bytes.length = 64) ∧
      ((∃ amount, Decimal.parseInteger "amount" artifact.amount = .ok amount ∧
          ∃! proven, proven ∈ tree.leaves ∧ proven.leaf.accountIndex = artifact.accountIndex ∧
            proven.leaf.account = artifact.address ∧ proven.leaf.amount.Same amount) ∨
        Collides (tree.inputs ++ artifact.inputs)) := by
  refine ⟨fun bytes h => ?_, ?_⟩
  · rcases List.mem_append.mp h with ofTree | ofArtifact
    · exact WindowTree.length_of_mem_inputs ofTree
    · exact RecipientArtifact.length_of_mem_inputs ofArtifact
  · obtain ⟨leaf, claimed, bytes, packed, climbs⟩ := RecipientArtifact.verify_eq_ok_true.mp valid
    rcases mem_packed_or_collides built claimed packed climbs with stored | collides
    · obtain ⟨proven, isProven, isPacked⟩ := WindowTree.exists_of_mem_packed stored
      obtain ⟨amount, read, rfl⟩ := RecipientArtifact.leaf?_eq_some.mp claimed
      obtain ⟨index, rest⟩ := Leaf.packed_inj isPacked packed
      refine .inl ⟨amount, read, proven, ⟨isProven, index, rest⟩, ?_⟩
      rintro other ⟨isOther, otherIndex, -⟩
      exact WindowTree.eq_of_accountIndex_eq built isOther isProven (otherIndex.trans index.symm)
    · exact .inr collides

end Soundness

/-- Two accounts that are paid five and seven. -/
def twoTotals : List Total :=
  [⟨⟨1, by decide⟩, .ofInt 5⟩, ⟨⟨2, by decide⟩, .ofInt 7⟩]

/-- The packed leaf of one of the two accounts. -/
def packedOfTwo (index account amount : Nat) : List UInt8 :=
  Bytes.ofNat 32 index ++ Bytes.ofNat 20 account ++ Bytes.ofNat 32 amount

/-- The first of the two accounts with its proof. -/
def firstOfTwo : RecipientArtifact where
  windowIndex := 0
  address := ⟨1, by decide⟩
  accountIndex := 0
  amount := "5"
  proof := [.keccak256 (packedOfTwo 1 2 7)]

theorem isLeaf_or_collides_of_verify_firstOfTwo :
    ∃ tree, WindowTree.build twoTotals = .ok tree ∧ firstOfTwo.verify tree.root = .ok true ∧
      ((∀ bytes ∈ tree.inputs ++ firstOfTwo.inputs, bytes.length = 84 ∨ bytes.length = 64) ∧
        ((∃ amount, Decimal.parseInteger "amount" firstOfTwo.amount = .ok amount ∧
            ∃! proven, proven ∈ tree.leaves ∧
              proven.leaf.accountIndex = firstOfTwo.accountIndex ∧
              proven.leaf.account = firstOfTwo.address ∧ proven.leaf.amount.Same amount) ∨
          Collides (tree.inputs ++ firstOfTwo.inputs))) := by
  have ordered : WindowTree.inOrder twoTotals = twoTotals :=
    WindowTree.inOrder_of_pairwise (by decide)
  have fresh : WindowTree.firstRepeated (WindowTree.inOrder twoTotals) = none := by
    rw [ordered]
    decide
  have packedFirst : Leaf.packed ⟨0, ⟨1, by decide⟩, .ofInt 5⟩ = .ok (packedOfTwo 0 1 5) := by
    decide +kernel
  have packedSecond : Leaf.packed ⟨1, ⟨2, by decide⟩, .ofInt 7⟩ = .ok (packedOfTwo 1 2 7) := by
    decide +kernel
  have hashed : List.Forall₂ (fun leaf hash => Leaf.hash leaf = .ok hash)
      (WindowTree.number (WindowTree.inOrder twoTotals))
      [.keccak256 (packedOfTwo 0 1 5), .keccak256 (packedOfTwo 1 2 7)] := by
    rw [ordered]
    exact .cons (Leaf.hash_eq_ok.mpr ⟨_, packedFirst, rfl⟩)
      (.cons (Leaf.hash_eq_ok.mpr ⟨_, packedSecond, rfl⟩) .nil)
  obtain ⟨tree, built, root⟩ : ∃ tree, WindowTree.build twoTotals = .ok tree ∧
      tree.root = Merkle.top (Merkle.levels
        [.keccak256 (packedOfTwo 0 1 5), .keccak256 (packedOfTwo 1 2 7)]) :=
    ⟨_, WindowTree.build_eq_ok.mpr ⟨by decide, fresh, _, hashed, rfl⟩, rfl⟩
  have climbs : ∀ a b : Hash32, Merkle.climb a [b] = Merkle.top (Merkle.levels [a, b]) := by
    intro a b
    rw [Merkle.levels_of_lt_length (by simp), Merkle.levels_of_length_le (by simp [pairUp])]
    rfl
  have claimed : firstOfTwo.leaf? = some ⟨0, ⟨1, by decide⟩, .ofInt 5⟩ := by
    decide +kernel
  have valid : firstOfTwo.verify tree.root = .ok true :=
    RecipientArtifact.verify_eq_ok_true.mpr
      ⟨_, claimed, _, packedFirst, by rw [root]; exact climbs _ _⟩
  exact ⟨tree, built, valid, isLeaf_or_collides_of_verify built valid⟩

end BridgeRewards
