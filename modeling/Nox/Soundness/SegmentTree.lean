import Nox.Proofs.CryptoNoteCore.CoreStorage

/-! # The segment tree of the core

The core's segments form a tree whose shape `addBlock` keeps in four places: each segment's
children and parent, the leaf list, and the main chain set. A child continues its parent right
after the parent's top block, the leaves are exactly the segments without children, the first leaf
is the heaviest one, and the main chain set is the chain of the first leaf.

Splitting an in-memory segment keeps the tree linked: the lower part keeps only the upper part as a
child, and the core points the former children at the upper part. Splitting the database root
instead leaves its former children under the shortened root, where they no longer continue its
top block. Blocks that fork twice below the database top so unlink the tree, strand a segment that
is neither a leaf nor on any leaf's chain, and drop a block from the main chain.
-/

namespace Nox.CryptoNote

open Nox.Crypto

namespace Core

variable (core : Core)

/-- Every child a segment lists is stored, has that segment as its parent, and starts right after
its top block. -/
def ChildrenLinked : Prop :=
  ∀ entry ∈ core.chainsStorage, ∀ child ∈ entry.2.children, ∃ stored ∈ core.chainsStorage,
    stored.1 = child ∧ stored.2.getParent = some entry.1 ∧
      stored.2.getStartBlockIndex = entry.2.getTopBlockIndex + 1

/-- Every segment with a parent is listed among the children of that parent. -/
def ParentsListChildren : Prop :=
  ∀ entry ∈ core.chainsStorage, ∀ parent ∈ entry.2.getParent.toList, ∃ stored ∈ core.chainsStorage,
    stored.1 = parent ∧ entry.1 ∈ stored.2.children

/-- The leaves are the stored segments without children, each listed once. -/
def LeavesExact : Prop :=
  core.chainsLeaves.Nodup ∧
    (∀ leaf ∈ core.chainsLeaves, ∃ stored ∈ core.chainsStorage, stored.1 = leaf ∧ stored.2.children = []) ∧
    ∀ stored ∈ core.chainsStorage, stored.2.children = [] → stored.1 ∈ core.chainsLeaves

/-- No leaf is heavier than the first one. -/
def MainLeafHeaviest : Prop :=
  ∀ main ∈ (core.chainsLeaves.head?.bind core.getSegment).toList, ∀ leaf ∈ core.chainsLeaves,
    ∀ segment ∈ (core.getSegment leaf).toList,
      segment.getCurrentCumulativeDifficulty ≤ main.getCurrentCumulativeDifficulty

/-- The segments of the first leaf's chain. -/
def mainChain : List SegmentPointer :=
  core.chainsLeaves.head?.toList.flatMap fun leaf => (core.chain leaf).map (·.1)

/-- The main chain set holds the segments of the first leaf's chain and no others. -/
def MainChainSetExact : Prop :=
  (∀ pointer ∈ core.mainChainSet, pointer ∈ core.mainChain) ∧ ∀ pointer ∈ core.mainChain, pointer ∈ core.mainChainSet

/-- The shape of the segment tree that every `addBlock` should leave. -/
def SegmentTreeWellFormed : Prop :=
  core.ChildrenLinked ∧ core.ParentsListChildren ∧ core.LeavesExact ∧ core.MainLeafHeaviest ∧
    core.MainChainSetExact

instance : Decidable core.ChildrenLinked :=
  inferInstanceAs (Decidable (∀ entry ∈ core.chainsStorage, ∀ child ∈ entry.2.children,
    ∃ stored ∈ core.chainsStorage, stored.1 = child ∧ stored.2.getParent = some entry.1 ∧
      stored.2.getStartBlockIndex = entry.2.getTopBlockIndex + 1))

instance : Decidable core.LeavesExact :=
  inferInstanceAs (Decidable (core.chainsLeaves.Nodup ∧
    (∀ leaf ∈ core.chainsLeaves, ∃ stored ∈ core.chainsStorage, stored.1 = leaf ∧ stored.2.children = []) ∧
    ∀ stored ∈ core.chainsStorage, stored.2.children = [] → stored.1 ∈ core.chainsLeaves))

instance : Decidable core.MainChainSetExact :=
  inferInstanceAs (Decidable ((∀ pointer ∈ core.mainChainSet, pointer ∈ core.mainChain) ∧
    ∀ pointer ∈ core.mainChain, pointer ∈ core.mainChainSet))

section Split

variable (primitives : Primitives) {pointer : SegmentPointer} {splitBlockIndex : ℕ}

/-- Splitting an in-memory segment keeps the tree linked: the lower part has the upper part as its
only child, the upper part continues the lower part, and a former child that continued the segment
now has the upper part as its parent and continues it. -/
theorem split_memory_links {cache : BlockchainCache}
    (stored : core.getSegment pointer = some (.memory cache)) (notOwnChild : pointer ∉ cache.children)
    (inside : cache.startIndex < splitBlockIndex)
    (below : splitBlockIndex ≤ (Segment.memory cache).getTopBlockIndex)
    {child : SegmentPointer} (isChild : child ∈ cache.children) {childSegment : Segment}
    (childStored : core.getSegment child = some childSegment)
    (childParent : childSegment.getParent = some pointer)
    (childStart : childSegment.getStartBlockIndex = (Segment.memory cache).getTopBlockIndex + 1) :
    let split := core.split primitives pointer splitBlockIndex
    (∃ lower, split.1.getSegment pointer = some (.memory lower) ∧ lower.children = [split.2.1] ∧
      (Segment.memory split.2.2).getStartBlockIndex = (Segment.memory lower).getTopBlockIndex + 1) ∧
    split.2.2.parent = some pointer ∧ child ∈ split.2.2.children ∧
    ∃ relinked, split.1.getSegment child = some relinked ∧ relinked.getParent = some split.2.1 ∧
      relinked.getStartBlockIndex = (Segment.memory split.2.2).getTopBlockIndex + 1 := by
  have childNotSelf : child ≠ pointer := fun same => notOwnChild (same ▸ isChild)
  -- the database root has no parent, so a child with a parent is an in-memory segment
  obtain ⟨childCache, rfl⟩ : ∃ childCache, childSegment = .memory childCache := by
    cases childSegment with
    | memory childCache => exact ⟨childCache, rfl⟩
    | database _ => cases childParent
  have lookup := split_memory_getSegment core primitives pointer splitBlockIndex stored notOwnChild
  simp only [split_memory_upper core primitives pointer splitBlockIndex stored]
  refine ⟨⟨(cache.split pointer core.freshPointer splitBlockIndex).1, ?_, rfl, ?_⟩, rfl, isChild,
    Segment.setParent core.freshPointer (.memory childCache), ?_, rfl, ?_⟩
  · rw [lookup, if_pos rfl]
  · simp only [Segment.getStartBlockIndex, BlockchainCache.split_upper_startIndex]
    exact (BlockchainCache.split_lower_top inside below).symm
  · rw [lookup, if_neg childNotSelf, if_pos isChild, childStored]
    rfl
  · rw [BlockchainCache.split_upper_top inside below]
    simpa [Segment.getStartBlockIndex, Segment.setParent] using childStart

/-- Splitting the database root keeps its children: a child that continued the old top is still
listed by the shortened root, which now ends before that child starts. -/
theorem split_database_unlinks {cache : DatabaseBlockchainCache}
    (stored : core.getSegment pointer = some (.database cache)) (inside : 0 < splitBlockIndex)
    (below : splitBlockIndex ≤ (Segment.database cache).getTopBlockIndex)
    {child : SegmentPointer} (isChild : child ∈ cache.children) (childNotSelf : child ≠ pointer)
    {childSegment : Segment} (childStored : core.getSegment child = some childSegment)
    (childStart : childSegment.getStartBlockIndex = (Segment.database cache).getTopBlockIndex + 1) :
    let split := (core.split primitives pointer splitBlockIndex).1
    ∃ lower, split.getSegment pointer = some (.database lower) ∧ child ∈ lower.children ∧
      split.getSegment child = some childSegment ∧
      childSegment.getStartBlockIndex ≠ (Segment.database lower).getTopBlockIndex + 1 := by
  have shortened := DatabaseBlockchainCache.split_lower_top primitives pointer core.freshPointer
    splitBlockIndex cache inside below
  refine ⟨(cache.split primitives pointer core.freshPointer splitBlockIndex).1, ?_, ?_, ?_, ?_⟩
  · rw [split_database_getSegment core primitives pointer splitBlockIndex stored, if_pos rfl]
  · simp [isChild]
  · rw [split_database_getSegment core primitives pointer splitBlockIndex stored, if_neg childNotSelf,
      childStored]
  · omega

end Split

end Core

/-! ## Two forks below the database top -/

namespace Scenario

/-- The hash whose last byte is `n`, all others zero. -/
def hashOf (n : ℕ) : Hash := ⟨(Vector.replicate 31 0).push (UInt8.ofNat n)⟩

/-- The one-time key whose last byte is `n`, all others zero. -/
def keyOf (n : ℕ) : PublicKey := ⟨(Vector.replicate 31 0).push (UInt8.ofNat n)⟩

/-- Stand-ins for the cryptography: a block hashes to its nonce and a transaction to its unlock
time, and every key and ring signature checks. -/
def primitives : Primitives where
  getBlockHash block := hashOf block.nonce.toNat
  getTransactionHash transaction := hashOf transaction.unlockTime.toNat
  getTransactionPrefixHash _ := hashOf 0
  checkKey _ := true
  keyImageInDomain _ := true
  checkRingSignature _ _ _ _ _ := true

/-- The currency of the configuration; no block here reaches the LWMA algorithms. -/
def currency : Currency := Currency.ofConfig (fun _ _ => 0) (fun _ _ => 0) (fun _ _ => 0)

/-- A node with the given checkpoints whose clock reads 1000000 s. Every block carries a proof of
work that passes, and the mixins of its transactions are allowed. -/
def context (checkpoints : Checkpoints) : CoreContext where
  currency := currency
  checkpoints := checkpoints
  primitives := primitives
  validateMixins _ _ := true
  checkProofOfWork _ _ := true
  now := 1000000

/-- The checkpoints of a node started without any, as in test network mode. -/
def noCheckpoints : Checkpoints := ⟨[], List.Pairwise.nil⟩

/-- A parent block with one transaction and a merge-mining tag of depth 0. -/
def parentBlock : ParentBlock :=
  { majorVersion := BLOCK_MAJOR_VERSION_1, minorVersion := 0, previousBlockHash := hashOf 0,
    transactionCount := 1, baseTransactionBranch := [],
    baseTransaction :=
      { version := 1, unlockTime := 0, inputs := [], outputs := [],
        extra := [TX_EXTRA_MERGE_MINING_TAG, 33, 0] ++ List.replicate 32 0 },
    blockchainBranch := [] }

/-- The base reward after `alreadyGeneratedCoins`, which a small block is paid in full. -/
def reward (alreadyGeneratedCoins : UInt64) : UInt64 :=
  (currency.moneySupply - alreadyGeneratedCoins) >>> currency.emissionSpeedFactor.toUInt64

/-- The coinbase of block `index`: its `BaseInput`, the mined-money unlock time and one output of
`amount`. -/
def minerTransaction (index : ℕ) (nonce : UInt32) (amount : UInt64) : Transaction :=
  { version := 1, unlockTime := UInt64.ofNat (index + currency.minedMoneyUnlockWindow),
    inputs := [.base ⟨UInt32.ofNat index⟩], outputs := [⟨amount, .key ⟨keyOf nonce.toNat⟩⟩],
    extra := [], signatures := [] }

/-- The block at `index` on `previous` without transactions, with the major version the core
expects at `index`; the nonce tells apart blocks at one index. -/
def block (index : ℕ) (previous : Hash) (nonce : UInt32) (timestamp amount : UInt64) : BlockTemplate :=
  { majorVersion := currency.coreUpgradeManager.getBlockMajorVersion index, minorVersion := 0,
    nonce := nonce, timestamp := timestamp, previousBlockHash := previous, parentBlock := parentBlock,
    baseTransaction := minerTransaction index nonce amount, transactionHashes := [] }

/-- A block as a peer relays it. -/
def relay (block : BlockTemplate) : RawBlock :=
  ⟨(toBinaryArray outputBlockTemplate block).toOption.getD [], []⟩

/-- The configured genesis block of the test network. -/
def genesis : BlockTemplate := (genesisBlock true).toOption.getD (block 0 (hashOf 71) 71 0 0)

/-- The coins the genesis block generates. -/
def genesisCoins : UInt64 := (genesis.baseTransaction.outputs.map (·.amount)).sum

/-- The coins generated by the genesis block and one block after it. -/
def secondCoins : UInt64 := genesisCoins + reward genesisCoins

/-- The database root of a fresh node. -/
def root : DatabaseBlockchainCache :=
  (DatabaseBlockchainCache.ofGenesisBlock primitives ⟨genesis⟩).toOption.getD .empty

/-- A fresh node on the database root. -/
def node : Core := Core.ofRoot (.database root) (relay genesis)

def first : BlockTemplate := block 1 (hashOf 71) 1 10 (reward genesisCoins)
def second : BlockTemplate := block 2 (hashOf 1) 2 20 (reward secondCoins)

/-- Another block 2 on block 1. -/
def secondFork : BlockTemplate := block 2 (hashOf 1) 3 21 (reward secondCoins)

/-- Another block 1 on the genesis block. -/
def firstFork : BlockTemplate := block 1 (hashOf 71) 4 11 (reward genesisCoins)

/-- Blocks 1 and 2, then a fork at block 2 and a fork at block 1, on a fresh node. -/
def forkRun : Core × List ErrorCode :=
  node.addRawBlocks (context noCheckpoints) [relay first, relay second, relay secondFork, relay firstFork]

end Scenario

open Scenario in
set_option maxRecDepth 10000 in
/-- Blocks 1 and 2 on the database root, then a second block 2 and a second block 1: both forks
split the database. The second split shortens the root to the genesis block but keeps the upper
part of the first split and the first fork among its children, so they no longer continue it; the
upper part of the second split, which holds block 1, is neither a leaf nor has a child; and the main
chain, which runs from the upper part of the first split to the root, has no block 1. -/
theorem database_split_unlinks_tree :
    -- the node starts from the configured genesis block,
    genesisBlock true = .ok genesis ∧
    (DatabaseBlockchainCache.ofGenesisBlock primitives ⟨genesis⟩).toOption.isSome = true ∧
    -- every block is accepted, the forks as alternative blocks,
    forkRun.2 = [.addBlock .ADDED_TO_MAIN, .addBlock .ADDED_TO_MAIN, .addBlock .ADDED_TO_ALTERNATIVE,
      .addBlock .ADDED_TO_ALTERNATIVE] ∧
    -- the root lists children that do not continue it,
    ¬ forkRun.1.ChildrenLinked ∧
    -- a segment without children is missing from the leaves,
    ¬ forkRun.1.LeavesExact ∧
    -- and block 1 is gone from the main chain.
    Segment.getBlockHash (forkRun.1.segments (forkRun.1.chainsLeaves.headD 0)) 1 = none := by
  with_unfolding_all decide

end Nox.CryptoNote
