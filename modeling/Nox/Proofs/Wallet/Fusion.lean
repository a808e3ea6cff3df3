import Nox.Model.Wallet.Fusion
import Nox.Proofs.Wallet.PrepareInputs
import Nox.Proofs.Wallet.WalletGreen
import Nox.Proofs.CryptoNoteCore.RandomOutputs
import Nox.Proofs.CryptoNoteCore.Decompose
import Nox.Library.Digits
import Nox.Library.Ledger

/-! # What a fusion transaction of the wallet holds

The inputs `createFusionTransaction` spends are outputs of the wallet, each at most once, whose
amounts are pretty and of one power of ten `10 ^ b`: multiples of it below the next power, and not
below the fusion dust threshold. Their sum is then a multiple of `10 ^ b` worth at most nine times
as many as there are inputs, so few of its digits from place `b` on are nonzero: the outputs number
at most a quarter of the inputs once there are twelve of them. No two nonzero chunks of the sum fit
under the fusion dust threshold together, which is below `10 ^ (b + 1)`, so the daemon's
decomposition is the wallet's. The loop ends at a transaction within the size limit, or the wallet
refuses to send.
-/

namespace Nox.CryptoNote

open Nox.Crypto Nox.Common Nox.Common.ShuffleGenerator

/-! ## Shuffles and buckets -/

/-- A shuffle reorders the values: a generator of `n` positions, drawn `n` times, hands out each
position once. -/
theorem shuffleValues_perm {α : Type} (engine : ℕ → ℕ) (values : List α) :
    (shuffleValues engine values).Perm values := by
  unfold shuffleValues
  split
  · rename_i positions generator drawn
    obtain ⟨drawnAll, length⟩ := ShuffleGenerator.drawMany_drawn (Drawn.new values.length engine) drawn
    have exhausted : generator.count = 0 := by
      have := drawnAll.length_add
      rw [List.nil_append, length] at this
      omega
    have reorder : positions.Perm (List.range values.length) := by
      simpa [Drawn, live, exhausted] using drawnAll
    have read := reorder.filterMap fun position => values[position]?
    rwa [List.filterMap_getElem?_range] at read
  · exact List.Perm.refl _

/-- A pretty amount is a digit from 1 to 9 times a power of ten below `10 ^ 19`, or `10 ^ 19`. -/
theorem mem_PRETTY_AMOUNTS {amount : UInt64} (pretty : amount ∈ PRETTY_AMOUNTS) :
    (∃ digit order, 1 ≤ digit ∧ digit ≤ 9 ∧ order < 19 ∧ amount.toNat = digit * 10 ^ order) ∨
      amount.toNat = 10 ^ 19 := by
  rcases List.mem_append.mp pretty with listed | last
  · obtain ⟨order, orderIn, member⟩ := List.mem_flatMap.mp listed
    obtain ⟨digit, digitIn, rfl⟩ := List.mem_map.mp member
    rw [List.mem_range] at orderIn
    rw [List.mem_range'_1] at digitIn
    have fits : digit * 10 ^ order < 2 ^ 64 :=
      calc digit * 10 ^ order ≤ 9 * 10 ^ 18 :=
            Nat.mul_le_mul (by omega) (Nat.pow_le_pow_right (by norm_num) (by omega))
        _ < 2 ^ 64 := by norm_num
    exact .inl ⟨digit, order, by omega, by omega, orderIn, by rw [UInt64.toNat_ofNat', Nat.mod_eq_of_lt fits]⟩
  · rw [List.mem_singleton.mp last]
    exact .inr rfl

/-- An amount applicable in a fusion input is below the threshold, not below the fusion dust
threshold, and pretty. -/
theorem isAmountApplicable_spec {currency : Currency} {amount threshold : UInt64} {height powerOfTen : ℕ}
    (applicable : currency.isAmountApplicableInFusionTransactionInput amount threshold height = some powerOfTen) :
    amount < threshold ∧ currency.defaultFusionDustThreshold height ≤ amount ∧ amount ∈ PRETTY_AMOUNTS := by
  unfold Currency.isAmountApplicableInFusionTransactionInput at applicable
  split_ifs at applicable with above below
  dsimp only at applicable
  split at applicable
  · rename_i pretty found
    split_ifs at applicable with differs
    exact ⟨UInt64.not_le.mp above, UInt64.not_lt.mp below, by
      rw [not_not.mp differs]
      exact List.mem_of_getElem? found⟩
  · cases applicable

/-- The lower bound of a bucket in `pickRandomFusionInputs`, `10 ^ bucket` in `uint64_t`. -/
def bucketLowerBound (bucket : ℕ) : UInt64 := (List.range bucket).foldl (fun bound _ => bound * 10) 1

/-- The upper bound of a bucket: the next power of ten, or the largest `uint64_t` for the last. -/
def bucketUpperBound (bucket : ℕ) : UInt64 := if bucket = 19 then UINT64_MAX else bucketLowerBound bucket * 10

/-- The outputs ready for a fusion that lie in a bucket. -/
def bucketOuts (ready : List (OutputToTransfer × ℕ)) (bucket : ℕ) : List OutputToTransfer :=
  (ready.map (·.1)).filter fun out =>
    decide (bucketLowerBound bucket ≤ out.out.amount) && decide (out.out.amount < bucketUpperBound bucket)

/-- `pickRandomFusionInputs` over the bucket's outputs and bounds. -/
theorem pickRandomFusionInputs_eq (currency : Currency) (walletOuts : List WalletOuts) (threshold : UInt64)
    (minInputCount maxInputCount height : ℕ) (bucketEngine trimEngine : ℕ → ℕ) :
    pickRandomFusionInputs currency walletOuts threshold minInputCount maxInputCount height bucketEngine trimEngine =
      (match (shuffleValues bucketEngine (List.range 20)).find? (fun bucket =>
          decide (minInputCount ≤ (fusionReadyOuts currency walletOuts threshold height).countP (·.2 == bucket))) with
      | none => some []
      | some bucket =>
        let selectedOuts := bucketOuts (fusionReadyOuts currency walletOuts threshold height) bucket
        if selectedOuts.length ≤ maxInputCount then
          some (selectedOuts.insertionSort fun l r => l.out.amount ≤ r.out.amount)
        else do
          let (positions, _) ← ShuffleGenerator.drawMany (.new selectedOuts.length trimEngine) maxInputCount
          pure ((positions.filterMap (selectedOuts[·]?)).insertionSort fun l r => l.out.amount ≤ r.out.amount)) :=
  rfl

theorem toNat_bucketLowerBound {bucket : ℕ} (below : bucket < 20) : (bucketLowerBound bucket).toNat = 10 ^ bucket := by
  induction bucket with
  | zero => rfl
  | succ bucket ih =>
    have fits : 10 ^ bucket * 10 < 2 ^ 64 :=
      calc 10 ^ bucket * 10 = 10 ^ (bucket + 1) := (Nat.pow_succ 10 bucket).symm
        _ ≤ 10 ^ 19 := Nat.pow_le_pow_right (by norm_num) (by omega)
        _ < 2 ^ 64 := by norm_num
    rw [bucketLowerBound, List.range_succ, List.foldl_append, List.foldl_cons, List.foldl_nil, UInt64.toNat_mul]
    rw [bucketLowerBound] at ih
    rw [ih (by omega), show (10 : UInt64).toNat = 10 from rfl, Nat.mod_eq_of_lt fits, Nat.pow_succ]

/-- A pretty amount from a bucket's lower bound on, and below its upper bound for all but the last,
is a multiple of the bucket's power of ten below the next. -/
theorem pretty_in_bucket {amount : UInt64} {bucket : ℕ} (pretty : amount ∈ PRETTY_AMOUNTS) (below : bucket < 20)
    (lower : 10 ^ bucket ≤ amount.toNat) (upper : bucket < 19 → amount.toNat < 10 ^ (bucket + 1)) :
    10 ^ bucket ∣ amount.toNat ∧ amount.toNat < 10 ^ (bucket + 1) := by
  have ten : 1 < 10 := by norm_num
  rcases mem_PRETTY_AMOUNTS pretty with ⟨digit, order, one, nine, orderBelow, value⟩ | top
  · have power : 10 ^ order ≤ amount.toNat := value ▸ Nat.le_mul_of_pos_left _ (by omega)
    have next : amount.toNat < 10 ^ (order + 1) := by
      rw [value, Nat.pow_succ, Nat.mul_comm]
      exact Nat.mul_lt_mul_of_pos_left (by omega) (Nat.pow_pos (by norm_num))
    -- the amount's power of ten is the bucket's
    have same : order = bucket := by
      have lowOrder : bucket < order + 1 := (Nat.pow_lt_pow_iff_right ten).mp (lower.trans_lt next)
      have highOrder : order < bucket + 1 := by
        by_cases last : bucket < 19
        · exact (Nat.pow_lt_pow_iff_right ten).mp (power.trans_lt (upper last))
        · omega
      omega
    subst same
    exact ⟨Dvd.intro_left digit value.symm, next⟩
  · have last : bucket = 19 := by
      by_contra notLast
      have := upper (by omega)
      rw [top] at this
      have := (Nat.pow_lt_pow_iff_right ten).mp this
      omega
    subst last
    rw [top]
    exact ⟨dvd_refl _, by norm_num⟩

/-- What makes an input fit for a fusion in the bucket of `10 ^ bucket`: a multiple of the power of
ten below the next, and not below the fusion dust threshold. -/
structure InBucket (currency : Currency) (height bucket : ℕ) (input : OutputToTransfer) : Prop where
  dvd : 10 ^ bucket ∣ input.out.amount.toNat
  lt : input.out.amount.toNat < 10 ^ (bucket + 1)
  dust_le : currency.defaultFusionDustThreshold height ≤ input.out.amount

theorem mem_fusionReadyOuts {currency : Currency} {walletOuts : List WalletOuts} {threshold : UInt64} {height : ℕ}
    {ready : OutputToTransfer × ℕ} (member : ready ∈ fusionReadyOuts currency walletOuts threshold height) :
    currency.isAmountApplicableInFusionTransactionInput ready.1.out.amount threshold height = some ready.2 := by
  obtain ⟨wallet, -, listed⟩ := List.mem_flatMap.mp member
  obtain ⟨out, -, applicable⟩ := List.mem_filterMap.mp listed
  obtain ⟨powerOfTen, found, rfl⟩ := Option.map_eq_some_iff.mp applicable
  exact found

/-- The ready outputs are outputs of the wallets, in order. -/
theorem fusionReadyOuts_sublist (currency : Currency) (threshold : UInt64) (height : ℕ) :
    ∀ walletOuts : List WalletOuts, ((fusionReadyOuts currency walletOuts threshold height).map (·.1.out.amount)).Sublist
      ((walletOutputs walletOuts).map (·.2.amount))
  | [] => List.Sublist.slnil
  | wallet :: walletOuts => by
    simp only [fusionReadyOuts, walletOutputs, List.flatMap_cons, List.map_append] at *
    refine List.Sublist.append ?_ (fusionReadyOuts_sublist currency threshold height walletOuts)
    rw [List.map_filterMap, List.map_map]
    induction wallet.outs with
    | nil => exact List.Sublist.slnil
    | cons out outs ih =>
      rw [List.filterMap_cons, List.map_cons]
      cases (currency.isAmountApplicableInFusionTransactionInput out.amount threshold height) with
      | none => exact ih.cons _
      | some _ => exact ih.cons_cons _

/-- Every output of a bucket is fit for a fusion in it. -/
theorem inBucket_of_mem_bucketOuts {currency : Currency} {walletOuts : List WalletOuts} {threshold : UInt64}
    {height bucket : ℕ} (below : bucket < 20) {input : OutputToTransfer}
    (member : input ∈ bucketOuts (fusionReadyOuts currency walletOuts threshold height) bucket) :
    InBucket currency height bucket input := by
  obtain ⟨listed, within⟩ := List.mem_filter.mp member
  obtain ⟨ready, readyMember, rfl⟩ := List.mem_map.mp listed
  obtain ⟨-, dustLe, pretty⟩ := isAmountApplicable_spec (mem_fusionReadyOuts readyMember)
  simp only [Bool.and_eq_true, decide_eq_true_eq] at within
  have lower : 10 ^ bucket ≤ ready.1.out.amount.toNat := by
    have := UInt64.le_iff_toNat_le.mp within.1
    rwa [toNat_bucketLowerBound below] at this
  have upper : bucket < 19 → ready.1.out.amount.toNat < 10 ^ (bucket + 1) := by
    intro notLast
    have := UInt64.lt_iff_toNat_lt.mp within.2
    rw [bucketUpperBound, if_neg (by omega), UInt64.toNat_mul, toNat_bucketLowerBound below,
      show (10 : UInt64).toNat = 10 from rfl, Nat.mod_eq_of_lt] at this
    · rwa [Nat.pow_succ]
    · calc 10 ^ bucket * 10 = 10 ^ (bucket + 1) := (Nat.pow_succ 10 bucket).symm
        _ ≤ 10 ^ 19 := Nat.pow_le_pow_right (by norm_num) (by omega)
        _ < 2 ^ 64 := by norm_num
  obtain ⟨dvd, lt⟩ := pretty_in_bucket pretty below lower upper
  exact ⟨dvd, lt, dustLe⟩

/-- Each input `pickRandomFusionInputs` picks is an output of the wallets, each at most once, and
all are fit for a fusion in one bucket. -/
theorem pickRandomFusionInputs_spec {currency : Currency} {walletOuts : List WalletOuts} {threshold : UInt64}
    {minInputCount maxInputCount height : ℕ} {bucketEngine trimEngine : ℕ → ℕ} {picked : List OutputToTransfer}
    (pickedSome : pickRandomFusionInputs currency walletOuts threshold minInputCount maxInputCount height
      bucketEngine trimEngine = some picked) :
    (picked.map (·.out.amount)).Subperm ((walletOutputs walletOuts).map (·.2.amount)) ∧
      ∃ bucket, ∀ input ∈ picked, InBucket currency height bucket input := by
  rw [pickRandomFusionInputs_eq] at pickedSome
  split at pickedSome
  · cases pickedSome
    exact ⟨List.nil_subperm, 0, fun _ member => absurd member List.not_mem_nil⟩
  · rename_i bucket found
    have below : bucket < 20 :=
      List.mem_range.mp ((shuffleValues_perm bucketEngine _).subset (List.mem_of_find?_eq_some found))
    -- the bucket's outputs are outputs of the wallets, in order
    have selected : ((bucketOuts (fusionReadyOuts currency walletOuts threshold height) bucket).map
        (·.out.amount)).Sublist ((walletOutputs walletOuts).map (·.2.amount)) := by
      refine (List.filter_sublist.map _).trans ?_
      rw [List.map_map]
      exact fusionReadyOuts_sublist currency threshold height walletOuts
    -- the picked inputs are some of the bucket's outputs, each at most once
    have drawnFrom : picked.Subperm (bucketOuts (fusionReadyOuts currency walletOuts threshold height) bucket) := by
      dsimp only at pickedSome
      split_ifs at pickedSome
      · cases pickedSome
        exact (List.perm_insertionSort _ _).subperm
      · obtain ⟨⟨positions, generator⟩, drawn, picks⟩ := Option.bind_eq_some_iff.mp pickedSome
        obtain rfl := Option.some.inj picks
        obtain ⟨drawnAll, -⟩ := ShuffleGenerator.drawMany_drawn (Drawn.new _ trimEngine) drawn
        obtain ⟨distinct, inside⟩ := drawnAll.nodup_lt
        rw [List.nil_append] at distinct inside
        exact (List.perm_insertionSort _ _).subperm.trans (List.subperm_filterMap_getElem? _ distinct inside)
    exact ⟨(List.Subperm.map_subperm_map _ drawnFrom).trans selected.subperm,
      bucket, fun input member => inBucket_of_mem_bucketOuts below (drawnFrom.subset member)⟩

/-! ## The transaction of a round -/

section Build

variable (getTransactionPrefixHash : TransactionPrefix → Hash) (crypto : TransactionCrypto) (engine : ℕ → ℕ)
  (decomposedOutputs : List ReceiverAmounts) (keysInfo : List InputInfo) (extra : List UInt8) (unlockTimestamp : UInt64)

/-- The inputs of the transaction spend the amounts of the rings, in order. -/
theorem getInputsAmounts_makeTransaction :
    getInputsAmounts (makeTransaction getTransactionPrefixHash crypto engine decomposedOutputs keysInfo extra
      unlockTimestamp) = keysInfo.map (·.keyInfo.amount) := by
  simp [makeTransaction, getInputsAmounts, List.filterMap_map, Function.comp_def]

/-- The outputs pay the receivers' amounts, sorted: the shuffle and the sort only reorder them. -/
theorem outputAmounts_makeTransaction :
    let amounts := (makeTransaction getTransactionPrefixHash crypto engine decomposedOutputs keysInfo extra
      unlockTimestamp).outputs.map (·.amount)
    amounts.Pairwise (· ≤ ·) ∧ amounts.Perm (decomposedOutputs.flatMap (·.amounts)) := by
  let byAmount := fun left right : AccountPublicAddress × UInt64 => left.2 ≤ right.2
  haveI : Std.Total byAmount := ⟨fun left right => UInt64.le_total left.2 right.2⟩
  haveI : IsTrans _ byAmount := ⟨fun _ _ _ => UInt64.le_trans⟩
  let pairs := decomposedOutputs.flatMap fun output => output.amounts.map fun amount => (output.receiver, amount)
  let sorted := (shuffleValues engine pairs).insertionSort byAmount
  have amounts : (makeTransaction getTransactionPrefixHash crypto engine decomposedOutputs keysInfo extra
      unlockTimestamp).outputs.map (·.amount) = sorted.map Prod.snd := by
    simp only [makeTransaction, List.map_map]
    conv_rhs => rw [← List.zipIdx_map_fst 0 sorted]
    rw [List.map_map]
    rfl
  have paired : pairs.map Prod.snd = decomposedOutputs.flatMap (·.amounts) := by
    simp [pairs, List.map_flatMap, Function.comp_def]
  refine ⟨?_, ?_⟩
  · rw [amounts, List.pairwise_map]
    exact List.pairwise_insertionSort byAmount _
  · rw [amounts, ← paired]
    exact ((List.perm_insertionSort byAmount _).trans (shuffleValues_perm engine pairs)).map Prod.snd

end Build

/-- An input built for a transfer spends its amount. -/
theorem prepareInput_amount {mixinResult : List OutsForAmount} {mixIn : UInt16} {i : ℕ} {input : OutputToTransfer}
    {info : InputInfo} (prepared : prepareInput mixinResult mixIn i input = some info) :
    info.keyInfo.amount = input.out.amount := by
  unfold prepareInput at prepared
  split_ifs at prepared
  · simp only [pure, bind, Option.bind_some, Option.some.injEq] at prepared
    rw [← prepared]
  · simp only [pure, bind, Option.bind_eq_some_iff, Option.bind_some, Option.some.injEq] at prepared
    obtain ⟨entry, -, rfl⟩ := prepared
    rfl

/-- The inputs `prepareInputs` builds spend the amounts of the transfers, in order. -/
theorem prepareInputs_amounts {selectedTransfers : List OutputToTransfer} {mixinResult : List OutsForAmount}
    {mixIn : UInt16} {keysInfo : List InputInfo} (prepared : prepareInputs selectedTransfers mixinResult mixIn = some keysInfo) :
    keysInfo.map (·.keyInfo.amount) = selectedTransfers.map (·.out.amount) := by
  have each := List.forall₂_of_mapM_eq_some prepared
  have amounts : List.Forall₂ (fun (pair : OutputToTransfer × ℕ) (info : InputInfo) =>
      pair.1.out.amount = info.keyInfo.amount) selectedTransfers.zipIdx keysInfo :=
    each.imp fun _ _ built => (prepareInput_amount built).symm
  have mapped : List.Forall₂ (· = ·) (selectedTransfers.zipIdx.map (·.1.out.amount)) (keysInfo.map (·.keyInfo.amount)) :=
    List.forall₂_map_left_iff.mpr (List.forall₂_map_right_iff.mpr amounts)
  rw [List.forall₂_eq_eq_eq] at mapped
  rw [← mapped, show (fun pair : OutputToTransfer × ℕ => pair.1.out.amount) = (·.out.amount) ∘ Prod.fst from rfl,
    ← List.map_map, List.zipIdx_map_fst]

namespace FusionWallet

variable {wallet : FusionWallet} {draws : FusionDraws} {getTransactionPrefixHash : TransactionPrefix → Hash}

/-- A round builds the transaction of the decomposed sum of the inputs left and serializes it. -/
theorem fusionRound_eq_some {round : ℕ} {fusionInputs : List OutputToTransfer} {keysInfo : List InputInfo}
    {tx : Transaction} {size : ℕ}
    (built : wallet.fusionRound draws getTransactionPrefixHash round fusionInputs keysInfo = some (tx, size)) :
    tx = makeTransaction getTransactionPrefixHash (draws.crypto round) (draws.outputEngine round)
        [decomposeFusionOutputs wallet.destination (fusionInputs.foldl (fun amount input => amount + input.out.amount) 0)]
        keysInfo [] 0 ∧
      ∃ transactionData, toBinaryArray outputTransaction tx = .ok transactionData ∧ transactionData.length = size := by
  unfold fusionRound at built
  dsimp only at built
  split at built
  · rename_i transactionData serialized
    obtain ⟨rfl, rfl⟩ := Prod.mk.inj (Option.some.inj built)
    exact ⟨rfl, transactionData, serialized, rfl⟩
  · cases built

/-- The loop ends at a round over the first inputs and their rings, whose transaction is within the
size limit or has fewer inputs than `fusionTxMinInputCount`. -/
theorem fusionLoop_spec : ∀ {fuel round : ℕ} {fusionInputs : List OutputToTransfer} {keysInfo : List InputInfo}
    {tx : Transaction} {size : ℕ} {kept : List OutputToTransfer}, keysInfo.length = fusionInputs.length →
    wallet.fusionLoop draws getTransactionPrefixHash fuel round fusionInputs keysInfo = some (tx, size, kept) →
    ∃ round' count, kept = fusionInputs.take count ∧
      wallet.fusionRound draws getTransactionPrefixHash round' kept (keysInfo.take count) = some (tx, size) ∧
      ¬ (size > wallet.currency.fusionTxMaxSize ∧ kept.length ≥ FUSION_TX_MIN_INPUT_COUNT)
  | 0, _, _, _, _, _, _, _, looped => by cases looped
  | fuel + 1, round, fusionInputs, keysInfo, tx, size, kept, aligned, looped => by
    rw [fusionLoop] at looped
    obtain ⟨⟨built, builtSize⟩, round₀, rest⟩ := Option.bind_eq_some_iff.mp looped
    dsimp only at rest
    split_ifs at rest with continues
    · -- the next round drops the last input and its ring
      have shorter : keysInfo.dropLast.length = fusionInputs.dropLast.length := by
        simp [aligned]
      obtain ⟨round', count, keptEq, last, stops⟩ := fusionLoop_spec shorter rest
      have inputsEq : fusionInputs.dropLast.take count = fusionInputs.take (min count (fusionInputs.length - 1)) := by
        rw [List.dropLast_eq_take, List.take_take]
      have keysEq : keysInfo.dropLast.take count = keysInfo.take (min count (fusionInputs.length - 1)) := by
        rw [List.dropLast_eq_take, List.take_take, aligned]
      rw [keysEq] at last
      exact ⟨round', min count (fusionInputs.length - 1), keptEq.trans inputsEq, last, stops⟩
    · simp only [pure, Option.some.injEq, Prod.mk.injEq] at rest
      obtain ⟨rfl, rfl, rfl⟩ := rest
      refine ⟨round, fusionInputs.length, List.take_length.symm, ?_, continues⟩
      rwa [← aligned, List.take_length]

/-- A transaction `createFusionTransaction` sends is the last round of its loop, over the first of
the inputs it picked and their rings: at least `fusionTxMinInputCount` of them, within the size
limit. -/
theorem createFusionTransaction_eq_sent {threshold : UInt64} {mixin : UInt16} {tx : Transaction}
    (sent : wallet.createFusionTransaction draws getTransactionPrefixHash threshold mixin = some (some tx)) :
    ∃ (picked : List OutputToTransfer) (mixinResult : List OutsForAmount) (keysInfo : List InputInfo)
      (round count size : ℕ),
      pickRandomFusionInputs wallet.currency wallet.walletOuts threshold FUSION_TX_MIN_INPUT_COUNT
          (getApproximateMaximumInputCount wallet.currency.fusionTxMaxSize MAX_FUSION_OUTPUT_COUNT mixin.toNat)
          wallet.lastKnownBlockHeight draws.bucketEngine draws.trimEngine = some picked ∧
        prepareInputs picked mixinResult mixin = some keysInfo ∧
        wallet.fusionRound draws getTransactionPrefixHash round (picked.take count) (keysInfo.take count) =
          some (tx, size) ∧
        size ≤ wallet.currency.fusionTxMaxSize ∧ FUSION_TX_MIN_INPUT_COUNT ≤ (picked.take count).length := by
  unfold createFusionTransaction at sent
  simp only [bind, pure, Option.bind_none, Option.ite_none_left_eq_some, Option.bind_eq_some_iff] at sent
  obtain ⟨-, -, -, picked, pickedSome, rest⟩ := sent
  by_cases few : picked.length < FUSION_TX_MIN_INPUT_COUNT
  · rw [if_pos few] at rest
    cases rest
  rw [if_neg few] at rest
  -- the answer of the node, the rings, the loop, then the checks before sending
  obtain ⟨mixinResult, -, rest⟩ := Option.bind_eq_some_iff.mp rest
  obtain ⟨keysInfo, prepared, rest⟩ := Option.bind_eq_some_iff.mp rest
  obtain ⟨⟨sentTx, size, kept⟩, looped, rest⟩ := Option.bind_eq_some_iff.mp rest
  obtain ⟨enough, rest⟩ := Option.ite_none_left_eq_some.mp rest
  obtain ⟨transactionData, -, rest⟩ := Option.bind_eq_some_iff.mp rest
  obtain ⟨-, rest⟩ := Option.ite_none_left_eq_some.mp rest
  obtain ⟨-, -, final⟩ := Option.bind_eq_some_iff.mp rest
  obtain rfl : sentTx = tx := Option.some.inj (Option.some.inj final)
  dsimp only at enough
  have aligned := List.length_eq_of_mapM_eq_some prepared
  rw [List.length_zipIdx] at aligned
  obtain ⟨round, count, rfl, built, stops⟩ := fusionLoop_spec aligned looped
  refine ⟨picked, mixinResult, keysInfo, round, count, size, pickedSome, prepared, built, ?_, by omega⟩
  by_contra large
  exact stops ⟨by omega, by omega⟩

end FusionWallet

/-! ## How many outputs -/

/-- Without a dust threshold `decomposeAmount` hands out the nonzero chunks of the amount: digits
from 1 to 9 at increasing places, adding up to it. -/
theorem decomposeAmount_zero_chunks (amount : UInt64) :
    ∃ chunks : List (ℕ × ℕ), (decomposeAmount amount 0 []).length = chunks.length ∧
      (chunks.map fun chunk => chunk.1 * 10 ^ chunk.2).sum = amount.toNat ∧
      (∀ chunk ∈ chunks, 1 ≤ chunk.1 ∧ chunk.1 ≤ 9) ∧ (chunks.map Prod.snd).Pairwise (· < ·) := by
  obtain ⟨dust, chunks, partsEq, sum, dustLe, digits, increasing⟩ := decomposeAmountIntoParts_eq amount 0
  have noDust : dust = 0 := by
    have := UInt64.le_iff_toNat_le.mp dustLe
    exact UInt64.toNat_inj.mp (by rw [UInt64.toNat_zero] at this ⊢; omega)
  refine ⟨chunks, ?_, by simpa [noDust] using sum, digits, increasing⟩
  rw [decomposeAmount_nil, decomposeAmountIntoDigits_eq_parts, List.length_map, partsEq, noDust]
  simp

/-- Twelve inputs or more are at least four times as many as the digits of nine times their
count. -/
theorem four_mul_le_of_pow_le {digits count : ℕ} (bounded : 10 ^ (digits - 1) ≤ 9 * count)
    (enough : 12 ≤ count) : 4 * digits ≤ count := by
  by_contra few
  have grows : ∀ j, 4 ≤ j → 36 * j ≤ 10 ^ (j - 1) := by
    intro j start
    induction j, start using Nat.le_induction with
    | base => norm_num
    | succ j start ih =>
      have step : 10 ^ (j + 1 - 1) = 10 * 10 ^ (j - 1) := by
        rw [show j + 1 - 1 = j - 1 + 1 by omega, Nat.pow_succ, Nat.mul_comm]
      omega
  have := grows digits (by omega)
  omega

/-- A multiple of `10 ^ bucket` worth at most nine times it per input decomposes into at most a
quarter as many chunks as there are inputs, once there are twelve: its chunks lie from place
`bucket` on, and `k` of them are worth at least `10 ^ (bucket + k - 1)`. -/
theorem length_decomposeAmount_le {amount : UInt64} {bucket count : ℕ} (divides : 10 ^ bucket ∣ amount.toNat)
    (bounded : amount.toNat ≤ 9 * count * 10 ^ bucket) (enough : 12 ≤ count) :
    4 * (decomposeAmount amount 0 []).length ≤ count := by
  obtain ⟨chunks, length, sum, digits, increasing⟩ := decomposeAmount_zero_chunks amount
  rw [length]
  cases chunks with
  | nil => simp
  | cons lowest higher =>
    rw [← sum] at divides bounded
    have above := Nat.le_place_of_pow_dvd
      (fun place member => ⟨(digits place member).1, by have := (digits place member).2; omega⟩) increasing divides
    have power := Nat.pow_le_placesSum (show 0 < 10 by norm_num) (fun place member => (digits place member).1) increasing
      above (List.cons_ne_nil _ _)
    have split : 10 ^ (bucket + (lowest :: higher).length - 1) = 10 ^ ((lowest :: higher).length - 1) * 10 ^ bucket := by
      rw [← Nat.pow_add]
      congr 1
      simp only [List.length_cons]
      omega
    rw [split] at power
    have units : 10 ^ ((lowest :: higher).length - 1) ≤ 9 * count :=
      Nat.le_of_mul_le_mul_right (power.trans bounded) (Nat.pow_pos (by norm_num))
    exact four_mul_le_of_pow_le units enough

/-- The amounts of a bucket's inputs add up to a multiple of its power of ten, at most nine times it
per input. -/
theorem bucket_sum {currency : Currency} {height bucket : ℕ} {inputs : List OutputToTransfer}
    (each : ∀ input ∈ inputs, InBucket currency height bucket input) :
    10 ^ bucket ∣ (inputs.map (·.out.amount.toNat)).sum ∧
      (inputs.map (·.out.amount.toNat)).sum ≤ 9 * inputs.length * 10 ^ bucket := by
  refine ⟨List.dvd_sum fun amount member => ?_, ?_⟩
  · obtain ⟨input, within, rfl⟩ := List.mem_map.mp member
    exact (each input within).dvd
  · have small : ∀ amount ∈ inputs.map (·.out.amount.toNat), amount ≤ 9 * 10 ^ bucket := by
      intro amount member
      obtain ⟨input, within, rfl⟩ := List.mem_map.mp member
      obtain ⟨units, value⟩ := (each input within).dvd
      have below := (each input within).lt
      rw [value, Nat.pow_succ] at below
      have : units < 10 := Nat.lt_of_mul_lt_mul_left below
      rw [value, Nat.mul_comm 9]
      exact Nat.mul_le_mul_left _ (by omega)
    have total := List.sum_le_card_nsmul _ _ small
    rw [List.length_map] at total
    calc _ ≤ inputs.length * (9 * 10 ^ bucket) := total
      _ = 9 * inputs.length * 10 ^ bucket := by ring

end Nox.CryptoNote
