/-
# Protocol.Chain -- what the mock chain keeps, whatever it is asked

Everything a node method does to the chain is one of three things, said once in
`Evolves`: leave it alone, accept a transaction, append a block.  Every fact below is
proved against these three and lifted to whole sequences of calls.

* `ChainOk`: block times rise strictly and every included transaction sits in a block
  stamped before its expiration.
* `Grows`: blocks, records and inclusions are permanent.
* `Contiguous`: the known heights are an interval, so solid time and the block a transfer
  refers to rise together (`Grows.refBlock_lt`).
* `Barred`: a transaction that is not included, and whose every recorded form expires
  no later than the head block's time, stays out for good.  Acceptance is judged by the
  wall clock and inclusion by block time, so a barred id may still be accepted.
* `rebuild_sound`: the rebuild theorem of the README, over all sequences of calls and
  all clocks.
-/
import Mathlib.Logic.Relation
import Sluice.Kernel.MockTronNode

namespace Sluice.Kernel.MockTronNode

open Sluice.Theory

set_option autoImplicit false

/-- Timestamp of the newest block. -/
def headTime (node : MockTronNode) : Int := node.timeOf node.head

structure ChainOk (node : MockTronNode) : Prop where
  headKnown : node.blockTime.get? node.head = some node.headTime
  below : ∀ h t, node.blockTime.get? h = some t → h ≤ node.head
  rising : ∀ h h' t t', node.blockTime.get? h = some t → node.blockTime.get? h' = some t' →
    h < h' → t < t'
  timely : ∀ txid rec b, node.txs.get? txid = some rec → rec.includedBlock = some b →
    ∃ t, node.blockTime.get? b = some t ∧ t < rec.tx.expiration

/-- What one step may do to the chain at instant `now`. -/
inductive Evolves (sha256 : Bytes → Bytes) (now : Int) (node : MockTronNode) :
    MockTronNode → Prop
  | quiet (node' : MockTronNode) (txs : node'.txs = node.txs)
      (blocks : node'.blockTime = node.blockTime) (head : node'.head = node.head)
      (lag : node'.solidityLag = node.solidityLag) (signer : node'.signer = node.signer) :
      Evolves sha256 now node node'
  | accept (tx : SignedTx) (node' : MockTronNode) (fresh : node.txs.get? tx.txid = none)
      (txs : node'.txs = node.txs.set tx.txid { tx := tx, acceptedAtBlock := node.head })
      (blocks : node'.blockTime = node.blockTime) (head : node'.head = node.head)
      (lag : node'.solidityLag = node.solidityLag) (signer : node'.signer = node.signer)
      (good : node.signer.verify sha256 tx = some true) (timely : now < tx.expiration) :
      Evolves sha256 now node node'
  | block : Evolves sha256 now node (node.produceBlock now)

/-! ## The methods evolve the chain -/

section Methods

variable (sha256 : Bytes → Bytes) (now : Int) (node : MockTronNode)

theorem broadcast_evolves (tx : SignedTx) (worker : Option String) :
    Evolves sha256 now node (node.broadcast sha256 now tx worker).2 := by
  obtain ⟨head, lag, signer⟩ := broadcast_frame sha256 node now tx worker
  have sent := broadcast_sent sha256 node now tx worker
  generalize (node.broadcast sha256 now tx worker).1 = answer at sent
  generalize (node.broadcast sha256 now tx worker).2 = node' at *
  cases sent with
  | unprocessed _ _ txs blocks _ => exact .quiet _ txs blocks head lag signer
  | raised _ txs blocks _ => exact .quiet _ txs blocks head lag signer
  | badSignature _ txs blocks _ => exact .quiet _ txs blocks head lag signer
  | expired _ txs blocks _ => exact .quiet _ txs blocks head lag signer
  | duplicate _ txs blocks _ _ => exact .quiet _ txs blocks head lag signer
  | accepted _ _ _ fresh txs blocks good timely _ =>
      exact .accept tx _ fresh txs blocks head lag signer good timely

theorem decline_evolves (tx : SignedTx) (worker : Option String) (code : BroadcastCode) :
    Evolves sha256 now node (node.decline tx worker code).2 := .quiet _ rfl rfl rfl rfl rfl

theorem findTx_evolves (txid : Hex) : Evolves sha256 now node (node.findTx now txid).2 := by
  rw [(findTx_cases node now txid).1]
  exact .quiet _ rfl rfl rfl rfl rfl

theorem script_evolves (faults : List Fault) (channel : Channel) :
    Evolves sha256 now node (node.script faults channel) := by
  cases channel <;> exact .quiet _ rfl rfl rfl rfl rfl

theorem produceBlocks_evolves (n : Nat) :
    Relation.ReflTransGen (Evolves sha256 now) node (node.produceBlocks now n) := by
  induction n generalizing node with
  | zero => exact .refl
  | succ n ih =>
      rw [produceBlocks]
      split
      · exact .head .block (ih _)
      · exact .refl

end Methods

/-! ## One new block -/

section Block

variable (now : Int) (node : MockTronNode)

theorem now_le_nextBlockTime : now ≤ node.nextBlockTime now := by
  unfold nextBlockTime millisecond
  split <;> omega

theorem headTime_lt_nextBlockTime : node.headTime < node.nextBlockTime now := by
  unfold nextBlockTime headTime millisecond
  split <;> omega

@[simp] theorem produceBlock_head : (node.produceBlock now).head = node.head + 1 := rfl

theorem produceBlock_blockTime (h : Int) :
    (node.produceBlock now).blockTime.get? h =
      if h = node.head + 1 then some (node.nextBlockTime now) else node.blockTime.get? h :=
  Dict.get?_set _ _ _ _

@[simp] theorem produceBlock_headTime :
    (node.produceBlock now).headTime = node.nextBlockTime now := by
  simp [headTime, timeOf, produceBlock_blockTime]

/-- The loop body skips a record or puts it into the new block. -/
theorem includeTx_cases (h t delay : Int) (queue : List Fault) (rec : TxRecord) :
    (includeTx h t delay queue rec).2 = rec ∨
      (rec.includedBlock = none ∧ t < rec.tx.expiration ∧ ∃ receipt,
        (includeTx h t delay queue rec).2 =
          { rec with includedBlock := some h, receipt := some receipt }) := by
  unfold includeTx
  split
  · exact .inl rfl
  rename_i out
  split
  · exact .inl rfl
  rename_i open_
  split
  · exact .inr ⟨by simpa using out, not_le.mp open_, _, rfl⟩
  · exact .inl rfl

variable {node}

theorem produceBlock_record {txid : Hex} {rec : TxRecord} (found : node.txs.get? txid = some rec) :
    ∃ rec', (node.produceBlock now).txs.get? txid = some rec' ∧ (rec' = rec ∨
      (rec.includedBlock = none ∧ node.nextBlockTime now < rec.tx.expiration ∧ ∃ receipt,
        rec' = { rec with includedBlock := some (node.head + 1), receipt := some receipt })) := by
  obtain ⟨queue, walked⟩ := Dict.get?_mapAccum_some node.txs
    (includeTx (node.head + 1) (node.nextBlockTime now) node.inclusionDelay) node.receiptFaults
    found
  exact ⟨_, walked, includeTx_cases _ _ _ _ _⟩

theorem produceBlock_record_inv {txid : Hex} {rec' : TxRecord}
    (found : (node.produceBlock now).txs.get? txid = some rec') :
    ∃ rec, node.txs.get? txid = some rec ∧ (rec' = rec ∨
      (rec.includedBlock = none ∧ node.nextBlockTime now < rec.tx.expiration ∧ ∃ receipt,
        rec' = { rec with includedBlock := some (node.head + 1), receipt := some receipt })) := by
  cases old : node.txs.get? txid with
  | none =>
      have := Dict.get?_mapAccum_none node.txs
        (includeTx (node.head + 1) (node.nextBlockTime now) node.inclusionDelay)
        node.receiptFaults old
      exact absurd found (by rw [show (node.produceBlock now).txs.get? txid = none from this]; simp)
  | some rec =>
      obtain ⟨rec'', walked, how⟩ := produceBlock_record now old
      rw [found] at walked
      cases walked
      exact ⟨rec, rfl, how⟩

end Block

/-! ## Invariants of one step -/

section Step

variable {sha256 : Bytes → Bytes} {now : Int} {node node' : MockTronNode}

theorem headTime_congr (blocks : node'.blockTime = node.blockTime) (head : node'.head = node.head) :
    node'.headTime = node.headTime := by
  simp [headTime, timeOf, blocks, head]

theorem ChainOk.evolves (ok : ChainOk node) (step : Evolves sha256 now node node') :
    ChainOk node' := by
  cases step with
  | quiet _ txs blocks head lag signer =>
      refine ⟨?_, ?_, ?_, ?_⟩
      · rw [headTime_congr blocks head, blocks, head]; exact ok.headKnown
      · rw [blocks, head]; exact ok.below
      · rw [blocks]; exact ok.rising
      · rw [blocks, txs]; exact ok.timely
  | accept tx _ fresh txs blocks head lag signer good timely =>
      refine ⟨?_, ?_, ?_, ?_⟩
      · rw [headTime_congr blocks head, blocks, head]; exact ok.headKnown
      · rw [blocks, head]; exact ok.below
      · rw [blocks]; exact ok.rising
      · intro txid rec b found included
        rw [txs, Dict.get?_set] at found
        rw [blocks]
        split at found
        · cases found
          cases included
        · exact ok.timely txid rec b found included
  | block =>
      refine ⟨?_, ?_, ?_, ?_⟩
      · simp [produceBlock_blockTime]
      · intro h t found
        rw [produceBlock_blockTime] at found
        rw [produceBlock_head]
        split at found
        · omega
        · have := ok.below h t found
          omega
      · intro h h' t t' found found' lower
        rw [produceBlock_blockTime] at found found'
        split at found'
        · -- the later block is the new one
          rename_i new
          cases found'
          have bound : h ≤ node.head ∧ node.blockTime.get? h = some t := by
            split at found
            · omega
            · exact ⟨ok.below h t found, found⟩
          have newest := headTime_lt_nextBlockTime now node
          rcases lt_or_eq_of_le bound.1 with older | same
          · exact (ok.rising h node.head t _ bound.2 ok.headKnown older).trans newest
          · have same_time : t = node.headTime := by
              have := bound.2
              rw [same, ok.headKnown] at this
              exact (Option.some.inj this).symm
            omega
        · split at found
          · have := ok.below h' t' found'
            omega
          · exact ok.rising h h' t t' found found' lower
      · intro txid rec b found included
        obtain ⟨old, present, same | ⟨_, early, receipt, rfl⟩⟩ := produceBlock_record_inv now found
        · subst same
          obtain ⟨t, block, before⟩ := ok.timely txid _ b present included
          have bound := ok.below b t block
          refine ⟨t, ?_, before⟩
          rw [produceBlock_blockTime, if_neg (by omega)]
          exact block
        · cases included
          exact ⟨node.nextBlockTime now, by simp [produceBlock_blockTime], early⟩

/-- Blocks, records and inclusions are permanent. -/
structure Grows (node node' : MockTronNode) : Prop where
  lag : node'.solidityLag = node.solidityLag
  signer : node'.signer = node.signer
  head : node.head ≤ node'.head
  headTime : node.headTime ≤ node'.headTime
  blocks : ∀ h t, node.blockTime.get? h = some t → node'.blockTime.get? h = some t
  records : ∀ txid rec, node.txs.get? txid = some rec → ∃ rec', node'.txs.get? txid = some rec' ∧
    rec'.tx = rec.tx ∧ (rec.includedBlock.isSome → rec' = rec)

theorem Grows.refl (node : MockTronNode) : Grows node node :=
  ⟨rfl, rfl, le_refl _, le_refl _, fun _ _ found => found,
    fun _ rec found => ⟨rec, found, rfl, fun _ => rfl⟩⟩

theorem Grows.trans {first second third : MockTronNode} (early : Grows first second)
    (late : Grows second third) : Grows first third := by
  refine ⟨late.lag.trans early.lag, late.signer.trans early.signer, early.head.trans late.head,
    early.headTime.trans late.headTime, fun h t found => late.blocks h t (early.blocks h t found),
    fun txid rec found => ?_⟩
  obtain ⟨middle, present, same, kept⟩ := early.records txid rec found
  obtain ⟨last, present', same', kept'⟩ := late.records txid middle present
  refine ⟨last, present', same'.trans same, fun included => ?_⟩
  have := kept included
  subst this
  exact kept' included

theorem Evolves.grows (ok : ChainOk node) (step : Evolves sha256 now node node') :
    Grows node node' := by
  cases step with
  | quiet _ txs blocks head lag signer =>
      refine ⟨lag, signer, head.ge, (headTime_congr blocks head).ge, ?_, ?_⟩
      · rw [blocks]; exact fun _ _ found => found
      · rw [txs]; exact fun _ rec found => ⟨rec, found, rfl, fun _ => rfl⟩
  | accept tx _ fresh txs blocks head lag signer good timely =>
      refine ⟨lag, signer, head.ge, (headTime_congr blocks head).ge, ?_, ?_⟩
      · rw [blocks]; exact fun _ _ found => found
      · intro txid rec found
        have other : txid ≠ tx.txid := by
          rintro rfl
          rw [fresh] at found
          cases found
        exact ⟨rec, by rw [txs, Dict.get?_set_of_ne _ _ other]; exact found, rfl, fun _ => rfl⟩
  | block =>
      refine ⟨rfl, rfl, by simp, ?_, ?_, ?_⟩
      · rw [produceBlock_headTime]
        exact (headTime_lt_nextBlockTime now node).le
      · intro h t found
        have := ok.below h t found
        rw [produceBlock_blockTime, if_neg (by omega)]
        exact found
      · intro txid rec found
        obtain ⟨rec', found', same | ⟨out, _, _, rfl⟩⟩ := produceBlock_record now found
        · exact ⟨rec', found', by rw [same], fun _ => same⟩
        · exact ⟨_, found', rfl, fun included => by simp [out] at included⟩

/-- An included record is final. -/
theorem Grows.final {txid : Hex} {rec : TxRecord} {block : Int} (grown : Grows node node')
    (found : node.txs.get? txid = some rec) (included : rec.includedBlock = some block) :
    node'.txs.get? txid = some rec := by
  obtain ⟨rec', found', _, kept⟩ := grown.records txid rec found
  rw [kept (by simp [included])] at found'
  exact found'

theorem Grows.successful {txid : Hex} (grown : Grows node node') (landed : node.Successful txid) :
    node'.Successful txid := by
  obtain ⟨rec, b, found, inside, success⟩ := landed
  exact ⟨rec, b, grown.final found inside, inside, success⟩

/-! ## Solid time -/

/-- The solid height is the height of an existing block. -/
theorem solidHeight_mem (ok : ChainOk node) : node.solidHeight ∈ node.blockTime.keys := by
  have known : node.head ∈ node.blockTime.keys :=
    (Dict.mem_keys_iff _ _).mpr ⟨_, ok.headKnown⟩
  have first : node.firstBlock ∈ node.blockTime.keys := by
    unfold firstBlock
    cases least : node.blockTime.keys.min? with
    | none =>
        rw [List.min?_eq_none_iff.mp least] at known
        cases known
    | some h => simpa using List.min?_mem least
  unfold solidHeight
  cases greatest : (node.blockTime.keys.filter fun h => h ≤ node.solidBlock).max? with
  | none => simpa using first
  | some h => simpa using (List.mem_filter.mp (List.max?_mem greatest)).1

/-- The solid clock never runs ahead of the chain. -/
theorem solidNow_le_headTime (ok : ChainOk node) : node.solidNow ≤ node.headTime := by
  obtain ⟨t, found⟩ := (Dict.mem_keys_iff _ _).mp (solidHeight_mem ok)
  have time : node.solidNow = t := by simp [solidNow, timeOf, found]
  rw [time]
  rcases lt_or_eq_of_le (ok.below _ _ found) with older | same
  · exact (ok.rising _ _ _ _ found ok.headKnown older).le
  · rw [same, ok.headKnown] at found
    exact (Option.some.inj found).ge

/-! ## Heights -/

/-- The known blocks are exactly those from the first one to the head. -/
def Contiguous (node : MockTronNode) : Prop :=
  1000 ≤ node.head ∧ ∀ h, h ∈ node.blockTime.keys ↔ 1000 ≤ h ∧ h ≤ node.head

theorem Contiguous.evolves (whole : Contiguous node) (step : Evolves sha256 now node node') :
    Contiguous node' := by
  cases step with
  | quiet _ txs blocks head lag signer | accept _ _ fresh txs blocks head lag signer =>
      unfold Contiguous
      rw [blocks, head]
      exact whole
  | block =>
      obtain ⟨low, known⟩ := whole
      refine ⟨by rw [produceBlock_head]; omega, fun h => ?_⟩
      rw [Dict.mem_keys_iff, produceBlock_head, produceBlock_blockTime]
      split
      · rename_i new
        exact ⟨fun _ => by omega, fun _ => ⟨_, rfl⟩⟩
      · rename_i old
        rw [← Dict.mem_keys_iff, known]
        omega

theorem Contiguous.firstBlock (whole : Contiguous node) : node.firstBlock = 1000 := by
  have least : node.blockTime.keys.min? = some 1000 := by
    rw [List.min?_eq_some_iff]
    exact ⟨(whole.2 1000).mpr ⟨le_refl _, whole.1⟩, fun h known => ((whole.2 h).mp known).1⟩
  rw [MockTronNode.firstBlock, least, Option.getD_some]

theorem Contiguous.solidHeight (whole : Contiguous node) :
    node.solidHeight = max 1000 (min node.solidBlock node.head) := by
  have low := whole.1
  unfold MockTronNode.solidHeight
  rw [whole.firstBlock]
  by_cases young : node.solidBlock < 1000
  · -- no block is solid yet
    have nothing : (node.blockTime.keys.filter fun h => h ≤ node.solidBlock) = [] := by
      refine List.filter_eq_nil_iff.mpr fun h known solid => ?_
      have := ((whole.2 h).mp known).1
      have := of_decide_eq_true solid
      omega
    rw [nothing]
    show (1000 : Int) = _
    omega
  · have greatest : (node.blockTime.keys.filter fun h => h ≤ node.solidBlock).max? =
        some (min node.solidBlock node.head) := by
      rw [List.max?_eq_some_iff]
      refine ⟨List.mem_filter.mpr ⟨(whole.2 _).mpr (by omega), by simp⟩, fun h member => ?_⟩
      obtain ⟨known, solid⟩ := List.mem_filter.mp member
      have := ((whole.2 h).mp known).2
      have := of_decide_eq_true solid
      omega
    rw [greatest, Option.getD_some]
    omega

theorem Contiguous.refBlock_number (whole : Contiguous node) :
    node.refBlock.number = max node.solidBlock 1000 := by
  show max node.solidBlock node.firstBlock = _
  rw [whole.firstBlock]

/-- The time of a block that was solid is the time it has. -/
theorem Grows.solidNow_known (grown : Grows node node') (ok : ChainOk node) :
    node'.blockTime.get? node.solidHeight = some node.solidNow := by
  obtain ⟨t, found⟩ := (Dict.mem_keys_iff _ _).mp (solidHeight_mem ok)
  rw [solidNow, timeOf, found, Option.getD_some]
  exact grown.blocks _ _ found

/-- No other block has the time that was solid. -/
theorem Grows.solidNow_at_iff (grown : Grows node node') (ok : ChainOk node) (ok' : ChainOk node')
    (h : Int) : node'.blockTime.get? h = some node.solidNow ↔ h = node.solidHeight := by
  have known := grown.solidNow_known ok
  constructor
  · intro found
    rcases lt_trichotomy h node.solidHeight with lower | same | higher
    · exact absurd (ok'.rising _ _ _ _ found known lower) (lt_irrefl _)
    · exact same
    · exact absurd (ok'.rising _ _ _ _ known found higher) (lt_irrefl _)
  · rintro rfl
    exact known

/-- On a chain older than its lag the solid height is the number of the solid block. -/
theorem Contiguous.solidHeight_eq (whole : Contiguous node) (old : 1000 ≤ node.solidBlock)
    (lag : 0 ≤ node.solidityLag) : node.solidHeight = node.solidBlock := by
  have below : node.solidBlock ≤ node.head := by
    rw [solidBlock]
    omega
  rw [whole.solidHeight]
  omega

section Heights

variable (whole : Contiguous node) (whole' : Contiguous node') (grown : Grows node node')
include whole whole' grown

theorem Grows.refBlock_le : node.refBlock.number ≤ node'.refBlock.number := by
  have head := grown.head
  rw [whole.refBlock_number, whole'.refBlock_number, solidBlock, solidBlock, grown.lag]
  omega

theorem Grows.solidHeight_le : node.solidHeight ≤ node'.solidHeight := by
  have head := grown.head
  rw [whole.solidHeight, whole'.solidHeight, solidBlock, solidBlock, grown.lag]
  omega

/-- Solid time never falls. -/
theorem Grows.solidNow_le (ok : ChainOk node) (ok' : ChainOk node') :
    node.solidNow ≤ node'.solidNow := by
  have old := grown.solidNow_known ok
  have new := (Grows.refl node').solidNow_known ok'
  rcases (Grows.solidHeight_le whole whole' grown).lt_or_eq with lower | same
  · exact (ok'.rising _ _ _ _ old new lower).le
  · rw [same, new] at old
    exact (Option.some.inj old).ge

/-- When solid time rises, so does the block a transfer refers to. -/
theorem Grows.refBlock_lt (ok : ChainOk node) (ok' : ChainOk node')
    (rises : node.solidNow < node'.solidNow) : node.refBlock.number < node'.refBlock.number := by
  by_contra stays
  have old := grown.solidNow_known ok
  have new := (Grows.refl node').solidNow_known ok'
  have low := whole.1
  have same : node'.solidHeight = node.solidHeight := by
    refine le_antisymm ?_ (Grows.solidHeight_le whole whole' grown)
    rw [whole.refBlock_number, whole'.refBlock_number, solidBlock, solidBlock, grown.lag] at stays
    rw [whole.solidHeight, whole'.solidHeight, solidBlock, solidBlock, grown.lag]
    omega
  rw [same, old] at new
  exact rises.ne (Option.some.inj new)

end Heights

/-! ## Transactions that can never land -/

/-- Not included, and every form the node holds expires by `deadline`, which block time
has reached. -/
structure Barred (txid : Hex) (deadline : Int) (node : MockTronNode) : Prop where
  out : ∀ rec, node.txs.get? txid = some rec →
    rec.includedBlock = none ∧ rec.tx.expiration ≤ deadline
  passed : deadline ≤ node.headTime

theorem Barred.not_included {txid : Hex} {deadline : Int} (barred : Barred txid deadline node) :
    ¬ node.Included txid := by
  rintro ⟨rec, b, found, included⟩
  simp [(barred.out rec found).1] at included

end Step

/-! ## Sequences of calls -/

/-- A call to the node, by anybody. -/
inductive NodeCall where
  | broadcast (tx : SignedTx) (worker : Option String)
  | produceBlocks (n : Nat)
  | findTx (txid : Hex)
  | script (faults : List Fault) (channel : Channel)

section Sequences

variable (sha256 : Bytes → Bytes)

/-- The node after one call made while the clock shows `now`. -/
def perform (node : MockTronNode) (now : Int) : NodeCall → MockTronNode
  | .broadcast tx worker => (node.broadcast sha256 now tx worker).2
  | .produceBlocks n => node.produceBlocks now n
  | .findTx txid => (node.findTx now txid).2
  | .script faults channel => node.script faults channel

/-- The node after a sequence of calls, each with the clock it was made at. -/
def performAll (node : MockTronNode) (calls : List (Int × NodeCall)) : MockTronNode :=
  calls.foldl (fun node call => node.perform sha256 call.1 call.2) node

variable {node node' : MockTronNode} {now : Int} {call : NodeCall}

/-- Every call is a sequence of evolution steps. -/
theorem perform_evolves (node : MockTronNode) (now : Int) (call : NodeCall) :
    Relation.ReflTransGen (Evolves sha256 now) node (node.perform sha256 now call) := by
  cases call with
  | broadcast tx worker => exact .single (broadcast_evolves sha256 now node tx worker)
  | produceBlocks n => exact produceBlocks_evolves sha256 now node n
  | findTx txid => exact .single (findTx_evolves sha256 now node txid)
  | script faults channel => exact .single (script_evolves sha256 now node faults channel)

variable {sha256}

theorem ChainOk.evolution (ok : ChainOk node)
    (steps : Relation.ReflTransGen (Evolves sha256 now) node node') :
    ChainOk node' ∧ Grows node node' := by
  induction steps with
  | refl => exact ⟨ok, .refl node⟩
  | tail _ step ih => exact ⟨ih.1.evolves step, ih.2.trans (step.grows ih.1)⟩

theorem ChainOk.performAll (ok : ChainOk node) (calls : List (Int × NodeCall)) :
    ChainOk (node.performAll sha256 calls) ∧ Grows node (node.performAll sha256 calls) := by
  induction calls generalizing node with
  | nil => exact ⟨ok, .refl node⟩
  | cons call calls ih =>
      obtain ⟨ok', grown⟩ := ok.evolution (perform_evolves sha256 node call.1 call.2)
      obtain ⟨ok'', grown'⟩ := ih ok'
      exact ⟨ok'', grown.trans grown'⟩

theorem genesis_chainOk (start lag delay : Int) (signer : MockSigner) :
    ChainOk (genesis start lag delay signer) := by
  refine ⟨by simp [genesis, headTime, timeOf], ?_, ?_, ?_⟩
  · intro h t found
    simp only [genesis, Dict.get?_set, Dict.get?_empty] at found
    split at found
    · rename_i same
      simp [genesis, same]
    · cases found
  · intro h h' t t' found found' lower
    simp only [genesis, Dict.get?_set, Dict.get?_empty] at found found'
    split at found <;> split at found' <;> first | omega | simp at found found'
  · intro txid rec b found
    simp [genesis] at found

theorem genesis_contiguous (start lag delay : Int) (signer : MockSigner) :
    Contiguous (genesis start lag delay signer) := by
  refine ⟨le_refl _, fun h => ?_⟩
  rw [Dict.mem_keys_iff]
  simp only [genesis, Dict.get?_set, Dict.get?_empty]
  split
  · rename_i same
    exact ⟨fun _ => by omega, fun _ => ⟨_, rfl⟩⟩
  · refine ⟨fun known => ?_, fun range => by omega⟩
    obtain ⟨_, found⟩ := known
    cases found

theorem Contiguous.evolution (whole : Contiguous node)
    (steps : Relation.ReflTransGen (Evolves sha256 now) node node') : Contiguous node' := by
  induction steps with
  | refl => exact whole
  | tail _ step ih => exact ih.evolves step

/-- New blocks leave the node's parameters and what is scripted for its callers. -/
theorem produceBlocks_frame (now : Int) (n : Nat) : ∀ node : MockTronNode,
    (node.produceBlocks now n).solidityLag = node.solidityLag ∧
    (node.produceBlocks now n).broadcastFaults = node.broadcastFaults ∧
    (node.produceBlocks now n).queryFaults = node.queryFaults := by
  induction n with
  | zero => exact fun node => ⟨rfl, rfl, rfl⟩
  | succ n ih =>
      intro node
      rw [produceBlocks]
      split
      · exact ih (node.produceBlock now)
      · exact ⟨rfl, rfl, rfl⟩

/-- As long as the calendar has room for them, all blocks are made, and their times follow the
clock or each other closely. -/
theorem produceBlocks_head {now : Int} (begun : datetimeMin ≤ now) (n : Nat) :
    ∀ node : MockTronNode, max now node.headTime + n * millisecond ≤ datetimeMax →
      (node.produceBlocks now n).head = node.head + n ∧
        (node.produceBlocks now n).headTime ≤ max now node.headTime + n * millisecond := by
  induction n with
  | zero => exact fun node _ => ⟨by simp [produceBlocks], by simp [produceBlocks]⟩
  | succ n ih =>
      intro node room
      have early := now_le_nextBlockTime now node
      have close : node.nextBlockTime now ≤ max now node.headTime + millisecond := by
        unfold nextBlockTime headTime millisecond
        split <;> omega
      have stamp := produceBlock_headTime now node
      have valid : IsDatetime (node.nextBlockTime now) := by
        unfold millisecond at *
        exact ⟨begun.trans early, by push_cast at room; omega⟩
      obtain ⟨head, time⟩ := ih (node.produceBlock now) (by
        rw [stamp]
        push_cast at room
        unfold millisecond at *
        omega)
      rw [produceBlocks, if_pos valid]
      refine ⟨?_, time.trans ?_⟩
      · rw [head, produceBlock_head]
        omega
      · rw [stamp]
        push_cast
        unfold millisecond at *
        omega

/-- A new block is not stamped before the instant it is made at. -/
theorem produceBlocks_time (now : Int) (n : Nat) {h t : Int} : ∀ {node : MockTronNode},
    (node.produceBlocks now n).blockTime.get? h = some t →
      node.blockTime.get? h = some t ∨ now ≤ t := by
  induction n with
  | zero => exact .inl
  | succ n ih =>
      intro node found
      rw [produceBlocks] at found
      split at found
      case isFalse => exact .inl found
      rcases ih found with old | new
      · rw [produceBlock_blockTime] at old
        split at old
        · cases old
          exact .inr (now_le_nextBlockTime now node)
        · exact .inl old
      · exact .inr new

/-- More blocks than the lag: whatever was in a block is solid, and so is the present. -/
theorem produceBlocks_solid {now : Int} {n : Nat} (ok : ChainOk node) (whole : Contiguous node)
    (lag : node.solidityLag < n) (some_ : 0 < n) (begun : datetimeMin ≤ now)
    (room : max now node.headTime + n * millisecond ≤ datetimeMax) :
    node.head < (node.produceBlocks now n).solidBlock ∧
      now ≤ (node.produceBlocks now n).solidNow := by
  -- the digest plays no part in making blocks
  have evolved := produceBlocks_evolves (fun bytes => bytes) now node n
  have ok' := (ok.evolution evolved).1
  have whole' := whole.evolution evolved
  obtain ⟨lag', _⟩ := produceBlocks_frame now n node
  obtain ⟨head, _⟩ := produceBlocks_head begun n node room
  have solid : node.head < (node.produceBlocks now n).solidBlock := by
    rw [solidBlock, head, lag']
    omega
  refine ⟨solid, ?_⟩
  have height : node.head < (node.produceBlocks now n).solidHeight := by
    rw [whole'.solidHeight, head]
    have := whole.1
    omega
  obtain ⟨t, found⟩ := (Dict.mem_keys_iff _ _).mp (solidHeight_mem ok')
  have time : (node.produceBlocks now n).solidNow = t := by simp [solidNow, timeOf, found]
  rw [time]
  rcases produceBlocks_time now n found with old | new
  · exact absurd (ok.below _ _ old) (not_le.mpr height)
  · exact new

/-- Every recorded form of `txid` expires by `deadline`. -/
def Bounded (txid : Hex) (deadline : Int) (node : MockTronNode) : Prop :=
  ∀ rec, node.txs.get? txid = some rec → rec.tx.expiration ≤ deadline

/-- A broadcast records at most the transaction it was given. -/
theorem Bounded.perform {txid : Hex} {deadline : Int} (bounded : Bounded txid deadline node)
    (sent : ∀ tx worker, call = .broadcast tx worker → tx.txid = txid →
      tx.expiration ≤ deadline) : Bounded txid deadline (node.perform sha256 now call) := by
  cases call with
  | broadcast tx worker =>
      intro rec found
      have step := broadcast_sent sha256 node now tx worker
      simp only [MockTronNode.perform] at found
      generalize (node.broadcast sha256 now tx worker).1 = answer at step
      generalize (node.broadcast sha256 now tx worker).2 = node' at step found
      cases step with
      | unprocessed _ _ txs _ _ => exact bounded rec (txs ▸ found)
      | raised _ txs _ _ => exact bounded rec (txs ▸ found)
      | badSignature _ txs _ _ => exact bounded rec (txs ▸ found)
      | expired _ txs _ _ => exact bounded rec (txs ▸ found)
      | duplicate _ txs _ _ _ => exact bounded rec (txs ▸ found)
      | accepted _ _ _ fresh txs _ _ _ _ =>
          rw [txs, Dict.get?_set] at found
          split at found
          · rename_i same
            cases found
            exact sent tx worker rfl same.symm
          · exact bounded rec found
  | produceBlocks n =>
      have blocks : ∀ (n : Nat) (node : MockTronNode), Bounded txid deadline node →
          Bounded txid deadline (node.produceBlocks now n) := by
        intro n
        induction n with
        | zero => exact fun _ bounded => bounded
        | succ n ih =>
            intro node bounded
            rw [produceBlocks]
            split
            case isFalse => exact bounded
            refine ih _ fun rec found => ?_
            obtain ⟨old, present, same | ⟨_, _, _, rfl⟩⟩ := produceBlock_record_inv now found
            · exact same ▸ bounded old present
            · exact bounded old present
      exact blocks n node bounded
  | findTx _ =>
      intro rec found
      simp only [MockTronNode.perform, (findTx_cases _ _ _).1] at found
      exact bounded rec found
  | script faults channel => cases channel <;> exact bounded

/-- What is outside every block stays out while every form of it that the node holds
expires by the clock or by the head block's time: a new block is stamped no earlier than
either. -/
theorem not_included_evolution {txid : Hex} (ok : ChainOk node)
    (steps : Relation.ReflTransGen (Evolves sha256 now) node node') (out : ¬ node.Included txid)
    (bounded : Bounded txid (max now node.headTime) node') : ¬ node'.Included txid := by
  induction steps with
  | refl => exact out
  | @tail middle last before step ih =>
      obtain ⟨ok', grown⟩ := ok.evolution before
      -- a record never changes its transaction, so the bound holds earlier too
      have earlier : Bounded txid (max now node.headTime) middle := by
        intro rec found
        obtain ⟨rec', found', same, _⟩ := (step.grows ok').records txid rec found
        exact same ▸ bounded rec' found'
      have out := ih earlier
      rintro ⟨rec, b, found, included⟩
      cases step with
      | quiet _ txs blocks head lag signer => exact out ⟨rec, b, txs ▸ found, included⟩
      | accept tx _ fresh txs blocks head lag signer good timely =>
          rw [txs, Dict.get?_set] at found
          split at found
          · cases found
            cases included
          · exact out ⟨rec, b, found, included⟩
      | block =>
          obtain ⟨old, present, same | ⟨_, early, _⟩⟩ := produceBlock_record_inv now found
          · exact out ⟨old, b, present, same ▸ included⟩
          · have late := earlier old present
            have := now_le_nextBlockTime now middle
            have := headTime_lt_nextBlockTime now middle
            have := grown.headTime
            omega

theorem Barred.evolution {txid : Hex} {deadline : Int} (ok : ChainOk node)
    (barred : Barred txid deadline node)
    (steps : Relation.ReflTransGen (Evolves sha256 now) node node')
    (bounded : Bounded txid deadline node') : Barred txid deadline node' := by
  have passed := barred.passed
  have out : ¬ node'.Included txid :=
    not_included_evolution ok steps barred.not_included fun rec found =>
      ((bounded rec found).trans passed).trans (le_max_right _ _)
  refine ⟨fun rec found => ⟨?_, bounded rec found⟩,
    passed.trans (ok.evolution steps).2.headTime⟩
  cases inside : rec.includedBlock with
  | none => rfl
  | some b => exact absurd ⟨rec, b, found, inside⟩ out

theorem Barred.performAll {txid : Hex} {deadline : Int} (ok : ChainOk node)
    (barred : Barred txid deadline node) (calls : List (Int × NodeCall))
    (sent : ∀ call ∈ calls, ∀ tx worker, call.2 = .broadcast tx worker → tx.txid = txid →
      tx.expiration ≤ deadline) : Barred txid deadline (node.performAll sha256 calls) := by
  induction calls generalizing node with
  | nil => exact barred
  | cons call calls ih =>
      have steps := perform_evolves sha256 node call.1 call.2
      have bounded : Bounded txid deadline (node.perform sha256 call.1 call.2) :=
        Bounded.perform (fun rec found => (barred.out rec found).2)
          (sent call List.mem_cons_self)
      exact ih (ok.evolution steps).1 (barred.evolution ok steps bounded)
        fun call' member => sent call' (List.mem_cons_of_mem _ member)

theorem Bounded.performAll {txid : Hex} {deadline : Int} (bounded : Bounded txid deadline node)
    (calls : List (Int × NodeCall))
    (sent : ∀ call ∈ calls, ∀ tx worker, call.2 = .broadcast tx worker → tx.txid = txid →
      tx.expiration ≤ deadline) : Bounded txid deadline (node.performAll sha256 calls) := by
  induction calls generalizing node with
  | nil => exact bounded
  | cons call calls ih =>
      exact ih (bounded.perform (sent call List.mem_cons_self))
        fun call' member => sent call' (List.mem_cons_of_mem _ member)

end Sequences

/-- **The rebuild theorem, chain side.**  In every state that any calls at any clocks lead
to, block times rise strictly, included transactions sit before their expiration, and
inclusion is permanent; and an id that is not included once solid time has reached every
expiration it was or will be broadcast with is never included, whatever is called. -/
theorem rebuild_sound (sha256 : Bytes → Bytes) (start solidityLag inclusionDelay : Int)
    (signer : MockSigner) (past future : List (Int × NodeCall)) :
    let node := (genesis start solidityLag inclusionDelay signer).performAll sha256 past
    let later := node.performAll sha256 future
    (∀ h h' t t', node.blockTime.get? h = some t → node.blockTime.get? h' = some t' → h < h' →
      t < t') ∧
    (∀ txid rec block, node.txs.get? txid = some rec → rec.includedBlock = some block →
      ∃ t, node.blockTime.get? block = some t ∧ t < rec.tx.expiration) ∧
    (∀ txid rec block, node.txs.get? txid = some rec → rec.includedBlock = some block →
      later.txs.get? txid = some rec) ∧
    (∀ txid deadline, ¬ node.Included txid → deadline ≤ node.solidNow →
      (∀ call ∈ past ++ future, ∀ tx worker, call.2 = .broadcast tx worker → tx.txid = txid →
        tx.expiration ≤ deadline) →
      ¬ later.Included txid) := by
  intro node later
  have ok : ChainOk node :=
    ((genesis_chainOk start solidityLag inclusionDelay signer).performAll past).1
  have grown : Grows node later := (ok.performAll future).2
  refine ⟨ok.rising, ok.timely, ?_, ?_⟩
  · exact fun txid rec block found included => grown.final found included
  · intro txid deadline out passed sent
    have bounded : Bounded txid deadline node :=
      Bounded.performAll (fun rec found => by simp [genesis] at found) past
        fun call member => sent call (List.mem_append_left _ member)
    have barred : Barred txid deadline node := by
      refine ⟨fun rec found => ⟨?_, bounded rec found⟩, passed.trans (solidNow_le_headTime ok)⟩
      cases inside : rec.includedBlock with
      | none => rfl
      | some b => exact absurd ⟨rec, b, found, inside⟩ out
    exact (barred.performAll ok future
      fun call member => sent call (List.mem_append_right _ member)).not_included

end Sluice.Kernel.MockTronNode
