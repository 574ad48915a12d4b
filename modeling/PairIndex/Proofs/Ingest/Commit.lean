import PairIndex.Ingest.Process
import PairIndex.Proofs.Store.Contents

/-! What a session of the processor leaves in the store. A session that goes through is a `Commit`: it records a
transaction or applies an event. Whether it can go through is told by its own numbers alone, and then it changes
each table by itself (`run_insertTransaction`, `run_applyEvent`): rows are added where their keys are free, and the
row of at most one pair and of one position is changed. -/

namespace PairIndex

open Table (Upsert)

/-! ## The rows of an event -/

/-- A change of a pair: its creation, or a move to a state. -/
inductive PairChange where
  | created (token0 token1 creator : String) (createdAt : Option Moment)
  | moved (seqNum : Int) (state : PairAmounts)

def PairChange.apply : PairChange → PairRow → PairRow
  | .created token0 token1 creator createdAt => PairRow.withIdentity token0 token1 creator createdAt
  | .moved seqNum state => PairRow.advance seqNum state

theorem PairChange.key_apply (change : PairChange) (row : PairRow) : (change.apply row).key = row.key := by
  cases change with
  | created => rfl
  | moved seqNum state => exact PairRow.key_advance seqNum state row

/-- A change of a position: its creation, or a move to balances, those after a liquidation or others. -/
inductive PositionChange where
  | created (userAddress pairAddress : String)
  | moved (seqNum : Int) (state : PositionAmounts) (liquidated : Bool)

def PositionChange.apply : PositionChange → PositionRow → PositionRow
  | .created userAddress pairAddress => PositionRow.withIdentity userAddress pairAddress
  | .moved seqNum state liquidated => PositionRow.advance seqNum state liquidated

theorem PositionChange.key_apply (change : PositionChange) (row : PositionRow) :
    (change.apply row).key = row.key := by
  cases change with
  | created => rfl
  | moved seqNum state liquidated => exact PositionRow.key_advance seqNum state liquidated row

/-- New balances of a position, and its owner if the event tells it. -/
structure PositionMove where
  position : PublicKey
  owner : Option PublicKey
  state : PositionState
  liquidated : Bool
  metadata : EventMetadata

namespace EventBody

/-- The state of a pair that an event tells. -/
def pairMove? : EventBody → Option (PairState × EventMetadata)
  | .swap _ _ _ _ state m | .mint _ _ _ state m | .burn _ _ _ state m | .updatePair state m => some (state, m)
  | _ => none

/-- The balances of a position that an event tells. -/
def positionMove? : EventBody → Option PositionMove
  | .positionUpdated position state m => some ⟨position, some m.signer, state, false, m⟩
  | .positionLiquidated position _ _ _ _ _ _ _ state m => some ⟨position, none, state, true, m⟩
  | _ => none

/-- The row that an event adds to the states of its pair. -/
def pairStateRow? (signature : String) (body : EventBody) : Option PairStateRow :=
  body.pairMove?.map fun (state, m) =>
    { pairAddress := m.pair.toText, seqNum := m.seqNum.toNat, signature, state := state.amounts,
      eventTime := body.moment? }

def swapRow? (signature : String) (body : EventBody) : Option SwapRow :=
  match body with
  | .swap isToken0In amountIn amountOut fee state m => some
    { pairAddress := m.pair.toText, seqNum := m.seqNum.toNat, signature, userAddress := m.signer.toText, isToken0In,
      amountIn := amountIn.toNat, amountOut := amountOut.toNat, fee := fee.toNat, reserve0 := state.reserve0.toNat,
      reserve1 := state.reserve1.toNat, eventTime := body.moment? }
  | _ => none

def pricePointRow? (signature : String) (body : EventBody) : Option PricePointRow :=
  match body with
  | .swap _ _ _ _ state m => some
    { pairAddress := m.pair.toText, seqNum := m.seqNum.toNat, signature,
      price0 := Price.ofWords state.reserve1 state.reserve0, price1 := Price.ofWords state.reserve0 state.reserve1,
      reserve0 := state.reserve0.toNat, reserve1 := state.reserve1.toNat, eventTime := body.moment? }
  | _ => none

/-- The amounts of a change of liquidity, and the state of the pair after it if the event tells it. -/
def liquidityMove? : EventBody → Option (UInt64 × UInt64 × UInt64 × Option PairState × EventMetadata)
  | .mint amount0 amount1 liquidity state m | .burn amount0 amount1 liquidity state m =>
    some (amount0, amount1, liquidity, some state, m)
  | .adjustLiquidity amount0 amount1 liquidity m => some (amount0, amount1, liquidity, none, m)
  | _ => none

def liquidityRow? (signature : String) (body : EventBody) : Option LiquidityRow :=
  body.liquidityMove?.map fun (amount0, amount1, liquidity, state, m) =>
    { pairAddress := m.pair.toText, seqNum := m.seqNum.toNat, signature, userAddress := m.signer.toText,
      type := body.liquidityChange, amount0 := amount0.toNat, amount1 := amount1.toNat,
      liquidity := liquidity.toNat, reserve0 := state.map fun s => (s.reserve0.toNat : Int),
      reserve1 := state.map fun s => (s.reserve1.toNat : Int),
      totalSupply := state.map fun s => (s.totalSupply.toNat : Int), eventTime := body.moment? }

def liquidationRow? (signature : String) (body : EventBody) : Option LiquidationRow :=
  match body with
  | .positionLiquidated position liquidator collateral0 collateral1 debt0 debt1 price bonus _ m => some
    { positionAddress := position.toText, seqNum := m.seqNum.toNat, pairAddress := m.pair.toText, signature,
      liquidator := liquidator.toText, collateral0Liquidated := collateral0.toNat,
      collateral1Liquidated := collateral1.toNat, debt0Liquidated := debt0.toNat, debt1Liquidated := debt1.toNat,
      collateralPrice := price.toNat, liquidationBonusApplied := bonus.toNat, eventTime := body.moment? }
  | _ => none

/-- The pair that an event changes, and how. -/
def pairChange? : EventBody → Option (String × PairChange)
  | .pairCreated token0 token1 pair creator timestamp =>
    some (pair.toText, .created token0.toText token1.toText creator.toText (Moment.ofSeconds? timestamp.toInt))
  | body => body.pairMove?.map fun (state, m) => (m.pair.toText, .moved m.seqNum.toNat state.amounts)

/-- The position that an event changes, and how; an event that is the first about a position tells its pair and, if it
has one, its owner. -/
def positionChange? : EventBody → Option (PositionRow × PositionChange)
  | .positionCreated user pair position _ => some
    ({ positionAddress := position.toText, userAddress := some user.toText, pairAddress := pair.toText },
      .created user.toText pair.toText)
  | body => body.positionMove?.map fun move =>
    ({ positionAddress := move.position.toText, userAddress := move.owner.map (·.toText),
       pairAddress := move.metadata.pair.toText },
      .moved move.metadata.seqNum.toNat move.state.amounts move.liquidated)

/-- An event that moves a pair to a state adds that state to the series, and no other event does. -/
theorem pairStateRow?_eq (signature : String) (body : EventBody) :
    body.pairStateRow? signature =
      match body.pairChange? with
      | some (pairAddress, .moved seqNum state) =>
        some { pairAddress, seqNum, signature, state, eventTime := body.moment? }
      | _ => none := by
  cases body <;> rfl

theorem pairStateRow?_of_moved {body : EventBody} {pairAddress : String} {seqNum : Int} {state : PairAmounts}
    (h : body.pairChange? = some (pairAddress, .moved seqNum state)) (signature : String) :
    body.pairStateRow? signature =
      some { pairAddress, seqNum, signature, state, eventTime := body.moment? } := by
  rw [pairStateRow?_eq, h]

theorem seqNum_nonneg_of_pairChange? {body : EventBody} {pairAddress : String} {seqNum : Int} {state : PairAmounts}
    (h : body.pairChange? = some (pairAddress, .moved seqNum state)) : 0 ≤ seqNum := by
  cases body <;> simp [pairChange?, pairMove?] at h <;> omega

def pairUpsert? (body : EventBody) : Option (Upsert PairRow.key) :=
  body.pairChange?.map fun (pairAddress, change) =>
    { fresh := { pairAddress }, change := change.apply, keeps := change.key_apply }

theorem at_pairUpsert? (body : EventBody) (address : String) (old : Option PairRow) :
    Upsert.at address body.pairUpsert? old =
      match body.pairChange? with
      | none => old
      | some (pairAddress, change) =>
        if pairAddress = address then some (change.apply (old.getD { pairAddress })) else old := by
  cases h : body.pairChange? <;> simp only [pairUpsert?, h] <;> rfl

def positionUpsert? (body : EventBody) : Option (Upsert PositionRow.key) :=
  body.positionChange?.map fun (fresh, change) => { fresh, change := change.apply, keeps := change.key_apply }

theorem at_positionUpsert? (body : EventBody) (address : String) (old : Option PositionRow) :
    Upsert.at address body.positionUpsert? old =
      match body.positionChange? with
      | none => old
      | some (fresh, change) =>
        if fresh.positionAddress = address then some (change.apply (old.getD fresh)) else old := by
  cases h : body.positionChange? <;> simp only [positionUpsert?, h] <;> rfl

/-- An event that is the first about a position says nothing of its balances with the row that it adds. -/
theorem fresh_of_positionChange? {body : EventBody} {fresh : PositionRow} {change : PositionChange}
    (h : body.positionChange? = some (fresh, change)) :
    fresh.latestSeqNum = noSeqApplied ∧ fresh.liquidated = false := by
  cases body <;> simp [positionChange?, positionMove?] at h <;> simp [← h.1]

theorem seqNum_nonneg_of_positionChange? {body : EventBody} {fresh : PositionRow} {seqNum : Int}
    {state : PositionAmounts} {liquidated : Bool}
    (h : body.positionChange? = some (fresh, .moved seqNum state liquidated)) : 0 ≤ seqNum := by
  cases body <;> simp [positionChange?, positionMove?] at h <;> omega

/-- An event that moves a position to the balances after a liquidation adds a liquidation, and no other event does. -/
theorem liquidationRow?_key (signature : String) (body : EventBody) :
    (body.liquidationRow? signature).map (·.key) =
      match body.positionChange? with
      | some (fresh, .moved seqNum _ true) => some (fresh.positionAddress, seqNum)
      | _ => none := by
  cases body <;> rfl

/-- Whether what an event tells of its pair or its position, if it tells anything, is newer than what is known. -/
def isNewer (body : EventBody) (s : Store) : Bool :=
  match body.pairMove?, body.positionMove? with
  | some (_, m), _ =>
    decide (((s.pairs.find? m.pair.toText).map (·.latestSeqNum)).getD noSeqApplied < m.seqNum.toNat)
  | none, some move =>
    decide (((s.positions.find? move.position.toText).map (·.latestSeqNum)).getD noSeqApplied <
      move.metadata.seqNum.toNat)
  | none, none => true

end EventBody

/-! ## Commits -/

/-- A session of the processor that went through. -/
inductive Commit where
  /-- A transaction was recorded. -/
  | transaction (row : TransactionRow)
  /-- An event of a transaction was applied. -/
  | event (signature : String) (e : Event)

namespace Commit

/-- Whether the numbers of a session fit their columns. -/
def fits : Commit → Bool
  | .transaction row => Session.fitsColumn row.slot
  | .event _ e => Session.fitsColumn e.logIndex && e.body.seqNum?.all fun n => Session.fitsColumn n.toNat

def transactionRow? : Commit → Option TransactionRow
  | .transaction row => some row
  | .event _ _ => none

def detailRow? : Commit → Option DetailRow
  | .transaction _ => none
  | .event signature e => some (e.detail signature)

/-- The event of a commit, with the signature of its transaction. -/
def event? : Commit → Option (String × EventBody)
  | .transaction _ => none
  | .event signature e => some (signature, e.body)

/-- The store after a commit. -/
def apply (c : Commit) (s : Store) : Store :=
  { s with
    transactions := s.transactions.insertIfAny c.transactionRow?
    details := s.details.insertIfAny c.detailRow?
    swaps := s.swaps.insertIfAny (c.event?.bind fun (signature, body) => body.swapRow? signature)
    liquidityChanges :=
      s.liquidityChanges.insertIfAny (c.event?.bind fun (signature, body) => body.liquidityRow? signature)
    pricePoints := s.pricePoints.insertIfAny (c.event?.bind fun (signature, body) => body.pricePointRow? signature)
    pairStates := s.pairStates.insertIfAny (c.event?.bind fun (signature, body) => body.pairStateRow? signature)
    liquidations := s.liquidations.insertIfAny (c.event?.bind fun (signature, body) => body.liquidationRow? signature)
    pairs := s.pairs.upsertIfAny (c.event?.bind (·.2.pairUpsert?))
    positions := s.positions.upsertIfAny (c.event?.bind (·.2.positionUpsert?)) }

/-- The store after some commits, one after another. -/
def applyAll (cs : List Commit) (s : Store) : Store :=
  cs.foldl (fun s c => c.apply s) s

@[simp]
theorem applyAll_nil (s : Store) : applyAll [] s = s := rfl

@[simp]
theorem applyAll_cons (c : Commit) (cs : List Commit) (s : Store) :
    applyAll (c :: cs) s = applyAll cs (c.apply s) := rfl

theorem applyAll_append (cs ds : List Commit) (s : Store) : applyAll (cs ++ ds) s = applyAll ds (applyAll cs s) :=
  List.foldl_append

/-- What every commit keeps, all commits together keep. -/
theorem applyAll_induction {P : Store → Prop} (cs : List Commit) {s : Store}
    (step : ∀ c ∈ cs, ∀ s, P s → P (c.apply s)) (h : P s) : P (applyAll cs s) := by
  induction cs generalizing s with
  | nil => exact h
  | cons c cs ih =>
    apply ih
    · exact fun d hd => step d (List.mem_cons_of_mem _ hd)
    · exact step c List.mem_cons_self s h

theorem watermarks_applyAll (cs : List Commit) (s : Store) : (applyAll cs s).watermarks = s.watermarks := by
  induction cs generalizing s with
  | nil => rfl
  | cons c cs ih => exact ih (c.apply s)

end Commit

namespace Event

theorem detail_signature (signature : String) (e : Event) : (e.detail signature).signature = signature := by
  obtain ⟨body, logIndex⟩ := e
  cases body <;> rfl

theorem detail_logIndex (signature : String) (e : Event) : (e.detail signature).logIndex = e.logIndex := by
  obtain ⟨body, logIndex⟩ := e
  cases body <;> rfl

theorem detail_seqNum (signature : String) (e : Event) :
    (e.detail signature).seqNum = e.body.seqNum?.map fun n => (n.toNat : Int) := by
  obtain ⟨body, logIndex⟩ := e
  cases body <;> rfl

theorem detail_key (signature : String) (e : Event) : (e.detail signature).key = (signature, e.logIndex) := by
  rw [DetailRow.key, detail_signature, detail_logIndex]

end Event

/-! ## Tables in which rows are added where their keys are free -/

section Insertions

variable {α κ : Type} [DecidableEq κ] {key : α → κ} (tableOf : Store → Table key) (rowOf : Commit → Option α)
  (happly : ∀ c s, tableOf (c.apply s) = (tableOf s).insertIfAny (rowOf c))

include happly

/-- The first row of a key stays. -/
theorem Commit.find?_applyAll (cs : List Commit) (s : Store) (k : κ) :
    (tableOf (applyAll cs s)).find? k = ((tableOf s).find? k).or (cs.findSome? fun c => Table.ofKey key k (rowOf c)) := by
  induction cs generalizing s with
  | nil => simp
  | cons c cs ih =>
    rw [applyAll_cons, ih, happly, Table.find?_insertIfAny, Option.or_assoc, List.findSome?_cons]
    cases Table.ofKey key k (rowOf c) <;> rfl

/-- A row was stored before or is that of a commit. -/
theorem Commit.mem_rows_applyAll {cs : List Commit} {s : Store} {row : α}
    (h : row ∈ (tableOf (applyAll cs s)).rows) : row ∈ (tableOf s).rows ∨ ∃ c ∈ cs, rowOf c = some row := by
  rw [Table.mem_rows_iff, find?_applyAll tableOf rowOf happly, Option.or_eq_some_iff] at h
  rcases h with hold | ⟨-, hnew⟩
  · exact Or.inl (Table.mem_rows_iff.mpr hold)
  · obtain ⟨c, hc, hrow⟩ := List.exists_of_findSome?_eq_some hnew
    exact Or.inr ⟨c, hc, (Table.ofKey_eq_some_iff.mp hrow).1⟩

/-- A key that is taken stays taken. -/
theorem Commit.isSome_applyAll (cs : List Commit) {s : Store} {k : κ} (h : ((tableOf s).find? k).isSome) :
    ((tableOf (applyAll cs s)).find? k).isSome := by
  rw [find?_applyAll tableOf rowOf happly, Option.isSome_or, h, Bool.true_or]

/-- The key of a commit's row is taken. -/
theorem Commit.holds_applyAll {cs : List Commit} {c : Commit} (h : c ∈ cs) (s : Store) :
    (tableOf (applyAll cs s)).Holds (rowOf c) := by
  intro row hrow
  have hkey : Table.ofKey key (key row) (rowOf c) = some row := Table.ofKey_eq_some_iff.mpr ⟨hrow, rfl⟩
  rw [find?_applyAll tableOf rowOf happly, Option.isSome_or, List.isSome_findSome?, Bool.or_eq_true, List.any_eq_true]
  exact Or.inr ⟨c, h, by rw [hkey, Option.isSome_some]⟩

/-- Commits may be made in either order if and only if what either of them alone leave does not contradict one another. -/
theorem Commit.table_swap_iff (cs ds : List Commit) (s : Store) :
    (tableOf (applyAll (cs ++ ds) s)).Same (tableOf (applyAll (ds ++ cs) s)) ↔
      (tableOf (applyAll cs s)).Agrees (tableOf (applyAll ds s)) := by
  rw [Table.same_iff_find?, Table.Agrees]
  refine forall_congr' fun k => ?_
  simp only [find?_applyAll tableOf rowOf happly, List.findSome?_append]
  cases (tableOf s).find? k with
  | some row => simp
  | none =>
    cases cs.findSome? fun c => Table.ofKey key k (rowOf c) with
    | none => simp
    | some row => cases ds.findSome? fun c => Table.ofKey key k (rowOf c) <;> simp

end Insertions

theorem Commit.isSome_transactions_applyAll (cs : List Commit) {s : Store} {signature : String}
    (h : (s.transactions.find? signature).isSome) : ((applyAll cs s).transactions.find? signature).isSome :=
  isSome_applyAll (·.transactions) transactionRow? (fun _ _ => rfl) cs h

theorem Commit.isSome_details_applyAll (cs : List Commit) {s : Store} {k : String × Int}
    (h : (s.details.find? k).isSome) : ((applyAll cs s).details.find? k).isSome :=
  isSome_applyAll (·.details) detailRow? (fun _ _ => rfl) cs h

theorem Commit.isSome_transactions_of_mem {cs : List Commit} {row : TransactionRow} (h : .transaction row ∈ cs)
    (s : Store) : ((applyAll cs s).transactions.find? row.signature).isSome :=
  holds_applyAll (·.transactions) transactionRow? (fun _ _ => rfl) h s row rfl

theorem Commit.isSome_details_of_mem {cs : List Commit} {signature : String} {e : Event}
    (h : .event signature e ∈ cs) (s : Store) :
    ((applyAll cs s).details.find? (signature, e.logIndex)).isSome := by
  rw [← Event.detail_key]
  exact holds_applyAll (·.details) detailRow? (fun _ _ => rfl) h s _ rfl

/-- A transaction was stored before or was recorded. -/
theorem Commit.mem_transactions_applyAll {cs : List Commit} {s : Store} {row : TransactionRow}
    (h : row ∈ (applyAll cs s).transactions.rows) : row ∈ s.transactions.rows ∨ .transaction row ∈ cs := by
  rcases mem_rows_applyAll (·.transactions) transactionRow? (fun _ _ => rfl) h with hold | ⟨c, hc, heq⟩
  · exact Or.inl hold
  · cases c with
    | transaction new =>
      cases heq
      exact Or.inr hc
    | event => cases heq

/-- A detail was stored before or is that of an event that was applied. -/
theorem Commit.mem_details_applyAll {cs : List Commit} {s : Store} {row : DetailRow}
    (h : row ∈ (applyAll cs s).details.rows) :
    row ∈ s.details.rows ∨ ∃ signature e, .event signature e ∈ cs ∧ row = e.detail signature := by
  rcases mem_rows_applyAll (·.details) detailRow? (fun _ _ => rfl) h with hold | ⟨c, hc, heq⟩
  · exact Or.inl hold
  · cases c with
    | transaction => cases heq
    | event signature e =>
      cases heq
      exact Or.inr ⟨signature, e, hc, rfl⟩

/-! ## Look-ups after an event -/

namespace Commit

variable (signature : String) (e : Event) (s : Store) (address : String)

theorem find?_pairs_event :
    ((event signature e).apply s).pairs.find? address =
      match e.body.pairChange? with
      | none => s.pairs.find? address
      | some (pairAddress, change) =>
        if pairAddress = address then some (change.apply ((s.pairs.find? address).getD { pairAddress }))
        else s.pairs.find? address :=
  (Table.find?_upsertIfAny ..).trans (EventBody.at_pairUpsert? ..)

theorem find?_positions_event :
    ((event signature e).apply s).positions.find? address =
      match e.body.positionChange? with
      | none => s.positions.find? address
      | some (fresh, change) =>
        if fresh.positionAddress = address then some (change.apply ((s.positions.find? address).getD fresh))
        else s.positions.find? address :=
  (Table.find?_upsertIfAny ..).trans (EventBody.at_positionUpsert? ..)

theorem find?_pairStates_event (n : Int) :
    ((event signature e).apply s).pairStates.find? (address, n) =
      (s.pairStates.find? (address, n)).or
        (match e.body.pairChange? with
        | some (pairAddress, .moved seqNum state) =>
          if (pairAddress, seqNum) = (address, n) then
            some { pairAddress, seqNum, signature, state, eventTime := e.body.moment? }
          else none
        | _ => none) := by
  have hfind := Table.find?_insertIfAny s.pairStates (e.body.pairStateRow? signature) (address, n)
  refine hfind.trans (congrArg _ ?_)
  rw [EventBody.pairStateRow?_eq]
  rcases e.body.pairChange? with _ | ⟨pairAddress, change⟩
  · rfl
  · cases change <;> rfl

theorem isSome_liquidations_event (n : Int) :
    (((event signature e).apply s).liquidations.find? (address, n)).isSome =
      ((s.liquidations.find? (address, n)).isSome ||
        (match e.body.positionChange? with
        | some (fresh, .moved seqNum _ true) => decide ((fresh.positionAddress, seqNum) = (address, n))
        | _ => false)) := by
  have hfind := Table.find?_insertIfAny s.liquidations (e.body.liquidationRow? signature) (address, n)
  refine (congrArg Option.isSome hfind).trans ?_
  rw [Option.isSome_or, Table.isSome_ofKey, EventBody.liquidationRow?_key]
  rcases e.body.positionChange? with _ | ⟨fresh, change⟩
  · rfl
  · cases change with
    | created => rfl
    | moved seqNum state liquidated => cases liquidated <;> simp

end Commit

/-! ## Sessions -/

namespace Session

theorem checkColumn_of_fits {n : Int} (h : fitsColumn n = true) : checkColumn n = pure () := by
  simp [checkColumn, h]

theorem fits_event_iff {signature : String} {e : Event} : (Commit.event signature e).fits = true ↔
    fitsColumn e.logIndex = true ∧ ∀ n, e.body.seqNum? = some n → fitsColumn n.toNat = true := by
  simp [Commit.fits, Option.all_eq_true]

theorem run_bind_of_ok {α β : Type} {x : Session α} {f : α → Session β} {a : α} {s s' : Store}
    (h : x.run s = .ok (a, s')) : (x >>= f).run s = (f a).run s' := by
  rw [StateT.run_bind, h]
  rfl

theorem run_insertTransaction (row : TransactionRow) (s : Store) :
    (insertTransaction row).run s =
      if (Commit.transaction row).fits then
        .ok ((s.transactions.find? row.key).isNone, (Commit.transaction row).apply s)
      else .error columnOverflow := by
  by_cases h : fitsColumn row.slot = true
  · rw [Commit.fits, if_pos h, insertTransaction, checkColumn_of_fits h, pure_bind, ← Table.insertNew_snd]
    rfl
  · rw [Commit.fits, if_neg h, insertTransaction, checkColumn, if_neg h]
    rfl

variable {s : Store} {signature : String} {state : PairState} {m : EventMetadata} {moment : Option Moment}

theorem run_insertDetail {row : DetailRow} (h : fitsColumn row.logIndex = true)
    (hseq : row.seqNum.all fitsColumn = true) :
    (insertDetail row).run s =
      .ok ((s.details.insertNew row).2, { s with details := (s.details.insertNew row).1 }) := by
  cases hr : row.seqNum with
  | none => simp [insertDetail, checkColumn_of_fits h, checkColumn?, hr]; rfl
  | some n =>
    rw [hr] at hseq
    simp [insertDetail, checkColumn_of_fits h, checkColumn?, hr, checkColumn_of_fits hseq]; rfl

theorem run_applyPairState {address : String} {seqNum : Int} (h : fitsColumn seqNum = true) (amounts : PairAmounts) :
    (applyPairState address seqNum amounts).run s =
      .ok ((s.pairs.find? address).any fun r => decide (r.latestSeqNum < seqNum),
        { s with
          pairs := s.pairs.update address (PairRow.advance seqNum amounts) (PairRow.key_advance seqNum amounts) }) := by
  rw [applyPairState, checkColumn_of_fits h, pure_bind]
  rfl

theorem run_movePair (h : fitsColumn m.seqNum.toNat = true) :
    (movePair state m).run s =
      .ok (decide (((s.pairs.find? m.pair.toText).map (·.latestSeqNum)).getD noSeqApplied < m.seqNum.toNat),
        { s with
          pairs := s.pairs.upsertIfAny (some
            { fresh := { pairAddress := m.pair.toText }
              change := PairRow.advance m.seqNum.toNat state.amounts
              keeps := PairRow.key_advance _ _ }) }) := by
  let fresh : PairRow := { pairAddress := m.pair.toText }
  have hensure : (ensurePair m.pair.toText).run s = .ok ((), { s with pairs := (s.pairs.insertNew fresh).1 }) := rfl
  have hnewer := Table.any_find?_insertNew s.pairs fresh fun r => decide (r.latestSeqNum < m.seqNum.toNat)
  have hlatest := Option.getD_map (·.latestSeqNum) fresh (s.pairs.find? m.pair.toText)
  rw [movePair, run_bind_of_ok hensure, run_applyPairState h]
  exact congrArg (fun newer => Except.ok (newer, _)) (hnewer.trans (congrArg (fun n => decide (n < _)) hlatest.symm))

theorem run_applyPositionState {address : String} {seqNum : Int} (h : fitsColumn seqNum = true)
    (amounts : PositionAmounts) (liquidated : Bool) :
    (applyPositionState address seqNum amounts liquidated).run s =
      .ok ((s.positions.find? address).any fun r => decide (r.latestSeqNum < seqNum),
        { s with
          positions := s.positions.update address (PositionRow.advance seqNum amounts liquidated)
            (PositionRow.key_advance seqNum amounts liquidated) }) := by
  rw [applyPositionState, checkColumn_of_fits h, pure_bind]
  rfl

theorem run_movePosition {position : PublicKey} {owner : Option PublicKey} {state : PositionState} {liquidated : Bool}
    (h : fitsColumn m.seqNum.toNat = true) :
    (movePosition position owner state liquidated m).run s =
      .ok (decide (((s.positions.find? position.toText).map (·.latestSeqNum)).getD noSeqApplied < m.seqNum.toNat),
        { s with
          positions := s.positions.upsertIfAny (some
            { fresh :=
                { positionAddress := position.toText, userAddress := owner.map (·.toText),
                  pairAddress := m.pair.toText }
              change := PositionRow.advance m.seqNum.toNat state.amounts liquidated
              keeps := PositionRow.key_advance _ _ _ }) }) := by
  let fresh : PositionRow :=
    { positionAddress := position.toText, userAddress := owner.map (·.toText), pairAddress := m.pair.toText }
  have hensure : (ensurePosition position.toText m.pair.toText (owner.map (·.toText))).run s =
      .ok ((), { s with positions := (s.positions.insertNew fresh).1 }) := rfl
  have hnewer := Table.any_find?_insertNew s.positions fresh fun r => decide (r.latestSeqNum < m.seqNum.toNat)
  have hlatest := Option.getD_map (·.latestSeqNum) fresh (s.positions.find? position.toText)
  rw [movePosition, run_bind_of_ok hensure, run_applyPositionState h]
  exact congrArg (fun newer => Except.ok (newer, _)) (hnewer.trans (congrArg (fun n => decide (n < _)) hlatest.symm))

theorem run_recordPairState (h : fitsColumn m.seqNum.toNat = true) :
    (recordPairState signature state m moment).run s =
      .ok ((), { s with
        pairStates := s.pairStates.insertIfAny (some
          { pairAddress := m.pair.toText, seqNum := m.seqNum.toNat, signature, state := state.amounts,
            eventTime := moment }) }) := by
  simp only [recordPairState, insertPairState, checkColumn_of_fits h, pure_bind]
  rfl

theorem run_recordLiquidity {type : TransactionType} {amount0 amount1 liquidity : UInt64} {state : Option PairState}
    (h : fitsColumn m.seqNum.toNat = true) :
    (recordLiquidity signature type amount0 amount1 liquidity state m moment).run s =
      .ok ((), { s with
        liquidityChanges := s.liquidityChanges.insertIfAny (some
          { pairAddress := m.pair.toText, seqNum := m.seqNum.toNat, signature, userAddress := m.signer.toText,
            type, amount0 := amount0.toNat, amount1 := amount1.toNat, liquidity := liquidity.toNat,
            reserve0 := state.map fun s => (s.reserve0.toNat : Int),
            reserve1 := state.map fun s => (s.reserve1.toNat : Int),
            totalSupply := state.map fun s => (s.totalSupply.toNat : Int), eventTime := moment }) }) := by
  simp only [recordLiquidity, insertLiquidity, checkColumn_of_fits h, pure_bind]
  rfl

theorem run_recordSwap {isToken0In : Bool} {amountIn amountOut fee : UInt64} (h : fitsColumn m.seqNum.toNat = true) :
    (recordSwap signature isToken0In amountIn amountOut fee state m moment).run s =
      .ok ((), { s with
        swaps := s.swaps.insertIfAny (some
          { pairAddress := m.pair.toText, seqNum := m.seqNum.toNat, signature, userAddress := m.signer.toText,
            isToken0In, amountIn := amountIn.toNat, amountOut := amountOut.toNat, fee := fee.toNat,
            reserve0 := state.reserve0.toNat, reserve1 := state.reserve1.toNat, eventTime := moment })
        pricePoints := s.pricePoints.insertIfAny (some
          { pairAddress := m.pair.toText, seqNum := m.seqNum.toNat, signature,
            price0 := Price.ofWords state.reserve1 state.reserve0,
            price1 := Price.ofWords state.reserve0 state.reserve1, reserve0 := state.reserve0.toNat,
            reserve1 := state.reserve1.toNat, eventTime := moment }) }) := by
  simp only [recordSwap, insertSwap, insertPricePoint, checkColumn_of_fits h, pure_bind]
  rfl

theorem run_insertLiquidation {row : LiquidationRow} (h : fitsColumn row.seqNum = true) :
    (insertLiquidation row).run s =
      .ok ((s.liquidations.insertNew row).2, { s with liquidations := (s.liquidations.insertNew row).1 }) := by
  simp only [insertLiquidation, checkColumn_of_fits h, pure_bind]
  rfl

theorem run_applyBody (body : EventBody) (h : ∀ n, body.seqNum? = some n → fitsColumn n.toNat = true) :
    (applyBody signature body).run s =
      .ok (body.isNewer s, { s with
        swaps := s.swaps.insertIfAny (body.swapRow? signature)
        liquidityChanges := s.liquidityChanges.insertIfAny (body.liquidityRow? signature)
        pricePoints := s.pricePoints.insertIfAny (body.pricePointRow? signature)
        pairStates := s.pairStates.insertIfAny (body.pairStateRow? signature)
        liquidations := s.liquidations.insertIfAny (body.liquidationRow? signature)
        pairs := s.pairs.upsertIfAny body.pairUpsert?
        positions := s.positions.upsertIfAny body.positionUpsert? }) := by
  cases body with
  | pairCreated => rfl
  | positionCreated => rfl
  | adjustCollateral => rfl
  | adjustDebt => rfl
  | flashloan => rfl
  | adjustLiquidity amount0 amount1 liquidity m =>
    rw [applyBody, run_bind_of_ok (run_recordLiquidity (h _ rfl))]
    rfl
  | swap isToken0In amountIn amountOut fee state m =>
    have hseq := h m.seqNum rfl
    rw [applyBody, run_bind_of_ok (run_recordPairState hseq), run_bind_of_ok (run_recordSwap hseq), run_movePair hseq]
    rfl
  | mint amount0 amount1 liquidity state m =>
    have hseq := h m.seqNum rfl
    rw [applyBody, run_bind_of_ok (run_recordPairState hseq), run_bind_of_ok (run_recordLiquidity hseq),
      run_movePair hseq]
    rfl
  | burn amount0 amount1 liquidity state m =>
    have hseq := h m.seqNum rfl
    rw [applyBody, run_bind_of_ok (run_recordPairState hseq), run_bind_of_ok (run_recordLiquidity hseq),
      run_movePair hseq]
    rfl
  | updatePair state m =>
    have hseq := h m.seqNum rfl
    rw [applyBody, run_bind_of_ok (run_recordPairState hseq), run_movePair hseq]
    rfl
  | positionUpdated position state m =>
    rw [applyBody, run_movePosition (h _ rfl)]
    rfl
  | positionLiquidated position liquidator collateral0 collateral1 debt0 debt1 price bonus state m =>
    have hseq := h m.seqNum rfl
    rw [applyBody]
    refine (run_bind_of_ok (run_insertLiquidation ?_)).trans ?_
    · exact hseq
    · rw [run_movePosition hseq]
      rfl

theorem run_insertDetail_event {e : Event} (h : (Commit.event signature e).fits = true) :
    (insertDetail (e.detail signature)).run s =
      .ok ((s.details.insertNew (e.detail signature)).2,
        { s with details := (s.details.insertNew (e.detail signature)).1 }) := by
  obtain ⟨hindex, hseq⟩ := fits_event_iff.mp h
  apply run_insertDetail
  · rwa [Event.detail_logIndex]
  · rw [Event.detail_seqNum, Option.all_map, Option.all_eq_true]
    exact hseq

theorem run_insertDetail_event_of_not_fits {e : Event} (h : ¬(Commit.event signature e).fits = true) :
    (insertDetail (e.detail signature)).run s = .error columnOverflow := by
  rw [insertDetail, Event.detail_logIndex, Event.detail_seqNum]
  by_cases hindex : fitsColumn e.logIndex = true
  · rw [checkColumn_of_fits hindex, pure_bind]
    cases hn : e.body.seqNum? with
    | none => exact absurd (fits_event_iff.mpr ⟨hindex, by simp [hn]⟩) h
    | some n =>
      have hseq : ¬fitsColumn n.toNat = true := fun hfit => h (fits_event_iff.mpr ⟨hindex, by simpa [hn] using hfit⟩)
      rw [Option.map_some, checkColumn?, checkColumn, if_neg hseq]
      rfl
  · rw [checkColumn, if_neg hindex]
    rfl

theorem run_applyEvent (signature : String) (e : Event) (s : Store) :
    (applyEvent signature e).run s =
      if (Commit.event signature e).fits then .ok (e.body.isNewer s, (Commit.event signature e).apply s)
      else .error columnOverflow := by
  by_cases h : (Commit.event signature e).fits = true
  · rw [if_pos h, applyEvent, run_bind_of_ok (run_insertDetail_event h), run_applyBody _ (fits_event_iff.mp h).2]
    rfl
  · rw [if_neg h, applyEvent, StateT.run_bind, run_insertDetail_event_of_not_fits h]
    rfl

end Session
end PairIndex
