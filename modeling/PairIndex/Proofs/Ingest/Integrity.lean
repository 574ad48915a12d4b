import PairIndex.Proofs.Ingest.Liquidation
import PairIndex.Proofs.Number.Price

/-! Rows of different tables that belong together. No table refers to another one, so what holds between them rests on
what one session writes at once and on the keys under which its rows compete. A row leads back to the event that left it
(`Commit.exists_event_of_mem_rows`), and from there to the other rows of that event (`Commit.holds_applyAll`). -/

namespace PairIndex

/-! ## What holds between the tables -/

/-- The price point of a swap: the same key, transaction, reserves and time, and the prices that the reserves imply. -/
structure SwapRow.Implies (swap : SwapRow) (point : PricePointRow) : Prop where
  key : point.key = swap.key
  signature : point.signature = swap.signature
  reserve0 : point.reserve0 = swap.reserve0
  reserve1 : point.reserve1 = swap.reserve1
  eventTime : point.eventTime = swap.eventTime
  price0 : Price.ofRatio swap.reserve1 swap.reserve0 = .ok point.price0
  price1 : Price.ofRatio swap.reserve0 swap.reserve1 = .ok point.price1

/-- The signature and the number of every row that a numbered event leaves besides its detail. -/
def Store.numberedRows (s : Store) : List (String × Int) :=
  s.swaps.rows.map (fun row => (row.signature, row.seqNum)) ++
    s.liquidityChanges.rows.map (fun row => (row.signature, row.seqNum)) ++
    s.pricePoints.rows.map (fun row => (row.signature, row.seqNum)) ++
    s.pairStates.rows.map (fun row => (row.signature, row.seqNum)) ++
    s.liquidations.rows.map (fun row => (row.signature, row.seqNum))

/-- Rows of different tables belong together. -/
structure Store.Integral (s : Store) : Prop where
  /-- What an event leaves belongs to a transaction that is recorded as successful. -/
  recorded : ∀ signature ∈ s.details.rows.map (·.signature) ++ s.numberedRows.map (·.1),
    ∃ row, s.transactions.find? signature = some row ∧ row.status = .success
  /-- What a numbered event leaves has a detail. -/
  detailed : ∀ x ∈ s.numberedRows, ∃ detail ∈ s.details.rows, detail.signature = x.1 ∧ detail.seqNum = some x.2
  /-- There is a price point for each swap and for nothing else. -/
  priced : ∀ key, Option.Rel SwapRow.Implies (s.swaps.find? key) (s.pricePoints.find? key)
  /-- The states of a pair tell that after each swap. -/
  swapsStated : ∀ row ∈ s.swaps.rows, (s.pairStates.find? row.key).isSome
  /-- The states of a pair tell that after each change of liquidity that tells its reserves. -/
  liquidityStated : ∀ row ∈ s.liquidityChanges.rows, row.reserve0 ≠ none ∨ row.reserve1 ≠ none →
    (s.pairStates.find? row.key).isSome
  /-- A position shows balances that are not older than any of its liquidations. -/
  liquidated : ∀ row ∈ s.liquidations.rows, ∃ position, s.positions.find? row.positionAddress = some position ∧
    row.seqNum ≤ position.latestSeqNum

/-! ## The rows of one event -/

namespace EventBody

variable {signature : String} {body : EventBody}

/-- The signature and the number that all rows of a numbered event carry. -/
def Numbers (signature : String) (body : EventBody) (x : String × Int) : Prop :=
  x.1 = signature ∧ body.seqNum?.map (fun n => (n.toNat : Int)) = some x.2

theorem numbers_swapRow? {row : SwapRow} (h : body.swapRow? signature = some row) :
    body.Numbers signature (row.signature, row.seqNum) := by
  cases body <;> cases h
  exact ⟨rfl, rfl⟩

theorem numbers_liquidityRow? {row : LiquidityRow} (h : body.liquidityRow? signature = some row) :
    body.Numbers signature (row.signature, row.seqNum) := by
  cases body <;> cases h <;> exact ⟨rfl, rfl⟩

theorem numbers_pricePointRow? {row : PricePointRow} (h : body.pricePointRow? signature = some row) :
    body.Numbers signature (row.signature, row.seqNum) := by
  cases body <;> cases h
  exact ⟨rfl, rfl⟩

theorem numbers_pairStateRow? {row : PairStateRow} (h : body.pairStateRow? signature = some row) :
    body.Numbers signature (row.signature, row.seqNum) := by
  cases body <;> cases h <;> exact ⟨rfl, rfl⟩

theorem numbers_liquidationRow? {row : LiquidationRow} (h : body.liquidationRow? signature = some row) :
    body.Numbers signature (row.signature, row.seqNum) := by
  cases body <;> cases h
  exact ⟨rfl, rfl⟩

/-- A swap adds the state of its pair under its own key. -/
theorem exists_pairStateRow?_of_swapRow? {row : SwapRow} (h : body.swapRow? signature = some row) :
    ∃ state, body.pairStateRow? signature = some state ∧ state.key = row.key := by
  cases body <;> cases h
  exact ⟨_, rfl, rfl⟩

/-- A change of liquidity that tells the reserves adds the state of its pair under its own key. -/
theorem exists_pairStateRow?_of_liquidityRow? {row : LiquidityRow} (h : body.liquidityRow? signature = some row)
    (hreserves : row.reserve0 ≠ none ∨ row.reserve1 ≠ none) :
    ∃ state, body.pairStateRow? signature = some state ∧ state.key = row.key := by
  cases body <;> cases h
  case adjustLiquidity => exact absurd hreserves (by simp)
  all_goals exact ⟨_, rfl, rfl⟩

/-- An event adds a swap and its price point, or neither. -/
theorem implies_pricePointRow? (signature : String) (body : EventBody) :
    Option.Rel SwapRow.Implies (body.swapRow? signature) (body.pricePointRow? signature) := by
  cases body with
  | swap isToken0In amountIn amountOut fee state m =>
    exact .some ⟨rfl, rfl, rfl, rfl, rfl, Price.ofRatio_words .., Price.ofRatio_words ..⟩
  | _ => exact .none

/-- A liquidation is news of its position. -/
theorem news?_of_liquidationRow? {e : Event} {row : LiquidationRow} (h : e.body.liquidationRow? signature = some row) :
    (Commit.event signature e).news? row.positionAddress = some ⟨row.seqNum, true⟩ ∧ 0 ≤ row.seqNum := by
  obtain ⟨body, logIndex⟩ := e
  cases body <;> cases h
  exact ⟨if_pos rfl, Int.natCast_nonneg _⟩

end EventBody

/-! ## From rows to events -/

namespace Commit

/-- A row of a table of events is that of an event that was applied. -/
theorem exists_event_of_mem_rows {α κ : Type} [DecidableEq κ] {key : α → κ} (tableOf : Store → Table key)
    (rowOf : String → EventBody → Option α)
    (happly : ∀ (c : Commit) s, tableOf (c.apply s) =
      (tableOf s).insertIfAny (c.event?.bind fun (signature, body) => rowOf signature body))
    (hempty : (tableOf .empty).rows = []) {cs : List Commit} {row : α} (h : row ∈ (tableOf (applyAll cs .empty)).rows) :
    ∃ signature e, .event signature e ∈ cs ∧ rowOf signature e.body = some row := by
  rcases mem_rows_applyAll tableOf _ happly h with hold | ⟨c, hc, heq⟩
  · rw [hempty] at hold
    cases hold
  · cases c with
    | transaction => cases heq
    | event signature e => exact ⟨signature, e, hc, heq⟩

theorem exists_event_of_mem_numberedRows {cs : List Commit} {x : String × Int}
    (h : x ∈ (applyAll cs .empty).numberedRows) :
    ∃ signature e, .event signature e ∈ cs ∧ e.body.Numbers signature x := by
  simp only [Store.numberedRows, List.mem_append, List.mem_map] at h
  rcases h with (((⟨row, hrow, rfl⟩ | ⟨row, hrow, rfl⟩) | ⟨row, hrow, rfl⟩) | ⟨row, hrow, rfl⟩) | ⟨row, hrow, rfl⟩
  · obtain ⟨signature, e, hmem, htold⟩ := exists_event_of_mem_rows (·.swaps) _ (fun _ _ => rfl) rfl hrow
    exact ⟨signature, e, hmem, EventBody.numbers_swapRow? htold⟩
  · obtain ⟨signature, e, hmem, htold⟩ := exists_event_of_mem_rows (·.liquidityChanges) _ (fun _ _ => rfl) rfl hrow
    exact ⟨signature, e, hmem, EventBody.numbers_liquidityRow? htold⟩
  · obtain ⟨signature, e, hmem, htold⟩ := exists_event_of_mem_rows (·.pricePoints) _ (fun _ _ => rfl) rfl hrow
    exact ⟨signature, e, hmem, EventBody.numbers_pricePointRow? htold⟩
  · obtain ⟨signature, e, hmem, htold⟩ := exists_event_of_mem_rows (·.pairStates) _ (fun _ _ => rfl) rfl hrow
    exact ⟨signature, e, hmem, EventBody.numbers_pairStateRow? htold⟩
  · obtain ⟨signature, e, hmem, htold⟩ := exists_event_of_mem_rows (·.liquidations) _ (fun _ _ => rfl) rfl hrow
    exact ⟨signature, e, hmem, EventBody.numbers_liquidationRow? htold⟩

/-- The key of the state that an event adds is taken. -/
theorem isSome_pairStates_of_mem {cs : List Commit} {signature : String} {e : Event} (h : .event signature e ∈ cs)
    {row : PairStateRow} (hrow : e.body.pairStateRow? signature = some row) :
    ((applyAll cs .empty).pairStates.find? row.key).isSome :=
  holds_applyAll (·.pairStates) _ (fun _ _ => rfl) h .empty row hrow

/-- Swaps and price points compete under the same keys, so they stay in step. -/
theorem priced_applyAll (cs : List Commit) (key : String × Int) :
    Option.Rel SwapRow.Implies ((applyAll cs .empty).swaps.find? key) ((applyAll cs .empty).pricePoints.find? key) := by
  have hstep : ∀ c ∈ cs, ∀ s : Store, Option.Rel SwapRow.Implies (s.swaps.find? key) (s.pricePoints.find? key) →
      Option.Rel SwapRow.Implies ((c.apply s).swaps.find? key) ((c.apply s).pricePoints.find? key) := by
    intro c _ s hs
    rw [apply, Table.find?_insertIfAny, Table.find?_insertIfAny]
    generalize s.swaps.find? key = swap?, s.pricePoints.find? key = point? at hs
    cases hs with
    | some hs => exact .some hs
    | none =>
      cases c with
      | transaction => exact .none
      | event signature e =>
        exact Table.rel_ofKey (fun _ _ h => h.key) (EventBody.implies_pricePointRow? signature e.body) key
  exact applyAll_induction
    (P := fun s => Option.Rel SwapRow.Implies (s.swaps.find? key) (s.pricePoints.find? key)) cs hstep .none

end Commit

/-! ## Runs of calls -/

namespace Call

/-- Transactions with one signature failed all or none, and they tell the same events on the same lines. -/
structure Coherent (txs : List DecodedTransaction) : Prop where
  failed : ∀ tx ∈ txs, ∀ tx' ∈ txs, tx.signature = tx'.signature → tx.failed = tx'.failed
  events : ∀ tx ∈ txs, ∀ tx' ∈ txs, tx.signature = tx'.signature → ∀ e ∈ tx.events, ∀ e' ∈ tx'.events,
    e.logIndex = e'.logIndex → e = e'

variable {run : List (Call × List (Option Failure))}

/-- The transaction of an event that was applied is recorded as successful. -/
theorem recorded_of_event (h : Coherent (transactionsOf run)) {signature : String} {e : Event}
    (hevent : .event signature e ∈ trace run) :
    ∃ row, (Commit.applyAll (trace run) .empty).transactions.find? signature = some row ∧ row.status = .success := by
  obtain ⟨tx, htx, hfailed, rfl, -, hmem⟩ := exists_transaction_of_event hevent
  obtain ⟨row, hrow⟩ := Option.isSome_iff_exists.mp (Commit.isSome_transactions_of_mem hmem .empty)
  refine ⟨row, hrow, ?_⟩
  -- The row may be that of another call, but one with the same signature.
  rcases Commit.mem_transactions_applyAll (Table.mem_of_find? hrow) with hold | hmem'
  · cases hold
  · obtain ⟨tx', htx', rfl⟩ := exists_transaction_of_mem_trace hmem'
    have hkey : tx'.row.key = tx.row.signature := Table.key_of_find? hrow
    have hsignature : tx'.signature = tx.signature := hkey
    have hstatus : tx'.row.status = tx'.status := rfl
    rw [hstatus, DecodedTransaction.status, h.failed tx' htx' tx htx hsignature, hfailed]
    rfl

/-- An event that was applied has a detail with its number. -/
theorem detailed_of_event (h : Coherent (transactionsOf run)) {signature : String} {e : Event}
    (hevent : .event signature e ∈ trace run) :
    ∃ detail ∈ (Commit.applyAll (trace run) .empty).details.rows, detail.signature = signature ∧
      detail.seqNum = e.body.seqNum?.map fun n => (n.toNat : Int) := by
  obtain ⟨detail, hdetail⟩ := Option.isSome_iff_exists.mp (Commit.isSome_details_of_mem hevent .empty)
  have hrow := Table.mem_of_find? hdetail
  have hkey := Table.key_of_find? hdetail
  rcases Commit.mem_details_applyAll hrow with hold | ⟨signature', e', hevent', rfl⟩
  · cases hold
  · rw [Event.detail_key, Prod.mk.injEq] at hkey
    obtain ⟨tx, htx, -, rfl, he, -⟩ := exists_transaction_of_event hevent
    obtain ⟨tx', htx', -, rfl, he', -⟩ := exists_transaction_of_event hevent'
    have hsame : e' = e := h.events tx' htx' tx htx hkey.1 e' he' e he hkey.2
    refine ⟨_, hrow, ?_, ?_⟩
    · rw [Event.detail_signature, hkey.1]
    · rw [Event.detail_seqNum, hsame]

/-- A position shows balances that are not older than a liquidation that was recorded. -/
theorem liquidated_of_mem_rows {row : LiquidationRow} (h : row ∈ (runAll run .empty).liquidations.rows) :
    ∃ position, (runAll run .empty).positions.find? row.positionAddress = some position ∧
      row.seqNum ≤ position.latestSeqNum := by
  have hfollows := follows_runAll run row.positionAddress
  rw [store_runAll] at h hfollows ⊢
  obtain ⟨signature, e, hevent, htold⟩ := Commit.exists_event_of_mem_rows (·.liquidations) _ (fun _ _ => rfl) rfl h
  obtain ⟨hnews, hnonneg⟩ := EventBody.news?_of_liquidationRow? htold
  have hmem : ⟨row.seqNum, true⟩ ∈ Commit.newsOf row.positionAddress (trace run) :=
    List.mem_filterMap.mpr ⟨_, hevent, hnews⟩
  have hle : ¬latestOf ((Commit.applyAll (trace run) .empty).positions.find? row.positionAddress) < row.seqNum :=
    fun hlt => Int.lt_irrefl _ ((hfollows.latest row.seqNum hnonneg).mp hlt _ hmem)
  cases hposition : (Commit.applyAll (trace run) .empty).positions.find? row.positionAddress with
  | none =>
    rw [hposition, latestOf, Option.map_none, Option.getD_none, noSeqApplied] at hle
    omega
  | some position =>
    rw [hposition] at hle
    exact ⟨position, rfl, Int.not_lt.mp hle⟩

/-- In every store that calls of the processor reach, whatever fails and wherever a call is cut off, rows of different
tables belong together, as long as calls tell the same of one transaction. -/
theorem tables_stay_integral (run : List (Call × List (Option Failure))) (h : Coherent (transactionsOf run)) :
    (runAll run .empty).Integral := by
  have hliquidated : ∀ row ∈ (runAll run .empty).liquidations.rows,
      ∃ position, (runAll run .empty).positions.find? row.positionAddress = some position ∧
        row.seqNum ≤ position.latestSeqNum := fun _ => liquidated_of_mem_rows
  rw [store_runAll] at hliquidated ⊢
  constructor
  case recorded =>
    intro signature hsignature
    rcases List.mem_append.mp hsignature with hdetails | hnumbered
    · obtain ⟨detail, hdetail, rfl⟩ := List.mem_map.mp hdetails
      rcases Commit.mem_details_applyAll hdetail with hold | ⟨signature, e, hevent, rfl⟩
      · cases hold
      · rw [Event.detail_signature]
        exact recorded_of_event h hevent
    · obtain ⟨x, hx, rfl⟩ := List.mem_map.mp hnumbered
      obtain ⟨signature, e, hevent, rfl, -⟩ := Commit.exists_event_of_mem_numberedRows hx
      exact recorded_of_event h hevent
  case detailed =>
    intro x hx
    obtain ⟨signature, e, hevent, rfl, hseqNum⟩ := Commit.exists_event_of_mem_numberedRows hx
    rw [← hseqNum]
    exact detailed_of_event h hevent
  case priced => exact Commit.priced_applyAll (trace run)
  case swapsStated =>
    intro row hrow
    obtain ⟨signature, e, hevent, htold⟩ := Commit.exists_event_of_mem_rows (·.swaps) _ (fun _ _ => rfl) rfl hrow
    obtain ⟨state, hstate, hkey⟩ := EventBody.exists_pairStateRow?_of_swapRow? htold
    exact hkey ▸ Commit.isSome_pairStates_of_mem hevent hstate
  case liquidityStated =>
    intro row hrow hreserves
    obtain ⟨signature, e, hevent, htold⟩ :=
      Commit.exists_event_of_mem_rows (·.liquidityChanges) _ (fun _ _ => rfl) rfl hrow
    obtain ⟨state, hstate, hkey⟩ := EventBody.exists_pairStateRow?_of_liquidityRow? htold hreserves
    exact hkey ▸ Commit.isSome_pairStates_of_mem hevent hstate
  case liquidated => exact hliquidated

/-- A transaction that is cut off after its first event and comes in again while another failure is met, and one that
failed. -/
def cutOffRun : List (Call × List (Option Failure)) :=
  let metadata (seqNum : UInt64) : EventMetadata := ⟨.small 1, .small 2, seqNum, 0⟩
  let swap : EventBody := .swap true 10 9 1 ⟨100, 90, 50, 0, 0, 0, 0⟩ (metadata 1)
  let mint : EventBody := .mint 2 2 1 ⟨102, 92, 51, 0, 0, 0, 0⟩ (metadata 2)
  let liquidation : EventBody := .positionLiquidated (.small 3) (.small 4) 1 2 3 4 5 6 ⟨0, 0, 0, 0⟩ (metadata 3)
  let mixed : DecodedTransaction := ⟨"mixed", 1, none, [⟨swap, 0⟩, ⟨mint, 1⟩, ⟨liquidation, 2⟩], false⟩
  [(.decoded mixed, [none, none, some ⟨.storeDisconnected, "gone"⟩]),
    (.decoded ⟨"reverted", 2, none, [⟨swap, 0⟩], true⟩, []),
    (.decoded mixed, [none, some ⟨.storeOther, "busy"⟩])]

theorem tables_stay_integral_cutOff : Coherent (transactionsOf cutOffRun) ∧
    (runAll cutOffRun .empty).numberedRows.length = 6 ∧ (runAll cutOffRun .empty).Integral := by
  have hcoherent : Coherent (transactionsOf cutOffRun) := by constructor <;> decide +kernel
  exact ⟨hcoherent, by decide +kernel, tables_stay_integral cutOffRun hcoherent⟩

end Call
end PairIndex
