import PairIndex.Proofs.Crawl.Commits
import PairIndex.Proofs.Event.Attribution
import PairIndex.Proofs.Event.Classification

/-! The two ways of a transaction into the store. A crawl meets it in the signature index, or it is announced and
handled at once; as its row is written only once, the way that was first decides. Both leave the same store but for
transactions that failed and tell events of the address: a crawl records these from their index entries, so that type,
pair and user are lost (`Crawler.agrees_with_live_iff`). -/

namespace PairIndex

/-- Whether the row of a transaction can be written now: the calendar has its block time, its slot fits the column, and
the store reports no failure. -/
structure LedgerTransaction.Recordable (tx : LedgerTransaction) (db : Database) : Prop where
  time : (tx.blockTime.mapM Moment.ofSeconds?).isSome
  slot : Session.fitsColumn tx.slot = true
  fault : nextFault db.outlook = none

/-- A store whose place for a row is free tells the row after it was written. -/
theorem Commit.find?_of_new (row : TransactionRow) {s : Store} (h : s.transactions.find? row.signature = none) :
    ((Commit.transaction row).apply s).transactions.find? row.signature = some row := by
  simp [Commit.apply, Table.find?_insertIfAny, h, transactionRow?, Table.ofKey, TransactionRow.key]

namespace LedgerTransaction

variable {tx : LedgerTransaction} {db : Database}

/-- The row of a failed transaction is told by its index entry if and only if its log tells no event. -/
theorem row_info_decoded_iff (hfailed : tx.isFailed = true) (address : String) (blockTime : Option Moment) :
    (tx.info.decoded blockTime).row = (tx.decoded address blockTime).row ↔ eventsOf address tx.logs = [] := by
  by_cases hevents : eventsOf address tx.logs = []
  · refine iff_of_true ?_ hevents
    simp [DecodedTransaction.row, SignatureInfo.decoded, decoded, hevents, classify_nil, info, DecodedTransaction.status,
      hfailed]
  · refine iff_of_false (fun h => ?_) hevents
    obtain ⟨e, -, hclass⟩ := exists_classify_eq hevents
    have hpair := congrArg TransactionRow.pairAddress h
    simp [DecodedTransaction.row, SignatureInfo.decoded, decoded, hclass, classify_nil] at hpair

/-- Of a transaction that failed only the row is written, if it can be. -/
theorem committed_of_failed {d : DecodedTransaction} (hfailed : d.failed = true) (outlook : List (Option Failure)) :
    d.committed outlook =
      if nextFault outlook = none ∧ Session.fitsColumn d.slot = true then [.transaction d.row] else [] := by
  have hfits : (Commit.transaction d.row).fits = Session.fitsColumn d.slot := rfl
  rw [DecodedTransaction.committed, Commit.failure?, hfits]
  cases nextFault outlook with
  | some failure => simp
  | none => cases hslot : Session.fitsColumn d.slot <;> simp [hfailed]

/-- How a crawl processes a transaction that was not held back. -/
def ingestion (address : String) (tx : LedgerTransaction) : Attempt Database ProcessResult := do
  (← MonadExcept.ofExcept (tx.reading address)).process

/-- A transaction is processed as it was read, or not at all. -/
theorem outcome_ingestion (tx : LedgerTransaction) (address : String) (db : Database) :
    (tx.ingestion address).outcome db =
      match tx.reading address with
      | .ok d => d.process.outcome db
      | .error failure => (.error failure, db) := by
  rw [ingestion, Attempt.outcome_bind, Attempt.outcome_ofExcept]
  cases tx.reading address <;> rfl

/-- Recording a failed transaction from its index entry leaves the store that recording it with its log leaves, unless
the log tells an event and the row is written. -/
theorem store_ingestion_iff (hfailed : tx.isFailed = true) (address : String)
    (hnew : db.store.transactions.find? tx.signature = none) :
    ((tx.ingestion address).outcome db).2.store = ((processTransaction tx address).outcome db).2.store ↔
      ¬(eventsOf address tx.logs ≠ [] ∧ tx.Recordable db) := by
  rw [outcome_ingestion, outcome_processTransaction, reading, if_pos hfailed, SignatureInfo.decode, decode]
  have hblock : tx.info.blockTime = tx.blockTime := rfl
  rw [hblock]
  rcases blockMoment_cases tx.blockTime with ⟨moment, hmoment, ho⟩ | ⟨hmoment, failure, -, ho⟩
  · have hindex : (tx.info.decoded moment).failed = true := rfl
    have hlog : (tx.decoded address moment).failed = true := hfailed
    rw [ho]
    change ((tx.info.decoded moment).process.outcome db).2.store = ((tx.decoded address moment).process.outcome db).2.store
      ↔ _
    rw [DecodedTransaction.store_process, DecodedTransaction.store_process, committed_of_failed hindex,
      committed_of_failed hlog, show (tx.info.decoded moment).slot = tx.slot from rfl,
      show (tx.decoded address moment).slot = tx.slot from rfl]
    by_cases hwritten : nextFault db.outlook = none ∧ Session.fitsColumn tx.slot = true
    · have hrecordable : tx.Recordable db := ⟨by rw [hmoment]; rfl, hwritten.2, hwritten.1⟩
      have hrows : Commit.applyAll [.transaction (tx.info.decoded moment).row] db.store =
          Commit.applyAll [.transaction (tx.decoded address moment).row] db.store ↔
            (tx.info.decoded moment).row = (tx.decoded address moment).row := by
        refine ⟨fun hsame => ?_, fun hsame => by rw [hsame]⟩
        have hindexed := Commit.find?_of_new (tx.info.decoded moment).row hnew
        have hlogged := Commit.find?_of_new (tx.decoded address moment).row hnew
        rw [Commit.applyAll_cons, Commit.applyAll_nil, Commit.applyAll_cons, Commit.applyAll_nil] at hsame
        rw [hsame] at hindexed
        exact Option.some.inj (hindexed.symm.trans hlogged)
      rw [if_pos hwritten, if_pos hwritten, hrows, row_info_decoded_iff hfailed]
      simp [hrecordable]
    · rw [if_neg hwritten, if_neg hwritten]
      exact iff_of_true rfl fun hboth => hwritten ⟨hboth.2.fault, hboth.2.slot⟩
  · rw [ho]
    refine iff_of_true rfl fun hboth => ?_
    have htime := hboth.2.time
    rw [hmoment] at htime
    cases htime

end LedgerTransaction

/-- What a handler leaves in the store is what processing the announced transaction leaves, if the ledger has it. -/
theorem LiveHandler.store_handle (h : LiveHandler) (stats : LiveStats) {w : World} {tx : LedgerTransaction}
    (htx : tx ∈ w.ledger.history) (hdistinct : (w.ledger.history.map (·.signature)).Nodup)
    (hfetch : w.ledger.fetchFailure? tx.signature = none)
    (hknown : w.ledger.switches.missing.contains tx.signature = false) :
    ((h.handle tx.signature stats).run w).2.database.store =
      ((processTransaction tx h.address).outcome w.database).2.store := by
  have hprocess : ∀ w₁ : World, w.Alike w₁ → ((h.fetchAndProcess tx.signature).outcome w₁).2.database.store =
      ((processTransaction tx h.address).outcome w.database).2.store := by
    intro w₁ halike
    obtain ⟨w₂, hidles, ho⟩ := World.outcome_fetch_eq tx.signature w₁
    rw [halike.ledger, hfetch, RecordedLedger.transaction?, hknown, RecordedLedger.find?_of_mem htx hdistinct] at ho
    rw [fetchAndProcess, Attempt.outcome_bind_of_ok ho]
    simp only [Bool.false_eq_true, if_false, Attempt.outcome_map]
    exact congrArg (fun db => ((processTransaction tx h.address).outcome db).2.store)
      (halike.trans hidles.toAlike).database
  change ((h.ingest tx.signature).outcome w).2.database.store = _
  rw [ingest]
  by_cases hdelay : h.fetchDelay ≠ 0
  · rw [if_pos hdelay]
    exact hprocess { w with calls := { w.calls with sleeps := w.calls.sleeps ++ [h.fetchDelay] } } ⟨rfl, rfl⟩
  · rw [if_neg hdelay]
    exact hprocess w (.refl w)

/-- What a crawl leaves in the store is what processing the transaction leaves. -/
theorem Crawler.store_ingest (c : Crawler) {w : World} {tx : LedgerTransaction} (htx : tx ∈ w.ledger.history)
    (hdistinct : (w.ledger.history.map (·.signature)).Nodup) (hheld : w.ledger.heldBack? tx = none) :
    ((c.ingest tx.info).outcome w).2.database.store = ((tx.ingestion c.address).outcome w.database).2.store := by
  obtain ⟨w₁, hidles, hprepare⟩ := c.outcome_prepare tx.info w
  obtain ⟨w₂, hidles', hconclude⟩ :=
    c.outcome_conclude ((c.ingestOnce tx.info).outcome w).1 ((c.ingestOnce tx.info).outcome w).2
  rw [RecordedLedger.prepared_of_mem c.address htx hdistinct, hheld] at hprepare
  rw [ingest, Attempt.outcome_bind_of_ok (Attempt.outcome_settle _ w), hconclude, hidles'.database, ingestOnce,
    Attempt.outcome_bind, hprepare, LedgerTransaction.outcome_ingestion, ← hidles.database]
  cases tx.reading c.address with
  | error failure => rfl
  | ok d =>
    change (Attempt.outcome (World.onDatabase d.process >>= fun r => pure r.isOk) w₁).2.database.store = _
    rw [Attempt.outcome_bind_pure_snd]
    rfl

/-- A transaction that is not stored yet leaves the same tables whether a crawl or a handler of the address meets it,
unless it failed, tells events of the address and can be recorded. -/
theorem Crawler.agrees_with_live_iff (c : Crawler) (h : LiveHandler) (stats : LiveStats) (haddress : h.address = c.address)
    {w : World} {tx : LedgerTransaction} (htx : tx ∈ w.ledger.history)
    (hdistinct : (w.ledger.history.map (·.signature)).Nodup) (hfetch : w.ledger.fetchFailure? tx.signature = none)
    (hknown : w.ledger.switches.missing.contains tx.signature = false)
    (hnew : w.database.store.transactions.find? tx.signature = none) :
    ((h.handle tx.signature stats).run w).2.database.store =
        ((processTransaction tx c.address).outcome w.database).2.store ∧
      (((c.ingest tx.info).outcome w).2.database.store = ((h.handle tx.signature stats).run w).2.database.store ↔
        ¬(tx.isFailed = true ∧ eventsOf c.address tx.logs ≠ [] ∧ tx.Recordable w.database)) := by
  have hlive := h.store_handle stats htx hdistinct hfetch hknown
  rw [haddress] at hlive
  have hheld : w.ledger.heldBack? tx = none := by
    rw [RecordedLedger.heldBack?, hfetch, hknown]
    simp
  refine ⟨hlive, ?_⟩
  rw [hlive, c.store_ingest htx hdistinct hheld]
  by_cases hfailed : tx.isFailed = true
  · rw [LedgerTransaction.store_ingestion_iff hfailed c.address hnew]
    simp only [hfailed, true_and]
  · rw [LedgerTransaction.outcome_ingestion, outcome_processTransaction, LedgerTransaction.reading, if_neg hfailed]
    exact iff_of_true rfl fun hthree => hfailed hthree.1

/-- A transaction that failed after it had created a pair. -/
def failedCreation : LedgerTransaction where
  signature := "create"
  slot := 1
  logs := ["Program pool invoke [1]", creationLine, "Program pool failed: custom program error"]
  err := .str "InstructionError"

/-- A ledger that has nothing but a failed creation, and an empty store. -/
def failedCreationWorld : World where
  ledger := { history := [failedCreation] }

theorem Crawler.agrees_with_live_iff_failedCreation :
    ((LiveHandler.handle { address := "pool" } failedCreation.signature {}).run failedCreationWorld).2.database.store =
        ((processTransaction failedCreation "pool").outcome failedCreationWorld.database).2.store ∧
      ((Crawler.ingest { address := "pool" } failedCreation.info).outcome failedCreationWorld).2.database.store ≠
        ((LiveHandler.handle { address := "pool" } failedCreation.signature {}).run failedCreationWorld).2.database.store := by
  obtain ⟨hlive, hiff⟩ := Crawler.agrees_with_live_iff { address := "pool" } { address := "pool" } {} rfl
    (w := failedCreationWorld) List.mem_cons_self (by decide) (by decide) (by decide) rfl
  have hevents : (eventsOf "pool" failedCreation.logs).isEmpty = false := by decide +kernel
  have hrecordable : failedCreation.Recordable failedCreationWorld.database := ⟨rfl, by decide, rfl⟩
  dsimp only at hlive
  exact ⟨hlive, fun hsame => hiff.mp hsame ⟨rfl, List.isEmpty_eq_false_iff.mp hevents, hrecordable⟩⟩

/-- The row of a transaction that failed depends on whether a crawl or a handler meets it first. -/
theorem Crawler.failed_transaction_depends_on_path :
    ¬∀ (c : Crawler) (h : LiveHandler) (stats : LiveStats) (w : World) (tx : LedgerTransaction),
      h.address = c.address → w.Reachable → tx ∈ w.ledger.history → w.ledger.fetchFailure? tx.signature = none →
      w.ledger.switches.missing.contains tx.signature = false →
      w.database.store.transactions.find? tx.signature = none →
      ((c.ingest tx.info).outcome w).2.database.store = ((h.handle tx.signature stats).run w).2.database.store := by
  intro h
  have hreachable : failedCreationWorld.Reachable := .start _ ⟨by decide, by decide, by decide, rfl⟩ rfl
  have hsame := h { address := "pool" } { address := "pool" } {} failedCreationWorld failedCreation rfl hreachable
    List.mem_cons_self (by decide) (by decide) rfl
  have hpair := congrArg (fun s => (s.transactions.find? "create").map (·.pairAddress)) hsame
  revert hpair
  decide +kernel

end PairIndex
