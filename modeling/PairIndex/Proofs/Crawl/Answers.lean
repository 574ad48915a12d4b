import PairIndex.Proofs.Crawl.Commits
import PairIndex.Proofs.Ingest.Quiet

/-! Ingesting while the store reports no failure and the ledger fails for the time being at most. A transaction whose
block time the calendar has is ingested whatever its log tells: what fits of it is stored (`Recorded`), and it is a
success if and only if the ledger gave it and all of it fits (`Crawler.ingestChunk_of_answers`). -/

namespace PairIndex

/-- A world whose ledger tells a history, though it may fail this time, and whose store reports no failure. -/
structure World.Answers (w : World) : Prop where
  distinct : (w.ledger.history.map (·.signature)).Nodup
  pages : w.ledger.switches.pages = none
  fatal : w.ledger.switches.fatal = []
  quiet : w.database.Quiet

/-- Whether a crawl gets hold of a transaction. -/
def RecordedLedger.gives (l : RecordedLedger) (tx : LedgerTransaction) : Bool :=
  (l.heldBack? tx).isNone

/-- Whether all events fit that a transaction tells of a program, if it took effect. -/
def LedgerTransaction.isGood (address : String) (tx : LedgerTransaction) : Bool :=
  tx.isFailed || (eventsOf address tx.logs).all fun e => (Commit.event tx.signature e).fits

/-- Whether a crawl counts a transaction as processed: it gets hold of it, and no event of it fails. -/
def RecordedLedger.processes (l : RecordedLedger) (address : String) (tx : LedgerTransaction) : Bool :=
  l.gives tx && tx.isGood address

/-- A transaction of which all is stored that fits: its row and, if it took effect, the details of its events. -/
def Recorded (address : String) (tx : LedgerTransaction) (s : Store) : Prop :=
  (s.transactions.find? tx.signature).isSome ∧
    (tx.isFailed = false → ∀ e ∈ eventsOf address tx.logs, (Commit.event tx.signature e).fits = true →
      (s.details.find? (tx.signature, e.logIndex)).isSome)

theorem Recorded.of_adds {address address' : String} {tx : LedgerTransaction} {w w' : World}
    (h : Recorded address tx w.database.store) (hadds : w.Adds address' w') : Recorded address tx w'.database.store :=
  ⟨hadds.isSome_transactions h.1, fun hfailed e he hfits => hadds.isSome_details (h.2 hfailed e he hfits)⟩

/-- Of a transaction that is good all is stored that it tells. -/
theorem Recorded.stored {address : String} {tx : LedgerTransaction} {s : Store} (h : Recorded address tx s)
    (hgood : tx.isGood address = true) : Stored address tx s := by
  refine ⟨h.1, fun hfailed e he => h.2 hfailed e he ?_⟩
  rw [LedgerTransaction.isGood, hfailed, Bool.false_or, List.all_eq_true] at hgood
  exact hgood e he

/-! ## Processing -/

namespace LedgerTransaction

variable {address : String} {tx : LedgerTransaction} {d : DecodedTransaction}

theorem fits_row_of_crawled? (hd : tx.crawled? address = some d) (hslot : Session.fitsColumn tx.slot = true) :
    (Commit.transaction d.row).fits = true := by
  rw [← slot_of_crawled? hd] at hslot
  exact hslot

theorem isGood_iff (hd : tx.crawled? address = some d) (hslot : Session.fitsColumn tx.slot = true) :
    tx.isGood address = true ↔ ∀ c ∈ d.commits, c.fits = true := by
  have hrow := fits_row_of_crawled? hd hslot
  rw [isGood, DecodedTransaction.commits, failed_of_crawled? hd, List.forall_mem_cons]
  cases hfailed : tx.isFailed with
  | true => simp [hrow]
  | false => simp [hrow, events_of_crawled? hd hfailed, signature_of_crawled? hd]

/-- All of a transaction is stored that fits once all was committed that fits of what a crawl makes of it. -/
theorem recorded_of_commits (hd : tx.crawled? address = some d) (hslot : Session.fitsColumn tx.slot = true)
    {made : List Commit} (hall : ∀ c ∈ d.commits, c.fits = true → c ∈ made) (s : Store) :
    Recorded address tx (Commit.applyAll made s) := by
  have hrow := fits_row_of_crawled? hd hslot
  have hsignature := signature_of_crawled? hd
  constructor
  · rw [← hsignature]
    exact Commit.isSome_transactions_of_mem (hall _ (DecodedTransaction.mem_commits.mpr (.inl rfl)) hrow) _
  · intro hfailed e he hfits
    rw [← hsignature] at hfits ⊢
    rw [← events_of_crawled? hd hfailed] at he
    rw [← failed_of_crawled? hd] at hfailed
    exact Commit.isSome_details_of_mem
      (hall _ (DecodedTransaction.mem_commits.mpr (.inr ⟨hfailed, e, he, rfl⟩)) hfits) _

/-- While the store reports no failure, a transaction is processed, with success if and only if it is good. -/
theorem verdict_of_crawled? (hd : tx.crawled? address = some d) (hslot : Session.fitsColumn tx.slot = true) :
    d.verdict = .ok (tx.isGood address) := by
  have hgood : d.commits.all (·.fits) = tx.isGood address := by
    rw [Bool.eq_iff_iff, List.all_eq_true, isGood_iff hd hslot]
  rw [DecodedTransaction.verdict, if_pos (fits_row_of_crawled? hd hslot), hgood]

end LedgerTransaction

/-! ## Worlds -/

namespace World

variable {w w' w'' : World}

theorem Answers.of_proceeds (h : w.Answers) (hw : w.Proceeds w') : w'.Answers where
  distinct := hw.ledger ▸ h.distinct
  pages := hw.ledger ▸ h.pages
  fatal := hw.ledger ▸ h.fatal
  quiet := hw.quiet

theorem Answers.afterSession (h : w.Answers) (s : Store) : w.Proceeds (w.afterSession s) :=
  ⟨rfl, h.quiet.tail s, fun _ => rfl⟩

theorem outcome_session_of_quiet {α : Type} {session : Session α} (h : w.database.Quiet) {a : α}
    {s : Store} (hrun : session.run w.database.store = .ok (a, s)) :
    (World.session session).outcome w = (.ok a, w.afterSession s) := by
  rw [World.outcome_session_eq, h.nextFault, hrun]

end World

/-! ## Ingesting -/

namespace Crawler

variable {w : World} {tx : LedgerTransaction} {txs : List LedgerTransaction}

/-- Only transient failures hold a transaction back, and that the ledger does not know it yet. -/
theorem heldBack_of_answers {result : Except Failure Bool} (hw : w.Answers)
    (h : w.ledger.heldBack? tx = some result) :
    result = .ok false ∨ ∃ failure, result = .error failure ∧ failure.isTransient = true := by
  rw [RecordedLedger.heldBack?] at h
  split at h
  · cases h
  · cases hfetch : w.ledger.fetchFailure? tx.signature with
    | none =>
      simp only [hfetch, Option.ite_none_right_eq_some, Option.some.injEq] at h
      exact Or.inl h.2.symm
    | some failure =>
      simp only [hfetch, Option.some.injEq] at h
      refine Or.inr ⟨failure, h.symm, ?_⟩
      simp only [RecordedLedger.fetchFailure?, hw.fatal, List.contains_nil, Bool.false_eq_true, if_false,
        Option.ite_none_right_eq_some, Option.some.injEq] at hfetch
      rw [← hfetch.2]
      rfl

/-- A transaction that is given is a success if and only if it is good; one that is held back counts as no success, and
no failure ends the crawl. -/
theorem verdict_of_answers (hw : w.Answers) {address : String} (htx : tx ∈ w.ledger.history)
    (hdated : (tx.crawled? address).isSome) (hslot : Session.fitsColumn tx.slot = true) :
    (Ingestion.waiting tx.info).verdict w.ledger address = .ok (w.ledger.processes address tx) := by
  rw [Ingestion.verdict, RecordedLedger.prepared_of_mem address htx hw.distinct, RecordedLedger.processes,
    RecordedLedger.gives]
  cases hheld : w.ledger.heldBack? tx with
  | some result =>
    rcases heldBack_of_answers hw hheld with rfl | ⟨failure, rfl, htransient⟩
    · rfl
    · simp [Except.map, Ingestion.tolerated, htransient]
  | none =>
    rcases tx.reading_cases address with ⟨d, hd, hread⟩ | ⟨hnone, -⟩
    · simp [hread, Except.map, LedgerTransaction.verdict_of_crawled? hd hslot, Ingestion.tolerated]
    · rw [hnone] at hdated
      cases hdated

/-- Of a transaction that is given all is due that fits. -/
theorem mem_dues_of_answers (hw : w.Answers) {address : String} (htx : tx ∈ w.ledger.history) {d : DecodedTransaction}
    (hd : tx.crawled? address = some d) (hslot : Session.fitsColumn tx.slot = true) (hgives : w.ledger.gives tx = true)
    {x : Commit} (hx : x ∈ d.commits) (hfits : x.fits = true) :
    x ∈ (Ingestion.waiting tx.info).dues w.ledger address := by
  have hfree : w.ledger.heldBack? tx = none := Option.isNone_iff_eq_none.mp hgives
  rcases tx.reading_cases address with ⟨d', hd', hread⟩ | ⟨hnone, -⟩
  · cases hd.symm.trans hd'
    have hdue : x ∈ d.committed [] := by
      rw [DecodedTransaction.committed_nil_eq_filter (LedgerTransaction.fits_row_of_crawled? hd hslot)]
      exact List.mem_filter.mpr ⟨hx, hfits⟩
    rw [Ingestion.dues, RecordedLedger.prepared_of_mem address htx hw.distinct, hfree, hread]
    exact hdue
  · rw [hnone] at hd
    cases hd

/-- The transactions that a crawl can go on with: of its history, in the calendar, and in slots that fit. -/
def Ready (c : Crawler) (w : World) (txs : List LedgerTransaction) : Prop :=
  ∀ tx ∈ txs, tx ∈ w.ledger.historyOf c.address ∧ (tx.crawled? c.address).isSome ∧ Session.fitsColumn tx.slot = true

theorem allOrFirst_map_ok {α : Type} (oks : List α) : allOrFirst (oks.map .ok) = .ok oks := by
  induction oks with
  | nil => rfl
  | cons ok oks ih =>
    rw [List.map_cons, allOrFirst, ih]
    rfl

/-- A chunk is ingested to its end, and what fits of the transactions is stored that are given. -/
theorem ingestChunk_of_answers (c : Crawler) (hw : w.Answers) (htxs : c.Ready w txs) :
    ∃ w', (c.ingestChunk (txs.map (·.info))).outcome w = (.ok (txs.map (w.ledger.processes c.address)), w') ∧
      w.Proceeds w' ∧ w.Adds c.address w' ∧
      ∀ tx ∈ txs, w.ledger.gives tx = true → Recorded c.address tx w'.database.store := by
  obtain ⟨w', made, ho, hproceeds, hstore, hperm, -⟩ := c.ingestChunk_of_quiet (txs.map (·.info)) hw.quiet
  have hcrawls := c.crawls_ingestChunk none (fun tx htx => (htxs tx htx).1) hw.distinct
  have hverdicts : (txs.map (·.info)).map (fun info => (Ingestion.waiting info).verdict w.ledger c.address) =
      (txs.map (w.ledger.processes c.address)).map .ok := by
    rw [List.map_map, List.map_map]
    refine List.map_congr_left fun tx htx => ?_
    obtain ⟨hmem, hdated, hslot⟩ := htxs tx htx
    exact verdict_of_answers hw (RecordedLedger.mem_of_mem_historyOf hmem) hdated hslot
  rw [ho] at hcrawls
  rw [hverdicts, allOrFirst_map_ok] at ho
  refine ⟨w', ho, hproceeds, hcrawls.toAdds, fun tx htx hgives => ?_⟩
  obtain ⟨hmem, hdated, hslot⟩ := htxs tx htx
  obtain ⟨d, hd⟩ := Option.isSome_iff_exists.mp hdated
  rw [hstore]
  refine LedgerTransaction.recorded_of_commits hd hslot (fun x hx hfits => ?_) _
  refine hperm.mem_iff.mpr (List.mem_flatMap.mpr ⟨tx.info, List.mem_map_of_mem htx, ?_⟩)
  exact mem_dues_of_answers hw (RecordedLedger.mem_of_mem_historyOf hmem) hd hslot hgives hx hfits

end Crawler

/-! ## Watermarks -/

/-- Moving the watermark of an address moves just that. -/
theorem Session.find?_advanceWatermark (account signature : String) {slot : Int} (first : Option String) (s : Store)
    (hfits : fitsColumn slot = true) :
    ∃ moved s', (advanceWatermark account signature slot first).run s = .ok (moved, s') ∧
      s'.watermarks.find? account =
        ((s.watermarks.find? account).map fun row => (row.moveTo signature slot).beginAt (firstOf signature first)) ∧
      ∀ other, other ≠ account → s'.watermarks.find? other = s.watermarks.find? other := by
  unfold advanceWatermark
  rw [checkColumn_of_fits hfits, pure_bind]
  refine ⟨_, _, rfl, ?_, fun other hne => ?_⟩
  · simp only [Table.find?_update, if_true, Option.map_map]
    cases first <;> rfl
  · simp only [Table.find?_update, if_neg (Ne.symm hne)]

/-- A watermark is not moved to a slot that fits no column. -/
theorem Session.run_advanceWatermark_of_not_fits (account signature : String) {slot : Int} (first : Option String)
    (s : Store) (hfits : ¬fitsColumn slot = true) :
    (advanceWatermark account signature slot first).run s = .error columnOverflow := by
  unfold advanceWatermark checkColumn
  rw [if_neg hfits]
  rfl

/-- Marking the watermark of an address marks just that. -/
theorem Session.find?_setWatchStatus (address : String) (status : WatchStatus) (failureLog : Option String) (s : Store) :
    ∃ s', (setWatchStatus address status failureLog).run s = .ok ((), s') ∧ ∀ other, s'.watermarks.find? other =
      if address = other then (s.watermarks.find? other).map (·.withStatus status failureLog)
      else s.watermarks.find? other :=
  ⟨_, rfl, fun other => Table.find?_update s.watermarks address other (WatermarkRow.withStatus status failureLog)
    fun _ => rfl⟩

def World.watermark? (w : World) (address : String) : Option WatermarkRow :=
  w.database.store.watermarks.find? address

/-- While the store reports no failure, the watermark is moved to the end of the successful part of a chunk, if its slot
fits. -/
theorem Crawler.moveWatermark_of_quiet (c : Crawler) (first : Option String) (infos : List SignatureInfo) (count : Nat)
    {w : World} (hquiet : w.database.Quiet)
    (hslot : ∀ newest ∈ (infos.take count).getLast?, Session.fitsColumn newest.slot = true) :
    ∃ w', (c.moveWatermark first infos count).outcome w = (.ok (), w') ∧ w.Proceeds w' ∧
      w'.database.store.tables = w.database.store.tables ∧ w'.watermark? c.address =
        match (infos.take count).getLast? with
        | none => w.watermark? c.address
        | some newest => (w.watermark? c.address).map fun row =>
          (row.moveTo newest.signature newest.slot).beginAt (firstOf newest.signature first) := by
  rw [moveWatermark]
  cases hnewest : (infos.take count).getLast? with
  | none => exact ⟨w, rfl, .of_quiet hquiet, rfl, rfl⟩
  | some newest =>
    obtain ⟨moved, s', hrun, hfind, -⟩ := Session.find?_advanceWatermark c.address newest.signature first
      w.database.store (hslot newest hnewest)
    exact ⟨w.afterSession s', Attempt.outcome_bind_of_ok (World.outcome_session_of_quiet hquiet hrun) _,
      ⟨rfl, hquiet.tail s', fun _ => rfl⟩, Session.tables_advanceWatermark hrun, hfind⟩

/-- The watermark is moved to the end of the successful part of a chunk. -/
theorem Crawler.moveWatermark_of_answers (c : Crawler) (first : Option String) (count : Nat) {w : World}
    {txs : List LedgerTransaction} (hw : w.Answers) (hslots : ∀ tx ∈ txs, Session.fitsColumn tx.slot = true) :
    ∃ w', (c.moveWatermark first (txs.map (·.info)) count).outcome w = (.ok (), w') ∧ w.Proceeds w' ∧
      w.Adds c.address w' ∧ w'.watermark? c.address =
        match (txs.take count).getLast? with
        | none => w.watermark? c.address
        | some newest => (w.watermark? c.address).map fun row =>
          (row.moveTo newest.signature newest.slot).beginAt (firstOf newest.signature first) := by
  have hnewest : ((txs.map (·.info)).take count).getLast? = (txs.take count).getLast?.map (·.info) := by
    rw [← List.map_take, List.getLast?_map]
  obtain ⟨w', ho, hproceeds, htables, hmoved⟩ :=
    c.moveWatermark_of_quiet first (txs.map (·.info)) count hw.quiet fun newest hmem => by
      rw [hnewest] at hmem
      obtain ⟨tx, htx, rfl⟩ := Option.map_eq_some_iff.mp hmem
      exact hslots tx (List.mem_of_mem_take (List.mem_of_getLast? htx))
  refine ⟨w', ho, hproceeds, .of_tables hproceeds.ledger htables, ?_⟩
  rw [hmoved, hnewest]
  cases (txs.take count).getLast? <;> rfl

/-! ## Chunks -/

namespace Crawler

variable {w : World} {txs : List LedgerTransaction}

theorem Ready.of_proceeds {c : Crawler} {w' : World} (h : c.Ready w txs) (hproceeds : w.Proceeds w') : c.Ready w' txs := by
  rw [Ready, hproceeds.ledger]
  exact h

/-- A chunk is ingested to its end, and the watermark is moved to the end of its successful part if it is to be moved. -/
theorem processChunk_of_answers (c : Crawler) (first : Option String) (advance : Bool) (hw : w.Answers)
    (htxs : c.Ready w txs) :
    ∃ w', (c.processChunk first advance (txs.map (·.info))).outcome w =
        (.ok (txs.map (w.ledger.processes c.address)), w') ∧ w.Proceeds w' ∧ w.Adds c.address w' ∧
      (∀ tx ∈ txs, w.ledger.gives tx = true → Recorded c.address tx w'.database.store) ∧
      w'.watermark? c.address = if advance then
        match (txs.take (successPrefix (txs.map (w.ledger.processes c.address)))).getLast? with
        | none => w.watermark? c.address
        | some newest => (w.watermark? c.address).map fun row =>
          (row.moveTo newest.signature newest.slot).beginAt (firstOf newest.signature first)
      else w.watermark? c.address := by
  have hext := (c.outcome_ingestChunk (fun tx htx => RecordedLedger.mem_of_mem_historyOf (htxs tx htx).1) hw.distinct).1
  obtain ⟨w₁, ho, hproceeds, hadds, hrecorded⟩ := c.ingestChunk_of_answers hw htxs
  rw [ho] at hext
  have hsame : w₁.watermark? c.address = w.watermark? c.address := by rw [World.watermark?, hext.watermarks]; rfl
  rw [processChunk, Attempt.outcome_bind_of_ok ho]
  cases advance with
  | false => exact ⟨w₁, rfl, hproceeds, hadds, hrecorded, hsame⟩
  | true =>
    obtain ⟨w₂, hmove, hproceeds', hadds', hmoved⟩ := c.moveWatermark_of_answers first
      (successPrefix (txs.map (w.ledger.processes c.address))) (hw.of_proceeds hproceeds) fun tx htx => (htxs tx htx).2.2
    rw [hsame] at hmoved
    simp only [if_true]
    rw [Attempt.outcome_bind_of_ok hmove]
    exact ⟨w₂, rfl, hproceeds.trans hproceeds', hadds.trans hadds',
      fun tx htx hgives => (hrecorded tx htx hgives).of_adds hadds', hmoved⟩

end Crawler
end PairIndex
