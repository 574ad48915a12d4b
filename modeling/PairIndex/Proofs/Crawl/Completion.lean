import PairIndex.Proofs.Crawl.Resume

/-! Crawls that come to an end. While the store reports no failure and the ledger fails for the time being at most, a
crawl comes to a result whatever its transactions hold, as long as the calendar has their block times: a transaction
that is bad is counted as failed, and all the others are stored. One block time outside the calendar ends a crawl
instead (`Crawler.completes_iff`). -/

namespace PairIndex

/-- The calendar, which has the years from 1 to 9999, has the block time of a transaction, if it has one. -/
def LedgerTransaction.Dated (tx : LedgerTransaction) : Prop :=
  ∀ seconds ∈ tx.blockTime, -62135596800 ≤ seconds ∧ seconds ≤ 253402300799

instance (tx : LedgerTransaction) : Decidable tx.Dated :=
  inferInstanceAs (Decidable (∀ seconds ∈ tx.blockTime, -62135596800 ≤ seconds ∧ seconds ≤ 253402300799))

theorem LedgerTransaction.dated_iff {tx : LedgerTransaction} (address : String) :
    tx.Dated ↔ (tx.crawled? address).isSome := by
  rw [Dated, crawled?, Option.isSome_map]
  cases tx.blockTime with
  | none => exact iff_of_true (fun _ h => absurd h (Option.not_mem_none _)) rfl
  | some seconds =>
    rw [Option.mapM_some, Moment.ofSeconds?, Moment.ofSeconds]
    by_cases hrange : -62135596800 ≤ seconds ∧ seconds ≤ 253402300799 <;> simp [hrange, Except.toOption]

/-- The transactions, oldest first, that a crawl of an address collects within the bounds of its walk, if it walks at
all. -/
def RecordedLedger.Collects (l : RecordedLedger) (address : String) : Option WalkBounds → List LedgerTransaction → Prop
  | none, txs => txs = []
  | some b, txs => txs.Sublist (l.historyOf address) ∧ (b.scan (l.index address)).1.reverse = txs.map (·.info)

/-- A result that accounts for each of some transactions as processed or as failed, with all of it stored that fits if
the ledger gave it. -/
structure IngestResult.Covers (result : IngestResult) (address : String) (txs : List LedgerTransaction) (w w' : World) :
    Prop where
  processed : result.processed = txs.countP (w.ledger.processes address)
  failed : result.failed = txs.countP fun tx => !w.ledger.processes address tx
  recorded : ∀ tx ∈ txs, w.ledger.gives tx = true → Recorded address tx w'.database.store

/-- A switch by which asking for a page fails. -/
def LedgerSwitches.failsPages (switches : LedgerSwitches) : Prop :=
  switches.failPages = true ∨ switches.failPageAt.isSome = true

namespace Crawler

/-- Where a backfill walks. -/
def backfillBounds (c : Crawler) (r : BackfillRequest) (w : World) : WalkBounds :=
  { stopAt := if r.reprocess then none else (w.watermark? c.address).bind (·.latestSignature)
    fromSlot := r.fromSlot, toSlot := r.toSlot }

/-- Where a gap fill walks, if the watermark was moved before. -/
def gapBounds (c : Crawler) (w : World) : Option WalkBounds :=
  ((w.watermark? c.address).bind (·.latestSignature)).map fun latest => { stopAt := some latest }

/-- The batch size of a backfill. -/
def batchSizeOf (c : Crawler) (r : BackfillRequest) : Int :=
  if r.batchSize.getD 0 = 0 then c.batchSize else r.batchSize.getD 0

/-- A crawl comes to a result, which covers the first of the transactions that it collects. It covers all of them unless
a page of the index was not to be had, a stop was asked for, or the batches have a negative size. -/
def Completes (c : Crawler) (crawl : Attempt World IngestResult) (bounds : Option WalkBounds) (batchSize : Int)
    (w : World) : Prop :=
  ∃ result w' done rest, crawl.outcome w = (.ok result, w') ∧ w.ledger.Collects c.address bounds (done ++ rest) ∧
    result.Covers c.address done w w' ∧
    (rest = [] ∨ w.ledger.switches.failsPages ∨ w'.stopped = true ∨ batchSize < 0)

end Crawler

/-! ## What a crawl collects -/

theorem RecordedLedger.exists_collects (l : RecordedLedger) (address : String) (bounds : Option WalkBounds) :
    ∃ txs, l.Collects address bounds txs := by
  cases bounds with
  | none => exact ⟨[], rfl⟩
  | some b => exact l.exists_scanned address b

theorem RecordedLedger.Collects.subset {l : RecordedLedger} {address : String} {bounds : Option WalkBounds}
    {txs : List LedgerTransaction} (h : l.Collects address bounds txs) : ∀ tx ∈ txs, tx ∈ l.historyOf address := by
  cases bounds with
  | none =>
    intro tx htx
    rw [show txs = [] from h] at htx
    cases htx
  | some b => exact h.1.subset

theorem World.Answers.nodup_index {w : World} (h : w.Answers) (address : String) :
    ((w.ledger.index address).map (·.signature)).Nodup :=
  RecordedLedger.nodup_index (RecordedLedger.nodup_historyOf h.distinct address)

/-! ## Processing -/

namespace Crawler

variable {w : World} {txs : List LedgerTransaction}

/-- Chunks are processed one after another, to the last unless a stop is asked for. -/
theorem processChunks_of_answers (c : Crawler) (first : Option String) (advance : Bool)
    {chunks : List (List SignatureInfo)} (hw : w.Answers) (htxs : c.Ready w txs)
    (hchunks : chunks.flatten = txs.map (·.info)) :
    ∃ w' done rest, (c.processChunks first advance chunks).outcome w =
        (.ok (done.countP (w.ledger.processes c.address), done.countP fun tx => !w.ledger.processes c.address tx), w') ∧
      txs = done ++ rest ∧ (∀ tx ∈ done, w.ledger.gives tx = true → Recorded c.address tx w'.database.store) ∧
      w.Adds c.address w' ∧ (rest = [] ∨ w'.stopped = true) := by
  induction chunks generalizing w advance txs with
  | nil =>
    have hnil : txs = [] := List.map_eq_nil_iff.mp hchunks.symm
    exact ⟨w, [], [], rfl, hnil, List.forall_mem_nil _, .of_tables rfl rfl, .inl rfl⟩
  | cons chunk chunks ih =>
    rw [processChunks_cons]
    by_cases hstopped : w.stopped = true
    · rw [if_pos hstopped]
      exact ⟨w, [], txs, rfl, rfl, List.forall_mem_nil _, .of_tables rfl rfl, .inr hstopped⟩
    · rw [if_neg hstopped]
      obtain ⟨front, back, rfl, rfl, hback⟩ := List.append_eq_map_iff.mp (List.flatten_cons ▸ hchunks)
      have hfront : c.Ready w front := fun tx htx => htxs tx (List.mem_append_left _ htx)
      obtain ⟨w₁, ho, hproceeds, hadds, hrecorded, -⟩ := c.processChunk_of_answers first advance hw hfront
      have hready : c.Ready w₁ back := .of_proceeds (fun tx htx => htxs tx (List.mem_append_right _ htx)) hproceeds
      rw [Attempt.outcome_bind_of_ok ho]
      obtain ⟨w₂, done, rest, ho', rfl, hrecorded', hadds', hend⟩ := ih
        (advance && successPrefix (front.map (w.ledger.processes c.address)) == (front.map (·.info)).length)
        (hw.of_proceeds hproceeds) hready hback.symm
      rw [hproceeds.ledger] at ho' hrecorded'
      refine ⟨w₂, front ++ done, rest, ?_, (List.append_assoc ..).symm, fun tx htx hgives => ?_, hadds.trans hadds', hend⟩
      · rw [Attempt.outcome_bind_of_ok ho', List.length_map]
        simp only [Attempt.outcome_pure, countP_map_gives, List.countP_append, length_sub_countP]
      · rcases List.mem_append.mp htx with htx | htx
        · exact (hrecorded tx htx hgives).of_adds hadds'
        · exact hrecorded' tx htx hgives

/-- After a stop was asked for nothing more is processed. -/
theorem processAll_of_stopped (c : Crawler) (signatures : List SignatureInfo) {batchSize : Int} (advance : Bool)
    (hbatch : batchSize ≠ 0) (h : w.stopped = true) :
    (c.processAll signatures batchSize advance).outcome w = (.ok (0, 0), w) := by
  rw [processAll, if_neg hbatch]
  cases chunksOf batchSize.toNat signatures with
  | nil => rfl
  | cons chunk chunks => rw [processChunks_cons, if_pos h]

/-- What a walk collected is processed, to the last unless a stop is asked for or the batches have a negative size. -/
theorem processAll_of_answers (c : Crawler) {batchSize : Int} (advance : Bool) (hw : w.Answers) (htxs : c.Ready w txs)
    (hbatch : batchSize ≠ 0) :
    ∃ w' done rest, (c.processAll (txs.map (·.info)) batchSize advance).outcome w =
        (.ok (done.countP (w.ledger.processes c.address), done.countP fun tx => !w.ledger.processes c.address tx), w') ∧
      txs = done ++ rest ∧ (∀ tx ∈ done, w.ledger.gives tx = true → Recorded c.address tx w'.database.store) ∧
      (rest = [] ∨ w'.stopped = true ∨ batchSize < 0) := by
  rw [processAll, if_neg hbatch]
  by_cases hsize : 0 < batchSize.toNat
  · obtain ⟨w', done, rest, ho, hsplit, hrecorded, -, hend⟩ :=
      c.processChunks_of_answers _ advance hw htxs (flatten_chunksOf hsize _)
    exact ⟨w', done, rest, ho, hsplit, hrecorded, hend.imp_right .inl⟩
  · rw [chunksOf, dif_neg fun h => hsize h.1]
    refine ⟨w, [], txs, rfl, rfl, List.forall_mem_nil _, .inr (.inr ?_)⟩
    omega

end Crawler

/-! ## Crawls -/

namespace Crawler

variable {w w' : World} {crawl crawl' : Attempt World IngestResult} {bounds : Option WalkBounds} {batchSize : Int}

theorem Completes.of_outcome {c : Crawler} (h : c.Completes crawl' bounds batchSize w') (hledger : w'.ledger = w.ledger)
    (ho : crawl.outcome w = crawl'.outcome w') : c.Completes crawl bounds batchSize w := by
  obtain ⟨result, w'', done, rest, ho', hcollects, ⟨hprocessed, hfailed, hrecorded⟩, hend⟩ := h
  rw [hledger] at hcollects hprocessed hfailed hrecorded hend
  exact ⟨result, w'', done, rest, ho.trans ho', hcollects, ⟨hprocessed, hfailed, hrecorded⟩, hend⟩

/-- A crawl that processes nothing comes to a result, if there is a reason not to process anything. -/
theorem completes_of_nothing (c : Crawler) {result : IngestResult} (ho : crawl.outcome w = (.ok result, w'))
    (hprocessed : result.processed = 0) (hfailed : result.failed = 0)
    (hreason : w.ledger.Collects c.address bounds [] ∨ w.ledger.switches.failsPages ∨ w'.stopped = true) :
    c.Completes crawl bounds batchSize w := by
  have hcovers : result.Covers c.address [] w w' := ⟨hprocessed, hfailed, List.forall_mem_nil _⟩
  rcases hreason with hnone | hreason
  · exact ⟨result, w', [], [], ho, hnone, hcovers, .inl rfl⟩
  · obtain ⟨txs, hcollects⟩ := w.ledger.exists_collects c.address bounds
    exact ⟨result, w', [], txs, ho, hcollects, hcovers, .inr (hreason.imp_right .inl)⟩

theorem completes_processAll (c : Crawler) (what : String) {b : WalkBounds} {signatures : List SignatureInfo}
    (advance : Bool) (hw : w.Answers) (hready : c.Ready w (w.ledger.historyOf c.address)) (hbatch : batchSize ≠ 0)
    (hcollected : w.stopped = true ∨ signatures = (b.scan (w.ledger.index c.address)).1.reverse) :
    c.Completes (c.processAll signatures batchSize advance >>= fun counts => pure (c.completed what counts.1 counts.2))
      (some b) batchSize w := by
  rcases hcollected with hstopped | rfl
  · have ho := c.processAll_of_stopped signatures advance hbatch hstopped
    exact c.completes_of_nothing (Attempt.outcome_bind_of_ok ho _) rfl rfl (.inr (.inr hstopped))
  · obtain ⟨txs, hcollects⟩ := w.ledger.exists_collects c.address (some b)
    have htxs : c.Ready w txs := fun tx htx => hready tx (hcollects.subset tx htx)
    obtain ⟨w', done, rest, ho, rfl, hrecorded, hend⟩ := c.processAll_of_answers advance hw htxs hbatch
    rw [← hcollects.2] at ho
    exact ⟨_, w', done, rest, Attempt.outcome_bind_of_ok ho _, hcollects, ⟨rfl, rfl, hrecorded⟩,
      hend.imp_right fun h => .inr h⟩

/-- A walk that fails is a reason to give up, and otherwise a crawl goes on with what it collected. -/
theorem walk_of_answers (c : Crawler) (b : WalkBounds) (hw : w.Answers) :
    ∃ w', w'.Answers ∧ w'.ledger = w.ledger ∧
      (w.ledger.switches.failsPages ∧
          (c.paging.walk b).settle.outcome w = (.ok (.error RecordedLedger.pageTimeout), w') ∨
        ∃ walk, (c.paging.walk b).settle.outcome w = (.ok (.ok walk), w') ∧
          (w.ledger.switches.stopOnPage = none → w'.stopped = w.stopped) ∧
          (w'.stopped = true ∨ walk.signatures = (b.scan (w'.ledger.index c.address)).1.reverse)) := by
  obtain ⟨result, w', ho, halike, hgoing, hresult⟩ := c.paging.outcome_walk_of_history b hw.pages (hw.nodup_index c.address)
  have hsettle := Attempt.outcome_settle_of_eq ho
  have hanswers : w'.Answers := by
    obtain ⟨hdistinct, hpages, hfatal, hquiet⟩ := hw
    rw [← halike.ledger] at hdistinct hpages hfatal
    rw [← halike.database] at hquiet
    exact ⟨hdistinct, hpages, hfatal, hquiet⟩
  refine ⟨w', hanswers, halike.ledger, ?_⟩
  rcases hresult with ⟨hfails, rfl⟩ | ⟨walk, rfl, hcollected⟩
  · exact .inl ⟨hfails, hsettle⟩
  · refine .inr ⟨walk, hsettle, hgoing, ?_⟩
    rw [halike.ledger]
    exact hcollected.imp_right And.left

/-- A backfill opens the watermark of its address and walks. -/
theorem outcome_backfill (c : Crawler) (r : BackfillRequest) (hw : w.Answers) :
    ∃ (s : Store) (advance : Walk → Bool), (c.backfill r).outcome w = Attempt.outcome (do
      match ← (c.paging.walk (c.backfillBounds r w)).settle with
      | .error failure =>
        if failure.isTransient then
          return { message := "Backfill aborted for " ++ c.address, error := some failure.message }
        else throw failure
      | .ok walk =>
        let (processed, failed) ← c.processAll walk.signatures (c.batchSizeOf r) (advance walk)
        return c.completed "Backfill" processed failed) (w.afterSession s) := by
  obtain ⟨row, s, hrun, -, -, hrow⟩ := Session.find?_openWatermark c.address c.description w.database.store
  have hopen := World.outcome_session_of_quiet hw.quiet hrun
  have hlatest : (w.watermark? c.address).bind (·.latestSignature) = row.latestSignature := by
    rw [World.watermark?, hrow]
    cases w.database.store.watermarks.find? c.address <;> rfl
  refine ⟨s, fun walk => walk.connected || row.latestSignature.isNone ||
    r.fromSlot.any fun slot => decide (slot ≤ row.checkedUpToSlot), ?_⟩
  rw [backfill, Attempt.outcome_bind_of_ok hopen, backfillBounds, hlatest]
  rfl

/-- If the calendar has all block times, backfills come to a result. -/
theorem completes_backfill (c : Crawler) (r : BackfillRequest) (hw : w.Answers) (hready : c.Ready w (w.ledger.historyOf c.address))
    (hbatch : c.batchSize ≠ 0) : c.Completes (c.backfill r) (some (c.backfillBounds r w)) (c.batchSizeOf r) w := by
  have hsize : c.batchSizeOf r ≠ 0 := by
    rw [batchSizeOf]
    split
    · exact hbatch
    · assumption
  obtain ⟨s, advance, ho⟩ := c.outcome_backfill r hw
  obtain ⟨w₁, hanswers, hledger, hwalk⟩ := c.walk_of_answers (c.backfillBounds r w) (hw.of_proceeds (hw.afterSession s))
  rcases hwalk with ⟨hfails, hwalk⟩ | ⟨walk, hwalk, -, hcollected⟩
  · exact c.completes_of_nothing (ho.trans (Attempt.outcome_bind_of_ok hwalk _)) rfl rfl (.inr (.inl hfails))
  · have hready₁ : c.Ready w₁ (w₁.ledger.historyOf c.address) := by
      rw [Ready, hledger]
      exact hready
    exact (c.completes_processAll "Backfill" (advance walk) hanswers hready₁ hsize hcollected).of_outcome hledger
      (ho.trans (Attempt.outcome_bind_of_ok hwalk _))

/-- If the calendar has all block times, gap fills come to a result. -/
theorem completes_gapFill (c : Crawler) (hw : w.Answers) (hready : c.Ready w (w.ledger.historyOf c.address))
    (hbatch : c.batchSize ≠ 0) : c.Completes c.gapFill (c.gapBounds w) c.batchSize w := by
  have hlook := World.outcome_watermark? c.address hw.quiet.nextFault
  cases hlatest : (w.watermark? c.address).bind (·.latestSignature) with
  | none =>
    have ho : c.gapFill.outcome w = (.ok { message := "No watermark for " ++ c.address ++ "; no gap fill needed" },
        w.afterSession w.database.store) := by
      rw [gapFill, Attempt.outcome_bind_of_ok hlook, hlatest]
      rfl
    rw [gapBounds, hlatest]
    exact c.completes_of_nothing ho rfl rfl (.inl rfl)
  | some latest =>
    rw [gapBounds, hlatest, Option.map_some]
    obtain ⟨w₁, hanswers, hledger, hwalk⟩ :=
      c.walk_of_answers { stopAt := some latest } (hw.of_proceeds (hw.afterSession w.database.store))
    rcases hwalk with ⟨hfails, hwalk⟩ | ⟨walk, hwalk, -, hcollected⟩
    · have ho : c.gapFill.outcome w = (.ok {
          message := "Gap fill aborted for " ++ c.address
          error := some RecordedLedger.pageTimeout.message }, w₁) := by
        rw [gapFill, Attempt.outcome_bind_of_ok hlook, hlatest]
        exact Attempt.outcome_bind_of_ok hwalk _
      exact c.completes_of_nothing ho rfl rfl (.inr (.inl hfails))
    · have hready₁ : c.Ready w₁ (w₁.ledger.historyOf c.address) := by
        rw [Ready, hledger]
        exact hready
      have ho : c.gapFill.outcome w = Attempt.outcome
          (if walk.signatures.isEmpty then pure { message := "No gap for " ++ c.address }
          else c.processAll walk.signatures c.batchSize walk.connected >>= fun counts =>
            pure (c.completed "Gap fill" counts.1 counts.2)) w₁ := by
        rw [gapFill, Attempt.outcome_bind_of_ok hlook, hlatest]
        exact Attempt.outcome_bind_of_ok hwalk _
      have hprocess := c.completes_processAll "Gap fill" walk.connected hanswers hready₁ hbatch hcollected
      cases hempty : walk.signatures.isEmpty with
      | false =>
        rw [if_neg (by simp [hempty])] at ho
        exact hprocess.of_outcome hledger ho
      | true =>
        rw [if_pos hempty] at ho
        refine c.completes_of_nothing ho rfl rfl ?_
        rcases hcollected with hstopped | hscan
        · exact .inr (.inr hstopped)
        · rw [List.isEmpty_iff.mp hempty, hledger] at hscan
          exact .inl ⟨List.nil_sublist _, hscan.symm⟩

/-! ## Block times outside the calendar -/

section Undated

variable {txs : List LedgerTransaction} {tx : LedgerTransaction}

/-- A transaction ends a crawl that gets hold of it, if the calendar lacks its block time. -/
theorem verdict_of_undated {address : String} (htx : tx ∈ w.ledger.history)
    (hdistinct : (w.ledger.history.map (·.signature)).Nodup) (hgives : w.ledger.gives tx = true)
    (hundated : tx.crawled? address = none) :
    ∃ failure, (Ingestion.waiting tx.info).verdict w.ledger address = .error failure := by
  rw [Ingestion.verdict, RecordedLedger.prepared_of_mem address htx hdistinct, Option.isNone_iff_eq_none.mp hgives]
  rcases tx.reading_cases address with ⟨d, hd, -⟩ | ⟨-, failure, hlasting, hread⟩
  · rw [hundated] at hd
    cases hd
  · exact ⟨failure, by simp [hread, Except.map, Ingestion.tolerated, hlasting]⟩

theorem ingestChunk_singleton_of_undated (c : Crawler) (hw : w.Answers) (htx : tx ∈ w.ledger.history)
    (hgives : w.ledger.gives tx = true) (hundated : tx.crawled? c.address = none) :
    ∃ failure w', (c.ingestChunk [tx.info]).outcome w = (.error failure, w') := by
  obtain ⟨failure, hverdict⟩ := verdict_of_undated htx hw.distinct hgives hundated
  obtain ⟨w', made, ho, -⟩ := c.ingestChunk_of_quiet [tx.info] hw.quiet
  rw [List.map_singleton, hverdict] at ho
  exact ⟨failure, w', ho⟩

/-- Processing transactions one by one goes through only if the calendar has the block times of all. -/
theorem crawled_of_processChunks (c : Crawler) (first : Option String) (advance : Bool) (hw : w.Answers)
    (htxs : ∀ tx ∈ txs, tx ∈ w.ledger.historyOf c.address ∧ Session.fitsColumn tx.slot = true)
    (hswitches : w.ledger.switches = {}) (hgoing : w.stopped = false) {counts : Nat × Nat}
    (h : ((c.processChunks first advance (txs.map fun tx => [tx.info])).outcome w).1 = .ok counts) :
    ∀ tx ∈ txs, (tx.crawled? c.address).isSome := by
  induction txs generalizing w advance counts with
  | nil => exact List.forall_mem_nil _
  | cons tx txs ih =>
    obtain ⟨hmem, hslot⟩ := htxs tx List.mem_cons_self
    rw [List.map_cons, processChunks_cons, hgoing] at h
    simp only [Bool.false_eq_true, if_false] at h
    cases hcrawled : tx.crawled? c.address with
    | none =>
      have hgives : w.ledger.gives tx = true := by
        simp [RecordedLedger.gives, RecordedLedger.heldBack?, RecordedLedger.fetchFailure?, hswitches]
      obtain ⟨failure, w₁, hchunk⟩ := c.ingestChunk_singleton_of_undated hw
        (RecordedLedger.mem_of_mem_historyOf hmem) hgives hcrawled
      rw [processChunk, bind_assoc, Attempt.outcome_bind_of_error hchunk] at h
      cases h
    | some d =>
      have hready : c.Ready w [tx] := by
        intro tx' htx'
        rw [List.mem_singleton.mp htx', hcrawled]
        exact ⟨hmem, rfl, hslot⟩
      obtain ⟨w₁, ho, hproceeds, -, -, -⟩ := c.processChunk_of_answers first advance hw hready
      have hledger := hproceeds.ledger
      have hnostop : w.ledger.switches.stopOnFetch = none := by rw [hswitches]
      rw [List.map_singleton, List.map_singleton] at ho
      rw [Attempt.outcome_bind_of_ok ho, Attempt.outcome_bind] at h
      refine List.forall_mem_cons.mpr ⟨by rw [hcrawled]; rfl, ?_⟩
      split at h
      · rename_i counts' w₂ hrest
        refine ih _ (hw.of_proceeds hproceeds) ?_ (hledger ▸ hswitches) ?_ (congrArg Prod.fst hrest)
        · intro tx' htx'
          rw [hledger]
          exact htxs tx' (List.mem_cons_of_mem _ htx')
        · rw [hproceeds.goingOn hnostop, hgoing]
      · cases h

theorem chunksOf_one {α : Type} (items : List α) : chunksOf 1 items = items.map fun item => [item] := by
  induction items with
  | nil => rw [chunksOf, dif_neg (by simp), List.map_nil]
  | cons item items ih =>
    rw [chunksOf, dif_pos ⟨Nat.one_pos, List.cons_ne_nil item items⟩, List.map_cons, ← ih]
    rfl

end Undated

end Crawler

/-- A world before its first crawl, in which nothing goes wrong. -/
def World.telling (history : List LedgerTransaction) : World where
  ledger := { history }

theorem World.answers_telling {history : List LedgerTransaction} (hdistinct : (history.map (·.signature)).Nodup) :
    (World.telling history).Answers :=
  ⟨hdistinct, rfl, rfl, nofun⟩

namespace Crawler

variable {history : List LedgerTransaction} {result : IngestResult}

/-- A first backfill in which nothing goes wrong processes all of the history. -/
theorem outcome_backfill_telling (c : Crawler) (batchSize : Option Int)
    (hdistinct : (history.map (·.signature)).Nodup) :
    ∃ w advance, w.Answers ∧ w.ledger = { history } ∧ w.stopped = false ∧
      (c.backfill { batchSize }).outcome (World.telling history) = Attempt.outcome
        (c.processAll (history.map (·.info)) (c.batchSizeOf { batchSize }) advance >>= fun counts =>
          pure (c.completed "Backfill" counts.1 counts.2)) w := by
  have hw := World.answers_telling hdistinct
  have hbounds : c.backfillBounds { batchSize } (World.telling history) = { stopAt := none } := rfl
  obtain ⟨s, advance, ho⟩ := c.outcome_backfill { batchSize } hw
  obtain ⟨w, hanswers, hledger, ⟨hfails, -⟩ | ⟨walk, hwalk, hgoing, hcollected⟩⟩ := c.walk_of_answers
    (c.backfillBounds { batchSize } (World.telling history)) (hw.of_proceeds (hw.afterSession s))
  · rcases hfails with hfails | hfails <;> cases hfails
  · have hgoing : w.stopped = false := hgoing rfl
    have hledger : w.ledger = { history } := hledger
    have hall : walk.signatures = history.map (·.info) := by
      rcases hcollected with hstopped | hscan
      · rw [hgoing] at hstopped
        cases hstopped
      · have hkept := (WalkBounds.scan_of_stopAt none (w.ledger.index c.address) [] (fun _ _ => nofun) rfl).1
        have hlisted : ({ history } : RecordedLedger).historyOf c.address = history :=
          RecordedLedger.historyOf_of_lists fun _ => rfl
        rw [List.append_nil] at hkept
        rw [hscan, hbounds, hkept, hledger, RecordedLedger.index, hlisted]
        exact List.reverse_reverse _
    refine ⟨w, advance walk, hanswers, hledger, hgoing, ?_⟩
    rw [ho, Attempt.outcome_bind_of_ok hwalk]
    simp only [hall]

/-- A first backfill in batches of one comes to a result only if the calendar has all block times, even if nothing else
goes wrong. -/
theorem dated_of_backfill (c : Crawler) (hdistinct : (history.map (·.signature)).Nodup)
    (hslots : ∀ tx ∈ history, Session.fitsColumn tx.slot = true)
    (h : ((c.backfill { batchSize := some 1 }).outcome (World.telling history)).1 = .ok result) :
    ∀ tx ∈ history, tx.Dated := by
  obtain ⟨w, advance, hanswers, hledger, hgoing, ho⟩ := c.outcome_backfill_telling (some 1) hdistinct
  have hsingle : c.processAll (history.map (·.info)) (c.batchSizeOf { batchSize := some 1 }) advance =
      c.processChunks ((history.map (·.info)).head?.map (·.signature)) advance (history.map fun tx => [tx.info]) := by
    have hchunks := chunksOf_one (history.map (·.info))
    rw [List.map_map] at hchunks
    exact congrArg (c.processChunks _ advance) hchunks
  rw [ho, hsingle, Attempt.outcome_bind] at h
  split at h
  · rename_i counts w' hprocess
    intro tx htx
    refine (LedgerTransaction.dated_iff c.address).mpr ?_
    refine c.crawled_of_processChunks _ advance hanswers ?_ ?_ hgoing (congrArg Prod.fst hprocess) tx htx
    · rw [hledger]
      exact fun tx htx => ⟨List.mem_filter.mpr ⟨htx, rfl⟩, hslots tx htx⟩
    · rw [hledger]
  · cases h

/-- No backfill without a batch size comes to a result. -/
theorem batchSize_ne_zero_of_backfill (c : Crawler) (hdistinct : (history.map (·.signature)).Nodup)
    (h : ((c.backfill {}).outcome (World.telling history)).1 = .ok result) : c.batchSize ≠ 0 := by
  intro hzero
  obtain ⟨w, advance, -, -, -, ho⟩ := c.outcome_backfill_telling none hdistinct
  have hsize : c.batchSizeOf { batchSize := none } = 0 := hzero
  rw [ho, hsize, processAll, if_pos rfl] at h
  cases h

/-- Crawls of an address with a given history come to a result whatever the ledger does, as long as it fails for the time
being at most, if and only if there is a batch size and the calendar has the block times of all transactions. -/
theorem completes_iff (c : Crawler) (hdistinct : (history.map (·.signature)).Nodup)
    (hslots : ∀ tx ∈ history, Session.fitsColumn tx.slot = true) :
    (∀ w : World, w.Answers → w.ledger.historyOf c.address = history →
      (∀ r, c.Completes (c.backfill r) (some (c.backfillBounds r w)) (c.batchSizeOf r) w) ∧
        c.Completes c.gapFill (c.gapBounds w) c.batchSize w) ↔
      c.batchSize ≠ 0 ∧ ∀ tx ∈ history, tx.Dated := by
  constructor
  · intro hcompletes
    obtain ⟨hbackfill, -⟩ := hcompletes (World.telling history) (World.answers_telling hdistinct)
      (RecordedLedger.historyOf_of_lists fun _ => rfl)
    obtain ⟨result, w, -, -, ho, -⟩ := hbackfill {}
    obtain ⟨result', w', -, -, ho', -⟩ := hbackfill { batchSize := some 1 }
    exact ⟨c.batchSize_ne_zero_of_backfill hdistinct (congrArg Prod.fst ho),
      c.dated_of_backfill hdistinct hslots (congrArg Prod.fst ho')⟩
  · rintro ⟨hbatch, hdated⟩ w hw hhistory
    have hready : c.Ready w (w.ledger.historyOf c.address) := by
      intro tx htx
      have hmem : tx ∈ history := hhistory ▸ htx
      exact ⟨htx, (LedgerTransaction.dated_iff c.address).mp (hdated tx hmem), hslots tx hmem⟩
    exact ⟨fun r => c.completes_backfill r hw hready hbatch, c.completes_gapFill hw hready hbatch⟩

def poolCrawler : Crawler where
  address := "pool"

/-- A transaction from a far future before one from the start of 1970. -/
def lateHistory : List LedgerTransaction :=
  [{ signature := "late", slot := 1, blockTime := some 1000000000000000 },
    { signature := "next", slot := 2, blockTime := some 0 }]

theorem completes_iff_lateHistory : (lateHistory.map (·.signature)).Nodup ∧
    (∀ tx ∈ lateHistory, Session.fitsColumn tx.slot = true) ∧
    ((∀ w : World, w.Answers → w.ledger.historyOf poolCrawler.address = lateHistory →
        (∀ r, poolCrawler.Completes (poolCrawler.backfill r) (some (poolCrawler.backfillBounds r w))
          (poolCrawler.batchSizeOf r) w) ∧
        poolCrawler.Completes poolCrawler.gapFill (poolCrawler.gapBounds w) poolCrawler.batchSize w) ↔
      poolCrawler.batchSize ≠ 0 ∧ ∀ tx ∈ lateHistory, tx.Dated) := by
  have hdistinct : (lateHistory.map (·.signature)).Nodup := by decide
  have hslots : ∀ tx ∈ lateHistory, Session.fitsColumn tx.slot = true := by decide
  exact ⟨hdistinct, hslots, poolCrawler.completes_iff hdistinct hslots⟩

/-- One block time outside the calendar ends a crawl. -/
theorem late_block_time_ends_crawl :
    ¬∀ (c : Crawler) (w : World) (r : BackfillRequest), c.batchSize ≠ 0 → w.Answers →
      (∀ tx ∈ w.ledger.history, Session.fitsColumn tx.slot = true) →
      ∃ result, ((c.backfill r).outcome w).1 = .ok result := by
  intro h
  have hdistinct : (lateHistory.map (·.signature)).Nodup := by decide
  have hslots : ∀ tx ∈ lateHistory, Session.fitsColumn tx.slot = true := by decide
  obtain ⟨result, ho⟩ := h poolCrawler (.telling lateHistory) { batchSize := some 1 } (by decide)
    (World.answers_telling hdistinct) hslots
  have hdated := dated_of_backfill poolCrawler hdistinct hslots ho
  have hlate : ¬∀ tx ∈ lateHistory, tx.Dated := by decide
  exact hlate hdated

end Crawler
end PairIndex
