import PairIndex.Proofs.Crawl.Safety

/-! What a crawl writes. Whatever fails on the way, it adds commits of what it makes of the transactions of the history
(`LedgerTransaction.crawled?`) and moves the watermark of its address on (`WatermarkRow.Advances`), and it does nothing
else (`World.Crawls`). -/

namespace PairIndex

/-! ## Commits and watermarks of a crawl -/

/-- The store without its watermarks. -/
def Store.tables (s : Store) : Store :=
  { s with watermarks := .empty }

theorem Commit.tables_applyAll (cs : List Commit) (s : Store) : (applyAll cs s).tables = applyAll cs s.tables := by
  induction cs generalizing s with
  | nil => rfl
  | cons c cs ih => exact ih (c.apply s)

/-- A commit of what a crawl of an address makes of a transaction of a history. -/
def Commit.CrawledFrom (address : String) (history : List LedgerTransaction) (c : Commit) : Prop :=
  ∃ tx ∈ history, ∃ d, tx.crawled? address = some d ∧ c ∈ d.commits

/-- A watermark was moved on by a crawl whose oldest signature is the given one. -/
inductive WatermarkRow.Advances (first : Option String) : WatermarkRow → WatermarkRow → Prop where
  | refl (row : WatermarkRow) : Advances first row row
  | step {row row' : WatermarkRow} (signature : String) (slot : Int) : Advances first row row' →
      Advances first row ((row'.moveTo signature slot).beginAt (firstOf signature first))

theorem WatermarkRow.Advances.trans {first : Option String} {row row' row'' : WatermarkRow}
    (h : row.Advances first row') (h' : row'.Advances first row'') : row.Advances first row'' := by
  induction h' with
  | refl => exact h
  | step signature slot _ ih => exact .step signature slot ih

/-- A later world with the same ledger, in whose store there are more commits of what a crawl of an address makes of its
history. -/
structure World.Adds (address : String) (w w' : World) : Prop where
  ledger : w'.ledger = w.ledger
  commits : ∃ cs, w'.database.store.tables = Commit.applyAll cs w.database.store.tables ∧
    ∀ c ∈ cs, c.CrawledFrom address (w.ledger.historyOf address)

/-- A later world that the processing of a crawl may leave: the watermark of its address was moved on as well. -/
structure World.Crawls (address : String) (first : Option String) (w w' : World) : Prop extends
    World.Adds address w w' where
  rows : ∀ row' ∈ w'.database.store.watermarks.rows, ∃ row ∈ w.database.store.watermarks.rows,
    row'.account = row.account ∧ row.Advances first row' ∧ (row.account ≠ address → row' = row)

namespace World.Adds

variable {address : String} {w w' w'' : World}

theorem of_tables (hledger : w'.ledger = w.ledger) (htables : w'.database.store.tables = w.database.store.tables) :
    w.Adds address w' :=
  ⟨hledger, [], htables, fun _ hc => nomatch hc⟩

theorem trans (h : w.Adds address w') (h' : w'.Adds address w'') : w.Adds address w'' := by
  obtain ⟨hledger, cs, hstore, hcs⟩ := h
  obtain ⟨hledger', ds, hstore', hds⟩ := h'
  refine ⟨hledger'.trans hledger, cs ++ ds, ?_, fun c hc => ?_⟩
  · rw [hstore', hstore, Commit.applyAll_append]
  · rcases List.mem_append.mp hc with hc | hc
    · exact hcs c hc
    · exact hledger ▸ hds c hc

theorem isSome_transactions (h : w.Adds address w') {signature : String}
    (hstored : (w.database.store.transactions.find? signature).isSome) :
    (w'.database.store.transactions.find? signature).isSome := by
  obtain ⟨-, cs, hstore, -⟩ := h
  have htables : (w'.database.store.tables.transactions.find? signature).isSome := by
    rw [hstore]
    exact Commit.isSome_transactions_applyAll cs hstored
  exact htables

theorem isSome_details (h : w.Adds address w') {k : String × Int}
    (hstored : (w.database.store.details.find? k).isSome) : (w'.database.store.details.find? k).isSome := by
  obtain ⟨-, cs, hstore, -⟩ := h
  have htables : (w'.database.store.tables.details.find? k).isSome := by
    rw [hstore]
    exact Commit.isSome_details_applyAll cs hstored
  exact htables

end World.Adds

/-- What is stored stays stored while a crawl goes on. -/
theorem Stored.of_adds {address address' : String} {tx : LedgerTransaction} {w w' : World}
    (h : Stored address tx w.database.store) (hadds : w.Adds address' w') : Stored address tx w'.database.store :=
  ⟨hadds.isSome_transactions h.1, fun hfailed e he => hadds.isSome_details (h.2 hfailed e he)⟩

namespace World.Crawls

variable {address : String} {first : Option String} {w w' w'' : World}

theorem of_watermarks (hadds : w.Adds address w')
    (hwatermarks : w'.database.store.watermarks = w.database.store.watermarks) : w.Crawls address first w' :=
  ⟨hadds, fun row hrow => ⟨row, hwatermarks ▸ hrow, rfl, .refl row, fun _ => rfl⟩⟩

theorem of_store (hledger : w'.ledger = w.ledger) (hstore : w'.database.store = w.database.store) :
    w.Crawls address first w' :=
  of_watermarks (.of_tables hledger (congrArg Store.tables hstore)) (congrArg Store.watermarks hstore)

theorem of_alike (h : w.Alike w') : w.Crawls address first w' :=
  of_store h.ledger (congrArg Database.store h.database)

theorem trans (h : w.Crawls address first w') (h' : w'.Crawls address first w'') : w.Crawls address first w'' := by
  refine ⟨h.toAdds.trans h'.toAdds, fun row'' hrow'' => ?_⟩
  obtain ⟨row', hrow', haccount', hadvances', hother'⟩ := h'.rows row'' hrow''
  obtain ⟨row, hrow, haccount, hadvances, hother⟩ := h.rows row' hrow'
  refine ⟨row, hrow, haccount'.trans haccount, hadvances.trans hadvances', fun hne => ?_⟩
  rw [hother' (haccount ▸ hne), hother hne]

end World.Crawls

/-! ## Sessions -/

/-- What is left of the failures that the store reports after one more session. -/
def World.afterSession (w : World) (s : Store) : World :=
  { w with database := { store := s, outlook := w.database.outlook.tail } }

/-- A session runs if the store reports no failure, and changes nothing if it fails. -/
theorem World.outcome_session_eq {α : Type} (session : Session α) (w : World) :
    (World.session session).outcome w =
      match nextFault w.database.outlook with
      | some failure => (.error failure, w.afterSession w.database.store)
      | none =>
        match session.run w.database.store with
        | .ok (a, s) => (.ok a, w.afterSession s)
        | .error failure => (.error failure, w.afterSession w.database.store) := by
  have houtcome : (World.session session).outcome w =
      ((Database.transact session w.database).1, { w with database := (Database.transact session w.database).2 }) := rfl
  rw [houtcome]
  unfold Database.transact nextFault
  cases w.database.outlook.head?.join with
  | some failure => rfl
  | none =>
    cases session.run w.database.store with
    | error failure => rfl
    | ok result => rfl

theorem Session.tables_advanceWatermark {account signature : String} {slot : Int} {first : Option String}
    {s s' : Store} {moved : Bool} (h : (advanceWatermark account signature slot first).run s = .ok (moved, s')) :
    s'.tables = s.tables := by
  unfold advanceWatermark checkColumn at h
  by_cases hfits : fitsColumn slot = true
  · rw [if_pos hfits, pure_bind] at h
    cases h
    rfl
  · rw [if_neg hfits] at h
    cases h

namespace Crawler

variable {w : World} {first : Option String}

theorem crawls_advanceWatermark (address signature : String) (slot : Int) (first : Option String) (w : World) :
    w.Crawls address first
      ((World.session (Session.advanceWatermark address signature slot first)).outcome w).2 := by
  have hsame : w.Crawls address first (w.afterSession w.database.store) := .of_store rfl rfl
  rw [World.outcome_session_eq]
  cases nextFault w.database.outlook with
  | some failure => exact hsame
  | none =>
    rcases hrun : (Session.advanceWatermark address signature slot first).run w.database.store with
      failure | ⟨moved, s⟩
    · exact hsame
    · refine ⟨.of_tables rfl (Session.tables_advanceWatermark hrun), fun row' hrow' => ?_⟩
      obtain ⟨row, hrow, haccount, heq⟩ := (Session.run_advanceWatermark hrun).2.2 row' hrow'
      refine ⟨row, hrow, haccount, ?_, fun hne => by rw [heq, if_neg hne]⟩
      by_cases hsame : row.account = address
      · rw [heq, if_pos hsame]
        exact .step signature slot (.refl row)
      · rw [heq, if_neg hsame]
        exact .refl row

theorem crawls_ingestChunk (c : Crawler) (first : Option String) {txs : List LedgerTransaction}
    (htxs : ∀ tx ∈ txs, tx ∈ w.ledger.historyOf c.address) (hdistinct : (w.ledger.history.map (·.signature)).Nodup) :
    w.Crawls c.address first ((c.ingestChunk (txs.map (·.info))).outcome w).2 := by
  obtain ⟨outcomes, w', ho, hledger, -, made, hstore, hmade, -⟩ := c.commits_ingestChunk (txs.map (·.info)) w
  rw [ho]
  refine .of_watermarks ⟨hledger, made, ?_, fun x hx => ?_⟩ ?_
  · rw [hstore, Commit.tables_applyAll]
  · obtain ⟨info, hinfo, d, hd, hx⟩ := hmade x hx
    obtain ⟨tx, htx, rfl⟩ := List.mem_map.mp hinfo
    have hknown := RecordedLedger.mem_of_mem_historyOf (htxs tx htx)
    exact ⟨tx, htxs tx htx, d, RecordedLedger.crawled_of_prepared hknown hdistinct hd, hx⟩
  · rw [hstore, Commit.watermarks_applyAll]

theorem crawls_moveWatermark (c : Crawler) (first : Option String) (chunk : List SignatureInfo) (count : Nat)
    (w : World) : w.Crawls c.address first ((c.moveWatermark first chunk count).outcome w).2 := by
  rw [moveWatermark]
  cases (chunk.take count).getLast? with
  | none => exact .of_alike (.refl w)
  | some newest =>
    simp only [Attempt.outcome_bind_pure_snd]
    exact crawls_advanceWatermark c.address newest.signature newest.slot first w

theorem crawls_processChunk (c : Crawler) (first : Option String) (advance : Bool) {txs : List LedgerTransaction}
    (htxs : ∀ tx ∈ txs, tx ∈ w.ledger.historyOf c.address) (hdistinct : (w.ledger.history.map (·.signature)).Nodup) :
    w.Crawls c.address first ((c.processChunk first advance (txs.map (·.info))).outcome w).2 := by
  have hcrawls := c.crawls_ingestChunk first htxs hdistinct
  rw [processChunk]
  rcases hingest : (c.ingestChunk (txs.map (·.info))).outcome w with ⟨failure | oks, w'⟩
  · rw [hingest] at hcrawls
    rw [Attempt.outcome_bind_of_error hingest]
    exact hcrawls
  · rw [hingest] at hcrawls
    rw [Attempt.outcome_bind_of_ok hingest]
    cases advance with
    | false => exact hcrawls
    | true =>
      simp only [if_true]
      rw [Attempt.outcome_bind_pure_snd]
      exact hcrawls.trans (c.crawls_moveWatermark first _ _ w')

/-- What every chunk keeps, processing all chunks keeps. -/
theorem processChunks_induction (c : Crawler) {P : World → Prop} {first : Option String} {txs : List LedgerTransaction}
    (hchunk : ∀ w advance (front : List LedgerTransaction), P w → (∀ tx ∈ front, tx ∈ txs) →
      P ((c.processChunk first advance (front.map (·.info))).outcome w).2) (advance : Bool)
    {chunks : List (List SignatureInfo)} (hchunks : chunks.flatten = txs.map (·.info)) (h : P w) :
    P ((c.processChunks first advance chunks).outcome w).2 := by
  induction chunks generalizing w advance txs with
  | nil => exact h
  | cons chunk chunks ih =>
    rw [processChunks_cons]
    by_cases hstopped : w.stopped = true
    · rw [if_pos hstopped]
      exact h
    · rw [if_neg hstopped]
      obtain ⟨front, rest, rfl, rfl, hrest⟩ := List.append_eq_map_iff.mp (List.flatten_cons ▸ hchunks)
      have hkept := hchunk w advance front h fun tx htx => List.mem_append_left _ htx
      rcases ho : (c.processChunk first advance (front.map (·.info))).outcome w with ⟨failure | oks, w'⟩
      · rw [ho] at hkept
        rw [Attempt.outcome_bind_of_error ho]
        exact hkept
      · rw [ho] at hkept
        rw [Attempt.outcome_bind_of_ok ho, Attempt.outcome_bind_pure_snd]
        exact ih (fun w advance front h hfront => hchunk w advance front h fun tx htx =>
          List.mem_append_right _ (hfront tx htx)) _ hrest.symm hkept

/-- What every chunk keeps, processing as a whole keeps. -/
theorem processAll_induction (c : Crawler) {P : World → Prop} {txs : List LedgerTransaction}
    (hchunk : ∀ w advance (front : List LedgerTransaction), P w → (∀ tx ∈ front, tx ∈ txs) →
      P ((c.processChunk (txs.head?.map (·.signature)) advance (front.map (·.info))).outcome w).2) (batchSize : Int)
    (advance : Bool) (h : P w) : P ((c.processAll (txs.map (·.info)) batchSize advance).outcome w).2 := by
  rw [processAll]
  by_cases hzero : batchSize = 0
  · rw [if_pos hzero]
    exact h
  · rw [if_neg hzero]
    by_cases hsize : 0 < batchSize.toNat
    · have hfirst : (txs.map (·.info)).head?.map (·.signature) = txs.head?.map (·.signature) := by
        rw [List.head?_map, Option.map_map]
        rfl
      rw [hfirst]
      exact c.processChunks_induction hchunk advance (flatten_chunksOf hsize _) h
    · rw [chunksOf, dif_neg fun h => hsize h.1]
      exact h

theorem crawls_processChunks (c : Crawler) (first : Option String) (advance : Bool)
    {chunks : List (List SignatureInfo)} {txs : List LedgerTransaction} (hchunks : chunks.flatten = txs.map (·.info))
    (htxs : ∀ tx ∈ txs, tx ∈ w.ledger.historyOf c.address) (hdistinct : (w.ledger.history.map (·.signature)).Nodup) :
    w.Crawls c.address first ((c.processChunks first advance chunks).outcome w).2 := by
  refine c.processChunks_induction (P := w.Crawls c.address first) (fun w' advance front hcrawls hfront => ?_) advance
    hchunks (.of_alike (.refl w))
  have hledger := hcrawls.ledger
  exact hcrawls.trans (c.crawls_processChunk first advance (fun tx htx => hledger ▸ htxs tx (hfront tx htx))
    (hledger ▸ hdistinct))

/-- Processing a piece of the history adds commits of it and moves the watermark on. -/
theorem crawls_processAll (c : Crawler) {piece : List LedgerTransaction} (batchSize : Int) (advance : Bool)
    (hpiece : ∀ tx ∈ piece, tx ∈ w.ledger.historyOf c.address) (hdistinct : (w.ledger.history.map (·.signature)).Nodup) :
    w.Crawls c.address (piece.head?.map (·.signature))
      ((c.processAll (piece.map (·.info)) batchSize advance).outcome w).2 := by
  refine c.processAll_induction (P := w.Crawls c.address _) (fun w' advance front hcrawls hfront => ?_) batchSize advance
    (.of_alike (.refl w))
  have hledger := hcrawls.ledger
  exact hcrawls.trans (c.crawls_processChunk _ advance (fun tx htx => hledger ▸ hpiece tx (hfront tx htx))
    (hledger ▸ hdistinct))

end Crawler
end PairIndex
