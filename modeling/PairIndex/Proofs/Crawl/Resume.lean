import PairIndex.Proofs.Crawl.Calm

/-! Crawls in calm. A crawl without bounds takes up where the watermark stands: it walks down to there, processes what
is newer and leaves the watermark at the end of what was given before the first transaction that was held back
(`Crawler.backfill_of_calm`, `Crawler.gapFill_of_calm`). -/

namespace PairIndex

/-! ## Walks -/

/-- A scan for a signature keeps all that is newer. -/
theorem WalkBounds.scan_of_stopAt (stopAt : Option String) (newer rest : List SignatureInfo)
    (hnewer : ∀ info ∈ newer, stopAt ≠ some info.signature) (hrest : rest.head?.map (·.signature) = stopAt) :
    (WalkBounds.scan { stopAt } (newer ++ rest)).1 = newer ∧
      (WalkBounds.scan { stopAt } (newer ++ rest)).2 ≠ .belowFromSlot := by
  induction newer with
  | nil =>
    cases rest with
    | nil => exact ⟨rfl, nofun⟩
    | cons info rest =>
      have hstop : stopAt = some info.signature := hrest.symm
      rw [List.nil_append, scan_cons]
      simp only [if_pos hstop]
      exact ⟨trivial, nofun⟩
  | cons info newer ih =>
    obtain ⟨hkept, hending⟩ := ih fun x hx => hnewer x (List.mem_cons_of_mem _ hx)
    have hstop := hnewer info List.mem_cons_self
    rw [List.cons_append, scan_cons]
    simp only [if_neg hstop]
    exact ⟨congrArg (info :: ·) hkept, hending⟩

/-- A scan for the last of the transactions that were passed keeps those that were not. -/
theorem RecordedLedger.Sound.scan_index {l : RecordedLedger} (h : l.Sound) {address : String}
    {passed rest : List LedgerTransaction} (hhistory : l.historyOf address = passed ++ rest) {stopAt : Option String}
    (hstop : stopAt = passed.getLast?.map (·.signature)) :
    (WalkBounds.scan { stopAt } (l.index address)).1.reverse = rest.map (·.info) ∧
      (WalkBounds.scan { stopAt } (l.index address)).2 ≠ .belowFromSlot := by
  have hindex : l.index address = (rest.map (·.info)).reverse ++ (passed.map (·.info)).reverse := by
    rw [RecordedLedger.index, hhistory, List.map_append, List.reverse_append]
  have hnewer : ∀ info ∈ (rest.map (·.info)).reverse, stopAt ≠ some info.signature := by
    intro info hinfo hsome
    obtain ⟨tx, htx, rfl⟩ := List.mem_map.mp (List.mem_reverse.mp hinfo)
    obtain ⟨last, hlast, hsame⟩ := Option.map_eq_some_iff.mp (hstop.symm.trans hsome)
    have hdistinct := RecordedLedger.nodup_historyOf h.distinct address
    rw [hhistory, List.map_append, List.nodup_append] at hdistinct
    exact hdistinct.2.2 _ (List.mem_map_of_mem (List.mem_of_getLast? hlast)) _ (List.mem_map_of_mem htx) hsame
  have hrest : (passed.map (·.info)).reverse.head?.map (·.signature) = stopAt := by
    rw [hstop, List.head?_reverse, List.getLast?_map, Option.map_map]
    rfl
  obtain ⟨hkept, hending⟩ := WalkBounds.scan_of_stopAt stopAt _ _ hnewer hrest
  rw [hindex, hkept, List.reverse_reverse]
  exact ⟨rfl, hending⟩

/-- What a scan of an index keeps are transactions of the history that it lists, in their order. -/
theorem RecordedLedger.exists_scanned (l : RecordedLedger) (address : String) (b : WalkBounds) :
    ∃ piece : List LedgerTransaction, piece.Sublist (l.historyOf address) ∧
      (b.scan (l.index address)).1.reverse = piece.map (·.info) := by
  have hsublist := (b.scan_sublist (l.index address)).reverse
  rw [index, List.reverse_reverse] at hsublist
  exact List.sublist_map_iff.mp hsublist

/-! ## Crawls under failures -/

/-- The watermark that a crawl of an address opens, if it goes through. -/
theorem Session.find?_openWatermark (account description : String) (s : Store) :
    ∃ row s', (openWatermark account description).run s = .ok (row, s') ∧ s'.tables = s.tables ∧
      s'.watermarks.find? account = some row ∧ row = (s.watermarks.find? account).getD { account, description } := by
  have hfound := (Table.find?_insertNew s.watermarks { account, description } account).trans (if_pos rfl)
  refine ⟨_, _, rfl, rfl, ?_, ?_⟩
  · rw [hfound, Option.getD_some]
  · rw [hfound, Option.getD_some]

theorem World.outcome_watermark? (address : String) {w : World} (h : nextFault w.database.outlook = none) :
    (World.session (Session.watermark? address)).outcome w =
      (.ok (w.watermark? address), w.afterSession w.database.store) := by
  rw [World.outcome_session_eq, h]
  rfl

namespace Crawler

variable {w w' : World} {piece : List LedgerTransaction}

/-- What a walk collected is processed as a piece of the history, or not at all if a stop was asked for. -/
theorem processAll_of_walk (c : Crawler) {P : World → Prop} {b : WalkBounds} {walk : Walk} (batchSize : Int)
    (advance : Bool) (hsound : w.ledger.Sound) (hpiece : (b.scan (w.ledger.index c.address)).1.reverse = piece.map (·.info))
    (hwalk : (c.paging.walk b).outcome w = (.ok walk, w')) (hstop : P w')
    (hprocess : P ((c.processAll (piece.map (·.info)) batchSize advance).outcome w').2) :
    P ((c.processAll walk.signatures batchSize advance).outcome w').2 := by
  obtain ⟨-, hcollected⟩ := c.paging.outcome_walk b hsound.pages (hsound.nodup_index c.address)
  rw [hwalk] at hcollected
  rcases hcollected walk rfl with hstopped | ⟨hsignatures, -⟩
  · rw [c.outcome_processAll_of_stopped walk.signatures batchSize advance hstopped]
    exact hstop
  · rw [hsignatures.trans hpiece]
    exact hprocess

/-- What a backfill does to the world: it opens the watermark of its address or fails to, and processes the piece of the
history that it walks down, or stops before that. -/
theorem backfill_induction (c : Crawler) (r : BackfillRequest) {P : World → Prop} (hsound : w.ledger.Sound)
    (hpiece : ∀ row s, (Session.openWatermark c.address c.description).run w.database.store = .ok (row, s) →
      (WalkBounds.scan
        { stopAt := if r.reprocess then none else row.latestSignature, fromSlot := r.fromSlot, toSlot := r.toSlot }
        (w.ledger.index c.address)).1.reverse = piece.map (·.info))
    (hfail : P (w.afterSession w.database.store))
    (hstop : ∀ row s w', (Session.openWatermark c.address c.description).run w.database.store = .ok (row, s) →
      (w.afterSession s).Alike w' → P w')
    (hprocess : ∀ row s w' batchSize advance,
      (Session.openWatermark c.address c.description).run w.database.store = .ok (row, s) →
      (w.afterSession s).Alike w' → P ((c.processAll (piece.map (·.info)) batchSize advance).outcome w').2) :
    P ((c.backfill r).outcome w).2 := by
  rw [backfill]
  have hopen := World.outcome_session_eq (Session.openWatermark c.address c.description) w
  cases hfault : nextFault w.database.outlook with
  | some failure =>
    rw [hfault] at hopen
    rw [Attempt.outcome_bind_of_error hopen]
    exact hfail
  | none =>
    obtain ⟨row, s, hrun, -⟩ := Session.find?_openWatermark c.address c.description w.database.store
    rw [hfault, hrun] at hopen
    rw [Attempt.outcome_bind_of_ok hopen]
    refine c.walk_induction hsound (fun w' => hstop row s w' hrun) fun walk w' hwalk halike => ?_
    rw [Attempt.outcome_bind_pure_snd]
    exact c.processAll_of_walk (w := w.afterSession s) _ _ hsound (hpiece row s hrun) hwalk (hstop row s w' hrun halike)
      (hprocess row s w' _ _ hrun halike)

/-- What a gap fill does to the world: it processes the piece of the history that is newer than the watermark, if that
was moved before, or stops before that. -/
theorem gapFill_induction (c : Crawler) {P : World → Prop} (hsound : w.ledger.Sound)
    (hpiece : ∀ latest, (w.watermark? c.address).bind (·.latestSignature) = some latest →
      (WalkBounds.scan { stopAt := some latest } (w.ledger.index c.address)).1.reverse = piece.map (·.info))
    (hstop : ∀ w', (w.afterSession w.database.store).Alike w' → P w')
    (hprocess : ∀ w' batchSize advance, (w.afterSession w.database.store).Alike w' →
      P ((c.processAll (piece.map (·.info)) batchSize advance).outcome w').2) :
    P (c.gapFill.outcome w).2 := by
  rw [gapFill]
  cases hfault : nextFault w.database.outlook with
  | some failure =>
    have hlook := World.outcome_session_eq (Session.watermark? c.address) w
    rw [hfault] at hlook
    rw [Attempt.outcome_bind_of_error hlook]
    exact hstop _ (.refl _)
  | none =>
    rw [Attempt.outcome_bind_of_ok (World.outcome_watermark? c.address hfault)]
    cases hlatest : (w.watermark? c.address).bind (·.latestSignature) with
    | none => exact hstop _ (.refl _)
    | some latest =>
      refine c.walk_induction hsound hstop fun walk w' hwalk halike => ?_
      cases hempty : walk.signatures.isEmpty with
      | true => exact hstop w' halike
      | false =>
        simp only [Bool.false_eq_true, if_false]
        rw [Attempt.outcome_bind_pure_snd]
        exact c.processAll_of_walk (w := w.afterSession w.database.store) _ _ hsound (hpiece latest hlatest) hwalk
          (hstop w' halike) (hprocess w' _ _ halike)

theorem crawls_processAll_of_alike (c : Crawler) (batchSize : Int) (advance : Bool) (hsound : w.ledger.Sound)
    (hmem : ∀ tx ∈ piece, tx ∈ w.ledger.historyOf c.address) (halike : w.Alike w') :
    w.Crawls c.address (piece.head?.map (·.signature))
      ((c.processAll (piece.map (·.info)) batchSize advance).outcome w').2 :=
  (World.Crawls.of_alike halike).trans
    (c.crawls_processAll batchSize advance (halike.ledger ▸ hmem) (halike.ledger ▸ hsound.distinct))

/-- Whatever fails, a backfill opens the watermark of its address or fails to, and crawls the piece of the history that
it walks down. -/
theorem crawls_backfill (c : Crawler) (r : BackfillRequest) (hsound : w.ledger.Sound)
    (hmem : ∀ tx ∈ piece, tx ∈ w.ledger.historyOf c.address)
    (hpiece : ∀ row s, (Session.openWatermark c.address c.description).run w.database.store = .ok (row, s) →
      (WalkBounds.scan
        { stopAt := if r.reprocess then none else row.latestSignature, fromSlot := r.fromSlot, toSlot := r.toSlot }
        (w.ledger.index c.address)).1.reverse = piece.map (·.info)) :
    ∃ s, (s = w.database.store ∨
        ∃ row, (Session.openWatermark c.address c.description).run w.database.store = .ok (row, s)) ∧
      (w.afterSession s).Crawls c.address (piece.head?.map (·.signature)) ((c.backfill r).outcome w).2 := by
  refine c.backfill_induction r (P := fun w' => ∃ s, (s = w.database.store ∨
        ∃ row, (Session.openWatermark c.address c.description).run w.database.store = .ok (row, s)) ∧
      (w.afterSession s).Crawls c.address (piece.head?.map (·.signature)) w') hsound hpiece ?_ ?_ ?_
  · exact ⟨_, Or.inl rfl, .of_store rfl rfl⟩
  · intro row s w' hrun halike
    exact ⟨s, Or.inr ⟨row, hrun⟩, .of_alike halike⟩
  · intro row s w' batchSize advance hrun halike
    exact ⟨s, Or.inr ⟨row, hrun⟩, c.crawls_processAll_of_alike batchSize advance hsound hmem halike⟩

/-- Whatever fails, a gap fill crawls the piece of the history that is newer than the watermark, if that was moved
before. -/
theorem crawls_gapFill (c : Crawler) (hsound : w.ledger.Sound)
    (hmem : ∀ tx ∈ piece, tx ∈ w.ledger.historyOf c.address) (hpiece : ∀ latest, (w.watermark? c.address).bind (·.latestSignature) = some latest →
      (WalkBounds.scan { stopAt := some latest } (w.ledger.index c.address)).1.reverse = piece.map (·.info)) :
    w.Crawls c.address (piece.head?.map (·.signature)) (c.gapFill.outcome w).2 := by
  have hsame : w.Crawls c.address (piece.head?.map (·.signature)) (w.afterSession w.database.store) :=
    .of_store rfl rfl
  refine c.gapFill_induction (P := w.Crawls c.address (piece.head?.map (·.signature))) hsound hpiece
    (fun w' halike => hsame.trans (.of_alike halike)) fun w' batchSize advance halike => hsame.trans ?_
  exact c.crawls_processAll_of_alike (w := w.afterSession w.database.store) batchSize advance hsound hmem halike

/-- A backfill leaves the ledger as it is. -/
theorem ledger_backfill (c : Crawler) (r : BackfillRequest) (hsound : w.ledger.Sound) :
    ((c.backfill r).outcome w).2.ledger = w.ledger := by
  obtain ⟨row, s, hrun, -⟩ := Session.find?_openWatermark c.address c.description w.database.store
  obtain ⟨piece, hsublist, hpiece⟩ := w.ledger.exists_scanned c.address
    { stopAt := if r.reprocess then none else row.latestSignature, fromSlot := r.fromSlot, toSlot := r.toSlot }
  obtain ⟨s', -, hcrawls⟩ := c.crawls_backfill r hsound (fun _ htx => hsublist.subset htx) fun row' s' hrun' => by
    rw [hrun] at hrun'
    cases hrun'
    exact hpiece
  exact hcrawls.ledger

/-- A gap fill leaves the ledger as it is. -/
theorem ledger_gapFill (c : Crawler) (hsound : w.ledger.Sound) : (c.gapFill.outcome w).2.ledger = w.ledger := by
  obtain ⟨piece, hsublist, hpiece⟩ :=
    w.ledger.exists_scanned c.address { stopAt := (w.watermark? c.address).bind (·.latestSignature) }
  have hcrawls := c.crawls_gapFill hsound (fun _ htx => hsublist.subset htx) fun latest hlatest => by
    rw [← hlatest]
    exact hpiece
  exact hcrawls.ledger

end Crawler

/-! ## Walks in calm -/

namespace World.Calm

variable {w : World}

/-- In calm a walk without bounds collects all that is newer than where it stops. -/
theorem outcome_walk (h : w.Calm) (p : Paging) {passed rest : List LedgerTransaction}
    (hhistory : w.ledger.historyOf p.address = passed ++ rest) {stopAt : Option String}
    (hstop : stopAt = passed.getLast?.map (·.signature)) :
    ∃ w', (p.walk { stopAt }).outcome w = (.ok { signatures := rest.map (·.info), connected := true }, w') ∧
      w.Alike w' ∧ w'.Calm := by
  obtain ⟨hkept, hending⟩ := h.ledger.scan_index hhistory hstop
  obtain ⟨result, w', ho, halike, hgoing, hresult⟩ :=
    p.outcome_walk_of_history { stopAt } h.ledger.pages (h.ledger.nodup_index p.address)
  have hcalm : w'.Calm := h.of_alike halike (hgoing h.stopOnPage)
  rcases hresult with ⟨hfail, -⟩ | ⟨walk, rfl, hstopped | ⟨hsignatures, hconnected⟩⟩
  · simp [h.failPages, h.failPageAt] at hfail
  · rw [hcalm.goingOn] at hstopped
    cases hstopped
  · refine ⟨w', ?_, halike, hcalm⟩
    obtain ⟨signatures, connected⟩ := walk
    simp only at hsignatures hconnected
    rw [ho, hsignatures, hkept, hconnected.mpr hending]

end World.Calm

/-! ## Crawls -/

theorem WatermarkRow.StandsAfter.fresh (account description : String) :
    WatermarkRow.StandsAfter { account, description } [] :=
  ⟨rfl, rfl⟩

/-- A world in which a crawl has processed what it collected: what the ledger gave is stored, and the watermark stands
at the end of what was given before the first transaction that was held back. -/
structure World.Resumed (address : String) (passed rest : List LedgerTransaction) (w : World) : Prop where
  calm : w.Calm
  stands : ∃ row, w.watermark? address = some row ∧ row.StandsAfter (passed ++ rest.takeWhile w.ledger.gives)
  stored : ∀ tx ∈ rest, w.ledger.gives tx = true → Stored address tx w.database.store

/-- A crawl from which nothing was held back leaves all of the history stored and the watermark at its end. -/
theorem World.Resumed.completes {address : String} {w w' : World} {passed rest : List LedgerTransaction}
    (h : w'.Resumed address passed rest) (hadds : w.Adds address w') (hclear : w.Clear)
    (hhistory : w.ledger.historyOf address = passed ++ rest)
    (hpassed : ∀ tx ∈ passed, Stored address tx w.database.store) :
    (∀ tx ∈ w.ledger.historyOf address, Stored address tx w'.database.store) ∧
      ∃ row, w'.watermark? address = some row ∧ row.StandsAfter (w.ledger.historyOf address) := by
  have hgives : ∀ tx, w'.ledger.gives tx = true := by
    rw [hadds.ledger]
    exact hclear.gives
  obtain ⟨row, hrow, hstands⟩ := h.stands
  rw [List.takeWhile_eq_self_iff.mpr fun tx _ => hgives tx, ← hhistory] at hstands
  refine ⟨fun tx htx => ?_, row, hrow, hstands⟩
  rcases List.mem_append.mp (hhistory ▸ htx) with hold | hnew
  · exact (hpassed tx hold).of_adds hadds
  · exact h.stored tx hnew (hgives tx)

namespace Crawler

variable {w : World} {row : WatermarkRow} {passed rest : List LedgerTransaction}

theorem processAll_of_calm (c : Crawler) (hw : w.Calm) (hbatch : 0 < c.batchSize)
    (hhistory : w.ledger.historyOf c.address = passed ++ rest) (hrest : ∀ tx ∈ rest, tx.Processable c.address)
    (hrow : w.watermark? c.address = some row) (hstands : row.StandsAfter passed) :
    ∃ w', (c.processAll (rest.map (·.info)) c.batchSize true).outcome w =
        (.ok (rest.countP w.ledger.gives, rest.countP fun tx => !w.ledger.gives tx), w') ∧
      w'.Resumed c.address passed rest ∧ w.Adds c.address w' := by
  have hsize : 0 < c.batchSize.toNat := by omega
  have hmem : ∀ tx ∈ rest, tx ∈ w.ledger.historyOf c.address := fun tx htx => hhistory ▸ List.mem_append_right _ htx
  have hcrawls := c.crawls_processAll c.batchSize true hmem hw.ledger.distinct
  obtain ⟨w', row', ho, hhandled⟩ := c.processChunks_of_calm
    ((rest.map (·.info)).head?.map (·.signature)) hw hhistory hrest (flatten_chunksOf hsize _) hrow fun _ => hstands
  rw [processAll, if_neg (by omega)] at hcrawls ⊢
  rw [ho] at hcrawls
  have hledger : w'.ledger = w.ledger := hcrawls.ledger
  exact ⟨w', ho, ⟨hhandled.calm, ⟨row', hhandled.watermark, hledger ▸ hhandled.stands rfl⟩, hledger ▸ hhandled.stored⟩,
    hcrawls.toAdds⟩

/-- In calm a backfill takes up where the watermark stands, and at the start of the history if there is none. -/
theorem backfill_of_calm (c : Crawler) (hw : w.Calm) (hbatch : 0 < c.batchSize)
    (hhistory : w.ledger.historyOf c.address = passed ++ rest) (hrest : ∀ tx ∈ rest, tx.Processable c.address)
    (hstands : ∀ row, w.watermark? c.address = some row → row.StandsAfter passed)
    (hfresh : w.watermark? c.address = none → passed = []) :
    ∃ w', (c.backfill {}).outcome w = (.ok (c.completed "Backfill" (rest.countP w.ledger.gives)
        (rest.countP fun tx => !w.ledger.gives tx)), w') ∧ w'.Resumed c.address passed rest ∧ w.Adds c.address w' := by
  obtain ⟨row, s, hrun, htables, hfind, hrow⟩ := Session.find?_openWatermark c.address c.description w.database.store
  have hopen := World.outcome_session_of_quiet hw.quiet hrun
  have hopened : row.StandsAfter passed := by
    cases hold : w.watermark? c.address with
    | none =>
      rw [hrow, show w.database.store.watermarks.find? c.address = none from hold, hfresh hold]
      exact .fresh c.address c.description
    | some old =>
      rw [hrow, show w.database.store.watermarks.find? c.address = some old from hold]
      exact hstands old hold
  obtain ⟨w₁, hwalk, halike, hcalm⟩ := (hw.afterSession s).outcome_walk c.paging hhistory hopened.latest
  have hrow₁ : w₁.watermark? c.address = some row := by
    rw [World.watermark?, halike.database]
    exact hfind
  have hledger₁ : w₁.ledger = w.ledger := halike.ledger
  have hadds₁ : w.Adds c.address w₁ := .of_tables hledger₁ (by rw [halike.database]; exact htables)
  obtain ⟨w₂, ho, hresumed, hadds⟩ :=
    c.processAll_of_calm hcalm hbatch (hledger₁ ▸ hhistory) hrest hrow₁ hopened
  rw [hledger₁] at ho
  refine ⟨w₂, ?_, hresumed, hadds₁.trans hadds⟩
  rw [backfill, Attempt.outcome_bind_of_ok hopen]
  refine (Attempt.outcome_bind_of_ok (Attempt.outcome_settle_of_eq hwalk) _).trans ?_
  simp only [Bool.true_or, Option.getD_none, if_true]
  rw [Attempt.outcome_bind_of_ok ho]
  rfl

/-- In calm a gap fill does nothing if no watermark was moved yet. -/
theorem gapFill_of_no_watermark (c : Crawler) (hw : w.Calm)
    (hnone : (w.watermark? c.address).bind (·.latestSignature) = none) :
    c.gapFill.outcome w = (.ok { message := "No watermark for " ++ c.address ++ "; no gap fill needed" },
      w.afterSession w.database.store) := by
  rw [gapFill, Attempt.outcome_bind_of_ok (World.outcome_watermark? c.address hw.quiet.nextFault), hnone]
  rfl

/-- In calm a gap fill takes up where the watermark stands, and does nothing if there is nothing newer. -/
theorem gapFill_of_calm (c : Crawler) (hw : w.Calm) (hbatch : 0 < c.batchSize)
    (hhistory : w.ledger.historyOf c.address = passed ++ rest) (hrest : ∀ tx ∈ rest, tx.Processable c.address)
    (hrow : w.watermark? c.address = some row) (hstands : row.StandsAfter passed) (hpassed : passed ≠ []) :
    ∃ result w', c.gapFill.outcome w = (.ok result, w') ∧ w'.Resumed c.address passed rest ∧ w.Adds c.address w' ∧
      (rest = [] → result = { message := "No gap for " ++ c.address } ∧ w'.database.store = w.database.store) := by
  obtain ⟨last, hlast⟩ := Option.isSome_iff_exists.mp (List.getLast?_isSome.mpr hpassed)
  have hlatest : row.latestSignature = some last.signature := by rw [hstands.latest, hlast, Option.map_some]
  obtain ⟨w₁, hwalk, halike, hcalm⟩ :=
    (hw.afterSession w.database.store).outcome_walk c.paging hhistory (hlatest.symm.trans hstands.latest)
  have hrow₁ : w₁.watermark? c.address = some row := by
    rw [World.watermark?, halike.database]
    exact hrow
  have hledger₁ : w₁.ledger = w.ledger := halike.ledger
  have hadds₁ : w.Adds c.address w₁ := .of_tables hledger₁ (by rw [halike.database]; rfl)
  rw [gapFill, Attempt.outcome_bind_of_ok (World.outcome_watermark? c.address hw.quiet.nextFault), hrow,
    Option.bind_some, hlatest]
  simp only [Attempt.outcome_bind_of_ok (Attempt.outcome_settle_of_eq hwalk)]
  cases hempty : rest.isEmpty with
  | true =>
    have hnil : rest = [] := List.isEmpty_iff.mp hempty
    subst hnil
    refine ⟨_, w₁, rfl, ⟨hcalm, ⟨row, hrow₁, by simpa using hstands⟩, List.forall_mem_nil _⟩, hadds₁, fun _ => ⟨rfl, ?_⟩⟩
    rw [halike.database]
    rfl
  | false =>
    obtain ⟨w₂, ho, hresumed, hadds⟩ :=
      c.processAll_of_calm hcalm hbatch (hledger₁ ▸ hhistory) hrest hrow₁ hstands
    refine ⟨c.completed "Gap fill" (rest.countP w₁.ledger.gives) (rest.countP fun tx => !w₁.ledger.gives tx), w₂, ?_,
      hresumed, hadds₁.trans hadds, fun hnil => by simp [hnil] at hempty⟩
    rw [List.isEmpty_map, hempty]
    simp only [Bool.false_eq_true, if_false]
    rw [Attempt.outcome_bind_of_ok ho]
    rfl

end Crawler
end PairIndex
