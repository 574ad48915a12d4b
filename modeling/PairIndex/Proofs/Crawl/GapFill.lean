import PairIndex.Proofs.Crawl.Resume

/-! What a gap fill makes up for. A first backfill leaves the watermark before the first transaction that was held back,
and a gap fill that meets no failure then processes all the rest (`Crawler.gapFill_completes_iff`). But if the oldest
transaction was held back no watermark was moved at all, and a gap fill finds nothing to go on from. -/

namespace PairIndex

namespace Crawler

variable {w w' : World}

/-- After a first backfill the watermark stands before the first transaction that was held back, and what was given is
stored. -/
theorem stands_of_backfill (c : Crawler) (hw : w.Calm) (hbatch : 0 < c.batchSize) (hempty : w.database.store = {})
    (hprocessable : ∀ tx ∈ w.ledger.historyOf c.address, tx.Processable c.address)
    (hstore : w'.database.store = ((c.backfill {}).outcome w).2.database.store) :
    (∃ row, w'.watermark? c.address = some row ∧ row.StandsAfter ((w.ledger.historyOf c.address).takeWhile w.ledger.gives)) ∧
      ∀ tx ∈ w.ledger.historyOf c.address, w.ledger.gives tx = true → Stored c.address tx w'.database.store := by
  have hnone : w.watermark? c.address = none := World.watermark?_of_empty hempty c.address
  obtain ⟨w₁, ho, hresumed, hadds⟩ := c.backfill_of_calm hw hbatch (List.nil_append _).symm hprocessable
    (fun row hrow => by rw [hnone] at hrow; cases hrow) fun _ => rfl
  obtain ⟨row, hrow, hstands⟩ := hresumed.stands
  have hstored := hresumed.stored
  rw [ho] at hstore
  rw [hadds.ledger] at hstands hstored
  rw [World.watermark?, hstore]
  exact ⟨⟨row, hrow, hstands⟩, hstored⟩

/-- A first backfill leaves watermarks safe, whatever fails from then on. -/
theorem safe_of_backfill (c : Crawler) (hsound : w.ledger.Sound) (hempty : w.database.store = {})
    (hstore : w'.database.store = ((c.backfill {}).outcome w).2.database.store)
    (hhistory : w'.ledger.history = w.ledger.history) (hlists : w'.ledger.lists = w.ledger.lists)
    (hsound' : w'.ledger.Sound) : w'.Safe := by
  have hsafe : ((c.backfill {}).outcome w).2.Safe := c.safe_backfill {} (.start hsound hempty)
  refine hsafe.meanwhile ⟨hstore, ⟨[], ?_⟩, ?_, hsound'⟩
  · rw [c.ledger_backfill {} hsound, hhistory, List.append_nil]
  · rw [c.ledger_backfill {} hsound, hlists]

/-- A gap fill without failures goes on from a watermark that was moved, to the end of the history. -/
theorem gapFill_of_moved (c : Crawler) (hclear : w.Clear) (hsafe : w.Safe) (hbatch : 0 < c.batchSize) {row : WatermarkRow}
    {passed rest : List LedgerTransaction} (hhistory : w.ledger.historyOf c.address = passed ++ rest)
    (hrest : ∀ tx ∈ rest, tx.Processable c.address) (hrow : w.watermark? c.address = some row)
    (hstands : row.StandsAfter passed) (hpassed : passed ≠ [])
    (hstored : ∀ tx ∈ passed, Stored c.address tx w.database.store) :
    (∀ tx ∈ w.ledger.historyOf c.address, Processed c.address tx (c.gapFill.outcome w).2.database.store) ∧
      ((c.gapFill.outcome w).2.watermark? c.address).bind (·.latestSignature) =
        (w.ledger.historyOf c.address).getLast?.map (·.signature) := by
  have hsafe' := c.safe_gapFill hsafe
  obtain ⟨result, w', ho, hresumed, hadds, -⟩ :=
    c.gapFill_of_calm hclear.toCalm hbatch hhistory hrest hrow hstands hpassed
  obtain ⟨hall, row', hrow', hstands'⟩ := hresumed.completes hadds hclear hhistory hstored
  rw [ho] at hsafe' ⊢
  refine ⟨fun tx htx => hsafe'.processed ?_ (hall tx htx), ?_⟩
  · rw [hadds.ledger]
    exact RecordedLedger.mem_of_mem_historyOf htx
  · rw [hrow', Option.bind_some, hstands'.latest]

/-- A gap fill has nothing to go on from if the watermark was never moved. -/
theorem gapFill_of_unmoved (c : Crawler) (hclear : w.Clear) {row : WatermarkRow}
    (hrow : w.watermark? c.address = some row) (hstands : row.StandsAfter []) :
    ((c.gapFill.outcome w).2.watermark? c.address).bind (·.latestSignature) = none := by
  have hnone : (w.watermark? c.address).bind (·.latestSignature) = none := by
    rw [hrow, Option.bind_some, hstands.latest]
    rfl
  rw [c.gapFill_of_no_watermark hclear.toCalm hnone]
  exact hnone

/-- A gap fill without failures after a first backfill leaves all of the history processed and the watermark at its
newest signature if and only if the oldest transaction was not held back from the backfill. -/
theorem gapFill_completes_iff (c : Crawler) (hbatch : 0 < c.batchSize) (hw : w.Calm) (hempty : w.database.store = {})
    (hprocessable : ∀ tx ∈ w.ledger.historyOf c.address, tx.Processable c.address)
    (hstore : w'.database.store = ((c.backfill {}).outcome w).2.database.store)
    (hhistory : w'.ledger.history = w.ledger.history) (hlists : w'.ledger.lists = w.ledger.lists)
    (hclear : w'.Clear) :
    ((∀ tx ∈ w.ledger.historyOf c.address, Processed c.address tx (c.gapFill.outcome w').2.database.store) ∧
        ((c.gapFill.outcome w').2.watermark? c.address).bind (·.latestSignature) =
          (w.ledger.historyOf c.address).getLast?.map (·.signature)) ↔
      ∀ oldest ∈ (w.ledger.historyOf c.address).head?, w.ledger.gives oldest = true := by
  have hsafe := c.safe_of_backfill hw.ledger hempty hstore hhistory hlists hclear.ledger
  have hsame : w'.ledger.historyOf c.address = w.ledger.historyOf c.address := by
    rw [RecordedLedger.historyOf, RecordedLedger.historyOf, hhistory, hlists]
  obtain ⟨⟨row, hrow, hstands⟩, hstored⟩ := c.stands_of_backfill hw hbatch hempty hprocessable hstore
  cases hcases : w.ledger.historyOf c.address with
  | nil =>
    rw [hcases] at hstands
    refine iff_of_true ⟨List.forall_mem_nil _, c.gapFill_of_unmoved hclear hrow hstands⟩ fun oldest hold => ?_
    cases hold
  | cons oldest later =>
    rw [hcases] at hstands
    by_cases hgives : w.ledger.gives oldest = true
    · refine iff_of_true ?_ fun tx htx => ?_
      · rw [List.takeWhile_cons_of_pos hgives] at hstands
        have hsplit : w'.ledger.historyOf c.address =
            (oldest :: later.takeWhile w.ledger.gives) ++ later.dropWhile w.ledger.gives := by
          rw [hsame, hcases, List.cons_append, List.takeWhile_append_dropWhile]
        have hpassed : ∀ tx ∈ oldest :: later.takeWhile w.ledger.gives, Stored c.address tx w'.database.store := by
          intro tx htx
          rw [← List.takeWhile_cons_of_pos hgives, ← hcases] at htx
          exact hstored tx ((List.takeWhile_sublist _).subset htx) (List.mem_takeWhile_imp htx)
        have hrest : ∀ tx ∈ later.dropWhile w.ledger.gives, tx.Processable c.address := by
          intro tx htx
          apply hprocessable
          rw [← hsame, hsplit]
          exact List.mem_append_right _ htx
        rw [← hcases, ← hsame]
        exact c.gapFill_of_moved hclear hsafe hbatch hsplit hrest hrow hstands (List.cons_ne_nil _ _) hpassed
      · cases htx
        exact hgives
    · -- No watermark was moved, however much of the rest was given.
      rw [List.takeWhile_cons_of_neg hgives] at hstands
      refine iff_of_false (fun hboth => ?_) fun hgiven => hgives (hgiven oldest rfl)
      have hlatest := (c.gapFill_of_unmoved hclear hrow hstands).symm.trans hboth.2
      rw [List.getLast?_cons] at hlatest
      cases hlatest

/-- A crawler with small batches. -/
def smallCrawler : Crawler where
  address := "pool"
  batchSize := 2

/-- A world before its first crawl, in which some transactions cannot be fetched this time. -/
def smallStart (history : List LedgerTransaction) (failing : List String) : World where
  ledger := { history, switches := { failing } }

/-- The world after a first backfill, once all can be fetched. -/
def cleared (c : Crawler) (history : List LedgerTransaction) (failing : List String) : World :=
  ((c.backfill {}).outcome (smallStart history failing)).2.cleared

theorem historyOf_smallStart (history : List LedgerTransaction) (failing : List String) (address : String) :
    (smallStart history failing).ledger.historyOf address = history :=
  RecordedLedger.historyOf_of_lists fun _ => rfl

section Small

variable {history : List LedgerTransaction} {failing : List String}

theorem calm_smallStart (h : (smallStart history failing).ledger.Sound) : (smallStart history failing).Calm where
  ledger := h
  fatal := rfl
  failPages := rfl
  failPageAt := rfl
  stopOnPage := rfl
  stopOnFetch := rfl
  goingOn := rfl
  quiet := nofun

theorem clear_cleared (c : Crawler) (h : (smallStart history failing).ledger.Sound) :
    (c.cleared history failing).Clear :=
  World.clear_cleared (c.ledger_backfill {} h ▸ h)

theorem history_cleared (c : Crawler) (h : (smallStart history failing).ledger.Sound) :
    (c.cleared history failing).ledger.history = history := by
  change ((c.backfill {}).outcome (smallStart history failing)).2.ledger.history = history
  rw [c.ledger_backfill {} h]
  rfl

theorem lists_cleared (c : Crawler) (h : (smallStart history failing).ledger.Sound) :
    (c.cleared history failing).ledger.lists = (smallStart history failing).ledger.lists := by
  change ((c.backfill {}).outcome (smallStart history failing)).2.ledger.lists = _
  rw [c.ledger_backfill {} h]

theorem historyOf_cleared (c : Crawler) (h : (smallStart history failing).ledger.Sound) (address : String) :
    (c.cleared history failing).ledger.historyOf address = history := by
  rw [RecordedLedger.historyOf_of_lists, c.history_cleared h]
  intro signature
  rw [c.lists_cleared h]
  rfl

end Small

theorem sound_smallLedger (failing : List String) : (smallStart World.smallLedger.history failing).ledger.Sound where
  distinct := show (World.smallLedger.history.map (·.signature)).Nodup by decide
  ordered := show World.smallLedger.history.Pairwise fun earlier later => earlier.slot ≤ later.slot by decide
  unsigned := show ∀ tx ∈ World.smallLedger.history, 0 ≤ tx.slot by decide
  pages := rfl

theorem processable_smallLedger (failing : List String) :
    ∀ tx ∈ (smallStart World.smallLedger.history failing).ledger.historyOf "pool", tx.Processable "pool" := by
  intro tx htx
  have hmem := RecordedLedger.mem_of_mem_historyOf htx
  simp only [smallStart, World.smallLedger, List.mem_cons, List.not_mem_nil, or_false] at hmem
  rcases hmem with rfl | rfl | rfl <;> exact ⟨_, rfl, by decide⟩

/-- The second of three transactions could not be fetched. -/
theorem gapFill_completes_iff_swap_held :
    (∀ tx ∈ World.smallLedger.history, Processed "pool" tx
        (smallCrawler.gapFill.outcome (smallCrawler.cleared World.smallLedger.history ["swap"])).2.database.store) ∧
      ((smallCrawler.gapFill.outcome (smallCrawler.cleared World.smallLedger.history ["swap"])).2.watermark? "pool").bind
        (·.latestSignature) = some "repay" := by
  have hsound := sound_smallLedger ["swap"]
  have hstore : (smallCrawler.cleared World.smallLedger.history ["swap"]).database.store =
      ((smallCrawler.backfill {}).outcome (smallStart World.smallLedger.history ["swap"])).2.database.store := rfl
  have hiff := smallCrawler.gapFill_completes_iff (by decide) (calm_smallStart hsound) rfl
    (processable_smallLedger _) hstore (smallCrawler.history_cleared hsound) (smallCrawler.lists_cleared hsound)
    (smallCrawler.clear_cleared hsound)
  exact hiff.mpr (by decide)

/-- A gap fill does not make up for a first backfill that missed the oldest transaction. -/
theorem oldest_held_is_never_made_up :
    ¬∀ (c : Crawler) (w w' : World), 0 < c.batchSize → w.Calm → w.database.store = {} →
      (∀ tx ∈ w.ledger.historyOf c.address, tx.Processable c.address) →
      w'.database.store = ((c.backfill {}).outcome w).2.database.store → w'.ledger.history = w.ledger.history →
      w'.ledger.lists = w.ledger.lists → w'.Clear →
      (∀ tx ∈ w.ledger.historyOf c.address, Processed c.address tx (c.gapFill.outcome w').2.database.store) ∧
        ((c.gapFill.outcome w').2.watermark? c.address).bind (·.latestSignature) =
          (w.ledger.historyOf c.address).getLast?.map (·.signature) := by
  intro h
  have hsound := sound_smallLedger ["create"]
  have hlatest := (h smallCrawler _ (smallCrawler.cleared World.smallLedger.history ["create"]) (by decide)
    (calm_smallStart hsound) rfl (processable_smallLedger _) rfl (smallCrawler.history_cleared hsound)
    (smallCrawler.lists_cleared hsound) (smallCrawler.clear_cleared hsound)).2
  revert hlatest
  decide +kernel

end Crawler
end PairIndex
