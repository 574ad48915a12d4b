import Mathlib.Logic.Relation
import PairIndex.Proofs.Crawl.GapFill
import PairIndex.Proofs.Ingest.Convergence

/-! Crawls make up for their failures. Whatever goes wrong, unbounded crawls of an address keep the tables to commits of
what a crawl makes of the history, and the watermark at the end of a part of the history that is stored from its oldest
transaction on (`World.CrawlReachable.crawled`). So a backfill that meets no failure completes the tables and the watermark
(`Crawler.complete_backfill`), and what is complete does not depend on what went wrong before
(`Crawler.backfill_recovers`). -/

namespace PairIndex

/-! ## Where a watermark begins -/

/-- A watermark that stands for a part of the history: it begins and ends where that does, and all of it is stored. -/
structure WatermarkRow.StandsFor (row : WatermarkRow) (passed : List LedgerTransaction) (s : Store) : Prop extends
    row.StandsAfter passed where
  first : row.firstSignature = passed.head?.map (·.signature)
  stored : ∀ tx ∈ passed, Stored row.account tx s

/-- A watermark that stands after all of the history begins at the oldest transaction. -/
theorem WatermarkRow.StandsFor.first_of_standsAfter {row : WatermarkRow} {passed rest : List LedgerTransaction}
    {s : Store} (h : row.StandsFor passed s) (hafter : row.StandsAfter (passed ++ rest)) :
    row.firstSignature = (passed ++ rest).head?.map (·.signature) := by
  rw [h.first]
  cases passed with
  | nil =>
    have hlast : (none : Option String) = rest.getLast?.map (·.signature) := h.latest.symm.trans hafter.latest
    have hrest : rest = [] := List.getLast?_eq_none_iff.mp (Option.map_eq_none_iff.mp hlast.symm)
    rw [hrest]
    rfl
  | cons oldest passed => rfl

namespace WatermarkRow.Advances

variable {row row' : WatermarkRow} {oldest : String}

/-- A watermark that begins somewhere goes on to begin there. -/
theorem first_of_some {first : Option String} (h : row.Advances first row') (hfirst : row.firstSignature = some oldest) :
    row'.firstSignature = some oldest := by
  induction h with
  | refl => exact hfirst
  | step signature slot _ ih => rw [first_beginAt, first_moveTo, ih, Option.some_or]

/-- A watermark that was not moved yet begins at the oldest signature of the crawl that moves it. -/
theorem first_of_none (h : row.Advances (some oldest) row') (hsigned : oldest ≠ "")
    (hfirst : row.firstSignature = none) : row'.firstSignature = none ∨ row'.firstSignature = some oldest := by
  induction h with
  | refl => exact Or.inl hfirst
  | step signature slot _ ih =>
    have hbegin : firstOf signature (some oldest) = oldest := if_neg (by simpa using hsigned)
    rw [first_beginAt, first_moveTo, hbegin]
    rcases ih with hnone | hsome
    · exact Or.inr (by rw [hnone, Option.none_or])
    · exact Or.inr (by rw [hsome, Option.some_or])

end WatermarkRow.Advances

/-- A ledger whose oldest transaction of an address has a signature that is not empty. -/
def RecordedLedger.Signed (l : RecordedLedger) (address : String) : Prop :=
  ∀ oldest ∈ (l.historyOf address).head?, oldest.signature ≠ ""

theorem RecordedLedger.Signed.of_prefix {l l' : RecordedLedger} {address : String} (h : l'.Signed address)
    (hgrown : l.historyOf address <+: l'.historyOf address) : l.Signed address := by
  intro oldest hold
  obtain ⟨later, hlater⟩ := hgrown
  apply h
  rw [← hlater, List.head?_append, hold]
  rfl

/-- A safe watermark that begins at the oldest transaction stands for a part of the history. -/
theorem World.Safe.standsFor {w : World} (h : w.Safe) {row : WatermarkRow}
    (hrow : row ∈ w.database.store.watermarks.rows)
    (hbegins : ∀ oldest ∈ (w.ledger.historyOf row.account).head?, ∀ first ∈ row.firstSignature, first = oldest.signature) :
    ∃ passed rest, w.ledger.historyOf row.account = passed ++ rest ∧ row.StandsFor passed w.database.store := by
  rcases h.watermarks row hrow with hfresh | ⟨i, j, hspans, -⟩
  · exact ⟨[], w.ledger.historyOf row.account, rfl, ⟨hfresh.latest, hfresh.slot⟩, hfresh.first, List.forall_mem_nil _⟩
  · obtain ⟨first, hi, hfirst, -⟩ := hspans.first
    obtain ⟨last, hj, hlatest, hchecked, -⟩ := hspans.latest
    obtain ⟨hjlt, hlast⟩ := List.getElem?_eq_some_iff.mp hj
    obtain ⟨oldest, hold⟩ : ∃ oldest, (w.ledger.historyOf row.account).head? = some oldest :=
      ⟨_, List.head?_eq_some_head (List.ne_nil_of_length_pos (by omega))⟩
    have hzero : i = 0 := by
      refine h.ledger.eq_of_signature hi (List.head?_eq_getElem? ▸ hold) ?_
      exact hbegins oldest hold first.signature hfirst
    subst hzero
    have hend : ((w.ledger.historyOf row.account).take (j + 1)).getLast? = some last := by
      rw [List.getLast?_take, if_neg (Nat.succ_ne_zero j), Nat.add_sub_cancel, hj, Option.some_or]
    refine ⟨(w.ledger.historyOf row.account).take (j + 1), (w.ledger.historyOf row.account).drop (j + 1),
      (List.take_append_drop ..).symm, ⟨?_, ?_⟩, ?_, ?_⟩
    · rw [hend, hlatest, Option.map_some]
    · rw [hend, hchecked, Option.map_some, Option.getD_some]
    · rw [List.head?_take, if_neg (Nat.succ_ne_zero j), List.head?_eq_getElem?, hi, hfirst, Option.map_some]
    · intro tx htx
      obtain ⟨k, hk, rfl⟩ := List.mem_take_iff_getElem.mp htx
      exact hspans.between k _ (Nat.zero_le k) (by omega) (List.getElem?_eq_getElem (by omega))

/-! ## Runs -/

namespace World

/-- What a crawl of an address without slot bounds may do to a world, and what may happen between two crawls. -/
inductive CrawlStep (address : String) : World → World → Prop where
  | backfill (w : World) (c : Crawler) (r : BackfillRequest) : c.address = address → r.fromSlot = none →
      r.toSlot = none → CrawlStep address w ((c.backfill r).outcome w).2
  | gapFill (w : World) (c : Crawler) : c.address = address → CrawlStep address w (c.gapFill.outcome w).2
  | meanwhile (w w' : World) : w.Meanwhile w' → CrawlStep address w w'

/-- A world that crawls of an address lead to from an empty store. -/
def CrawlReachable (w : World) (address : String) : Prop :=
  ∃ start : World, start.ledger.Sound ∧ start.database.store = {} ∧ Relation.ReflTransGen (CrawlStep address) start w

/-- A world whose tables hold commits of what crawls of an address made of the history, and whose watermark of the
address stands for a part of the history. -/
structure Crawled (address : String) (w : World) : Prop where
  commits : ∃ cs, w.database.store.tables = Commit.applyAll cs {} ∧ ∀ c ∈ cs, c.CrawledFrom address (w.ledger.historyOf address)
  watermark : ∀ row, w.watermark? address = some row →
    ∃ passed rest, w.ledger.historyOf address = passed ++ rest ∧ row.StandsFor passed w.database.store

variable {address : String} {w w' : World}

theorem CrawlStep.step (h : CrawlStep address w w') : Step w w' := by
  cases h with
  | backfill c r => exact .backfill w c r
  | gapFill c => exact .gapFill w c
  | meanwhile _ hmean => exact .meanwhile w w' hmean

theorem account_opened (w : World) (address description : String) :
    ((w.watermark? address).getD { account := address, description }).account = address := by
  cases hrow : w.watermark? address with
  | none => rfl
  | some row => exact Table.key_of_find? hrow

namespace Crawled

theorem start (h : w.database.store = {}) : w.Crawled address := by
  refine ⟨⟨[], ?_, List.forall_mem_nil _⟩, fun row hrow => ?_⟩
  · rw [h, Commit.applyAll_nil]
    rfl
  · rw [watermark?_of_empty h] at hrow
    cases hrow

/-- The watermark that a crawl opens stands for a part of the history. -/
theorem opened (h : w.Crawled address) (description : String) :
    ∃ passed rest, w.ledger.historyOf address = passed ++ rest ∧
      ((w.watermark? address).getD { account := address, description }).StandsFor passed w.database.store := by
  cases hrow : w.watermark? address with
  | none => exact ⟨[], w.ledger.historyOf address, rfl, .fresh address description, rfl, List.forall_mem_nil _⟩
  | some row => exact h.watermark row hrow

/-- A session that writes no table but that of the watermarks. -/
theorem afterSession (h : w.Crawled address) {s : Store} (htables : s.tables = w.database.store.tables)
    (hwatermark : ∀ row, s.watermarks.find? address = some row →
      ∃ passed rest, w.ledger.historyOf address = passed ++ rest ∧ row.StandsFor passed w.database.store) :
    (w.afterSession s).Crawled address := by
  obtain ⟨cs, hstore, hcs⟩ := h.commits
  refine ⟨⟨cs, htables.trans hstore, hcs⟩, fun row hrow => ?_⟩
  obtain ⟨passed, rest, hhistory, hstands⟩ := hwatermark row hrow
  refine ⟨passed, rest, hhistory, hstands.toStandsAfter, hstands.first, fun tx htx => ?_⟩
  have hstored : Stored row.account tx w.database.store.tables := hstands.stored tx htx
  rw [← htables] at hstored
  exact hstored

/-- A crawl keeps to the history, and a watermark that it moves for the first time begins at the oldest transaction. -/
theorem of_crawls {first : Option String} (h : w.Crawled address) (hsigned : w.ledger.Signed address)
    (hcrawls : w.Crawls address first w') (hsafe : w'.Safe)
    (hfirst : ∀ row, w.watermark? address = some row → row.firstSignature = none →
      first = (w.ledger.historyOf address).head?.map (·.signature)) : w'.Crawled address := by
  constructor
  · obtain ⟨cs, hstore, hcs⟩ := h.commits
    obtain ⟨ds, hstore', hds⟩ := hcrawls.commits
    refine ⟨cs ++ ds, ?_, fun c hc => ?_⟩
    · rw [hstore', hstore, Commit.applyAll_append]
    · rw [hcrawls.ledger]
      rcases List.mem_append.mp hc with hc | hc
      · exact hcs c hc
      · exact hds c hc
  · intro row' hrow'
    obtain ⟨hmem', haccount'⟩ := Table.find?_eq_some_iff.mp hrow'
    obtain ⟨row, hmem, haccount, hadvances, -⟩ := hcrawls.rows row' hmem'
    have hrow : w.watermark? address = some row := Table.find?_eq_some_iff.mpr ⟨hmem, haccount.symm.trans haccount'⟩
    obtain ⟨passed, rest, hhistory, hstands⟩ := h.watermark row hrow
    have hstarts := hsafe.standsFor hmem'
    rw [show row'.account = address from haccount'] at hstarts
    refine hstarts fun oldest hold started hstarted => ?_
    rw [hcrawls.ledger] at hold
    cases hbegun : row.firstSignature with
    | none =>
      have hoffered : first = some oldest.signature := by
        rw [hfirst row hrow hbegun, hold, Option.map_some]
      subst hoffered
      rcases hadvances.first_of_none (hsigned oldest hold) hbegun with hnone | hsome
      · rw [hnone] at hstarted
        cases hstarted
      · exact Option.some.inj (hstarted.symm.trans hsome)
    | some begun =>
      have hkept := hadvances.first_of_some hbegun
      obtain ⟨tx, htx, rfl⟩ := Option.map_eq_some_iff.mp (hstands.first.symm.trans hbegun)
      rw [hhistory, List.head?_append, htx, Option.some_or] at hold
      cases hold
      exact Option.some.inj (hstarted.symm.trans hkept)

theorem backfill (h : w.Crawled address) (hsafe : w.Safe) (hsigned : w.ledger.Signed address) {c : Crawler}
    (hc : c.address = address) {r : BackfillRequest} (hfrom : r.fromSlot = none) (hto : r.toSlot = none) :
    ((c.backfill r).outcome w).2.Crawled address := by
  subst hc
  obtain ⟨row, s, hrun, htables, hfind, hrow⟩ := Session.find?_openWatermark c.address c.description w.database.store
  obtain ⟨passed, rest, hhistory, hstands⟩ := h.opened c.description
  rw [watermark?, ← hrow] at hstands
  have hpassed : row.firstSignature = none → passed = [] := by
    intro hnone
    rw [hstands.first, Option.map_eq_none_iff, List.head?_eq_none_iff] at hnone
    exact hnone
  -- A crawl that reprocesses starts at the beginning of the history, whatever was passed before.
  obtain ⟨passed', rest', hhistory', hstop, hfresh⟩ : ∃ passed' rest', w.ledger.historyOf c.address = passed' ++ rest' ∧
      (if r.reprocess then none else row.latestSignature) = passed'.getLast?.map (·.signature) ∧
      (row.firstSignature = none → passed' = []) := by
    by_cases hagain : r.reprocess = true
    · exact ⟨[], w.ledger.historyOf c.address, rfl, if_pos hagain, fun _ => rfl⟩
    · exact ⟨passed, rest, hhistory, (if_neg hagain).trans hstands.latest, hpassed⟩
  have hmem : ∀ tx ∈ rest', tx ∈ w.ledger.historyOf c.address := fun tx htx => hhistory' ▸ List.mem_append_right _ htx
  obtain ⟨s', hs', hcrawls⟩ := c.crawls_backfill r hsafe.ledger hmem fun row' s' hrun' => by
    rw [hrun] at hrun'
    cases hrun'
    rw [hfrom, hto]
    exact (hsafe.ledger.scan_index hhistory' hstop).1
  have hopened : (w.afterSession s').Crawled c.address ∧ ∀ row', s'.watermarks.find? c.address = some row' → row' = row := by
    rcases hs' with rfl | ⟨row', hrun'⟩
    · refine ⟨h.afterSession rfl h.watermark, fun row' hrow' => ?_⟩
      rw [hrow, hrow', Option.getD_some]
    · rw [hrun] at hrun'
      cases hrun'
      refine ⟨h.afterSession htables fun row' hrow' => ?_, fun row' hrow' => ?_⟩
      · rw [hfind] at hrow'
        cases hrow'
        exact ⟨passed, rest, hhistory, hstands⟩
      · exact Option.some.inj (hrow'.symm.trans hfind)
  refine hopened.1.of_crawls hsigned hcrawls (c.safe_backfill r hsafe) fun row' hrow' hnone => ?_
  rw [hopened.2 row' hrow'] at hnone
  have hrest : w.ledger.historyOf c.address = rest' := by rw [hhistory', hfresh hnone, List.nil_append]
  exact congrArg (fun txs => txs.head?.map (·.signature)) hrest.symm

theorem gapFill (h : w.Crawled address) (hsafe : w.Safe) (hsigned : w.ledger.Signed address) {c : Crawler}
    (hc : c.address = address) : (c.gapFill.outcome w).2.Crawled address := by
  subst hc
  obtain ⟨passed, rest, hhistory, hstands⟩ := h.opened c.description
  have hmem : ∀ tx ∈ rest, tx ∈ w.ledger.historyOf c.address := fun tx htx => hhistory ▸ List.mem_append_right _ htx
  have hcrawls := c.crawls_gapFill hsafe.ledger hmem fun latest hlatest => by
    obtain ⟨row, hrow, hsome⟩ := Option.bind_eq_some_iff.mp hlatest
    rw [hrow, Option.getD_some] at hstands
    exact (hsafe.ledger.scan_index hhistory (hsome.symm.trans hstands.latest)).1
  refine h.of_crawls hsigned hcrawls (c.safe_gapFill hsafe) fun row hrow hnone => ?_
  rw [hrow, Option.getD_some] at hstands
  rw [hstands.first, Option.map_eq_none_iff, List.head?_eq_none_iff] at hnone
  rw [hhistory, hnone, List.nil_append]

theorem meanwhile (h : w.Crawled address) (hmean : w.Meanwhile w') : w'.Crawled address := by
  have hgrown := RecordedLedger.historyOf_prefix hmean.history hmean.lists address
  obtain ⟨later, hlater⟩ := id hgrown
  constructor
  · obtain ⟨cs, hstore, hcs⟩ := h.commits
    refine ⟨cs, hmean.store ▸ hstore, fun c hc => ?_⟩
    obtain ⟨tx, htx, htold⟩ := hcs c hc
    exact ⟨tx, hgrown.subset htx, htold⟩
  · intro row hrow
    rw [watermark?, hmean.store] at hrow
    obtain ⟨passed, rest, hhistory, hstands⟩ := h.watermark row hrow
    refine ⟨passed, rest ++ later, ?_, hmean.store ▸ hstands⟩
    rw [← hlater, hhistory, List.append_assoc]

theorem step (h : w.Crawled address) (hsafe : w.Safe) (hsigned : w.ledger.Signed address) (hstep : CrawlStep address w w') :
    w'.Crawled address := by
  cases hstep with
  | backfill c r hc hfrom hto => exact h.backfill hsafe hsigned hc hfrom hto
  | gapFill c hc => exact h.gapFill hsafe hsigned hc
  | meanwhile _ hmean => exact h.meanwhile hmean

end Crawled

/-- The history of an address only grows. -/
theorem CrawlStep.history_prefix (h : CrawlStep address w w') (hsafe : w.Safe) :
    w.ledger.historyOf address <+: w'.ledger.historyOf address := by
  cases h with
  | backfill c r =>
    have hledger := c.ledger_backfill r hsafe.ledger
    exact ⟨[], by rw [hledger, List.append_nil]⟩
  | gapFill c =>
    have hledger := c.ledger_gapFill hsafe.ledger
    exact ⟨[], by rw [hledger, List.append_nil]⟩
  | meanwhile _ hmean => exact RecordedLedger.historyOf_prefix hmean.history hmean.lists address

/-- Whatever fails in crawls of an address from an empty store on, they keep to the history. -/
theorem CrawlReachable.crawled (h : w.CrawlReachable address) : w.Safe ∧ (w.ledger.Signed address → w.Crawled address) := by
  obtain ⟨start, hsound, hempty, hrun⟩ := h
  induction hrun with
  | refl => exact ⟨.start hsound hempty, fun _ => .start hempty⟩
  | tail _ hstep ih =>
    obtain ⟨hsafe, hcrawled⟩ := ih
    refine ⟨hsafe.step hstep.step, fun hsigned => ?_⟩
    have hsigned' := hsigned.of_prefix (hstep.history_prefix hsafe)
    exact (hcrawled hsigned').step hsafe hsigned' hstep

end World

/-! ## Complete worlds -/

/-- What a transaction commits is among the commits of a crawl that has stored all of it. -/
theorem Commit.CrawledFrom.mem_of_stored {address : String} {history : List LedgerTransaction} {cs : List Commit}
    {c : Commit} (h : c.CrawledFrom address history) (hdistinct : (history.map (·.signature)).Nodup)
    (hcs : ∀ c ∈ cs, c.CrawledFrom address history)
    (hstored : ∀ tx ∈ history, Stored address tx (applyAll cs {})) : c ∈ cs := by
  obtain ⟨tx, htx, d, hd, hc⟩ := h
  have hsame : ∀ tx' ∈ history, ∀ d', tx'.crawled? address = some d' → d'.signature = tx.signature → d' = d := by
    intro tx' htx' d' hd' hsignature
    rw [LedgerTransaction.signature_of_crawled? hd'] at hsignature
    have htx'' : tx' = tx := List.inj_on_of_nodup_map hdistinct htx' htx hsignature
    rw [htx'', hd] at hd'
    exact (Option.some.inj hd').symm
  obtain ⟨hrecorded, hdetails⟩ := hstored tx htx
  rcases DecodedTransaction.mem_commits.mp hc with rfl | ⟨hfailed, e, he, rfl⟩
  · obtain ⟨row, hrow⟩ := Option.isSome_iff_exists.mp hrecorded
    have hkey : row.signature = tx.signature := Table.key_of_find? hrow
    rcases mem_transactions_applyAll (Table.mem_of_find? hrow) with hold | hnew
    · cases hold
    · obtain ⟨tx', htx', d', hd', hc'⟩ := hcs _ hnew
      rcases DecodedTransaction.mem_commits.mp hc' with heq | ⟨-, e, -, heq⟩
      · cases heq
        rwa [← hsame tx' htx' d' hd' hkey]
      · cases heq
  · rw [LedgerTransaction.failed_of_crawled? hd] at hfailed
    rw [LedgerTransaction.events_of_crawled? hd hfailed] at he
    obtain ⟨row, hrow⟩ := Option.isSome_iff_exists.mp (hdetails hfailed e he)
    rcases mem_details_applyAll (Table.mem_of_find? hrow) with hold | ⟨signature, e', hnew, rfl⟩
    · cases hold
    · have hkey := (Event.detail_key signature e').symm.trans (Table.key_of_find? hrow)
      obtain ⟨hsignature, hline⟩ := Prod.mk.inj hkey
      obtain ⟨tx', htx', d', hd', hc'⟩ := hcs _ hnew
      rcases DecodedTransaction.mem_commits.mp hc' with heq | ⟨-, e'', he'', heq⟩
      · cases heq
      · cases heq
        obtain rfl := hsame tx' htx' d' hd' hsignature
        rw [LedgerTransaction.events_of_crawled? hd hfailed] at he''
        rwa [eq_of_logIndex he he'' hline.symm]

/-- A world whose tables hold all that a crawl of an address makes of the history, and nothing else, and whose watermark
of the address stands for all of the history. -/
structure World.Complete (address : String) (w : World) : Prop where
  commits : ∃ cs, w.database.store.tables = Commit.applyAll cs {} ∧ ∀ c, c ∈ cs ↔ c.CrawledFrom address (w.ledger.historyOf address)
  watermark : ∃ row, w.watermark? address = some row ∧ row.StandsFor (w.ledger.historyOf address) w.database.store

/-- Two worlds whose stores agree on the tables of the pair side and on the watermark of an address. -/
structure World.Agrees (address : String) (w v : World) : Prop where
  pairSide : w.database.store.SamePairSide v.database.store
  watermark : ∃ row row', w.watermark? address = some row ∧ v.watermark? address = some row' ∧
    row.latestSignature = row'.latestSignature ∧ row.firstSignature = row'.firstSignature ∧
    row.checkedUpToSlot = row'.checkedUpToSlot

/-- A world that crawls of an address led to, and one with the same history before any crawl of it, once nothing goes
wrong any more. -/
structure World.Rerun (address : String) (w v : World) : Prop where
  reachable : w.CrawlReachable address
  clear : w.Clear
  fresh : v.database.store = {}
  freshClear : v.Clear
  history : v.ledger.historyOf address = w.ledger.historyOf address
  consistent : Consistent ((w.ledger.historyOf address).filterMap (·.crawled? address))

/-- What is complete depends on the history only. -/
theorem World.Complete.agrees {address : String} {w v : World} (hw : w.Complete address) (hv : v.Complete address)
    (hsame : v.ledger.historyOf address = w.ledger.historyOf address)
    (hconsistent : Consistent ((w.ledger.historyOf address).filterMap (·.crawled? address))) : w.Agrees address v := by
  constructor
  · obtain ⟨cs, hstore, hcs⟩ := hw.commits
    obtain ⟨ds, hstore', hds⟩ := hv.commits
    have htold : ∀ c ∈ cs, ∃ d ∈ (w.ledger.historyOf address).filterMap (·.crawled? address), c ∈ d.commits := by
      intro c hc
      obtain ⟨tx, htx, d, hd, hmem⟩ := (hcs c).mp hc
      exact ⟨d, List.mem_filterMap.mpr ⟨tx, htx, hd⟩, hmem⟩
    have hmem : ∀ c, c ∈ cs ↔ c ∈ ds := by
      intro c
      rw [hcs, hds, hsame]
    have htables := hconsistent.samePairSide htold hmem {}
    rw [← hstore, ← hstore'] at htables
    obtain ⟨h₁, h₂, h₃, h₄, h₅, h₆, h₇, h₈⟩ := htables
    exact ⟨h₁, h₂, h₃, h₄, h₅, h₆, h₇, h₈⟩
  · obtain ⟨row, hrow, hstands⟩ := hw.watermark
    obtain ⟨row', hrow', hstands'⟩ := hv.watermark
    rw [hsame] at hstands'
    exact ⟨row, row', hrow, hrow', hstands.latest.trans hstands'.latest.symm, hstands.first.trans hstands'.first.symm,
      hstands.checked.trans hstands'.checked.symm⟩

namespace Crawler

variable {w v : World}

/-- A backfill that meets no failure completes what earlier crawls left. -/
theorem complete_backfill (c : Crawler) (hbatch : 0 < c.batchSize) (hclear : w.Clear) (hsafe : w.Safe)
    (hsigned : w.ledger.Signed c.address) (hcrawled : w.Crawled c.address)
    (hprocessable : ∀ tx ∈ w.ledger.historyOf c.address, tx.Processable c.address) :
    ∃ count w', (c.backfill {}).outcome w = (.ok (c.completed "Backfill" count 0), w') ∧ w'.Calm ∧
      w'.ledger = w.ledger ∧ w'.Complete c.address := by
  obtain ⟨passed, rest, hhistory, hstands⟩ := hcrawled.opened c.description
  have hrest : ∀ tx ∈ rest, tx.Processable c.address :=
    fun tx htx => hprocessable tx (hhistory ▸ List.mem_append_right _ htx)
  have hafter : ∀ row, w.watermark? c.address = some row → row.StandsAfter passed := by
    intro row hrow
    rw [hrow, Option.getD_some] at hstands
    exact hstands.toStandsAfter
  have hgone : w.watermark? c.address = none → passed = [] := by
    intro hnone
    rw [hnone, Option.getD_none] at hstands
    exact List.head?_eq_none_iff.mp (Option.map_eq_none_iff.mp hstands.first.symm)
  have hpassed : ∀ tx ∈ passed, Stored c.address tx w.database.store := by
    intro tx htx
    have hstored := hstands.stored tx htx
    rwa [w.account_opened] at hstored
  obtain ⟨w', ho, hresumed, hadds⟩ := c.backfill_of_calm hclear.toCalm hbatch hhistory hrest hafter hgone
  have hcrawled' := hcrawled.backfill hsafe hsigned rfl (r := {}) rfl rfl
  rw [ho] at hcrawled'
  obtain ⟨hstored, row, hrow, hend⟩ := hresumed.completes hadds hclear hhistory hpassed
  rw [← hadds.ledger] at hstored hend
  have hnone : rest.countP (fun tx => !w.ledger.gives tx) = 0 := by
    rw [List.countP_eq_zero]
    intro tx _
    simp [hclear.gives tx]
  refine ⟨_, w', hnone ▸ ho, hresumed.calm, hadds.ledger, ?_, row, hrow, hend, ?_, fun tx htx => ?_⟩
  · obtain ⟨cs, htables, hcs⟩ := hcrawled'.commits
    refine ⟨cs, htables, fun c' => ⟨hcs c', fun h => ?_⟩⟩
    have hall : ∀ tx ∈ w'.ledger.historyOf c.address, Stored c.address tx (Commit.applyAll cs {}) := htables ▸ hstored
    exact h.mem_of_stored (RecordedLedger.nodup_historyOf hresumed.calm.ledger.distinct c.address) hcs hall
  · obtain ⟨passed', rest', hhistory', hstands'⟩ := hcrawled'.watermark row hrow
    rw [hhistory'] at hend ⊢
    exact hstands'.first_of_standsAfter hend
  · have haccount : row.account = c.address := Table.key_of_find? hrow
    rw [haccount]
    exact hstored tx htx

/-- A gap fill finds nothing to do where everything is complete. -/
theorem gapFill_of_complete (c : Crawler) (hbatch : 0 < c.batchSize) (hw : w.Calm) (h : w.Complete c.address) :
    (c.gapFill.outcome w).1 = .ok
        { message :=
            if (w.ledger.historyOf c.address).isEmpty then "No watermark for " ++ c.address ++ "; no gap fill needed"
            else "No gap for " ++ c.address } ∧
      (c.gapFill.outcome w).2.database.store = w.database.store := by
  obtain ⟨row, hrow, hstands⟩ := h.watermark
  cases hempty : (w.ledger.historyOf c.address).isEmpty with
  | true =>
    have hnone : (w.watermark? c.address).bind (·.latestSignature) = none := by
      rw [hrow, Option.bind_some, hstands.latest, List.isEmpty_iff.mp hempty]
      rfl
    rw [c.gapFill_of_no_watermark hw hnone]
    exact ⟨rfl, rfl⟩
  | false =>
    have hne : w.ledger.historyOf c.address ≠ [] := by simpa using hempty
    obtain ⟨result, w', ho, -, -, hidle⟩ := c.gapFill_of_calm hw hbatch (List.append_nil _).symm (List.forall_mem_nil _) hrow
      hstands.toStandsAfter hne
    obtain ⟨rfl, hstore⟩ := hidle rfl
    rw [ho]
    exact ⟨rfl, hstore⟩

/-- Whatever went wrong in earlier crawls, a backfill that meets no failure leaves the tables of the pair side and the
watermark that a single backfill of the same history leaves, and a gap fill then has nothing to do. -/
theorem backfill_recovers (c : Crawler) (hbatch : 0 < c.batchSize) (h : World.Rerun c.address w v)
    (hprocessable : ∀ tx ∈ w.ledger.historyOf c.address, tx.Processable c.address) (hsigned : w.ledger.Signed c.address) :
    ∃ count count' w' v', (c.backfill {}).outcome w = (.ok (c.completed "Backfill" count 0), w') ∧
      (c.backfill {}).outcome v = (.ok (c.completed "Backfill" count' 0), v') ∧ w'.Agrees c.address v' ∧
      (c.gapFill.outcome w').1 = .ok
        { message :=
            if (w.ledger.historyOf c.address).isEmpty then "No watermark for " ++ c.address ++ "; no gap fill needed"
            else "No gap for " ++ c.address } ∧
      (c.gapFill.outcome w').2.database.store = w'.database.store := by
  obtain ⟨hsafe, hcrawled⟩ := h.reachable.crawled
  obtain ⟨count, w', ho, hcalm, hledger, hcomplete⟩ :=
    c.complete_backfill hbatch h.clear hsafe hsigned (hcrawled hsigned) hprocessable
  have hsigned' : v.ledger.Signed c.address := by rwa [RecordedLedger.Signed, h.history]
  have hstart : v.Safe := .start h.freshClear.ledger h.fresh
  obtain ⟨count', v', ho', -, hledger', hcomplete'⟩ :=
    c.complete_backfill hbatch h.freshClear hstart hsigned' (.start h.fresh) (h.history ▸ hprocessable)
  obtain ⟨hidle, hstays⟩ := c.gapFill_of_complete hbatch hcalm hcomplete
  rw [hledger] at hidle
  refine ⟨count, count', w', v', ho, ho', ?_, hidle, hstays⟩
  refine hcomplete.agrees hcomplete' ?_ (hledger ▸ h.consistent)
  rw [hledger', hledger, h.history]

theorem rerun_cleared (c : Crawler) {history : List LedgerTransaction} {failing : List String}
    (hsound : (smallStart history failing).ledger.Sound)
    (hconsistent : Consistent (history.filterMap (·.crawled? c.address))) :
    World.Rerun c.address (c.cleared history failing) (smallStart history []).cleared := by
  have hclear := c.clear_cleared hsound
  have hhistory := c.historyOf_cleared hsound c.address
  have hsound' : (smallStart history []).ledger.Sound := ⟨hsound.distinct, hsound.ordered, hsound.unsigned, rfl⟩
  have hlisted : (smallStart history []).cleared.ledger.historyOf c.address = history :=
    historyOf_smallStart history [] c.address
  refine ⟨⟨smallStart history failing, hsound, rfl, ?_⟩, hclear, rfl, World.clear_cleared hsound',
    hlisted.trans hhistory.symm, hhistory.symm ▸ hconsistent⟩
  exact .tail (.single (.backfill _ c {} rfl rfl rfl)) (.meanwhile _ _ ⟨rfl, List.prefix_refl _, rfl, hclear.ledger⟩)

/-- The second of three transactions could not be fetched at first. -/
theorem backfill_recovers_swap_held :
    ∃ count count' w' v',
      (smallCrawler.backfill {}).outcome (smallCrawler.cleared World.smallLedger.history ["swap"]) =
        (.ok (smallCrawler.completed "Backfill" count 0), w') ∧
      (smallCrawler.backfill {}).outcome (smallStart World.smallLedger.history []).cleared =
        (.ok (smallCrawler.completed "Backfill" count' 0), v') ∧
      w'.Agrees "pool" v' ∧ (smallCrawler.gapFill.outcome w').1 = .ok { message := "No gap for pool" } ∧
      (smallCrawler.gapFill.outcome w').2.database.store = w'.database.store := by
  have hsound := sound_smallLedger ["swap"]
  have hhistory := smallCrawler.historyOf_cleared hsound "pool"
  have hconsistent : Consistent (World.smallLedger.history.filterMap (·.crawled? "pool")) := by
    constructor <;> decide +kernel
  have hsigned : (smallCrawler.cleared World.smallLedger.history ["swap"]).ledger.Signed "pool" := by
    rw [RecordedLedger.Signed, hhistory]
    decide
  have hprocessable : ∀ tx ∈ (smallCrawler.cleared World.smallLedger.history ["swap"]).ledger.historyOf "pool",
      tx.Processable "pool" := by
    rw [hhistory]
    exact fun tx htx => processable_smallLedger [] tx (List.mem_filter.mpr ⟨htx, rfl⟩)
  have hrecovers := smallCrawler.backfill_recovers (by decide) (smallCrawler.rerun_cleared hsound hconsistent) hprocessable
    hsigned
  rw [show smallCrawler.address = "pool" from rfl, hhistory] at hrecovers
  exact hrecovers

/-- Transactions without events, from their signatures and slots. -/
def plainHistory (entries : List (String × Int)) : List LedgerTransaction :=
  entries.map fun (signature, slot) => ⟨signature, slot, none, [], .null⟩

/-- The last of three slots does not fit its column. -/
def overlongHistory : List LedgerTransaction :=
  plainHistory [("create", 1), ("swap", 2), ("repay", 9223372036854775808)]

/-- The oldest of three signatures is empty. -/
def unsignedHistory : List LedgerTransaction :=
  plainHistory [("", 1), ("swap", 2), ("repay", 3)]

/-- A crawler whose batches take in a small history as a whole. -/
def wideCrawler : Crawler where
  address := "pool"
  batchSize := 3

/-- An earlier failure shows in where the watermark ends if a slot does not fit its column, and in where it begins if the
oldest signature is empty. -/
theorem earlier_failure_leaves_trace :
    (¬∀ (c : Crawler) (w v : World), 0 < c.batchSize → World.Rerun c.address w v →
      (∀ tx ∈ w.ledger.historyOf c.address, ∃ d, tx.crawled? c.address = some d ∧
        ∀ e ∈ d.events, (Commit.event d.signature e).fits = true) →
      w.ledger.Signed c.address →
      (((c.backfill {}).outcome w).2.watermark? c.address).bind (·.latestSignature) =
        (((c.backfill {}).outcome v).2.watermark? c.address).bind (·.latestSignature)) ∧
    ¬∀ (c : Crawler) (w v : World), 0 < c.batchSize → World.Rerun c.address w v →
      (∀ tx ∈ w.ledger.historyOf c.address, tx.Processable c.address) →
      (((c.backfill {}).outcome w).2.watermark? c.address).bind (·.firstSignature) =
        (((c.backfill {}).outcome v).2.watermark? c.address).bind (·.firstSignature) := by
  constructor
  · intro h
    have hsound : (smallStart overlongHistory ["swap"]).ledger.Sound := by constructor <;> decide
    have hconsistent : Consistent (overlongHistory.filterMap (·.crawled? "pool")) := by
      constructor <;> decide +kernel
    have hhistory := smallCrawler.historyOf_cleared hsound "pool"
    have hfits : ∀ tx ∈ (smallCrawler.cleared overlongHistory ["swap"]).ledger.historyOf "pool",
        ∃ d, tx.crawled? "pool" = some d ∧ ∀ e ∈ d.events, (Commit.event d.signature e).fits = true := by
      rw [hhistory]
      intro tx htx
      obtain ⟨⟨signature, slot⟩, -, rfl⟩ := List.mem_map.mp htx
      exact ⟨_, rfl, List.forall_mem_nil _⟩
    have hsigned : (smallCrawler.cleared overlongHistory ["swap"]).ledger.Signed "pool" := by
      rw [RecordedLedger.Signed, hhistory]
      decide
    have hsame := h smallCrawler _ _ (by decide) (smallCrawler.rerun_cleared hsound hconsistent) hfits hsigned
    revert hsame
    decide +kernel
  · intro h
    have hsound : (smallStart unsignedHistory ["repay"]).ledger.Sound := by constructor <;> decide
    have hconsistent : Consistent (unsignedHistory.filterMap (·.crawled? "pool")) := by
      constructor <;> decide +kernel
    have hprocessable : ∀ tx ∈ (wideCrawler.cleared unsignedHistory ["repay"]).ledger.historyOf "pool",
        tx.Processable "pool" := by
      rw [wideCrawler.historyOf_cleared hsound]
      intro tx htx
      simp only [unsignedHistory, plainHistory, List.map_cons, List.map_nil, List.mem_cons, List.not_mem_nil,
        or_false] at htx
      rcases htx with rfl | rfl | rfl <;> exact ⟨_, rfl, by decide⟩
    have hsame := h wideCrawler _ _ (by decide) (wideCrawler.rerun_cleared hsound hconsistent) hprocessable
    revert hsame
    decide +kernel

end Crawler
end PairIndex
