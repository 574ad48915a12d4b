import Mathlib.Data.List.TakeWhile
import PairIndex.Proofs.Crawl.Answers

/-! Processing in calm. While nothing goes wrong but that the ledger holds transactions back, each transaction that it
gives is stored, and the watermark comes to stand at the end of what was given before the first that was held back
(`Crawler.processChunks_of_calm`). -/

namespace PairIndex

/-- A world in which nothing goes wrong but fetches that fail this time or find nothing. -/
structure World.Calm (w : World) : Prop where
  ledger : w.ledger.Sound
  fatal : w.ledger.switches.fatal = []
  failPages : w.ledger.switches.failPages = false
  failPageAt : w.ledger.switches.failPageAt = none
  stopOnPage : w.ledger.switches.stopOnPage = none
  stopOnFetch : w.ledger.switches.stopOnFetch = none
  goingOn : w.stopped = false
  quiet : w.database.Quiet

/-- A calm world whose ledger holds nothing back. -/
structure World.Clear (w : World) : Prop extends w.Calm where
  failing : w.ledger.switches.failing = []
  missing : w.ledger.switches.missing = []

/-- A world once nothing goes wrong any more. -/
def World.cleared (w : World) : World :=
  { w with
    database := { w.database with outlook := [] }
    ledger := { w.ledger with switches := {} }
    stopped := false }

theorem World.historyOf_cleared (w : World) (address : String) :
    w.cleared.ledger.historyOf address = w.ledger.historyOf address := rfl

theorem World.clear_cleared {w : World} (h : w.ledger.Sound) : w.cleared.Clear where
  ledger := ⟨h.distinct, h.ordered, h.unsigned, rfl⟩
  fatal := rfl
  failPages := rfl
  failPageAt := rfl
  stopOnPage := rfl
  stopOnFetch := rfl
  goingOn := rfl
  quiet := nofun
  failing := rfl
  missing := rfl

/-- A transaction that a crawl can process: the calendar has its block time, and its numbers fit their columns. -/
def LedgerTransaction.Processable (address : String) (tx : LedgerTransaction) : Prop :=
  ∃ d, tx.crawled? address = some d ∧ ∀ c ∈ d.commits, c.fits = true

theorem World.watermark?_of_empty {w : World} (h : w.database.store = {}) (address : String) :
    w.watermark? address = none := by
  rw [watermark?, h]
  rfl

theorem World.Clear.gives {w : World} (h : w.Clear) (tx : LedgerTransaction) : w.ledger.gives tx = true := by
  simp [RecordedLedger.gives, RecordedLedger.heldBack?, RecordedLedger.fetchFailure?, h.failing, h.fatal, h.missing]

namespace World.Calm

variable {w w' : World}

theorem answers (h : w.Calm) : w.Answers :=
  ⟨h.ledger.distinct, h.ledger.pages, h.fatal, h.quiet⟩

theorem of_ledger (h : w.Calm) (hledger : w'.ledger = w.ledger) (hstopped : w'.stopped = w.stopped)
    (hquiet : w'.database.Quiet) : w'.Calm := by
  obtain ⟨hsound, hfatal, hpages, hpageAt, hstopPage, hstopFetch, hgoing, -⟩ := h
  exact ⟨hledger ▸ hsound, hledger ▸ hfatal, hledger ▸ hpages, hledger ▸ hpageAt, hledger ▸ hstopPage,
    hledger ▸ hstopFetch, hstopped.trans hgoing, hquiet⟩

theorem of_alike (h : w.Calm) (halike : w.Alike w') (hstopped : w'.stopped = w.stopped) : w'.Calm :=
  h.of_ledger halike.ledger hstopped (halike.database ▸ h.quiet)

theorem of_proceeds (h : w.Calm) (hproceeds : w.Proceeds w') : w'.Calm :=
  h.of_ledger hproceeds.ledger (hproceeds.goingOn h.stopOnFetch) hproceeds.quiet

theorem afterSession (h : w.Calm) (s : Store) : (w.afterSession s).Calm :=
  h.of_proceeds (h.answers.afterSession s)

end World.Calm

/-! ## Processing -/

namespace LedgerTransaction.Processable

variable {address : String} {tx : LedgerTransaction}

theorem slot (h : tx.Processable address) : Session.fitsColumn tx.slot = true := by
  obtain ⟨d, hd, hfits⟩ := h
  have hrow := hfits _ List.mem_cons_self
  rwa [← slot_of_crawled? hd]

theorem isGood (h : tx.Processable address) : tx.isGood address = true := by
  have hslot := h.slot
  obtain ⟨d, hd, hfits⟩ := h
  exact (isGood_iff hd hslot).mpr hfits

theorem crawled (h : tx.Processable address) : (tx.crawled? address).isSome := by
  obtain ⟨d, hd, -⟩ := h
  rw [hd]
  rfl

end LedgerTransaction.Processable

theorem Crawler.ready_of_processable (c : Crawler) {w : World} {txs : List LedgerTransaction}
    (htxs : ∀ tx ∈ txs, tx ∈ w.ledger.historyOf c.address ∧ tx.Processable c.address) : c.Ready w txs := by
  intro tx htx
  obtain ⟨hmem, hprocessable⟩ := htxs tx htx
  exact ⟨hmem, hprocessable.crawled, hprocessable.slot⟩

/-- What a crawl can process it processes if it gets hold of it. -/
theorem LedgerTransaction.Processable.processes_eq {address : String} {tx : LedgerTransaction}
    (h : tx.Processable address) (l : RecordedLedger) : l.processes address tx = l.gives tx := by
  rw [RecordedLedger.processes, h.isGood, Bool.and_true]

/-! ## Watermarks -/

/-- A watermark that stands at the end of a part of the history that was passed. -/
structure WatermarkRow.StandsAfter (row : WatermarkRow) (passed : List LedgerTransaction) : Prop where
  latest : row.latestSignature = passed.getLast?.map (·.signature)
  checked : row.checkedUpToSlot = (passed.getLast?.map (·.slot)).getD 0

/-- A watermark may be moved on through a history whose slots never fall. -/
theorem WatermarkRow.StandsAfter.moveTo {row : WatermarkRow} {l : RecordedLedger} {address : String}
    {passed rest : List LedgerTransaction} {newest : LedgerTransaction} (h : row.StandsAfter passed) (hsound : l.Sound)
    (hhistory : l.historyOf address = passed ++ rest) (hmem : newest ∈ rest) (first : String) {more : List LedgerTransaction} (hmore : more.getLast? = some newest) :
    ((row.moveTo newest.signature newest.slot).beginAt first).StandsAfter (passed ++ more) := by
  have hle : row.checkedUpToSlot ≤ newest.slot := by
    rw [h.checked]
    have hnewest : newest ∈ l.historyOf address := hhistory ▸ List.mem_append_right _ hmem
    cases hlast : passed.getLast? with
    | none => exact hsound.unsigned newest (RecordedLedger.mem_of_mem_historyOf hnewest)
    | some last =>
      have hordered := hsound.orderedOf address
      rw [hhistory, List.pairwise_append] at hordered
      exact hordered.2.2 last (List.mem_of_getLast? hlast) newest hmem
  have hstands : (row.moveTo newest.signature newest.slot).StandsAfter (passed ++ more) := by
    rw [WatermarkRow.moveTo, if_pos hle]
    constructor <;> simp [List.getLast?_append, hmore]
  exact ⟨(latest_beginAt _ _).trans hstands.latest, (checked_beginAt _ _).trans hstands.checked⟩

namespace Crawler

section Counts

variable {α : Type} (gives : α → Bool) (txs : List α)

/-- The part of a chunk before the first transaction that is held back. -/
theorem take_successPrefix : txs.take (successPrefix (txs.map gives)) = txs.takeWhile gives := by
  rw [successPrefix, List.takeWhile_map, List.length_map]
  exact (List.prefix_iff_eq_take.mp (List.takeWhile_prefix _)).symm

/-- All of a chunk was given if and only if its successes are as many as its transactions. -/
theorem successPrefix_beq_length : (successPrefix (txs.map gives) == txs.length) = txs.all gives := by
  rw [Bool.eq_iff_iff, beq_iff_eq, List.all_eq_true, successPrefix, List.takeWhile_map, List.length_map,
    Function.id_comp]
  constructor
  · intro hlength
    exact List.takeWhile_eq_self_iff.mp ((List.takeWhile_prefix gives).eq_of_length hlength)
  · intro hall
    rw [List.takeWhile_eq_self_iff.mpr hall]

theorem countP_map_gives : (txs.map gives).countP id = txs.countP gives := by
  rw [List.countP_map]
  rfl

/-- What precedes the first transaction that is held back, if further transactions follow. -/
theorem takeWhile_append_eq (more : List α) :
    (txs ++ more).takeWhile gives = txs.takeWhile gives ++ if txs.all gives then more.takeWhile gives else [] := by
  have hself : (txs.takeWhile gives).length = txs.length ↔ txs.all gives = true := by
    rw [List.all_eq_true, ← List.takeWhile_eq_self_iff]
    exact ⟨(List.takeWhile_prefix gives).eq_of_length, congrArg _⟩
  by_cases hall : txs.all gives = true
  · rw [List.takeWhile_append, if_pos (hself.mpr hall), if_pos hall,
      List.takeWhile_eq_self_iff.mpr (List.all_eq_true.mp hall)]
  · rw [List.takeWhile_append, if_neg (mt hself.mp hall), if_neg hall, List.append_nil]

theorem length_sub_countP : txs.length - txs.countP gives = txs.countP fun tx => !gives tx := by
  rw [List.length_eq_countP_add_countP gives, Nat.add_sub_cancel_left]
  simp

end Counts

end Crawler

/-- A world in which a crawl has processed transactions that come after those that were passed. What it was given is
stored. Its watermark, if it was to be moved, passed what was given before the first transaction that was held back, and
is the old one otherwise. -/
structure World.Handled (address : String) (gives : LedgerTransaction → Bool) (advance : Bool)
    (passed txs : List LedgerTransaction) (row row' : WatermarkRow) (w : World) : Prop where
  calm : w.Calm
  watermark : w.watermark? address = some row'
  stands : advance = true → row'.StandsAfter (passed ++ txs.takeWhile gives)
  kept : advance = false → row' = row
  stored : ∀ tx ∈ txs, gives tx = true → Stored address tx w.database.store

/-- The watermark is moved on with a further chunk if all transactions before it were given. -/
theorem World.Handled.append {address : String} {gives : LedgerTransaction → Bool} {advance : Bool}
    {passed txs rest : List LedgerTransaction} {row row₁ row₂ : WatermarkRow} {w₁ w₂ : World}
    (h : w₁.Handled address gives advance passed txs row row₁)
    (h' : w₂.Handled address gives (advance && txs.all gives) (passed ++ txs) rest row₁ row₂)
    (hadds : w₁.Adds address w₂) : w₂.Handled address gives advance passed (txs ++ rest) row row₂ := by
  refine ⟨h'.calm, h'.watermark, fun hadvance => ?_, fun hstays => ?_, fun tx htx hgives => ?_⟩
  · by_cases hall : txs.all gives = true
    · have hstands := h'.stands (by rw [hadvance, hall, Bool.and_self])
      rwa [List.takeWhile_append_of_pos (List.all_eq_true.mp hall), ← List.append_assoc]
    · have hkept := h'.kept (by rw [Bool.eq_false_iff.mpr hall, Bool.and_false])
      rw [Crawler.takeWhile_append_eq, if_neg hall, List.append_nil, hkept]
      exact h.stands hadvance
  · rw [h'.kept (by rw [hstays, Bool.false_and]), h.kept hstays]
  · rcases List.mem_append.mp htx with htx | htx
    · exact (h.stored tx htx hgives).of_adds hadds
    · exact h'.stored tx htx hgives

namespace Crawler

variable {w : World} {row : WatermarkRow} {passed txs rest : List LedgerTransaction}

/-- In calm what is given of a chunk is stored, and the watermark passes what is given before the first transaction that
is held back. -/
theorem processChunk_of_calm (c : Crawler) (first : Option String) {advance : Bool} (hw : w.Calm)
    (hhistory : w.ledger.historyOf c.address = passed ++ (txs ++ rest)) (htxs : ∀ tx ∈ txs, tx.Processable c.address)
    (hrow : w.watermark? c.address = some row) (hstands : advance = true → row.StandsAfter passed) :
    ∃ w' row', (c.processChunk first advance (txs.map (·.info))).outcome w = (.ok (txs.map w.ledger.gives), w') ∧
      w'.Handled c.address w.ledger.gives advance passed txs row row' := by
  have hready : c.Ready w txs := by
    apply c.ready_of_processable
    intro tx htx
    refine ⟨?_, htxs tx htx⟩
    rw [hhistory]
    simp [htx]
  have hgives : txs.map (w.ledger.processes c.address) = txs.map w.ledger.gives :=
    List.map_congr_left fun tx htx => (htxs tx htx).processes_eq w.ledger
  obtain ⟨w', ho, hproceeds, -, hrecorded, hwatermark⟩ := c.processChunk_of_answers first advance hw.answers hready
  have hcalm := hw.of_proceeds hproceeds
  have hstored : ∀ tx ∈ txs, w.ledger.gives tx = true → Stored c.address tx w'.database.store :=
    fun tx htx hgiven => (hrecorded tx htx hgiven).stored (htxs tx htx).isGood
  rw [hgives, take_successPrefix, hrow] at hwatermark
  rw [hgives] at ho
  cases advance with
  | false => exact ⟨w', row, ho, hcalm, hwatermark, fun h => absurd h Bool.false_ne_true, fun _ => rfl, hstored⟩
  | true =>
    cases hnewest : (txs.takeWhile w.ledger.gives).getLast? with
    | none =>
      rw [hnewest] at hwatermark
      refine ⟨w', row, ho, hcalm, hwatermark, fun _ => ?_, fun _ => rfl, hstored⟩
      rw [List.getLast?_eq_none_iff.mp hnewest, List.append_nil]
      exact hstands rfl
    | some newest =>
      rw [hnewest] at hwatermark
      have hmem : newest ∈ txs := List.takeWhile_subset _ (List.mem_of_getLast? hnewest)
      exact ⟨w', _, ho, hcalm, hwatermark, fun _ => (hstands rfl).moveTo hw.ledger hhistory
        (List.mem_append_left _ hmem) (firstOf newest.signature first) hnewest, fun h => absurd h.symm Bool.false_ne_true,
        hstored⟩

/-- In calm what is given of the rest of the history is stored, and the watermark passes what is given before the first
transaction that is held back. -/
theorem processChunks_of_calm (c : Crawler) (first : Option String) {advance : Bool} {chunks : List (List SignatureInfo)}
    (hw : w.Calm) (hhistory : w.ledger.historyOf c.address = passed ++ rest) (hrest : ∀ tx ∈ rest, tx.Processable c.address)
    (hchunks : chunks.flatten = rest.map (·.info)) (hrow : w.watermark? c.address = some row)
    (hstands : advance = true → row.StandsAfter passed) :
    ∃ w' row', (c.processChunks first advance chunks).outcome w =
        (.ok (rest.countP w.ledger.gives, rest.countP fun tx => !w.ledger.gives tx), w') ∧
      w'.Handled c.address w.ledger.gives advance passed rest row row' := by
  induction chunks generalizing w row advance passed rest with
  | nil =>
    have hnil : rest = [] := List.map_eq_nil_iff.mp hchunks.symm
    subst hnil
    exact ⟨w, row, rfl, hw, hrow, by simpa using hstands, fun _ => rfl, List.forall_mem_nil _⟩
  | cons chunk chunks ih =>
    obtain ⟨txs, rest, rfl, rfl, hrest'⟩ := List.append_eq_map_iff.mp (List.flatten_cons ▸ hchunks)
    have hmem : ∀ tx ∈ txs ++ rest, tx ∈ w.ledger.historyOf c.address := fun tx htx => hhistory ▸ List.mem_append_right _ htx
    obtain ⟨w₁, row₁, ho, hhandled⟩ := c.processChunk_of_calm first hw hhistory
      (fun tx htx => hrest tx (List.mem_append_left _ htx)) hrow hstands
    have hledger : w₁.ledger = w.ledger := by
      have hcrawls := c.crawls_processChunk first advance (fun tx htx => hmem tx (List.mem_append_left _ htx))
        hw.ledger.distinct
      rw [ho] at hcrawls
      exact hcrawls.ledger
    have hstands₁ : (advance && txs.all w.ledger.gives) = true →
        row₁.StandsAfter (passed ++ txs) := by
      intro h
      obtain ⟨hadvance, hall⟩ := Bool.and_eq_true_iff.mp h
      have hpassed := hhandled.stands hadvance
      rwa [List.takeWhile_eq_self_iff.mpr (List.all_eq_true.mp hall)] at hpassed
    have hhistory₁ : w₁.ledger.historyOf c.address = (passed ++ txs) ++ rest := by rw [hledger, hhistory, List.append_assoc]
    obtain ⟨w₂, row₂, ho', hhandled'⟩ := ih hhandled.calm hhistory₁
      (fun tx htx => hrest tx (List.mem_append_right _ htx)) hrest'.symm hhandled.watermark hstands₁
    have hcrawls := c.crawls_processChunks first (advance && txs.all w.ledger.gives) hrest'.symm
      (fun tx htx => hledger ▸ hmem tx (List.mem_append_right _ htx)) hhandled.calm.ledger.distinct
    rw [ho'] at hcrawls
    rw [hledger] at ho' hhandled'
    refine ⟨w₂, row₂, ?_, hhandled.append hhandled' hcrawls.toAdds⟩
    rw [processChunks_cons, hw.goingOn]
    simp only [Bool.false_eq_true, if_false, List.length_map]
    rw [Attempt.outcome_bind_of_ok ho, successPrefix_beq_length, Attempt.outcome_bind_of_ok ho']
    simp only [Attempt.outcome_pure, countP_map_gives, List.countP_append, length_sub_countP]

end Crawler
end PairIndex
