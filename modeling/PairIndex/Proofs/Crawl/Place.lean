import Mathlib.Tactic.TFAE
import PairIndex.Proofs.Crawl.Completion
import PairIndex.Proofs.Crawl.Recovery

/-! Where a watermark is moved to. A crawl moves the watermark of its address to a transaction that it collected, in a
slot no lower than the one it stands at (`Crawler.moves_backfill`, `Crawler.moves_gapFill`). Within a slot that leaves
room for a move back. Crawls that stop at the watermark do not make one, and those that walk past it do if and only if
two transactions share a slot (`Crawler.keeps_place_iff`). -/

namespace PairIndex

/-! ## Moves -/

/-- A watermark stays where it is, or is moved to one of some transactions in a slot that is no lower. -/
inductive WatermarkRow.MovesTo (txs : List LedgerTransaction) (row row' : WatermarkRow) : Prop where
  | stays (latest : row'.latestSignature = row.latestSignature) (checked : row'.checkedUpToSlot = row.checkedUpToSlot)
  | moves {tx : LedgerTransaction} (mem : tx ∈ txs) (latest : row'.latestSignature = some tx.signature)
      (checked : row'.checkedUpToSlot = tx.slot) (le : row.checkedUpToSlot ≤ tx.slot)
      (fits : Session.fitsColumn tx.slot = true)

namespace WatermarkRow.MovesTo

variable {txs txs' : List LedgerTransaction} {row row' row'' : WatermarkRow}

theorem mono (h : row.MovesTo txs row') (hsubset : ∀ tx ∈ txs, tx ∈ txs') : row.MovesTo txs' row' := by
  cases h with
  | stays hlatest hchecked => exact .stays hlatest hchecked
  | moves hmem hlatest hchecked hle hfits => exact .moves (hsubset _ hmem) hlatest hchecked hle hfits

theorem trans (h : row.MovesTo txs row') (h' : row'.MovesTo txs row'') : row.MovesTo txs row'' := by
  cases h' with
  | stays hlatest' hchecked' =>
    cases h with
    | stays hlatest hchecked => exact .stays (hlatest'.trans hlatest) (hchecked'.trans hchecked)
    | moves hmem hlatest hchecked hle hfits =>
      exact .moves hmem (hlatest'.trans hlatest) (hchecked'.trans hchecked) hle hfits
  | moves hmem' hlatest' hchecked' hle' hfits' =>
    refine .moves hmem' hlatest' hchecked' ?_ hfits'
    cases h with
    | stays _ hchecked => exact hchecked ▸ hle'
    | moves _ _ hchecked hle _ => exact Int.le_trans hle (hchecked ▸ hle')

/-- Moving a watermark and noting where it began. -/
theorem moveTo {tx : LedgerTransaction} (hmem : tx ∈ txs) (hfits : Session.fitsColumn tx.slot = true) (first : String)
    (row : WatermarkRow) : row.MovesTo txs ((row.moveTo tx.signature tx.slot).beginAt first) := by
  have hlatest := latest_beginAt first (row.moveTo tx.signature tx.slot)
  have hchecked := checked_beginAt first (row.moveTo tx.signature tx.slot)
  by_cases hle : row.checkedUpToSlot ≤ tx.slot
  · rw [WatermarkRow.moveTo, if_pos hle] at hlatest hchecked ⊢
    exact .moves hmem hlatest hchecked hle hfits
  · rw [WatermarkRow.moveTo, if_neg hle] at hlatest hchecked ⊢
    exact .stays hlatest hchecked

end WatermarkRow.MovesTo

/-- A later world with the same history, in which the watermark of an address stayed where it was or was moved to one of
some transactions. -/
structure World.Moves (address : String) (txs : List LedgerTransaction) (w w' : World) : Prop where
  ledger : w'.ledger = w.ledger
  watermark : ∀ row, w.watermark? address = some row → ∃ row', w'.watermark? address = some row' ∧ row.MovesTo txs row'

namespace World.Moves

variable {address : String} {txs txs' : List LedgerTransaction} {w w' w'' : World}

theorem of_watermarks (hledger : w'.ledger = w.ledger)
    (hwatermarks : w'.database.store.watermarks = w.database.store.watermarks) : w.Moves address txs w' := by
  refine ⟨hledger, fun row hrow => ⟨row, ?_, .stays rfl rfl⟩⟩
  rw [World.watermark?, hwatermarks]
  exact hrow

theorem of_alike (h : w.Alike w') : w.Moves address txs w' :=
  of_watermarks h.ledger (by rw [h.database])

theorem mono (h : w.Moves address txs w') (hsubset : ∀ tx ∈ txs, tx ∈ txs') : w.Moves address txs' w' := by
  refine ⟨h.ledger, fun row hrow => ?_⟩
  obtain ⟨row', hrow', hmoves⟩ := h.watermark row hrow
  exact ⟨row', hrow', hmoves.mono hsubset⟩

theorem trans (h : w.Moves address txs w') (h' : w'.Moves address txs w'') : w.Moves address txs w'' := by
  refine ⟨h'.ledger.trans h.ledger, fun row hrow => ?_⟩
  obtain ⟨row', hrow', hmoves⟩ := h.watermark row hrow
  obtain ⟨row'', hrow'', hmoves'⟩ := h'.watermark row' hrow'
  exact ⟨row'', hrow'', hmoves.trans hmoves'⟩

end World.Moves

/-! ## Crawls -/

namespace Crawler

variable {w : World} {txs : List LedgerTransaction}

theorem moves_moveWatermark (c : Crawler) (first : Option String) (count : Nat) (w : World) :
    w.Moves c.address txs ((c.moveWatermark first (txs.map (·.info)) count).outcome w).2 := by
  rw [moveWatermark, ← List.map_take, List.getLast?_map]
  cases hnewest : (txs.take count).getLast? with
  | none => exact .of_alike (.refl w)
  | some newest =>
    have hmem : newest ∈ txs := List.mem_of_mem_take (List.mem_of_getLast? hnewest)
    have hsame : w.Moves c.address txs (w.afterSession w.database.store) := .of_watermarks rfl rfl
    simp only [Option.map_some, Attempt.outcome_bind_pure_snd]
    rw [World.outcome_session_eq]
    cases nextFault w.database.outlook with
    | some failure => exact hsame
    | none =>
      by_cases hfits : Session.fitsColumn newest.slot = true
      · obtain ⟨moved, s, hrun, hfind, -⟩ :=
          Session.find?_advanceWatermark c.address newest.signature first w.database.store hfits
        simp only [LedgerTransaction.info, hrun]
        refine ⟨rfl, fun row hrow => ⟨_, ?_, .moveTo hmem hfits (firstOf newest.signature first) row⟩⟩
        rw [World.watermark?, World.afterSession, hfind, show w.database.store.watermarks.find? c.address = some row from hrow]
        rfl
      · have hrun : (Session.advanceWatermark c.address newest.signature newest.slot first).run w.database.store =
            .error Session.columnOverflow := by
          unfold Session.advanceWatermark Session.checkColumn
          rw [if_neg hfits]
          rfl
        simp only [LedgerTransaction.info, hrun]
        exact hsame

theorem moves_processChunk (c : Crawler) (first : Option String) (advance : Bool)
    (htxs : ∀ tx ∈ txs, tx ∈ w.ledger.historyOf c.address) (hdistinct : (w.ledger.history.map (·.signature)).Nodup) :
    w.Moves c.address txs ((c.processChunk first advance (txs.map (·.info))).outcome w).2 := by
  have hext := (c.outcome_ingestChunk (fun tx htx => RecordedLedger.mem_of_mem_historyOf (htxs tx htx)) hdistinct).1
  have hmoves : w.Moves c.address txs ((c.ingestChunk (txs.map (·.info))).outcome w).2 :=
    .of_watermarks hext.ledger hext.watermarks
  rw [processChunk]
  rcases hingest : (c.ingestChunk (txs.map (·.info))).outcome w with ⟨failure | oks, w'⟩
  · rw [hingest] at hmoves
    rw [Attempt.outcome_bind_of_error hingest]
    exact hmoves
  · rw [hingest] at hmoves
    rw [Attempt.outcome_bind_of_ok hingest]
    cases advance with
    | false => exact hmoves
    | true =>
      simp only [if_true]
      rw [Attempt.outcome_bind_pure_snd]
      exact hmoves.trans (c.moves_moveWatermark first _ w')

/-- Processing a piece of the history moves the watermark to a transaction of it, if at all. -/
theorem moves_processAll (c : Crawler) (batchSize : Int) (advance : Bool)
    (htxs : ∀ tx ∈ txs, tx ∈ w.ledger.historyOf c.address) (hdistinct : (w.ledger.history.map (·.signature)).Nodup) :
    w.Moves c.address txs ((c.processAll (txs.map (·.info)) batchSize advance).outcome w).2 := by
  refine c.processAll_induction (P := w.Moves c.address txs) (fun w' advance front hmoves hfront => ?_) batchSize advance
    (.of_alike (.refl w))
  have hledger := hmoves.ledger
  have hchunk := c.moves_processChunk (txs.head?.map (·.signature)) advance
    (fun tx htx => hledger ▸ htxs tx (hfront tx htx)) (hledger ▸ hdistinct)
  exact hmoves.trans (hchunk.mono hfront)

/-- Whatever fails, a backfill moves the watermark to a transaction that it collected, if at all. -/
theorem moves_backfill (c : Crawler) (r : BackfillRequest) (hsound : w.ledger.Sound)
    (hmem : ∀ tx ∈ txs, tx ∈ w.ledger.historyOf c.address)
    (hpiece : ((c.backfillBounds r w).scan (w.ledger.index c.address)).1.reverse = txs.map (·.info)) :
    w.Moves c.address txs ((c.backfill r).outcome w).2 := by
  have hopened : ∀ row s, (Session.openWatermark c.address c.description).run w.database.store = .ok (row, s) →
      w.Moves c.address txs (w.afterSession s) ∧
        row.latestSignature = (w.watermark? c.address).bind (·.latestSignature) := by
    intro row s hrun
    obtain ⟨row', s', hrun', -, hfind, hrow⟩ := Session.find?_openWatermark c.address c.description w.database.store
    rw [hrun] at hrun'
    cases hrun'
    refine ⟨⟨rfl, fun old hold => ⟨row, hfind, ?_⟩⟩, ?_⟩
    · rw [hrow, show w.database.store.watermarks.find? c.address = some old from hold]
      exact .stays rfl rfl
    · rw [hrow, World.watermark?]
      cases w.database.store.watermarks.find? c.address <;> rfl
  refine c.backfill_induction r (P := w.Moves c.address txs) hsound
    (fun row s hrun => show _ = txs.map (·.info) from ?_) (.of_watermarks rfl rfl) ?_ ?_
  · rw [(hopened row s hrun).2]
    exact hpiece
  · intro row s w' hrun halike
    exact (hopened row s hrun).1.trans (.of_alike halike)
  · intro row s w' batchSize advance hrun halike
    have hledger : w'.ledger = w.ledger := halike.ledger
    exact ((hopened row s hrun).1.trans (.of_alike halike)).trans
      (c.moves_processAll batchSize advance (hledger ▸ hmem) (hledger ▸ hsound.distinct))

/-- Whatever fails, a gap fill moves the watermark to a transaction that is newer, if at all. -/
theorem moves_gapFill (c : Crawler) (hsound : w.ledger.Sound)
    (hmem : ∀ tx ∈ txs, tx ∈ w.ledger.historyOf c.address)
    (hpiece : ∀ latest, (w.watermark? c.address).bind (·.latestSignature) = some latest →
      (WalkBounds.scan { stopAt := some latest } (w.ledger.index c.address)).1.reverse = txs.map (·.info)) :
    w.Moves c.address txs (c.gapFill.outcome w).2 := by
  have hsame : w.Moves c.address txs (w.afterSession w.database.store) := .of_watermarks rfl rfl
  refine c.gapFill_induction (P := w.Moves c.address txs) hsound hpiece (fun w' halike => hsame.trans (.of_alike halike))
    fun w' batchSize advance halike => (hsame.trans (.of_alike halike)).trans ?_
  have hledger : w'.ledger = w.ledger := halike.ledger
  exact c.moves_processAll batchSize advance (hledger ▸ hmem) (hledger ▸ hsound.distinct)

end Crawler

/-! ## Places -/

/-- The signatures and slots of a history. -/
def RecordedLedger.entries (l : RecordedLedger) : List (String × Int) :=
  l.history.map fun tx => (tx.signature, tx.slot)

/-- The place in its history of the latest signature of an address's watermark. -/
def World.place? (w : World) (address : String) : Option Nat :=
  ((w.watermark? address).bind (·.latestSignature)).bind fun latest =>
    (w.ledger.historyOf address).findIdx? fun tx => tx.signature == latest

/-- What a scan keeps is newer than the signature at which it stops. -/
theorem WalkBounds.mem_above_of_mem_scan {b : WalkBounds} {above below : List SignatureInfo} {stop info : SignatureInfo}
    (hstop : b.stopAt = some stop.signature) (h : info ∈ (b.scan (above ++ stop :: below)).1) : info ∈ above := by
  induction above with
  | nil =>
    rw [List.nil_append, scan_cons, if_pos hstop] at h
    exact absurd h List.not_mem_nil
  | cons newer above ih =>
    rw [List.cons_append, scan_cons] at h
    split_ifs at h
    · exact absurd h List.not_mem_nil
    · exact absurd h List.not_mem_nil
    · exact List.mem_cons_of_mem _ (ih h)
    · exact (List.mem_cons.mp h).elim (fun heq => heq ▸ List.mem_cons_self) fun h => List.mem_cons_of_mem _ (ih h)

section Places

variable {w w' : World} {address : String} {row : WatermarkRow} {i j : Nat} {last tx : LedgerTransaction}

theorem RecordedLedger.Sound.of_prefix {l l' : RecordedLedger} (h : l'.Sound) (hgrown : l.history <+: l'.history)
    (hpages : l.switches.pages = none) : l.Sound :=
  ⟨h.distinct.sublist (hgrown.sublist.map _), h.ordered.sublist hgrown.sublist,
    fun tx htx => h.unsigned tx (hgrown.subset htx), hpages⟩

theorem RecordedLedger.Sound.place?_eq (h : w.ledger.Sound) (hrow : w.watermark? address = some row)
    (hj : (w.ledger.historyOf address)[j]? = some last) (hlatest : row.latestSignature = some last.signature) :
    w.place? address = some j := by
  rw [World.place?, hrow, Option.bind_some, hlatest, Option.bind_some, List.findIdx?_eq_some_iff_getElem]
  obtain ⟨hlt, rfl⟩ := List.getElem?_eq_some_iff.mp hj
  refine ⟨hlt, beq_self_eq_true _, fun k hk hsame => ?_⟩
  have := h.eq_of_signature (List.getElem?_eq_getElem (by omega)) hj (beq_iff_eq.mp hsame)
  omega

/-- Where a watermark stands that is safe: nowhere, or at the transaction that it names. -/
theorem World.Safe.place? (h : w.Safe) (address : String) :
    w.place? address = none ∨ ∃ row j last, w.watermark? address = some row ∧
      (w.ledger.historyOf address)[j]? = some last ∧ row.latestSignature = some last.signature ∧
      row.checkedUpToSlot = last.slot ∧ w.place? address = some j := by
  cases hrow : w.watermark? address with
  | none => exact .inl (by rw [World.place?, hrow]; rfl)
  | some row =>
    rcases h.watermarks row (Table.mem_of_find? hrow) with hfresh | ⟨_, j, hspans, -⟩
    · exact .inl (by rw [World.place?, hrow, Option.bind_some, hfresh.latest]; rfl)
    · obtain ⟨last, hj, hlatest, hchecked, -⟩ := hspans.latest
      rw [show row.account = address from Table.key_of_find? hrow] at hj
      exact .inr ⟨row, j, last, rfl, hj, hlatest, hchecked, h.ledger.place?_eq hrow hj hlatest⟩

/-- A watermark keeps its place if the transactions that it may be moved to are no older, as far as their slots let it
be moved. -/
theorem World.Moves.place?_le {txs : List LedgerTransaction} (h : w.Moves address txs w') (hsafe : w.Safe)
    (hmem : ∀ tx ∈ txs, tx ∈ w.ledger.historyOf address)
    (hnewer : ∀ (i j : Nat) (tx last : LedgerTransaction), (w.ledger.historyOf address)[i]? = some tx → tx ∈ txs →
      (w.ledger.historyOf address)[j]? = some last → (w.watermark? address).bind (·.latestSignature) = some last.signature →
      last.slot ≤ tx.slot → Session.fitsColumn tx.slot = true → j ≤ i) :
    w.place? address ≤ w'.place? address := by
  rcases hsafe.place? address with hnone | ⟨row, j, last, hrow, hj, hlatest, hchecked, hplace⟩
  · rw [hnone]
    exact Option.none_le
  · obtain ⟨row', hrow', hmoves⟩ := h.watermark row hrow
    have hledger := h.ledger
    have hsound : w'.ledger.Sound := hledger ▸ hsafe.ledger
    rw [hplace]
    cases hmoves with
    | stays hlatest' =>
      rw [hsound.place?_eq hrow' (hledger ▸ hj) (hlatest'.trans hlatest)]
      exact Option.some_le_some.mpr (Nat.le_refl j)
    | @moves tx htx hlatest' hchecked' hle hfits =>
      obtain ⟨i, hi⟩ := List.mem_iff_getElem?.mp (hmem tx htx)
      rw [hsound.place?_eq hrow' (hledger ▸ hi) hlatest', Option.some_le_some]
      exact hnewer i j tx last hi htx hj (by rw [hrow, Option.bind_some, hlatest]) (hchecked ▸ hle) hfits

/-- What a walk keeps that stops at a transaction is newer than that. -/
theorem RecordedLedger.Sound.lt_of_mem_scan {l : RecordedLedger} (h : l.Sound) {b : WalkBounds}
    {piece : List LedgerTransaction} (hpiece : (b.scan (l.index address)).1.reverse = piece.map (·.info))
    (hj : (l.historyOf address)[j]? = some last) (hstop : b.stopAt = some last.signature)
    (hi : (l.historyOf address)[i]? = some tx) (htx : tx ∈ piece) : j < i := by
  obtain ⟨older, newer, hhistory, hlength⟩ :
      ∃ older newer, l.historyOf address = older ++ last :: newer ∧ older.length = j := by
    obtain ⟨hlt, rfl⟩ := List.getElem?_eq_some_iff.mp hj
    exact ⟨(l.historyOf address).take j, (l.historyOf address).drop (j + 1), by simp, List.length_take_of_le hlt.le⟩
  have hindex : l.index address = (newer.map (·.info)).reverse ++ last.info :: (older.map (·.info)).reverse := by
    simp [RecordedLedger.index, hhistory]
  have hkept : tx.info ∈ (b.scan (l.index address)).1 := by
    rw [← List.mem_reverse, hpiece]
    exact List.mem_map_of_mem htx
  rw [hindex] at hkept
  have habove := WalkBounds.mem_above_of_mem_scan (show b.stopAt = some last.info.signature from hstop) hkept
  obtain ⟨tx', htx', hinfo⟩ := List.mem_map.mp (List.mem_reverse.mp habove)
  obtain ⟨k, hk⟩ := List.mem_iff_getElem?.mp htx'
  have hplace : (l.historyOf address)[j + 1 + k]? = some tx' := by
    rw [hhistory, List.getElem?_append_right (by omega), hlength, show j + 1 + k - j = k + 1 by omega,
      List.getElem?_cons_succ, hk]
  have hsame := h.eq_of_signature hplace hi (congrArg SignatureInfo.signature hinfo)
  omega

end Places

/-! ## Crawls that keep their place -/

namespace World.Safe

variable {w : World}

theorem gapFill_keeps_place (c : Crawler) (h : w.Safe) :
    w.place? c.address ≤ (c.gapFill.outcome w).2.place? c.address := by
  obtain ⟨piece, hsublist, hpiece⟩ :=
    w.ledger.exists_scanned c.address { stopAt := (w.watermark? c.address).bind (·.latestSignature) }
  have hmoves := c.moves_gapFill h.ledger (fun _ htx => hsublist.subset htx) fun latest hlatest => by
    rw [← hlatest]
    exact hpiece
  refine hmoves.place?_le h (fun _ htx => hsublist.subset htx) fun i j tx last hi htx hj hlatest _ _ => ?_
  exact (h.ledger.lt_of_mem_scan hpiece hj hlatest hi htx).le

theorem moves_backfill (c : Crawler) (r : BackfillRequest) (h : w.Safe) :
    ∃ piece : List LedgerTransaction, (∀ tx ∈ piece, tx ∈ w.ledger.historyOf c.address) ∧
      ((c.backfillBounds r w).scan (w.ledger.index c.address)).1.reverse = piece.map (·.info) ∧
      w.Moves c.address piece ((c.backfill r).outcome w).2 := by
  obtain ⟨piece, hsublist, hpiece⟩ := w.ledger.exists_scanned c.address (c.backfillBounds r w)
  have hmem : ∀ tx ∈ piece, tx ∈ w.ledger.historyOf c.address := fun _ htx => hsublist.subset htx
  exact ⟨piece, hmem, hpiece, c.moves_backfill r h.ledger hmem hpiece⟩

/-- A backfill that stops at the watermark does not move it back. -/
theorem backfill_keeps_place (c : Crawler) {r : BackfillRequest} (h : w.Safe) (hr : r.reprocess = false) :
    w.place? c.address ≤ ((c.backfill r).outcome w).2.place? c.address := by
  obtain ⟨piece, hmem, hpiece, hmoves⟩ := h.moves_backfill c r
  refine hmoves.place?_le h hmem fun i j tx last hi htx hj hlatest _ _ => ?_
  refine (h.ledger.lt_of_mem_scan hpiece hj ?_ hi htx).le
  rw [Crawler.backfillBounds, hr, ← hlatest]
  rfl

/-- Among transactions that do not share slots no backfill moves the watermark back. -/
theorem backfill_keeps_place_of_slots (c : Crawler) (r : BackfillRequest) (h : w.Safe)
    (hslots : w.ledger.history.Pairwise fun earlier later =>
      earlier.slot = later.slot → Session.fitsColumn earlier.slot = false) :
    w.place? c.address ≤ ((c.backfill r).outcome w).2.place? c.address := by
  obtain ⟨piece, hmem, -, hmoves⟩ := h.moves_backfill c r
  refine hmoves.place?_le h hmem fun i j tx last hi _ hj _ hle hfits => ?_
  obtain ⟨hilt, rfl⟩ := List.getElem?_eq_some_iff.mp hi
  obtain ⟨hjlt, rfl⟩ := List.getElem?_eq_some_iff.mp hj
  by_contra hlt
  have hordered := List.pairwise_iff_getElem.mp (h.ledger.orderedOf c.address) i j hilt hjlt (by omega)
  have hslots := hslots.sublist (w.ledger.historyOf_sublist c.address)
  have hshared := List.pairwise_iff_getElem.mp hslots i j hilt hjlt (by omega) (Int.le_antisymm hordered hle)
  rw [hfits] at hshared
  cases hshared

end World.Safe

/-! ## A move back -/

/-- A world in which nothing goes wrong but that the ledger fails for the time being. -/
structure World.Hindered (w : World) : Prop extends w.Answers where
  stopOnPage : w.ledger.switches.stopOnPage = none
  stopOnFetch : w.ledger.switches.stopOnFetch = none
  goingOn : w.stopped = false

/-- A world that crawls by one crawler lead to from an empty store. Between two crawls the history may grow, and what
fails for the time being may change. -/
inductive Crawler.Leads (c : Crawler) : World → Prop where
  | start (w : World) : w.ledger.Sound → w.Hindered → w.database.store = {} → c.Leads w
  | backfill {w : World} (r : BackfillRequest) : c.Leads w → c.Leads ((c.backfill r).outcome w).2
  | gapFill {w : World} : c.Leads w → c.Leads (c.gapFill.outcome w).2
  | meanwhile {w w' : World} : c.Leads w → w.Meanwhile w' → w'.Hindered → c.Leads w'

theorem Crawler.Leads.reachable {c : Crawler} {w : World} (h : c.Leads w) : w.Reachable := by
  induction h with
  | start w hsound _ hstore => exact .start w hsound hstore
  | backfill r _ ih => exact .step ih (.backfill _ c r)
  | gapFill _ ih => exact .step ih (.gapFill _ c)
  | meanwhile _ hmean _ ih => exact .step ih (.meanwhile _ _ hmean)

theorem World.Calm.hindered {w : World} (h : w.Calm) : w.Hindered :=
  ⟨h.answers, h.stopOnPage, h.stopOnFetch, h.goingOn⟩

/-- A backfill that walks past the watermark, through a history of the given length in one batch. -/
def BackfillRequest.whole (length : Nat) : BackfillRequest where
  reprocess := true
  batchSize := some length

namespace Crawler

variable {w : World}

/-- A backfill of everything in one batch opens the watermark, walks and processes one chunk. -/
theorem backfill_of_one_batch (c : Crawler) {row : WatermarkRow} {s : Store} {infos : List SignatureInfo}
    {outcomes : List Bool} {w₁ w₂ : World} (hquiet : w.database.Quiet)
    (hrun : (Session.openWatermark c.address c.description).run w.database.store = .ok (row, s))
    (hwalk : (c.paging.walk {}).outcome (w.afterSession s) = (.ok { signatures := infos, connected := true }, w₁))
    (hne : infos ≠ []) (hgoing : w₁.stopped = false)
    (hchunk : (c.processChunk (infos.head?.map (·.signature)) true infos).outcome w₁ = (.ok outcomes, w₂)) :
    ((c.backfill (.whole infos.length)).outcome w).2 = w₂ := by
  have hlength : (infos.length : Int) ≠ 0 := by simpa using hne
  rw [backfill, Attempt.outcome_bind_of_ok (World.outcome_session_of_quiet hquiet hrun)]
  refine (congrArg Prod.snd (Attempt.outcome_bind_of_ok (Attempt.outcome_settle_of_eq hwalk) _)).trans ?_
  simp only [Bool.true_or, Attempt.outcome_bind_pure_snd]
  change ((c.processAll _ (c.batchSizeOf (.whole infos.length)) true).outcome w₁).2 = w₂
  rw [show c.batchSizeOf (.whole infos.length) = infos.length from if_neg hlength]
  exact c.processAll_of_one_chunk hne (Int.le_refl _) hgoing hchunk

/-- In calm a backfill of all of the history in one batch moves the watermark to the last transaction before the first
that is held back, if that lies in no lower slot than the watermark. -/
theorem latest_of_one_batch (c : Crawler) (hw : w.Calm)
    (hprocessable : ∀ tx ∈ w.ledger.historyOf c.address, tx.Processable c.address) {newest : LedgerTransaction}
    (hnewest : ((w.ledger.historyOf c.address).takeWhile w.ledger.gives).getLast? = some newest)
    (hle : ∀ row, w.watermark? c.address = some row → row.checkedUpToSlot ≤ newest.slot) :
    ∃ row, ((c.backfill (.whole (w.ledger.historyOf c.address).length)).outcome w).2.watermark? c.address = some row ∧
      row.latestSignature = some newest.signature ∧ row.checkedUpToSlot = newest.slot := by
  have hmem : newest ∈ w.ledger.historyOf c.address := (List.takeWhile_sublist _).subset (List.mem_of_getLast? hnewest)
  have hne : w.ledger.historyOf c.address ≠ [] := List.ne_nil_of_mem hmem
  obtain ⟨row, s, hrun, -, hfind, hrow⟩ := Session.find?_openWatermark c.address c.description w.database.store
  have hchecked : row.checkedUpToSlot ≤ newest.slot := by
    cases hold : w.watermark? c.address with
    | none =>
      rw [hrow, show w.database.store.watermarks.find? c.address = none from hold]
      exact hw.ledger.unsigned newest (RecordedLedger.mem_of_mem_historyOf hmem)
    | some old =>
      rw [hrow, show w.database.store.watermarks.find? c.address = some old from hold]
      exact hle old hold
  have hhistory : (w.afterSession s).ledger.historyOf c.address = [] ++ w.ledger.historyOf c.address := rfl
  have hstop : none = ([] : List LedgerTransaction).getLast?.map (·.signature) := rfl
  obtain ⟨w₁, hwalk, halike, hcalm⟩ := (hw.afterSession s).outcome_walk c.paging hhistory hstop
  have hledger : w₁.ledger = w.ledger := halike.ledger
  have hrow₁ : w₁.watermark? c.address = some row := by
    rw [World.watermark?, halike.database]
    exact hfind
  have hready : c.Ready w₁ (w.ledger.historyOf c.address) :=
    c.ready_of_processable fun tx htx => ⟨hledger ▸ htx, hprocessable tx htx⟩
  have hgives : (w.ledger.historyOf c.address).map (w.ledger.processes c.address) =
      (w.ledger.historyOf c.address).map w.ledger.gives :=
    List.map_congr_left fun tx htx => (hprocessable tx htx).processes_eq w.ledger
  obtain ⟨w₂, hchunk, -, -, -, hmoved⟩ := c.processChunk_of_answers
    (((w.ledger.historyOf c.address).map (·.info)).head?.map (·.signature)) true hcalm.answers hready
  rw [hledger, hgives, take_successPrefix, hrow₁, if_pos rfl, hnewest] at hmoved
  have ho := c.backfill_of_one_batch hw.quiet hrun hwalk (by simpa using hne) hcalm.goingOn hchunk
  rw [List.length_map] at ho
  rw [ho]
  refine ⟨_, hmoved, ?_, ?_⟩
  · rw [WatermarkRow.latest_beginAt, WatermarkRow.moveTo, if_pos hchecked]
  · rw [WatermarkRow.checked_beginAt, WatermarkRow.moveTo, if_pos hchecked]

/-- Transactions without events can be processed if their slots fit. -/
theorem processable_plainHistory {entries : List (String × Int)} (address : String)
    (hfits : ∀ entry ∈ entries, Session.fitsColumn entry.2 = true) :
    ∀ tx ∈ plainHistory entries, tx.Processable address := by
  intro tx htx
  obtain ⟨entry, hentry, rfl⟩ := List.mem_map.mp htx
  exact ⟨_, rfl, List.forall_mem_singleton.mpr (hfits entry hentry)⟩

theorem gives_smallStart (history : List LedgerTransaction) (failing : List String) {tx : LedgerTransaction}
    (h : tx.isFailed = false) : (smallStart history failing).ledger.gives tx = !failing.contains tx.signature := by
  simp only [RecordedLedger.gives, RecordedLedger.heldBack?, RecordedLedger.fetchFailure?, smallStart, h]
  by_cases hfailing : failing.contains tx.signature = true
  · simp only [hfailing]
    rfl
  · simp only [Bool.not_eq_true] at hfailing
    simp only [hfailing]
    rfl

section Plain

variable {entries : List (String × Int)} {passed held : List LedgerTransaction} {last newest first : LedgerTransaction}

/-- A transaction without events. -/
def plain (entry : String × Int) : LedgerTransaction :=
  ⟨entry.1, entry.2, none, [], .null⟩

theorem isFailed_plainHistory {tx : LedgerTransaction} (htx : tx ∈ plainHistory entries) : tx.isFailed = false := by
  obtain ⟨entry, -, rfl⟩ := List.mem_map.mp htx
  rfl

theorem entries_plainHistory (entries : List (String × Int)) :
    (plainHistory entries).map (fun tx => (tx.signature, tx.slot)) = entries := by
  rw [plainHistory, List.map_map]
  exact List.map_id entries

/-- A backfill from an empty store that meets no failure leaves the watermark at the newest transaction. -/
theorem exists_leads (c : Crawler) (hsound : (smallStart (plainHistory entries) []).ledger.Sound)
    (hfits : ∀ entry ∈ entries, Session.fitsColumn entry.2 = true)
    (hnewest : (plainHistory entries).getLast? = some newest) :
    ∃ w row, c.Leads w ∧ w.ledger = (smallStart (plainHistory entries) []).ledger ∧
      w.watermark? c.address = some row ∧ row.latestSignature = some newest.signature ∧ row.checkedUpToSlot = newest.slot := by
  have hcalm := calm_smallStart hsound
  have hlisted := historyOf_smallStart (plainHistory entries) [] c.address
  have hall : (plainHistory entries).takeWhile (smallStart (plainHistory entries) []).ledger.gives =
      plainHistory entries := by
    refine List.takeWhile_eq_self_iff.mpr fun tx htx => ?_
    rw [gives_smallStart _ _ (isFailed_plainHistory htx)]
    rfl
  obtain ⟨row, hrow, hlatest, hchecked⟩ := c.latest_of_one_batch hcalm
    (hlisted.symm ▸ processable_plainHistory c.address hfits) (by rw [hlisted, hall, hnewest]) fun row hrow => by cases hrow
  exact ⟨_, row, .backfill _ (.start _ hsound hcalm.hindered rfl), c.ledger_backfill _ hsound, hrow, hlatest, hchecked⟩

/-- What is given of a history of which one transaction cannot be fetched. -/
theorem takeWhile_gives_smallStart (history : List LedgerTransaction)
    (hdistinct : ((passed ++ first :: held).map (·.signature)).Nodup)
    (hplain : ∀ tx ∈ passed ++ first :: held, tx.isFailed = false) :
    (passed ++ first :: held).takeWhile (smallStart history [first.signature]).ledger.gives = passed := by
  rw [List.map_append, List.nodup_append] at hdistinct
  have hgiven : ∀ tx ∈ passed, (smallStart history [first.signature]).ledger.gives tx = true := by
    intro tx htx
    have hne := hdistinct.2.2 tx.signature (List.mem_map_of_mem htx) first.signature List.mem_cons_self
    rw [gives_smallStart _ _ (hplain tx (List.mem_append_left _ htx))]
    simpa using hne
  have hheld : ¬(smallStart history [first.signature]).ledger.gives first = true := by
    rw [gives_smallStart _ _ (hplain first (List.mem_append_right _ List.mem_cons_self))]
    simp
  rw [List.takeWhile_append_of_pos hgiven, List.takeWhile_cons_of_neg hheld, List.append_nil]

/-- Meanwhile one transaction may have become one that cannot be fetched. -/
theorem exists_meanwhile_held {w : World} {history : List LedgerTransaction}
    (hw : w.ledger = (smallStart history []).ledger) (hsound : (smallStart history []).ledger.Sound) (signature : String) :
    ∃ w' : World, w.Meanwhile w' ∧ w'.Calm ∧ w'.ledger = (smallStart history [signature]).ledger := by
  have hcalm : (smallStart history [signature]).Calm :=
    calm_smallStart ⟨hsound.distinct, hsound.ordered, hsound.unsigned, rfl⟩
  refine ⟨{ smallStart history [signature] with database := { store := w.database.store } }, ?_, ?_, rfl⟩
  · exact ⟨rfl, hw ▸ List.prefix_refl _, hw ▸ rfl, hcalm.ledger⟩
  · exact hcalm.of_ledger rfl rfl fun _ hfault => (List.not_mem_nil hfault).elim

/-- A backfill that walks past the watermark moves it back if it fails in the slot that the watermark stands at. -/
theorem exists_move_back (c : Crawler) {before between : List (String × Int)} {a b : String × Int}
    (hsound : (smallStart (plainHistory (before ++ a :: (between ++ [b]))) []).ledger.Sound)
    (hfits : ∀ entry ∈ before ++ a :: (between ++ [b]), Session.fitsColumn entry.2 = true) (hslot : a.2 = b.2) :
    ∃ w, c.Leads w ∧ w.ledger.entries = before ++ a :: (between ++ [b]) ∧
      ∃ r, ¬w.place? c.address ≤ ((c.backfill r).outcome w).2.place? c.address := by
  generalize hentries : before ++ a :: (between ++ [b]) = entries at hsound hfits
  obtain ⟨first, held, hheld⟩ := List.exists_cons_of_ne_nil (List.append_ne_nil_of_right_ne_nil
    (plainHistory between) (List.cons_ne_nil (plain b) []))
  have hhistory : plainHistory entries = plainHistory before ++ plain a :: first :: held := by
    rw [← hheld, ← hentries]
    simp [plainHistory, plain]
  have hnewest : (first :: held).getLast? = some (plain b) := by
    rw [← hheld, List.getLast?_concat]
  have hend : (plainHistory entries).getLast? = some (plain b) := by
    rw [hhistory, List.getLast?_append, List.getLast?_cons_cons, hnewest, Option.some_or]
  obtain ⟨w, row, hleads, hw, hrow, hlatest, hchecked⟩ := c.exists_leads hsound hfits hend
  -- Then the first transaction after `a` cannot be fetched.
  obtain ⟨w', hmean, hcalm, hledger⟩ := exists_meanwhile_held hw hsound first.signature
  have hhistory' : w'.ledger.historyOf c.address = plainHistory entries := by
    rw [hledger]
    exact historyOf_smallStart ..
  have hrow' : w'.watermark? c.address = some row := by
    rw [World.watermark?, hmean.store]
    exact hrow
  have hpassed : ((w'.ledger.historyOf c.address).takeWhile w'.ledger.gives).getLast? = some (plain a) := by
    have hdistinct : ((plainHistory entries).map (·.signature)).Nodup := hsound.distinct
    have hplain : ∀ tx ∈ plainHistory entries, tx.isFailed = false := fun _ => isFailed_plainHistory
    rw [hhistory, List.append_cons] at hdistinct hplain
    rw [hhistory', hledger, hhistory, List.append_cons, takeWhile_gives_smallStart _ hdistinct hplain,
      List.getLast?_concat]
  obtain ⟨row', hmoved, hlatest', -⟩ := c.latest_of_one_batch hcalm
    (hhistory'.symm ▸ processable_plainHistory c.address hfits) hpassed fun old hold => by
      cases hrow'.symm.trans hold
      exact Int.le_of_eq (hchecked.trans hslot.symm)
  have hnewestAt : (w'.ledger.historyOf c.address)[(plainHistory before).length + (held.length + 1)]? = some (plain b) := by
    rw [hhistory', hhistory, List.getElem?_append_right (by omega), Nat.add_sub_cancel_left, List.getElem?_cons_succ,
      ← hnewest, List.getLast?_eq_getElem?, List.length_cons, Nat.add_sub_cancel]
  have hlastAt : (w'.ledger.historyOf c.address)[(plainHistory before).length]? = some (plain a) := by
    rw [hhistory', hhistory, List.getElem?_append_right (Nat.le_refl _), Nat.sub_self, List.getElem?_cons_zero]
  have hledger' := c.ledger_backfill (.whole (w'.ledger.historyOf c.address).length) hcalm.ledger
  refine ⟨w', .meanwhile hleads hmean hcalm.hindered, ?_, .whole (w'.ledger.historyOf c.address).length, fun hle => ?_⟩
  · rw [hledger]
    exact entries_plainHistory entries
  · have hplace := RecordedLedger.Sound.place?_eq (hledger'.symm ▸ hcalm.ledger) hmoved (hledger'.symm ▸ hlastAt) hlatest'
    rw [hcalm.ledger.place?_eq hrow' hnewestAt hlatest, hplace, Option.some_le_some] at hle
    omega

/-- Some slot that fits its column is shared, and a backfill moves the watermark back in it. -/
theorem exists_move_back_of_shared (c : Crawler) (hsound : ({ history := plainHistory entries } : RecordedLedger).Sound)
    (hshared : ¬entries.Pairwise fun earlier later => earlier.2 = later.2 → Session.fitsColumn earlier.2 = false) :
    ∃ w, c.Leads w ∧ w.ledger.entries <+: entries ∧
      ∃ r, ¬w.place? c.address ≤ ((c.backfill r).outcome w).2.place? c.address := by
  rw [List.pairwise_iff_forall_sublist] at hshared
  push Not at hshared
  obtain ⟨a, b, hsublist, hslot, hfits⟩ := hshared
  obtain ⟨front, back, rfl, ha, hb⟩ := List.cons_sublist_iff.mp hsublist
  obtain ⟨before, between, rfl⟩ := List.append_of_mem ha
  obtain ⟨between', later, rfl⟩ := List.append_of_mem (List.singleton_sublist.mp hb)
  -- The history when it had grown to `b`.
  have hgrown : before ++ a :: (between ++ between' ++ [b]) <+:
      before ++ a :: between ++ (between' ++ b :: later) := ⟨later, by simp⟩
  have hsound' : (smallStart (plainHistory (before ++ a :: (between ++ between' ++ [b]))) []).ledger.Sound :=
    hsound.of_prefix (hgrown.map _) rfl
  have hordered : (plainHistory (before ++ a :: (between ++ between' ++ [b]))).Pairwise fun earlier later =>
      earlier.slot ≤ later.slot := hsound'.ordered
  rw [plainHistory, List.pairwise_map] at hordered
  have hsplit : before ++ a :: (between ++ between' ++ [b]) = (before ++ a :: (between ++ between')) ++ [b] := by simp
  have hall : ∀ entry ∈ before ++ a :: (between ++ between' ++ [b]), Session.fitsColumn entry.2 = true := by
    intro entry hentry
    have hnonneg : 0 ≤ entry.2 := hsound'.unsigned _ (List.mem_map_of_mem hentry)
    have hle : entry.2 ≤ b.2 := by
      rw [hsplit, List.pairwise_append] at hordered
      rw [hsplit, List.mem_append, List.mem_singleton] at hentry
      rcases hentry with hentry | rfl
      · exact hordered.2.2 entry hentry b List.mem_cons_self
      · exact Int.le_refl _
    rw [hslot] at hfits
    simp only [Session.fitsColumn, decide_eq_true_eq, ne_eq, Bool.not_eq_false] at hfits ⊢
    omega
  obtain ⟨w, hw, hentries, r, hback⟩ := c.exists_move_back hsound' hall hslot
  exact ⟨w, hw, hentries ▸ hgrown, r, hback⟩

end Plain

/-- Gap fills and backfills that stop at the watermark never move it back, whatever fails. Backfills that walk past it
never do so while a history grows to the given signatures and slots, if and only if no two share a slot that fits its
column; and if two do, it takes no more than a transaction that cannot be fetched for the time being. -/
theorem keeps_place_iff (c : Crawler) {entries : List (String × Int)}
    (hsound : ({ history := plainHistory entries } : RecordedLedger).Sound) :
    (∀ w : World, w.Reachable → w.place? c.address ≤ (c.gapFill.outcome w).2.place? c.address ∧
      ∀ r : BackfillRequest, r.reprocess = false →
        w.place? c.address ≤ ((c.backfill r).outcome w).2.place? c.address) ∧
    [entries.Pairwise fun earlier later => earlier.2 = later.2 → Session.fitsColumn earlier.2 = false,
      ∀ w : World, w.Reachable → w.ledger.entries <+: entries → ∀ r,
        w.place? c.address ≤ ((c.backfill r).outcome w).2.place? c.address,
      ∀ w : World, c.Leads w → w.ledger.entries <+: entries → ∀ r,
        w.place? c.address ≤ ((c.backfill r).outcome w).2.place? c.address].TFAE := by
  refine ⟨fun w hw => ⟨hw.safe.gapFill_keeps_place c, fun r hr => hw.safe.backfill_keeps_place c hr⟩, ?_⟩
  tfae_have 1 → 2 := by
    intro hslots w hw hgrown r
    refine hw.safe.backfill_keeps_place_of_slots c r ?_
    have hpairwise := hslots.sublist hgrown.sublist
    rwa [RecordedLedger.entries, List.pairwise_map] at hpairwise
  tfae_have 2 → 3 := fun h w hw => h w hw.reachable
  tfae_have 3 → 1 := by
    intro h
    by_contra hshared
    obtain ⟨w, hw, hgrown, r, hback⟩ := c.exists_move_back_of_shared hsound hshared
    exact hback (h w hw hgrown r)
  tfae_finish

/-- Two of three transactions share a slot, or none do. -/
theorem keeps_place_iff_small :
    (¬∀ w : World, smallCrawler.Leads w → w.ledger.entries <+: [("create", 1), ("swap", 2), ("repay", 2)] → ∀ r,
        w.place? "pool" ≤ ((smallCrawler.backfill r).outcome w).2.place? "pool") ∧
      ∀ w : World, smallCrawler.Leads w → w.ledger.entries <+: [("create", 1), ("swap", 2), ("repay", 3)] → ∀ r,
        w.place? "pool" ≤ ((smallCrawler.backfill r).outcome w).2.place? "pool" := by
  have hsound₂ : ({ history := plainHistory [("create", 1), ("swap", 2), ("repay", 2)] } : RecordedLedger).Sound := by
    constructor <;> decide
  have hsound₃ : ({ history := plainHistory [("create", 1), ("swap", 2), ("repay", 3)] } : RecordedLedger).Sound := by
    constructor <;> decide
  have hshared := (smallCrawler.keeps_place_iff hsound₂).2.out 2 0
  have hapart := (smallCrawler.keeps_place_iff hsound₃).2.out 2 0
  exact ⟨fun h => absurd (hshared.mp h) (by decide), hapart.mpr (by decide)⟩

/-- The world after a first backfill, when the newest transaction cannot be fetched any more. -/
def secondTry : World :=
  { smallStart World.smallLedger.history ["repay"] with
    database := { store := ((smallCrawler.backfill {}).outcome (smallStart World.smallLedger.history [])).2.database.store } }

theorem leads_secondTry : smallCrawler.Leads secondTry := by
  have hcalm : secondTry.Calm := (calm_smallStart (sound_smallLedger ["repay"])).of_ledger rfl rfl nofun
  have hledger := smallCrawler.ledger_backfill {} (sound_smallLedger [])
  refine .meanwhile (.backfill {} (.start _ (sound_smallLedger []) (calm_smallStart (sound_smallLedger [])).hindered rfl))
    ⟨rfl, ?_, ?_, hcalm.ledger⟩ hcalm.hindered
  · rw [hledger]
    exact List.prefix_refl _
  · rw [hledger]
    rfl

/-- A backfill that walks past the watermark moves it from the last to the second of three transactions. -/
theorem reprocessing_moves_back :
    ¬∀ (c : Crawler) (w : World), c.Leads w → ∀ r : BackfillRequest,
      w.place? c.address ≤ ((c.backfill r).outcome w).2.place? c.address := by
  intro h
  have hplace : secondTry.place? "pool" = some 2 := by decide +kernel
  have hback : ((smallCrawler.backfill { reprocess := true }).outcome secondTry).2.place? "pool" = some 1 := by
    decide +kernel
  have hle := h smallCrawler secondTry leads_secondTry { reprocess := true }
  rw [show smallCrawler.address = "pool" from rfl, hplace, hback, Option.some_le_some] at hle
  omega

end Crawler
end PairIndex
