import PairIndex.Proofs.Crawl.Ingest
import PairIndex.Proofs.Event.Log

/-! What a watermark stands for. A watermark that moved names two places of the history, and everything from the
first to the second is stored (`Spans`). It may be moved to the end of a piece of the history that is stored if the
piece begins no later than one place after it (`Joined.advance`), and crawling moves it no other way
(`Crawler.safe_processChunks`). -/

namespace PairIndex

/-- A ledger that answers from a history with distinct signatures whose slots, which are unsigned
numbers, never fall. -/
structure RecordedLedger.Sound (l : RecordedLedger) : Prop where
  distinct : (l.history.map (·.signature)).Nodup
  ordered : l.history.Pairwise fun earlier later => earlier.slot ≤ later.slot
  unsigned : ∀ tx ∈ l.history, 0 ≤ tx.slot
  pages : l.switches.pages = none

namespace WatermarkRow

theorem beginAt_eq (signature : String) (row : WatermarkRow) :
    row.beginAt signature = { row with firstSignature := row.firstSignature.or (some signature) } := by
  obtain ⟨account, latest, first, checked, description, status, failureLog⟩ := row
  cases first <;> rfl

theorem moveTo_eq (signature : String) (slot : Int) (row : WatermarkRow) :
    row.moveTo signature slot = { row with
      latestSignature := if row.checkedUpToSlot ≤ slot then some signature else row.latestSignature
      checkedUpToSlot := max row.checkedUpToSlot slot } := by
  rw [moveTo]
  by_cases hle : row.checkedUpToSlot ≤ slot
  · rw [if_pos hle, if_pos hle, Int.max_eq_right hle]
  · rw [if_neg hle, if_neg hle, Int.max_eq_left (Int.le_of_lt (Int.not_le.mp hle))]

theorem first_beginAt (row : WatermarkRow) (signature : String) :
    (row.beginAt signature).firstSignature = row.firstSignature.or (some signature) := by
  rw [beginAt_eq]

theorem latest_beginAt (first : String) (row : WatermarkRow) :
    (row.beginAt first).latestSignature = row.latestSignature := by
  rw [beginAt_eq]

theorem checked_beginAt (first : String) (row : WatermarkRow) :
    (row.beginAt first).checkedUpToSlot = row.checkedUpToSlot := by
  rw [beginAt_eq]

theorem first_moveTo (row : WatermarkRow) (signature : String) (slot : Int) :
    (row.moveTo signature slot).firstSignature = row.firstSignature := by
  rw [moveTo_eq]

/-- Moving a watermark keeps its mark. -/
theorem mark_moveTo (row : WatermarkRow) (signature first : String) (slot : Int) :
    ((row.moveTo signature slot).beginAt first).status = row.status ∧
      ((row.moveTo signature slot).beginAt first).failureLog = row.failureLog := by
  rw [beginAt_eq, moveTo_eq]
  exact ⟨rfl, rfl⟩

end WatermarkRow

/-- A watermark that never moved. -/
structure WatermarkRow.Fresh (row : WatermarkRow) : Prop where
  latest : row.latestSignature = none
  first : row.firstSignature = none
  slot : row.checkedUpToSlot = 0

/-- A watermark that goes from one place of the history to another. -/
structure Spans (history : List LedgerTransaction) (s : Store) (row : WatermarkRow) (i j : Nat) : Prop where
  first : ∃ tx, history[i]? = some tx ∧ row.firstSignature = some tx.signature ∧ Stored row.account tx s
  latest : ∃ tx, history[j]? = some tx ∧ row.latestSignature = some tx.signature ∧ row.checkedUpToSlot = tx.slot ∧
    Stored row.account tx s
  between : ∀ k tx, i ≤ k → k ≤ j → history[k]? = some tx → Stored row.account tx s

/-- A watermark that a piece of the history from the given place on joins up with. -/
def Joined (history : List LedgerTransaction) (s : Store) (start : Nat) (row : WatermarkRow) : Prop :=
  row.Fresh ∨ ∃ i j, Spans history s row i j ∧ start ≤ j + 1

namespace Joined

variable {history history' : List LedgerTransaction} {s s' : Store} {start : Nat} {row : WatermarkRow}

theorem weaken (h : Joined history s start row) : Joined history s 0 row := by
  rcases h with hfresh | ⟨i, j, hspans, -⟩
  · exact Or.inl hfresh
  · exact Or.inr ⟨i, j, hspans, Nat.zero_le _⟩

theorem mono (h : Joined history s start row) (hstored : ∀ address tx, Stored address tx s → Stored address tx s')
    (hhistory : history <+: history') : Joined history' s' start row := by
  rcases h with hfresh | ⟨i, j, ⟨hfirst, hlatest, hbetween⟩, hstart⟩
  · exact Or.inl hfresh
  · obtain ⟨first, hi, hfirstSig, hiStored⟩ := hfirst
    obtain ⟨last, hj, hlastSig, hchecked, hjStored⟩ := hlatest
    obtain ⟨later, rfl⟩ := hhistory
    have hkeep : ∀ {k : Nat} {tx : LedgerTransaction}, history[k]? = some tx → (history ++ later)[k]? = some tx := by
      intro k tx hk
      rw [List.getElem?_append_left (List.getElem?_eq_some_iff.mp hk).1, hk]
    have hjlt := (List.getElem?_eq_some_iff.mp hj).1
    refine Or.inr ⟨i, j, ⟨⟨first, hkeep hi, hfirstSig, hstored _ _ hiStored⟩,
      ⟨last, hkeep hj, hlastSig, hchecked, hstored _ _ hjStored⟩, fun k tx hik hkj hk => ?_⟩, hstart⟩
    rw [List.getElem?_append_left (by omega)] at hk
    exact hstored _ _ (hbetween k tx hik hkj hk)

section Piece

variable {older block later : List LedgerTransaction} {oldest newest : LedgerTransaction}

theorem getElem?_piece {k : Nat} (h : k < block.length) : (older ++ block ++ later)[older.length + k]? = block[k]? := by
  rw [List.append_assoc, List.getElem?_append_right (by omega), List.getElem?_append_left (by omega)]
  congr 1
  omega

theorem getElem?_oldest (h : block.head? = some oldest) : (older ++ block ++ later)[older.length]? = some oldest := by
  have hpos := List.length_pos_of_mem (List.mem_of_head? h)
  rw [← Nat.add_zero older.length, getElem?_piece hpos, ← List.head?_eq_getElem?, h]

theorem getElem?_newest (h : block.getLast? = some newest) :
    (older ++ block ++ later)[older.length + (block.length - 1)]? = some newest := by
  have hpos := List.length_pos_of_mem (List.mem_of_getLast? h)
  rw [getElem?_piece (by omega), ← List.getLast?_eq_getElem?, h]

theorem stored_of_piece {address : String} (hstored : ∀ tx ∈ block, Stored address tx s) {k : Nat}
    {tx : LedgerTransaction} (hle : older.length ≤ k) (hlt : k < older.length + block.length)
    (hk : (older ++ block ++ later)[k]? = some tx) : Stored address tx s := by
  obtain ⟨n, rfl⟩ := Nat.exists_eq_add_of_le hle
  rw [getElem?_piece (by omega)] at hk
  exact hstored tx (List.mem_of_getElem? hk)

/-- A piece of the history that is stored may be passed. -/
theorem advance (h : Joined (older ++ block ++ later) s older.length row) (hold : block.head? = some oldest)
    (hnew : block.getLast? = some newest) (hstored : ∀ tx ∈ block, Stored row.account tx s) (hslot : 0 ≤ newest.slot) :
    Joined (older ++ block ++ later) s older.length
      ((row.moveTo newest.signature newest.slot).beginAt
        (if oldest.signature.isEmpty then newest.signature else oldest.signature)) := by
  have hpos := List.length_pos_of_mem (List.mem_of_getLast? hnew)
  have hfirst : (older ++ block ++ later)[older.length]? = some oldest := getElem?_oldest hold
  have hlast : (older ++ block ++ later)[older.length + (block.length - 1)]? = some newest := getElem?_newest hnew
  have holdest := hstored oldest (List.mem_of_head? hold)
  have hnewest := hstored newest (List.mem_of_getLast? hnew)
  rcases h with hfresh | ⟨i, j, hspans, hjoin⟩
  · have hmoves : row.checkedUpToSlot ≤ newest.slot := hfresh.slot ▸ hslot
    rw [WatermarkRow.moveTo, if_pos hmoves, WatermarkRow.beginAt]
    simp only [hfresh.first]
    -- An empty signature counts as none: then the watermark begins where it ends.
    by_cases hempty : oldest.signature.isEmpty = true
    · rw [if_pos hempty]
      refine Or.inr ⟨_, _, ⟨⟨newest, hlast, rfl, hnewest⟩, ⟨newest, hlast, rfl, rfl, hnewest⟩, ?_⟩, by omega⟩
      intro k tx hle hge hk
      exact stored_of_piece hstored (by omega) (by omega) hk
    · rw [if_neg hempty]
      refine Or.inr ⟨_, _, ⟨⟨oldest, hfirst, rfl, holdest⟩, ⟨newest, hlast, rfl, rfl, hnewest⟩, ?_⟩, by omega⟩
      intro k tx hle hge hk
      exact stored_of_piece hstored hle (by omega) hk
  · obtain ⟨first, hi, hbegun, hiStored⟩ := hspans.first
    by_cases hmoves : row.checkedUpToSlot ≤ newest.slot
    · rw [WatermarkRow.moveTo, if_pos hmoves, WatermarkRow.beginAt]
      simp only [hbegun]
      refine Or.inr ⟨i, _, ⟨⟨first, hi, rfl, hiStored⟩, ⟨newest, hlast, rfl, rfl, hnewest⟩, ?_⟩, by omega⟩
      intro k tx hik hkm hk
      by_cases hkj : k ≤ j
      · exact hspans.between k tx hik hkj hk
      · exact stored_of_piece hstored (by omega) (by omega) hk
    · rw [WatermarkRow.moveTo, if_neg hmoves, WatermarkRow.beginAt]
      simp only [hbegun]
      exact Or.inr ⟨i, j, hspans, hjoin⟩

end Piece

end Joined

/-! ## Sessions -/

/-- A session goes through or leaves the store as it is. -/
theorem World.outcome_session {α : Type} (session : Session α) (w : World) :
    (∃ failure w', (World.session session).outcome w = (.error failure, w') ∧ w.Extends w') ∨
      ∃ a w', (World.session session).outcome w = (.ok a, w') ∧ w'.ledger = w.ledger ∧
        session.run w.database.store = .ok (a, w'.database.store) := by
  have houtcome : (World.session session).outcome w =
      ((Database.transact session w.database).1, { w with database := (Database.transact session w.database).2 }) := rfl
  rw [houtcome]
  unfold Database.transact
  cases w.database.outlook.head?.join with
  | some failure => exact Or.inl ⟨failure, _, rfl, rfl, [], rfl, fun _ h => nomatch h⟩
  | none =>
    cases hrun : session.run w.database.store with
    | error failure => exact Or.inl ⟨failure, _, rfl, rfl, [], rfl, fun _ h => nomatch h⟩
    | ok result => exact Or.inr ⟨result.1, _, rfl, rfl, rfl⟩

/-- The signature that a watermark begins at if it is moved for the first time. -/
def firstOf (signature : String) : Option String → String
  | some first => if first.isEmpty then signature else first
  | none => signature

/-- Moving a watermark changes no other row of the store. -/
theorem Session.run_advanceWatermark {account signature : String} {slot : Int} {first : Option String} {s s' : Store}
    {moved : Bool} (h : (advanceWatermark account signature slot first).run s = .ok (moved, s')) :
    s'.transactions = s.transactions ∧ s'.details = s.details ∧ ∀ row ∈ s'.watermarks.rows,
      ∃ old ∈ s.watermarks.rows, row.account = old.account ∧ row =
        if old.account = account then (old.moveTo signature slot).beginAt (firstOf signature first) else old := by
  unfold advanceWatermark checkColumn at h
  by_cases hfits : fitsColumn slot = true
  · rw [if_pos hfits, pure_bind] at h
    cases h
    refine ⟨rfl, rfl, fun row hrow => ?_⟩
    obtain ⟨old', hold', rfl⟩ := Table.mem_rows_update (WatermarkRow.key_beginAt _) hrow
    obtain ⟨old, hold, rfl⟩ := Table.mem_rows_update (WatermarkRow.key_moveTo _ _) hold'
    by_cases haccount : old.account = account
    · have hmoved : WatermarkRow.key (old.moveTo signature slot) = account := by
        rw [WatermarkRow.key_moveTo]
        exact haccount
      have hbegun := (WatermarkRow.key_beginAt (firstOf signature first) (old.moveTo signature slot)).trans hmoved
      have hold' : old.key = account := haccount
      simp only [if_pos hold', if_pos hmoved]
      refine ⟨old, hold, ?_⟩
      rw [if_pos haccount]
      cases first <;> exact ⟨hbegun.trans haccount.symm, rfl⟩
    · have hold' : ¬old.key = account := haccount
      simp only [if_neg hold']
      exact ⟨old, hold, rfl, (if_neg haccount).symm⟩
  · rw [if_neg hfits] at h
    cases h

/-! ## Safe worlds -/

/-- A world whose details are told by its history and whose watermarks promise only what is stored. -/
structure World.Safe (w : World) : Prop where
  ledger : w.ledger.Sound
  details : ∀ row ∈ w.database.store.details.rows, ∃ signature e, row = e.detail signature ∧
    (Commit.event signature e).ToldBy w.ledger.history
  watermarks : ∀ row ∈ w.database.store.watermarks.rows,
    Joined (w.ledger.historyOf row.account) w.database.store 0 row

/-- A world in which a crawl of an address has a piece of the history that its index lists behind it and may move the
watermark to its end. -/
structure World.Passing (address : String) (older block later : List LedgerTransaction) (w : World) : Prop where
  safe : w.Safe
  history : w.ledger.historyOf address = older ++ block ++ later
  stored : ∀ tx ∈ block, Stored address tx w.database.store
  joined : ∀ row ∈ w.database.store.watermarks.rows, row.account = address →
    Joined (w.ledger.historyOf address) w.database.store older.length row

namespace World

variable {w w' : World} {address : String} {older block later : List LedgerTransaction}

theorem Safe.of_extends (h : w.Safe) (hext : w.Extends w') : w'.Safe := by
  obtain ⟨hledger, cs, hstore, hcs⟩ := hext
  refine ⟨hledger ▸ h.ledger, fun row hrow => ?_, fun row hrow => ?_⟩
  · rw [hledger]
    rw [hstore] at hrow
    rcases Commit.mem_details_applyAll hrow with hrow | ⟨signature, e, he, rfl⟩
    · exact h.details row hrow
    · exact ⟨signature, e, rfl, hcs _ he⟩
  · have hrow' : row ∈ w.database.store.watermarks.rows := by rwa [hstore, Commit.watermarks_applyAll] at hrow
    exact (h.watermarks row hrow').mono (fun _ _ hstored => hstored.of_extends ⟨hledger, cs, hstore, hcs⟩)
      (hledger ▸ List.prefix_refl _)

theorem Safe.of_watermarks (h : w.Safe) (hledger : w'.ledger = w.ledger)
    (hdetails : w'.database.store.details = w.database.store.details)
    (hrows : ∀ row ∈ w'.database.store.watermarks.rows,
      Joined (w.ledger.historyOf row.account) w'.database.store 0 row) : w'.Safe :=
  ⟨hledger ▸ h.ledger, hdetails ▸ hledger ▸ h.details, hledger ▸ hrows⟩

namespace Passing

theorem of_extends (h : w.Passing address older block later) (hext : w.Extends w') :
    w'.Passing address older block later := by
  refine ⟨h.safe.of_extends hext, hext.ledger ▸ h.history, fun tx htx => (h.stored tx htx).of_extends hext, ?_⟩
  intro row hrow haccount
  rw [hext.watermarks] at hrow
  exact (h.joined row hrow haccount).mono (fun _ _ hstored => hstored.of_extends hext)
    (hext.ledger ▸ List.prefix_refl _)

/-- The piece of the history that a crawl has behind it grows when more of it is stored. -/
theorem concat {more : List LedgerTransaction} (h : w.Passing address older block (more ++ later))
    (hmore : ∀ tx ∈ more, Stored address tx w.database.store) : w.Passing address older (block ++ more) later := by
  refine ⟨h.safe, ?_, fun tx htx => ?_, h.joined⟩
  · rw [h.history, List.append_assoc, List.append_assoc, List.append_assoc]
  · rcases List.mem_append.mp htx with htx | htx
    · exact h.stored tx htx
    · exact hmore tx htx

/-- The watermark may be moved to the end of what a crawl has behind it. -/
theorem advance {oldest newest : LedgerTransaction} (h : w.Passing address older block later)
    (hold : block.head? = some oldest) (hnew : block.getLast? = some newest) :
    ((World.session (Session.advanceWatermark address newest.signature newest.slot
      (some oldest.signature))).outcome w).2.Passing address older block later := by
  rcases World.outcome_session (Session.advanceWatermark address newest.signature newest.slot
    (some oldest.signature)) w with ⟨failure, w', ho, hext⟩ | ⟨moved, w', ho, hledger, hrun⟩
  · rw [ho]
    exact h.of_extends hext
  · rw [ho]
    obtain ⟨htransactions, hdetails, hrows⟩ := Session.run_advanceWatermark hrun
    have hkeep : ∀ {a tx}, Stored a tx w.database.store → Stored a tx w'.database.store := by
      intro a tx hstored
      rw [Stored, htransactions, hdetails]
      exact hstored
    have hslot : 0 ≤ newest.slot := by
      have hlisted : newest ∈ w.ledger.historyOf address := by
        rw [h.history]
        exact List.mem_append_left _ (List.mem_append_right _ (List.mem_of_getLast? hnew))
      exact h.safe.ledger.unsigned newest (RecordedLedger.mem_of_mem_historyOf hlisted)
    have hjoined : ∀ row ∈ w'.database.store.watermarks.rows, row.account = address →
        Joined (w.ledger.historyOf address) w'.database.store older.length row := by
      intro row hrow haccount
      obtain ⟨old, hold', hsame, heq⟩ := hrows row hrow
      rw [hsame] at haccount
      rw [if_pos haccount] at heq
      have hjoin := h.joined old hold' haccount
      rw [h.history] at hjoin ⊢
      rw [heq]
      exact (hjoin.advance hold hnew (fun tx htx => haccount ▸ h.stored tx htx) hslot).mono (fun _ _ => hkeep)
        (List.prefix_refl _)
    refine ⟨h.safe.of_watermarks hledger hdetails fun row hrow => ?_, hledger ▸ h.history,
      fun tx htx => hkeep (h.stored tx htx), hledger ▸ hjoined⟩
    by_cases haccount : row.account = address
    · exact haccount ▸ (hjoined row hrow haccount).weaken
    · obtain ⟨old, hold', hsame, heq⟩ := hrows row hrow
      rw [hsame, heq, if_neg (hsame ▸ haccount)]
      exact (h.safe.watermarks old hold').mono (fun _ _ => hkeep) (List.prefix_refl _)

end Passing

end World

end PairIndex
