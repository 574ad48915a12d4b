import Mathlib.Data.List.Nodup
import PairIndex.Crawl.Run
import PairIndex.Live.Handler
import PairIndex.Proofs.Crawl.Chunk

/-! What ingesting signatures leaves in the store. Whatever the ledger and the store do, only commits of
transactions of the history are added (`World.Extends`), and a signature that was ingested with success is stored as
a whole (`Crawler.outcome_ingestChunk`). -/

namespace PairIndex

/-! ## Commits of a history -/

/-- A commit that a transaction of a history tells. -/
def Commit.ToldBy (history : List LedgerTransaction) : Commit → Prop
  | .transaction _ => True
  | .event signature e => ∃ tx ∈ history, tx.signature = signature ∧ ∃ source, e ∈ eventsOf source tx.logs

/-- A later world with the same ledger, in whose store there are more commits of the ledger's history. -/
structure World.Extends (w w' : World) : Prop where
  ledger : w'.ledger = w.ledger
  commits : ∃ cs, w'.database.store = Commit.applyAll cs w.database.store ∧ ∀ c ∈ cs, c.ToldBy w.ledger.history

namespace World.Extends

variable {w w' w'' : World}

theorem of_alike (h : w.Alike w') : w.Extends w' :=
  ⟨h.ledger, [], congrArg (·.store) h.database, fun _ hc => nomatch hc⟩

theorem refl (w : World) : w.Extends w :=
  of_alike (Alike.refl w)

theorem trans (h : w.Extends w') (h' : w'.Extends w'') : w.Extends w'' := by
  obtain ⟨hledger, cs, hstore, hcs⟩ := h
  obtain ⟨hledger', ds, hstore', hds⟩ := h'
  refine ⟨hledger'.trans hledger, cs ++ ds, ?_, fun c hc => ?_⟩
  · rw [hstore', hstore, Commit.applyAll_append]
  · rcases List.mem_append.mp hc with hc | hc
    · exact hcs c hc
    · exact hledger ▸ hds c hc

theorem watermarks (h : w.Extends w') : w'.database.store.watermarks = w.database.store.watermarks := by
  obtain ⟨-, cs, hstore, -⟩ := h
  rw [hstore, Commit.watermarks_applyAll]

end World.Extends

/-- A transaction of which everything is stored that it tells of a program: its row and, if it took effect, the
details of its events. -/
def Stored (address : String) (tx : LedgerTransaction) (s : Store) : Prop :=
  (s.transactions.find? tx.signature).isSome ∧
    (tx.isFailed = false → ∀ e ∈ eventsOf address tx.logs, (s.details.find? (tx.signature, e.logIndex)).isSome)

theorem Stored.of_extends {address : String} {tx : LedgerTransaction} {w w' : World}
    (h : Stored address tx w.database.store) (hext : w.Extends w') : Stored address tx w'.database.store := by
  obtain ⟨-, cs, hstore, -⟩ := hext
  rw [hstore]
  exact ⟨Commit.isSome_transactions_applyAll cs h.1,
    fun hfailed e he => Commit.isSome_details_applyAll cs (h.2 hfailed e he)⟩

/-! ## Transactions -/

/-- What a crawl makes of a transaction, if the calendar has its block time. The index entry of a transaction that
failed suffices. -/
def LedgerTransaction.crawled? (address : String) (tx : LedgerTransaction) : Option DecodedTransaction :=
  (tx.blockTime.mapM Moment.ofSeconds?).map fun blockTime =>
    if tx.isFailed then tx.info.decoded blockTime else tx.decoded address blockTime

/-- How a crawl reads a transaction that was not held back. -/
def LedgerTransaction.reading (address : String) (tx : LedgerTransaction) : Except Failure DecodedTransaction :=
  if tx.isFailed then tx.info.decode else tx.decode address

/-- What becomes of a fetch, if the ledger holds a transaction back. One that failed is not fetched. -/
def RecordedLedger.heldBack? (l : RecordedLedger) (tx : LedgerTransaction) : Option (Except Failure Bool) :=
  if tx.isFailed then none
  else
    match l.fetchFailure? tx.signature with
    | some failure => some (.error failure)
    | none => if l.switches.missing.contains tx.signature then some (.ok false) else none

namespace LedgerTransaction

variable {address : String} {tx : LedgerTransaction} {d : DecodedTransaction}

theorem signature_of_crawled? (h : tx.crawled? address = some d) : d.signature = tx.signature := by
  obtain ⟨blockTime, -, rfl⟩ := Option.map_eq_some_iff.mp h
  cases tx.isFailed <;> rfl

theorem slot_of_crawled? (h : tx.crawled? address = some d) : d.slot = tx.slot := by
  obtain ⟨blockTime, -, rfl⟩ := Option.map_eq_some_iff.mp h
  cases tx.isFailed <;> rfl

theorem failed_of_crawled? (h : tx.crawled? address = some d) : d.failed = tx.isFailed := by
  obtain ⟨blockTime, -, rfl⟩ := Option.map_eq_some_iff.mp h
  cases hfailed : tx.isFailed with
  | true => rfl
  | false => exact hfailed

theorem events_of_crawled? (h : tx.crawled? address = some d) (hfailed : tx.isFailed = false) :
    d.events = eventsOf address tx.logs := by
  obtain ⟨blockTime, -, rfl⟩ := Option.map_eq_some_iff.mp h
  rw [if_neg (by simp [hfailed])]
  rfl

/-- A transaction is read as what a crawl makes of it, or not at all if the calendar lacks its block time. -/
theorem reading_cases (address : String) (tx : LedgerTransaction) :
    (∃ d, tx.crawled? address = some d ∧ tx.reading address = .ok d) ∨
      (tx.crawled? address = none ∧ ∃ failure : Failure, failure.isTransient = false ∧
        tx.reading address = .error failure) := by
  rw [crawled?, reading]
  cases tx.isFailed with
  | true =>
    rcases tx.info.decode_cases with ⟨moment, hmoment, hread⟩ | ⟨hmoment, failure, hlasting, hread⟩
    all_goals
      have hsame : tx.info.blockTime = tx.blockTime := rfl
      rw [hsame] at hmoment
      rw [hmoment]
    · exact .inl ⟨_, rfl, hread⟩
    · exact .inr ⟨rfl, failure, hlasting, hread⟩
  | false =>
    rcases tx.decode_cases address with ⟨moment, hmoment, hread⟩ | ⟨hmoment, failure, hlasting, hread⟩
    all_goals rw [hmoment]
    · exact .inl ⟨_, rfl, hread⟩
    · exact .inr ⟨rfl, failure, hlasting, hread⟩

theorem crawled_of_reading (h : tx.reading address = .ok d) : tx.crawled? address = some d := by
  rcases tx.reading_cases address with ⟨d', hd', hread⟩ | ⟨-, failure, -, hread⟩
  · rwa [Except.ok.inj (h.symm.trans hread)]
  · cases h.symm.trans hread

/-- The commits of what a crawl makes of a transaction of a history are told by the history. -/
theorem toldBy_of_mem_commits {history : List LedgerTransaction} (htx : tx ∈ history)
    (hsignature : d.signature = tx.signature) (hevents : d.failed = false → d.events = eventsOf address tx.logs)
    {c : Commit} (hc : c ∈ d.commits) : c.ToldBy history := by
  rcases DecodedTransaction.mem_commits.mp hc with rfl | ⟨hfailed, e, he, rfl⟩
  · trivial
  · exact ⟨tx, htx, hsignature.symm, address, hevents hfailed ▸ he⟩

/-- A transaction is stored as a whole once all was committed that a crawl makes of it. -/
theorem stored_of_commits (hd : tx.crawled? address = some d) {made : List Commit} (hall : ∀ c ∈ d.commits, c ∈ made)
    (s : Store) : Stored address tx (Commit.applyAll made s) := by
  have hsignature := signature_of_crawled? hd
  constructor
  · rw [← hsignature]
    exact Commit.isSome_transactions_of_mem (hall _ (DecodedTransaction.mem_commits.mpr (.inl rfl))) _
  · intro heffect e he
    rw [← hsignature]
    rw [← events_of_crawled? hd heffect] at he
    rw [← failed_of_crawled? hd] at heffect
    exact Commit.isSome_details_of_mem (hall _ (DecodedTransaction.mem_commits.mpr (.inr ⟨heffect, e, he, rfl⟩))) _

end LedgerTransaction

namespace RecordedLedger

variable {l : RecordedLedger} {tx : LedgerTransaction} {d : DecodedTransaction}

/-- A transaction of the history is found by its signature. -/
theorem find?_of_mem (htx : tx ∈ l.history) (hdistinct : (l.history.map (·.signature)).Nodup) :
    l.history.find? (·.signature == tx.signature) = some tx := by
  cases hfound : l.history.find? (·.signature == tx.signature) with
  | none => simpa using List.find?_eq_none.mp hfound tx htx
  | some found =>
    have hsame : found.signature = tx.signature := by simpa using List.find?_some hfound
    rw [List.inj_on_of_nodup_map hdistinct (List.mem_of_find?_eq_some hfound) htx hsame]

/-- A transaction of the history is looked up as it is, unless the ledger holds it back. -/
theorem prepared_of_mem (address : String) (htx : tx ∈ l.history) (hdistinct : (l.history.map (·.signature)).Nodup) :
    l.prepared address tx.info =
      match l.heldBack? tx with
      | some result => result.map fun _ => none
      | none => (tx.reading address).map some := by
  have hinfo : tx.info.isFailed = tx.isFailed := rfl
  have hsignature : tx.info.signature = tx.signature := rfl
  rw [prepared, heldBack?, LedgerTransaction.reading, hinfo, hsignature, transaction?, find?_of_mem htx hdistinct]
  cases tx.isFailed with
  | true => rfl
  | false =>
    simp only [Bool.false_eq_true, if_false]
    cases l.fetchFailure? tx.signature with
    | some failure => rfl
    | none => cases l.switches.missing.contains tx.signature <;> rfl

theorem crawled_of_prepared {address : String} (htx : tx ∈ l.history) (hdistinct : (l.history.map (·.signature)).Nodup)
    (h : l.prepared address tx.info = .ok (some d)) : tx.crawled? address = some d := by
  rw [prepared_of_mem address htx hdistinct] at h
  cases hheld : l.heldBack? tx with
  | some result =>
    rw [hheld] at h
    cases result <;> cases h
  | none =>
    rw [hheld] at h
    cases hread : tx.reading address with
    | error failure =>
      rw [hread] at h
      cases h
    | ok d' =>
      rw [hread] at h
      cases h
      exact LedgerTransaction.crawled_of_reading hread

end RecordedLedger

/-! ## Processing -/

namespace World

variable {w : World} {tx : LedgerTransaction}

/-- Processing a transaction of the history adds commits of the history. -/
theorem extends_processTransaction (address : String) (htx : tx ∈ w.ledger.history) :
    w.Extends ((World.onDatabase (processTransaction tx address)).outcome w).2 := by
  change w.Extends { w with database := ((processTransaction tx address).outcome w.database).2 }
  rw [outcome_processTransaction]
  rcases tx.decode_cases address with ⟨moment, -, hread⟩ | ⟨-, failure, -, hread⟩
  · rw [hread]
    refine ⟨rfl, _, DecodedTransaction.store_process _ w.database, fun c hc => ?_⟩
    exact LedgerTransaction.toldBy_of_mem_commits htx rfl (fun _ => rfl) (DecodedTransaction.mem_committed hc).1
  · rw [hread]
    exact .refl w

/-- A transaction that is fetched is one of the history that has the signature. -/
theorem outcome_fetch (signature : String) (w : World) :
    w.Alike ((World.fetch signature).outcome w).2 ∧ ∀ tx, ((World.fetch signature).outcome w).1 = .ok (some tx) →
      w.ledger.history.find? (·.signature == signature) = some tx := by
  obtain ⟨w', hidles, ho⟩ := outcome_fetch_eq signature w
  rw [ho]
  refine ⟨hidles.toAlike, fun tx h => ?_⟩
  cases hfail : w.ledger.fetchFailure? signature with
  | some failure => simp [hfail] at h
  | none =>
    simp only [hfail, RecordedLedger.transaction?, Except.ok.injEq] at h
    split at h
    · cases h
    · exact h

end World

/-! ## Ingesting -/

namespace Crawler

variable {w : World} {tx : LedgerTransaction}

theorem stored_of_successPrefix {address : String} {s : Store} {outcomes : List Bool} {txs : List LedgerTransaction}
    (h : List.Forall₂ (fun outcome tx => outcome = true → Stored address tx s) outcomes txs) :
    ∀ tx ∈ txs.take (successPrefix outcomes), Stored address tx s := by
  induction h with
  | nil => intro tx htx; simp at htx
  | @cons outcome tx outcomes txs hfirst _ ih =>
    cases outcome with
    | false => intro tx htx; simp [successPrefix] at htx
    | true =>
      intro tx' htx'
      have hcount : successPrefix (true :: outcomes) = successPrefix outcomes + 1 := by simp [successPrefix]
      rw [hcount, List.take_succ_cons] at htx'
      rcases List.mem_cons.mp htx' with rfl | htx'
      · exact hfirst rfl
      · exact ih tx' htx'

theorem map_ok_of_allOrFirst {α : Type} {outcomes : List (Except Failure α)} {oks : List α}
    (h : allOrFirst outcomes = .ok oks) : outcomes = oks.map .ok := by
  induction outcomes generalizing oks with
  | nil =>
    cases h
    rfl
  | cons outcome outcomes ih =>
    cases outcome with
    | error failure => cases h
    | ok ok =>
      rw [allOrFirst] at h
      cases hrest : allOrFirst outcomes with
      | error failure =>
        rw [hrest] at h
        cases h
      | ok rest =>
        rw [hrest] at h
        cases h
        rw [ih hrest, List.map_cons]

/-- Ingesting a chunk adds commits of the history, and if it goes through, the transactions before the first that
failed are stored. -/
theorem outcome_ingestChunk (c : Crawler) {txs : List LedgerTransaction} (htxs : ∀ tx ∈ txs, tx ∈ w.ledger.history)
    (hdistinct : (w.ledger.history.map (·.signature)).Nodup) :
    w.Extends ((c.ingestChunk (txs.map (·.info))).outcome w).2 ∧
      ∀ oks, ((c.ingestChunk (txs.map (·.info))).outcome w).1 = .ok oks → oks.length = txs.length ∧
        ∀ tx ∈ txs.take (successPrefix oks),
          Stored c.address tx ((c.ingestChunk (txs.map (·.info))).outcome w).2.database.store := by
  obtain ⟨outcomes, w', ho, hledger, -, made, hstore, hmade, hfollows⟩ := c.commits_ingestChunk (txs.map (·.info)) w
  rw [ho]
  refine ⟨⟨hledger, made, hstore, fun x hx => ?_⟩, fun oks hoks => ?_⟩
  · obtain ⟨info, hinfo, d, hd, hx⟩ := hmade x hx
    obtain ⟨tx, htx, rfl⟩ := List.mem_map.mp hinfo
    have hcrawled := RecordedLedger.crawled_of_prepared (htxs tx htx) hdistinct hd
    have hevents : d.failed = false → d.events = eventsOf c.address tx.logs := by
      rw [LedgerTransaction.failed_of_crawled? hcrawled]
      exact LedgerTransaction.events_of_crawled? hcrawled
    exact LedgerTransaction.toldBy_of_mem_commits (htxs tx htx) (LedgerTransaction.signature_of_crawled? hcrawled)
      hevents hx
  · rw [map_ok_of_allOrFirst hoks, List.map_map, List.forall₂_map_left_iff, List.forall₂_map_right_iff] at hfollows
    have hknown := (List.forall₂_and_left (p := (· ∈ w.ledger.history)) _ _).mpr ⟨htxs, hfollows⟩
    refine ⟨hfollows.length_eq.symm, stored_of_successPrefix (hknown.flip.imp fun ok tx h hok => ?_)⟩
    obtain ⟨htx, hfollows⟩ := h
    obtain ⟨d, hd, hall⟩ := hfollows (congrArg _ hok)
    rw [hstore]
    exact LedgerTransaction.stored_of_commits (RecordedLedger.crawled_of_prepared htx hdistinct hd) hall _

end Crawler

/-! ## Announced transactions -/

namespace LiveHandler

/-- What a handler does with an announced transaction after the delay. -/
def fetchAndProcess (h : LiveHandler) (signature : String) : Attempt World (Option ProcessResult) := do
  match ← World.fetch signature with
  | none => return none
  | some tx => some <$> World.onDatabase (processTransaction tx h.address)

theorem extends_fetchAndProcess (h : LiveHandler) (signature : String) (w : World) :
    w.Extends ((h.fetchAndProcess signature).outcome w).2 := by
  obtain ⟨halike, hfound⟩ := World.outcome_fetch signature w
  rw [fetchAndProcess]
  rcases hfetch : (World.fetch signature).outcome w with ⟨failure | fetched?, w'⟩
  · rw [hfetch] at halike
    rw [Attempt.outcome_bind_of_error hfetch]
    exact .of_alike halike
  · rw [hfetch] at halike hfound
    rw [Attempt.outcome_bind_of_ok hfetch]
    cases fetched? with
    | none => exact .of_alike halike
    | some tx =>
      have htx : tx ∈ w'.ledger.history := halike.ledger ▸ List.mem_of_find?_eq_some (hfound tx rfl)
      simp only [Attempt.outcome_map]
      exact (World.Extends.of_alike halike).trans (World.extends_processTransaction h.address htx)

theorem extends_handle (h : LiveHandler) (signature : String) (stats : LiveStats) (w : World) :
    w.Extends ((h.handle signature stats).run w).2 := by
  change w.Extends ((h.ingest signature).outcome w).2
  rw [LiveHandler.ingest]
  by_cases hdelay : h.fetchDelay ≠ 0
  · let w₁ : World := { w with calls := { w.calls with sleeps := w.calls.sleeps ++ [h.fetchDelay] } }
    have halike : w.Alike w₁ := ⟨rfl, rfl⟩
    rw [if_pos hdelay]
    exact (World.Extends.of_alike halike).trans (h.extends_fetchAndProcess signature w₁)
  · rw [if_neg hdelay]
    exact h.extends_fetchAndProcess signature w

/-- Handling announcements one after another adds commits of the history. -/
theorem extends_handleAll (h : LiveHandler) (signatures : List String) (stats : LiveStats) (w : World) :
    w.Extends ((h.handleAll signatures stats).run w).2 := by
  induction signatures generalizing stats w with
  | nil => exact .refl w
  | cons signature rest ih => exact (h.extends_handle signature stats w).trans (ih ..)

end LiveHandler

end PairIndex
