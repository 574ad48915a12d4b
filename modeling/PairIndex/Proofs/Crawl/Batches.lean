import PairIndex.Proofs.Crawl.GapFill
import PairIndex.Proofs.Event.Format
import PairIndex.Proofs.Ingest.Convergence
import PairIndex.Proofs.Ingest.Position

/-! Batches. While the store reports no failure, processing a list of signatures in batches counts its successes and
failures and takes the watermark to the end of the longest prefix of the list that was processed without a failure,
whatever the size of the batches (`Crawler.processAll_unbatched`). It commits what ingesting the signatures one after
another commits, but the signatures of a batch take turns, so the order depends on the batches. If one signature is
ingested at a time it does not; else the tables are the same but for the owners of positions and the marks of
liquidations (`Store.SameStandings`), which may differ (`Crawler.batches_tell_owners`). -/

namespace PairIndex

/-! ## Commits in any order -/

/-- Events about one position tell one pair, and the same balances under one number. -/
def PositionsConcur (txs : List DecodedTransaction) : Prop :=
  ∀ x ∈ appliedEvents txs, ∀ y ∈ appliedEvents txs, ∀ a ∈ x.2.body.positionTelling?, ∀ b ∈ y.2.body.positionTelling?,
    a.1 = b.1 → a.2.Concurs b.2

instance (txs : List DecodedTransaction) : Decidable (PositionsConcur txs) :=
  inferInstanceAs (Decidable (∀ x ∈ appliedEvents txs, ∀ y ∈ appliedEvents txs, ∀ a ∈ x.2.body.positionTelling?,
    ∀ b ∈ y.2.body.positionTelling?, a.1 = b.1 → a.2.Concurs b.2))

/-- The tables hold the same, but for the owners of positions, their marks, and the watermarks. -/
structure Store.SameStandings (s t : Store) : Prop extends s.SamePairSide t where
  standings : ∀ address,
    (s.positions.find? address).map (·.standing) = (t.positions.find? address).map (·.standing)

theorem Store.SameStandings.of_tables {s t : Store} (h : s.tables.SameStandings t.tables) : s.SameStandings t :=
  ⟨⟨h.transactions, h.details, h.swaps, h.liquidityChanges, h.pricePoints, h.pairStates, h.liquidations, h.pairs⟩,
    h.standings⟩

/-- Commits of consistent transactions may be made in any order, as far as it is not about owners and marks. -/
theorem Consistent.sameStandings {txs : List DecodedTransaction} (h : Consistent txs) (hpositions : PositionsConcur txs)
    {cs ds : List Commit} (hcs : ∀ c ∈ cs, ∃ tx ∈ txs, c ∈ tx.commits) (hperm : cs.Perm ds) (s : Store) :
    (Commit.applyAll cs s).SameStandings (Commit.applyAll ds s) := by
  refine ⟨h.samePairSide hcs (fun _ => hperm.mem_iff) s, fun address => ?_⟩
  have hevent : ∀ told ∈ Commit.tellingsOf address cs,
      ∃ x ∈ appliedEvents txs, x.2.body.positionTelling? = some (address, told) := by
    intro told htold
    obtain ⟨signature, e, hmem, htelling⟩ := Commit.mem_tellingsOf.mp htold
    rcases commits_cases (hcs _ hmem) with ⟨tx, -, heq⟩ | ⟨x, hx, heq⟩
    · cases heq
    · cases heq
      exact ⟨x, hx, htelling⟩
  rw [Commit.find?_positions_applyAll, Commit.find?_positions_applyAll]
  refine PositionTelling.standing_rowAfterAll_of_perm (hperm.filterMap _) (fun a ha b hb => ?_) address _
  obtain ⟨x, hx, hxa⟩ := hevent a ha
  obtain ⟨y, hy, hyb⟩ := hevent b hb
  exact hpositions x hx y hy _ hxa _ hyb rfl

namespace Crawler

variable {w : World} {succeeds : SignatureInfo → Bool}

/-- The transactions that signatures tell when they are looked up. -/
def lookups (c : Crawler) (l : RecordedLedger) (infos : List SignatureInfo) : List DecodedTransaction :=
  infos.filterMap fun info => (l.prepared c.address info).toOption.join

/-- What is due comes from the transactions that are looked up. -/
theorem exists_lookup_of_mem_dues {c : Crawler} {l : RecordedLedger} {infos : List SignatureInfo} {x : Commit}
    (h : x ∈ c.dues l infos) : ∃ tx ∈ c.lookups l infos, x ∈ tx.commits := by
  obtain ⟨info, hinfo, hx⟩ := List.mem_flatMap.mp h
  rw [Ingestion.dues] at hx
  rcases hprepared : l.prepared c.address info with failure | _ | tx
  · simp [hprepared] at hx
  · simp [hprepared] at hx
  · rw [hprepared] at hx
    exact ⟨tx, List.mem_filterMap.mpr ⟨info, hinfo, by rw [hprepared]; rfl⟩, (DecodedTransaction.mem_committed hx).1⟩

/-- Signatures that are ingested one after another commit their dues in order. -/
theorem mapM_ingest_of_quiet (c : Crawler) {infos : List SignatureInfo} (hquiet : w.database.Quiet)
    (h : ∀ info ∈ infos, (Ingestion.waiting info).verdict w.ledger c.address = .ok (succeeds info)) :
    ∃ w', Attempt.outcome (infos.mapM c.ingest) w = (.ok (infos.map succeeds), w') ∧
      w'.database.store = Commit.applyAll (c.dues w.ledger infos) w.database.store := by
  induction infos generalizing w with
  | nil => exact ⟨w, rfl, rfl⟩
  | cons info infos ih =>
    obtain ⟨hinfo, hrest⟩ := List.forall_mem_cons.mp h
    obtain ⟨w₁, ho, hproceeds, hstore⟩ := c.outcome_ingest_of_quiet info hquiet
    have hledger := hproceeds.ledger
    obtain ⟨w₂, ho', hstore'⟩ := ih hproceeds.quiet (hledger ▸ hrest)
    refine ⟨w₂, ?_, ?_⟩
    · rw [List.mapM_cons, Attempt.outcome_bind_of_ok (hinfo ▸ ho), Attempt.outcome_bind_of_ok ho']
      rfl
    · rw [hstore', hstore, hledger, ← Commit.applyAll_append, dues, dues, List.flatMap_cons]

end Crawler

/-! ## Watermarks -/

/-- A watermark that is taken past a list of signatures, oldest first. It comes to stand at the last of them, unless it
stands in a later slot, and begins at the first of them, unless it has begun. -/
def WatermarkRow.pass (passed : List SignatureInfo) (row : WatermarkRow) : WatermarkRow :=
  match passed.head?, passed.getLast? with
  | some oldest, some newest =>
    { row with
      latestSignature := if row.checkedUpToSlot ≤ newest.slot then some newest.signature else row.latestSignature
      checkedUpToSlot := max row.checkedUpToSlot newest.slot
      firstSignature := row.firstSignature.or (some oldest.signature) }
  | _, _ => row

namespace WatermarkRow

variable {row : WatermarkRow}

/-- A watermark that was taken past signatures, and then past further ones, was taken past all of them. -/
theorem pass_append {passed more : List SignatureInfo} {first : String}
    (hordered : (passed ++ more).Pairwise fun x y => x.slot ≤ y.slot)
    (hfirst : ∀ oldest ∈ (passed ++ more).head?, oldest.signature = first) :
    row.pass (passed ++ more) = match more.getLast? with
      | none => row.pass passed
      | some newest => ((row.pass passed).moveTo newest.signature newest.slot).beginAt first := by
  cases hmore : more.getLast? with
  | none => rw [List.getLast?_eq_none_iff.mp hmore, List.append_nil]
  | some newest =>
    have hnewest : (passed ++ more).getLast? = some newest := by rw [List.getLast?_append, hmore, Option.some_or]
    obtain ⟨oldest, holdest⟩ : ∃ oldest, (passed ++ more).head? = some oldest := by
      cases hhead : (passed ++ more).head? with
      | none =>
        rw [List.head?_eq_none_iff.mp hhead] at hnewest
        cases hnewest
      | some oldest => exact ⟨oldest, rfl⟩
    have hfirst' : oldest.signature = first := hfirst oldest holdest
    simp only [beginAt_eq, moveTo_eq]
    rw [pass, holdest, hnewest]
    simp only [hfirst']
    cases hpassed : passed.getLast? with
    | none =>
      rw [List.getLast?_eq_none_iff.mp hpassed]
      rfl
    | some last =>
      have hhead : passed.head? = some oldest := by
        cases passed with
        | nil => cases hpassed
        | cons info rest => exact holdest
      have hle : last.slot ≤ newest.slot :=
        (List.pairwise_append.mp hordered).2.2 last (List.mem_of_getLast? hpassed) newest (List.mem_of_getLast? hmore)
      rw [pass, hhead, hpassed]
      simp only [hfirst', Option.or_assoc, Option.or_self, Int.max_assoc, Int.max_eq_right hle, Int.max_le, hle,
        and_true]
      by_cases hmoves : row.checkedUpToSlot ≤ newest.slot
      · simp only [if_pos hmoves]
      · have hstays : ¬row.checkedUpToSlot ≤ last.slot := fun h => hmoves (Int.le_trans h hle)
        simp only [if_neg hmoves, if_neg hstays]

end WatermarkRow

/-! ## Processing -/

namespace Crawler

/-- A world that a crawl leaves once it has processed signatures, in chunks of a size at most, that come after those that
were passed: their dues were committed in some order, and the watermark, if it was to be moved, was taken past what
succeeded before the first failure. -/
structure Batched (c : Crawler) (size : Nat) (succeeds : SignatureInfo → Bool) (advance : Bool)
    (passed infos : List SignatureInfo) (w w' : World) : Prop where
  proceeds : w.Proceeds w'
  tables : ∃ made, w'.database.store.tables = Commit.applyAll made w.database.store.tables ∧
    made.Perm (c.dues w.ledger infos) ∧ (c.concurrency ≤ 1 ∨ size ≤ 1 → made = c.dues w.ledger infos)
  moved : advance = true → ∀ start : Option WatermarkRow, w.watermark? c.address = start.map (·.pass passed) →
    w'.watermark? c.address = start.map (·.pass (passed ++ infos.takeWhile succeeds))
  kept : advance = false → w'.watermark? c.address = w.watermark? c.address

variable {c : Crawler} {succeeds : SignatureInfo → Bool} {first : String} {w : World} {passed infos : List SignatureInfo}
  {size : Nat}

/-- The watermark is moved on with a further chunk if all signatures before it succeeded. -/
theorem Batched.append {advance : Bool} {more : List SignatureInfo} {w₁ w₂ : World}
    (h : c.Batched size succeeds advance passed infos w w₁)
    (h' : c.Batched size succeeds (advance && infos.all succeeds) (passed ++ infos) more w₁ w₂) :
    c.Batched size succeeds advance passed (infos ++ more) w w₂ := by
  refine ⟨h.proceeds.trans h'.proceeds, ?_, fun hadvance start hstart => ?_, fun hstays => ?_⟩
  · obtain ⟨made, htables, hperm, horder⟩ := h.tables
    obtain ⟨made', htables', hperm', horder'⟩ := h'.tables
    rw [h.proceeds.ledger] at hperm' horder'
    refine ⟨made ++ made', ?_, ?_, fun hone => ?_⟩
    · rw [htables', htables, Commit.applyAll_append]
    · rw [dues, List.flatMap_append]
      exact hperm.append hperm'
    · rw [dues, List.flatMap_append, horder hone, horder' hone, dues, dues]
  · have hmoved := h.moved hadvance start hstart
    by_cases hall : infos.all succeeds = true
    · have htake : infos.takeWhile succeeds = infos := List.takeWhile_eq_self_iff.mpr (List.all_eq_true.mp hall)
      rw [htake] at hmoved
      rw [List.takeWhile_append_of_pos (List.all_eq_true.mp hall), ← List.append_assoc]
      exact h'.moved (by rw [hadvance, hall, Bool.and_self]) start hmoved
    · rw [takeWhile_append_eq, if_neg hall, List.append_nil,
        h'.kept (by rw [Bool.eq_false_iff.mpr hall, Bool.and_false])]
      exact hmoved
  · rw [h'.kept (by rw [hstays, Bool.false_and]), h.kept hstays]

/-- Moving the watermark after a chunk takes it past what succeeded before the first failure. -/
theorem moveWatermark_passes (c : Crawler) (hquiet : w.database.Quiet) (hbegun : first ≠ "")
    (hordered : (passed ++ infos).Pairwise fun x y => x.slot ≤ y.slot)
    (hfirst : ∀ oldest ∈ (passed ++ infos).head?, oldest.signature = first)
    (hfits : ∀ info ∈ infos.takeWhile succeeds, Session.fitsColumn info.slot = true) :
    ∃ w', (c.moveWatermark (some first) infos (successPrefix (infos.map succeeds))).outcome w = (.ok (), w') ∧
      w.Proceeds w' ∧ w'.database.store.tables = w.database.store.tables ∧
      ∀ start : Option WatermarkRow, w.watermark? c.address = start.map (·.pass passed) →
        w'.watermark? c.address = start.map (·.pass (passed ++ infos.takeWhile succeeds)) := by
  have hprefix : passed ++ infos.takeWhile succeeds <+: passed ++ infos :=
    (List.prefix_append_right_inj passed).mpr (List.takeWhile_prefix succeeds)
  have hbegins : ∀ oldest ∈ (passed ++ infos.takeWhile succeeds).head?, oldest.signature = first := by
    intro oldest hmem
    obtain ⟨rest, hrest⟩ := hprefix
    exact hfirst oldest (hrest ▸ List.mem_head?_append_of_mem_head? hmem)
  have hfirstOf : ∀ signature, firstOf signature (some first) = first := by
    intro signature
    rw [firstOf, if_neg (by rwa [String.isEmpty_iff])]
  obtain ⟨w', hmove, hproceeds, htables, hmoved⟩ := c.moveWatermark_of_quiet (some first) infos
    (successPrefix (infos.map succeeds)) hquiet fun newest hnewest => by
      rw [take_successPrefix] at hnewest
      exact hfits newest (List.mem_of_getLast? hnewest)
  refine ⟨w', hmove, hproceeds, htables, fun start hstart => ?_⟩
  rw [hmoved, take_successPrefix, hstart]
  cases hnewest : (infos.takeWhile succeeds).getLast? with
  | none => rw [List.getLast?_eq_none_iff.mp hnewest, List.append_nil]
  | some newest =>
    simp only [Option.map_map, hfirstOf]
    refine Option.map_congr fun row _ => ?_
    rw [WatermarkRow.pass_append (hordered.sublist hprefix.sublist) hbegins, hnewest]
    rfl

/-- A chunk is ingested, and the watermark is taken past what succeeded before the first failure. -/
theorem processChunk_batched (c : Crawler) (advance : Bool) (hquiet : w.database.Quiet) (hbegun : first ≠ "")
    (hsize : infos.length ≤ size)
    (hverdicts : ∀ info ∈ infos, (Ingestion.waiting info).verdict w.ledger c.address = .ok (succeeds info))
    (hordered : (passed ++ infos).Pairwise fun x y => x.slot ≤ y.slot)
    (hfirst : ∀ oldest ∈ (passed ++ infos).head?, oldest.signature = first)
    (hfits : advance = true → ∀ info ∈ infos.takeWhile succeeds, Session.fitsColumn info.slot = true) :
    ∃ w', (c.processChunk (some first) advance infos).outcome w = (.ok (infos.map succeeds), w') ∧
      c.Batched size succeeds advance passed infos w w' := by
  obtain ⟨w₁, made, ho, hproceeds, hstore, hperm, horder⟩ := c.ingestChunk_of_quiet infos hquiet
  have horder' : c.concurrency ≤ 1 ∨ size ≤ 1 → made = c.dues w.ledger infos := fun hone =>
    horder (hone.imp_right fun hshort => Nat.le_trans hsize hshort)
  have hoks : infos.map (fun info => (Ingestion.waiting info).verdict w.ledger c.address) =
      (infos.map succeeds).map .ok := by
    rw [List.map_map]
    exact List.map_congr_left hverdicts
  have htables : w₁.database.store.tables = Commit.applyAll made w.database.store.tables := by
    rw [hstore, Commit.tables_applyAll]
  have hsame : w₁.watermark? c.address = w.watermark? c.address := by
    rw [World.watermark?, hstore, Commit.watermarks_applyAll]
    rfl
  rw [hoks, allOrFirst_map_ok] at ho
  rw [processChunk, Attempt.outcome_bind_of_ok ho]
  cases advance with
  | false =>
    exact ⟨w₁, rfl, hproceeds, ⟨made, htables, hperm, horder'⟩, fun h => absurd h Bool.false_ne_true, fun _ => hsame⟩
  | true =>
    obtain ⟨w₂, hmove, hproceeds', htables', hmoved⟩ := c.moveWatermark_passes hproceeds.quiet hbegun hordered
      hfirst (hfits rfl)
    simp only [if_true]
    rw [Attempt.outcome_bind_of_ok hmove]
    exact ⟨w₂, rfl, hproceeds.trans hproceeds', ⟨made, htables'.trans htables, hperm, horder'⟩,
      fun _ start hstart => hmoved start (hsame.trans hstart), fun h => absurd h.symm Bool.false_ne_true⟩

/-- Chunks are processed one after another. -/
theorem processChunks_batched (c : Crawler) (passed : List SignatureInfo) (advance : Bool)
    {chunks : List (List SignatureInfo)} (hquiet : w.database.Quiet) (hgoing : w.stopped = false)
    (hstop : w.ledger.switches.stopOnFetch = none) (hbegun : first ≠ "") (hchunks : chunks.flatten = infos)
    (hsize : ∀ chunk ∈ chunks, chunk.length ≤ size)
    (hverdicts : ∀ info ∈ infos, (Ingestion.waiting info).verdict w.ledger c.address = .ok (succeeds info))
    (hordered : (passed ++ infos).Pairwise fun x y => x.slot ≤ y.slot)
    (hfirst : ∀ oldest ∈ (passed ++ infos).head?, oldest.signature = first)
    (hfits : advance = true → ∀ info ∈ infos.takeWhile succeeds, Session.fitsColumn info.slot = true) :
    ∃ w', (c.processChunks (some first) advance chunks).outcome w =
        (.ok (infos.countP succeeds, infos.countP fun info => !succeeds info), w') ∧
      c.Batched size succeeds advance passed infos w w' := by
  induction chunks generalizing w advance passed infos with
  | nil =>
    subst hchunks
    exact ⟨w, rfl, .of_quiet hquiet, ⟨[], rfl, .refl _, fun _ => rfl⟩, fun _ start hstart => by simpa using hstart,
      fun _ => rfl⟩
  | cons chunk chunks ih =>
    rw [List.flatten_cons] at hchunks
    subst hchunks
    obtain ⟨hchunk, hrest⟩ := List.forall_mem_append.mp hverdicts
    obtain ⟨hshort, hshorts⟩ := List.forall_mem_cons.mp hsize
    rw [← List.append_assoc] at hordered hfirst
    have hfirst' : ∀ oldest ∈ (passed ++ chunk).head?, oldest.signature = first :=
      fun oldest hmem => hfirst oldest (List.mem_head?_append_of_mem_head? hmem)
    simp only [takeWhile_append_eq, List.forall_mem_append] at hfits
    obtain ⟨w₁, ho, hbatched⟩ := c.processChunk_batched advance hquiet hbegun hshort hchunk
      (List.pairwise_append.mp hordered).1 hfirst' fun hadvance => (hfits hadvance).1
    have hproceeds := hbatched.proceeds
    have hledger := hproceeds.ledger
    have hfits' : (advance && chunk.all succeeds) = true →
        ∀ info ∈ chunks.flatten.takeWhile succeeds, Session.fitsColumn info.slot = true := by
      intro h
      obtain ⟨hadvance, hall⟩ := Bool.and_eq_true_iff.mp h
      have hfitsRest := (hfits hadvance).2
      rwa [if_pos hall] at hfitsRest
    have hgoing₁ : w₁.stopped = false := (hproceeds.goingOn hstop).trans hgoing
    obtain ⟨w₂, ho', hbatched'⟩ := ih (passed ++ chunk) (advance && chunk.all succeeds) hproceeds.quiet hgoing₁
      (hledger ▸ hstop) rfl hshorts (hledger ▸ hrest) hordered hfirst hfits'
    refine ⟨w₂, ?_, hbatched.append hbatched'⟩
    rw [processChunks_cons, hgoing]
    simp only [Bool.false_eq_true, if_false]
    rw [Attempt.outcome_bind_of_ok ho, successPrefix_beq_length, Attempt.outcome_bind_of_ok ho']
    simp only [Attempt.outcome_pure, countP_map_gives, List.countP_append, length_sub_countP]

/-- The batches of a list are processed one after another. -/
theorem processAll_batched (c : Crawler) (infos : List SignatureInfo) (batchSize : Int) (advance : Bool)
    (hsize : 1 ≤ batchSize) (hquiet : w.database.Quiet) (hgoing : w.stopped = false)
    (hstop : w.ledger.switches.stopOnFetch = none)
    (hverdicts : ∀ info ∈ infos, (Ingestion.waiting info).verdict w.ledger c.address = .ok (succeeds info))
    (hordered : infos.Pairwise fun x y => x.slot ≤ y.slot)
    (hbegun : ∀ oldest ∈ infos.head?, oldest.signature ≠ "")
    (hfits : advance = true → ∀ info ∈ infos.takeWhile succeeds, Session.fitsColumn info.slot = true) :
    ∃ w', (c.processAll infos batchSize advance).outcome w =
        (.ok (infos.countP succeeds, infos.countP fun info => !succeeds info), w') ∧
      c.Batched batchSize.toNat succeeds advance [] infos w w' := by
  have hnonzero : batchSize ≠ 0 := by omega
  rw [processAll, if_neg hnonzero]
  cases hhead : infos.head? with
  | none =>
    rw [List.head?_eq_none_iff.mp hhead, chunksOf, dif_neg (by simp)]
    exact ⟨w, rfl, .of_quiet hquiet, ⟨[], rfl, .refl _, fun _ => rfl⟩, fun _ start hstart => by simpa using hstart,
      fun _ => rfl⟩
  | some oldest =>
    have hfirst : ∀ info ∈ ([] ++ infos).head?, info.signature = oldest.signature := by
      intro info hmem
      rw [List.nil_append, hhead] at hmem
      rw [Option.mem_some_iff.mp hmem]
    exact c.processChunks_batched [] advance hquiet hgoing hstop (hbegun oldest hhead)
      (flatten_chunksOf (by omega) infos) (fun _ => length_le_of_mem_chunksOf) hverdicts hordered hfirst hfits

/-- Ingesting a signature comes to its verdict. -/
theorem ingest_of_quiet (c : Crawler) (info : SignatureInfo) (hquiet : w.database.Quiet) :
    ((c.ingest info).outcome w).1 = (Ingestion.waiting info).verdict w.ledger c.address := by
  obtain ⟨w', ho, -⟩ := c.outcome_ingest_of_quiet info hquiet
  rw [ho]

/-- Processing in batches counts the successes and failures of the whole list and takes the watermark past what succeeds
before the first failure of the list, if it is to be moved: in no way does it matter how large the batches are. What is
committed is what ingesting the signatures one after another commits, in some order. So the tables are the same if one
signature is ingested at a time or batches are of one signature; and if the transactions are consistent, the tables are
the same but for the owners of positions and the marks of liquidations. -/
theorem processAll_unbatched (c : Crawler) (infos : List SignatureInfo) (succeeds : SignatureInfo → Bool)
    (batchSize : Int) (advance : Bool) (hsize : 1 ≤ batchSize)
    (hquiet : w.database.Quiet) (hgoing : w.stopped = false) (hstop : w.ledger.switches.stopOnFetch = none)
    (hsettles : ∀ info ∈ infos, ((c.ingest info).outcome w).1 = .ok (succeeds info))
    (hordered : infos.Pairwise fun x y => x.slot ≤ y.slot)
    (hbegun : ∀ oldest ∈ infos.head?, oldest.signature ≠ "")
    (hfits : advance = true → ∀ info ∈ infos.takeWhile succeeds, Session.fitsColumn info.slot = true) :
    ∃ w', (c.processAll infos batchSize advance).outcome w =
        (.ok (infos.countP succeeds, infos.countP fun info => !succeeds info), w') ∧
      w'.watermark? c.address = (if advance then (w.watermark? c.address).map (·.pass (infos.takeWhile succeeds))
        else w.watermark? c.address) ∧
      (Attempt.outcome (infos.mapM c.ingest) w).2.database.store.tables =
        Commit.applyAll (c.dues w.ledger infos) w.database.store.tables ∧
      (∃ made, made.Perm (c.dues w.ledger infos) ∧
        w'.database.store.tables = Commit.applyAll made w.database.store.tables) ∧
      (c.concurrency ≤ 1 ∨ batchSize = 1 →
        w'.database.store.tables = (Attempt.outcome (infos.mapM c.ingest) w).2.database.store.tables) ∧
      ∀ txs, Consistent txs → PositionsConcur txs → c.lookups w.ledger infos ⊆ txs →
        (Attempt.outcome (infos.mapM c.ingest) w).2.database.store.SameStandings w'.database.store := by
  have hverdicts : ∀ info ∈ infos, (Ingestion.waiting info).verdict w.ledger c.address = .ok (succeeds info) :=
    fun info hinfo => (c.ingest_of_quiet info hquiet).symm.trans (hsettles info hinfo)
  obtain ⟨w₁, hone, hstore⟩ := c.mapM_ingest_of_quiet hquiet hverdicts
  have htables₁ : w₁.database.store.tables = Commit.applyAll (c.dues w.ledger infos) w.database.store.tables := by
    rw [hstore, Commit.tables_applyAll]
  obtain ⟨w', ho, -, ⟨made, htables, hperm, horder⟩, hmoved, hkept⟩ :=
    c.processAll_batched infos batchSize advance hsize hquiet hgoing hstop hverdicts hordered hbegun hfits
  rw [hone]
  refine ⟨w', ho, ?_, htables₁, ⟨made, hperm, htables⟩, fun hone => ?_,
    fun txs hconsistent hpositions hknown => .of_tables ?_⟩
  · cases advance with
    | false => exact hkept rfl
    | true => exact hmoved rfl _ (by simp [WatermarkRow.pass])
  · rw [htables, htables₁, horder (hone.imp_right fun hbatch => by omega)]
  · rw [htables, htables₁]
    refine hconsistent.sameStandings hpositions (fun x hx => ?_) hperm.symm _
    obtain ⟨tx, htx, hx⟩ := exists_lookup_of_mem_dues hx
    exact ⟨tx, hknown htx, hx⟩

-- An empty first signature is taken for none: the watermark begins at the end of what the first batch passes.
example :
    let c : Crawler := { address := "pool" }
    let w : World :=
      { ledger := { history := [⟨"", 1, none, [], .null⟩, ⟨"swap", 2, none, [], .null⟩] }
        database := { store := { watermarks := ⟨[{ account := "pool" }], by decide⟩ } } }
    (((c.processAll (w.ledger.history.map (·.info)) 2 true).outcome w).2.watermark? "pool").bind (·.firstSignature) =
      some "swap" := by
  decide +kernel

/-! ### An update that overtakes the liquidation before it -/

/-- A small world in which the watermark is still at the start. -/
def watchedStart (history : List LedgerTransaction) (failing : List String) (turns : List (List Nat)) : World :=
  { smallStart history failing with
    database := { store := { watermarks := ⟨[{ account := "pool" }], by decide⟩ } }
    turns }

theorem ledger_watchedStart (history : List LedgerTransaction) (failing : List String) (turns : List (List Nat)) :
    (watchedStart history failing turns).ledger = (smallStart history failing).ledger := rfl

theorem tables_watchedStart (history : List LedgerTransaction) (failing : List String) (turns : List (List Nat)) :
    (watchedStart history failing turns).database.store.tables = {} := rfl

/-- A transaction in which the pool tells an event. -/
def telling (signature : String) (slot : Int) (payload : List Char) : LedgerTransaction :=
  ⟨signature, slot, none,
    ["Program pool invoke [1]", String.ofList ("Program data: ".toList ++ payload), "Program pool success"], .null⟩

theorem eventsOf_telling {signature : String} {slot : Int} {payload : List Char} {body : EventBody}
    (hline : LogLine.ofChars ("Program data: ".toList ++ payload) = .data payload)
    (hdata : Base64.decodeChars? payload = some body.encode) :
    eventsOf "pool" (telling signature slot payload).logs = [⟨body, 1⟩] := by
  have hopen : LogLine.ofChars "Program pool invoke [1]".toList = .invoke "pool".toList := by decide +kernel
  have hclose : LogLine.ofChars "Program pool success".toList = .exit "pool".toList := by decide +kernel
  have hevent : eventOfData? payload 1 = some ⟨body, 1⟩ := by
    have hdecode := decodePayload_encode body [] 1
    rw [List.append_nil] at hdecode
    rw [eventOfData?, hdata, Option.bind_eq_bind, Option.bind_some, Nat.cast_one, hdecode]
    rfl
  simp only [eventsOf, telling, eventsFrom, List.map_cons, List.map_nil, String.toList_ofList, hopen, hline, hclose,
    CallStack.dataFrom?, CallStack.after, List.head?_cons, if_true, Option.bind_none, Option.bind_some, zero_add, hevent,
    Option.toList_none, Option.toList_some, List.nil_append, List.append_nil]

/-- A position is liquidated. -/
def firstLiquidation : EventBody :=
  .positionLiquidated (.small 0) (.small 0) 0 0 0 0 0 0 ⟨0, 0, 0, 0⟩ ⟨.small 0, .small 0, 1, 0⟩

def liquidationPayload : List Char :=
  "3InZA/K+7tg".toList ++ List.replicate 278 'A' ++ 'Q' :: List.replicate 20 'A' ++ ['=', '=']

/-- The owner of the position changes it. -/
def nextUpdate : EventBody :=
  .positionUpdated (.small 0) ⟨0, 0, 0, 0⟩ ⟨.small 0, .small 0, 2, 0⟩

def updatePayload : List Char :=
  "U6jFWFkqOmY".toList ++ List.replicate 171 'A' ++ 'I' :: List.replicate 20 'A' ++ ['=']

/-- What a crawl of the pool makes of a transaction in which the pool tells an event. -/
def told (signature : String) (slot : Int) (body : EventBody) : DecodedTransaction :=
  ⟨signature, slot, none, [⟨body, 1⟩], false⟩

/-- It is looked up unless the ledger holds it back. -/
theorem prepared_telling {l : RecordedLedger} {signature : String} {slot : Int} {payload : List Char}
    {body : EventBody} (hmem : telling signature slot payload ∈ l.history)
    (hdistinct : (l.history.map (·.signature)).Nodup) (hheld : l.heldBack? (telling signature slot payload) = none)
    (hevents : eventsOf "pool" (telling signature slot payload).logs = [⟨body, 1⟩]) :
    l.prepared "pool" (telling signature slot payload).info = .ok (some (told signature slot body)) := by
  have hread : (telling signature slot payload).reading "pool" =
      .ok ((telling signature slot payload).decoded "pool" none) := rfl
  rw [RecordedLedger.prepared_of_mem "pool" hmem hdistinct, hheld, hread, LedgerTransaction.decoded, hevents]
  rfl

theorem eventsOf_liquidation (signature : String) (slot : Int) :
    eventsOf "pool" (telling signature slot liquidationPayload).logs = [⟨firstLiquidation, 1⟩] :=
  eventsOf_telling (by decide +kernel) (by decide +kernel)

theorem eventsOf_update (signature : String) (slot : Int) :
    eventsOf "pool" (telling signature slot updatePayload).logs = [⟨nextUpdate, 1⟩] :=
  eventsOf_telling (by decide +kernel) (by decide +kernel)

def fiveTransactions : List LedgerTransaction :=
  [⟨"create", 1, none, [], .null⟩, telling "liquidation" 2 liquidationPayload, telling "update" 2 updatePayload,
    ⟨"repay", 2, none, [], .null⟩, ⟨"burn", 3, none, [], .null⟩]

/-- What is looked up determines what ingesting comes to. -/
theorem settles_of_prepared (c : Crawler) (succeeds : SignatureInfo → Bool) {l : RecordedLedger}
    {txs : List LedgerTransaction} {looked : List (Except Failure (Option DecodedTransaction))} (hledger : w.ledger = l)
    (hquiet : w.database.Quiet) (hlooked : txs.map (fun tx => l.prepared c.address tx.info) = looked)
    (h : looked.map (fun prepared => (Ingestion.ofPrepared prepared).verdict l c.address) =
      txs.map fun tx => .ok (succeeds tx.info)) :
    ∀ info ∈ txs.map (·.info), ((c.ingest info).outcome w).1 = .ok (succeeds info) := by
  subst hledger
  rw [← hlooked, List.map_map] at h
  rw [List.forall_mem_map]
  intro tx htx
  rw [c.ingest_of_quiet _ hquiet, ← Ingestion.verdict_ofPrepared]
  exact List.map_inj_left.mp h tx htx

theorem lookups_of_prepared (c : Crawler) {l : RecordedLedger} {txs : List LedgerTransaction}
    {looked : List (Except Failure (Option DecodedTransaction))}
    (hlooked : txs.map (fun tx => l.prepared c.address tx.info) = looked) :
    c.lookups l (txs.map (·.info)) = looked.filterMap (·.toOption.join) := by
  rw [← hlooked]
  simp only [lookups, List.filterMap_map, Function.comp_def]

theorem dues_of_prepared (c : Crawler) {l : RecordedLedger} (txs : List LedgerTransaction)
    {looked : List (Except Failure (Option DecodedTransaction))}
    (hlooked : txs.map (fun tx => l.prepared c.address tx.info) = looked) :
    c.dues l (txs.map (·.info)) = looked.flatMap fun prepared => (Ingestion.ofPrepared prepared).dues l c.address := by
  rw [← hlooked]
  simp only [dues, List.flatMap_map, Ingestion.dues_ofPrepared]

theorem prepared_fiveTransactions :
    fiveTransactions.map (fun tx => (smallStart fiveTransactions ["repay"]).ledger.prepared "pool" tx.info) =
      [.ok (some ⟨"create", 1, none, [], false⟩), .ok (some (told "liquidation" 2 firstLiquidation)),
        .ok (some (told "update" 2 nextUpdate)), .error ⟨.transientLedger, "getTransaction repay timed out"⟩,
        .ok (some ⟨"burn", 3, none, [], false⟩)] := by
  have hliquidation := prepared_telling (l := (smallStart fiveTransactions ["repay"]).ledger)
    (.tail _ (.head _)) (by decide) (by decide +kernel) (eventsOf_liquidation "liquidation" 2)
  have hupdate := prepared_telling (l := (smallStart fiveTransactions ["repay"]).ledger)
    (.tail _ (.tail _ (.head _))) (by decide) (by decide +kernel) (eventsOf_update "update" 2)
  rw [fiveTransactions] at *
  simp only [List.map_cons, List.map_nil, hliquidation, hupdate]
  rfl

/-- Five signatures in batches of four, the fourth of which cannot be fetched: the watermark passes the first three,
which end amid the first batch. The update overtakes the liquidation before it. -/
theorem processAll_unbatched_fiveTransactions :
    ∃ w', (smallCrawler.processAll (fiveTransactions.map (·.info)) 4 true).outcome
        (watchedStart fiveTransactions ["repay"] [[0, 1, 2, 2, 2]]) = (.ok (4, 1), w') ∧
      w'.watermark? "pool" = some { account := "pool", latestSignature := some "update",
                                    firstSignature := some "create", checkedUpToSlot := 2 } ∧
      (Attempt.outcome ((fiveTransactions.map (·.info)).mapM smallCrawler.ingest)
        (watchedStart fiveTransactions ["repay"] [[0, 1, 2, 2, 2]])).2.database.store.SameStandings
          w'.database.store := by
  have hquiet : (watchedStart fiveTransactions ["repay"] [[0, 1, 2, 2, 2]]).database.Quiet := nofun
  obtain ⟨w', ho, hwatermark, -, -, -, htables⟩ :=
    smallCrawler.processAll_unbatched (fiveTransactions.map (·.info))
      (fun info => info.signature != "repay") 4 true (w := watchedStart fiveTransactions ["repay"] [[0, 1, 2, 2, 2]])
      (by decide) hquiet rfl rfl
      (smallCrawler.settles_of_prepared _ (ledger_watchedStart ..) hquiet prepared_fiveTransactions
        (by decide +kernel)) (by decide) (by decide) (by decide)
  rw [ledger_watchedStart, smallCrawler.lookups_of_prepared prepared_fiveTransactions] at htables
  refine ⟨w', ho, hwatermark, htables _ ?_ ?_ (List.Subset.refl _)⟩
  · constructor <;> decide +kernel
  · decide +kernel

/-- If two signatures may be ingested at a time, turns may be taken so that a batch of two commits what the second tells
before what the first tells, which batches of one do not. -/
theorem exists_turns_batches (c : Crawler) (htwo : 2 ≤ c.concurrency) (info info' : SignatureInfo)
    (hquiet : w.database.Quiet) (hgoing : w.stopped = false) (hstop : w.ledger.switches.stopOnFetch = none)
    (hverdicts : ∀ i ∈ [info, info'], (Ingestion.waiting i).verdict w.ledger c.address = .ok (succeeds i))
    (hordered : info.slot ≤ info'.slot) (hbegun : info.signature ≠ "") :
    ∃ turns, ((c.processAll [info, info'] 2 false).outcome { w with turns := [turns] }).2.database.store.tables =
        Commit.applyAll (c.dues w.ledger [info', info]) w.database.store.tables ∧
      ((c.processAll [info, info'] 1 false).outcome { w with turns := [turns] }).2.database.store.tables =
        Commit.applyAll (c.dues w.ledger [info, info']) w.database.store.tables := by
  obtain ⟨turns, hturns⟩ := c.exists_turns_overtaking htwo info info' hquiet
  refine ⟨turns, ?_, ?_⟩
  · obtain ⟨w', -, ho, -⟩ := c.ingestChunk_of_quiet [info, info'] (w := { w with turns := [turns] }) hquiet
    rw [List.map_congr_left hverdicts] at ho
    have hchunk : (c.processChunk (some info.signature) false [info, info']).outcome { w with turns := [turns] } =
        (.ok [succeeds info, succeeds info'], w') := by
      rw [processChunk, Attempt.outcome_bind_of_ok ho]
      rfl
    rw [ho] at hturns
    rw [c.processAll_of_one_chunk (w := { w with turns := [turns] }) (List.cons_ne_nil _ _) (Int.le_refl 2) hgoing
      hchunk, ← Commit.tables_applyAll]
    exact congrArg Store.tables hturns
  · obtain ⟨w', ho, -, ⟨made, htables, -, horder⟩, -⟩ :=
      c.processAll_batched [info, info'] 1 false (w := { w with turns := [turns] }) (Int.le_refl 1) hquiet hgoing hstop
        hverdicts (by simpa using hordered) (by simpa using hbegun) fun h => absurd h Bool.false_ne_true
    rw [ho, htables, horder (.inr (Nat.le_refl 1))]

def liquidationThenUpdate : List LedgerTransaction :=
  [telling "liquidation" 1 liquidationPayload, telling "update" 2 updatePayload]

theorem prepared_liquidationThenUpdate :
    liquidationThenUpdate.map (fun tx => (smallStart liquidationThenUpdate []).ledger.prepared "pool" tx.info) =
      [.ok (some (told "liquidation" 1 firstLiquidation)), .ok (some (told "update" 2 nextUpdate))] := by
  have hliquidation := prepared_telling (l := (smallStart liquidationThenUpdate []).ledger)
    (.head _) (by decide) (by decide +kernel) (eventsOf_liquidation "liquidation" 1)
  have hupdate := prepared_telling (l := (smallStart liquidationThenUpdate []).ledger)
    (.tail _ (.head _)) (by decide) (by decide +kernel) (eventsOf_update "update" 2)
  rw [liquidationThenUpdate] at *
  simp only [List.map_cons, List.map_nil, hliquidation, hupdate]

/-- What the data tables hold may depend on the size of the batches. In a batch of two the update overtakes the
liquidation before it, so that the position has an owner and no mark; one after the other they leave it without the owner
and with the mark. -/
theorem batches_tell_owners :
    ¬∀ (c : Crawler) (w : World) (infos : List SignatureInfo) (succeeds : SignatureInfo → Bool)
      (batchSize batchSize' : Int) (advance : Bool), 1 ≤ batchSize → 1 ≤ batchSize' → w.database.Quiet →
      w.stopped = false → w.ledger.switches.stopOnFetch = none →
      (∀ info ∈ infos, ((c.ingest info).outcome w).1 = .ok (succeeds info)) →
      (infos.Pairwise fun x y => x.slot ≤ y.slot) → (∀ oldest ∈ infos.head?, oldest.signature ≠ "") →
      (advance = true → ∀ info ∈ infos.takeWhile succeeds, Session.fitsColumn info.slot = true) →
      ((c.processAll infos batchSize advance).outcome w).2.database.store.tables =
        ((c.processAll infos batchSize' advance).outcome w).2.database.store.tables := by
  intro h
  have hquiet (turns) : (watchedStart liquidationThenUpdate [] turns).database.Quiet := nofun
  have hsettles (turns) := smallCrawler.settles_of_prepared (fun _ => true)
    (ledger_watchedStart liquidationThenUpdate [] turns) (hquiet turns) prepared_liquidationThenUpdate
    (by decide +kernel)
  obtain ⟨turns, htwo, hone⟩ := smallCrawler.exists_turns_batches (by decide)
    (telling "liquidation" 1 liquidationPayload).info (telling "update" 2 updatePayload).info (hquiet []) rfl rfl
    (fun info hinfo => (smallCrawler.ingest_of_quiet info (hquiet [])).symm.trans (hsettles [] info hinfo))
    (by decide) (by decide)
  have hsame := h smallCrawler (watchedStart liquidationThenUpdate [] [turns]) (liquidationThenUpdate.map (·.info))
    (fun _ => true) 2 1 false (by decide) (by decide) (hquiet [turns]) rfl rfl (hsettles [turns]) (by decide) (by decide)
    nofun
  have hcommits := htwo.symm.trans (hsame.trans hone)
  have hdues : smallCrawler.dues (smallStart liquidationThenUpdate []).ledger
      [(telling "liquidation" 1 liquidationPayload).info, (telling "update" 2 updatePayload).info] = _ :=
    smallCrawler.dues_of_prepared liquidationThenUpdate prepared_liquidationThenUpdate
  have hreversed : smallCrawler.dues (smallStart liquidationThenUpdate []).ledger
      [(telling "update" 2 updatePayload).info, (telling "liquidation" 1 liquidationPayload).info] = _ :=
    smallCrawler.dues_of_prepared liquidationThenUpdate.reverse
      ((List.map_reverse ..).trans (congrArg List.reverse prepared_liquidationThenUpdate))
  rw [tables_watchedStart, ledger_watchedStart, hdues, hreversed] at hcommits
  have hposition := congrArg (fun s => (s.positions.find? (PublicKey.small 0).toText).map fun row =>
    (row.userAddress.isSome, row.liquidated)) hcommits
  revert hposition
  decide +kernel

end Crawler
end PairIndex
