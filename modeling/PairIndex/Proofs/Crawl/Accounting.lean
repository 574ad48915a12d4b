import PairIndex.Command.Arguments
import PairIndex.Proofs.Crawl.Completion
import PairIndex.Proofs.Crawl.GapFill
import PairIndex.Proofs.Service.Requests

/-! Accounts of backfills. A backfill that comes to a result without a stop counts each signature that it collected as
processed or as failed, unless it is asked for batches of a negative size: then it counts none
(`Crawler.accounts_iff`). -/

namespace PairIndex.Crawler

variable {c : Crawler} {w w' : World}

/-! ## Processing -/

theorem length_of_ingestChunk {chunk : List SignatureInfo} {oks : List Bool}
    (h : (c.ingestChunk chunk).outcome w = (.ok oks, w')) : oks.length = chunk.length := by
  obtain ⟨outcomes, w₁, ho, -, -, made, -, -, hfollows⟩ := c.commits_ingestChunk chunk w
  have hoks : allOrFirst outcomes = .ok oks := congrArg Prod.fst (ho.symm.trans h)
  rw [map_ok_of_allOrFirst hoks] at hfollows
  simpa using hfollows.length_eq.symm

theorem length_of_processChunk {first : Option String} {advance : Bool} {chunk : List SignatureInfo} {oks : List Bool}
    (h : (c.processChunk first advance chunk).outcome w = (.ok oks, w')) : oks.length = chunk.length := by
  rw [processChunk, Attempt.outcome_bind_eq_ok_iff] at h
  obtain ⟨all, w₁, hingested, h⟩ := h
  have hlength := length_of_ingestChunk hingested
  cases advance with
  | false =>
    cases h
    exact hlength
  | true =>
    simp only [if_true, Attempt.outcome_bind_eq_ok_iff] at h
    obtain ⟨-, w₂, -, h⟩ := h
    cases h
    exact hlength

/-- Chunks are counted in full, unless a stop was asked for. -/
theorem counts_of_processChunks {first : Option String} {advance : Bool} {chunks : List (List SignatureInfo)}
    {processed failed : Nat} (h : (c.processChunks first advance chunks).outcome w = (.ok (processed, failed), w'))
    (hgoing : w'.stopped = false) : processed + failed = chunks.flatten.length := by
  induction chunks generalizing w advance processed failed with
  | nil =>
    cases h
    rfl
  | cons chunk chunks ih =>
    rw [processChunks_cons] at h
    by_cases hstopped : w.stopped = true
    · rw [if_pos hstopped] at h
      cases h
      rw [hstopped] at hgoing
      cases hgoing
    · rw [if_neg hstopped, Attempt.outcome_bind_eq_ok_iff] at h
      obtain ⟨oks, w₁, hchunk, h⟩ := h
      obtain ⟨⟨processed', failed'⟩, w₂, hrest, h⟩ := Attempt.outcome_bind_eq_ok_iff.mp h
      cases h
      have hlength := length_of_processChunk hchunk
      have hcount := oks.countP_le_length (p := id)
      have hcounts := ih hrest
      rw [List.flatten_cons, List.length_append]
      omega

/-- A list is counted in full if its batches have a positive size, and not at all if they have a negative one. -/
theorem counts_of_processAll {signatures : List SignatureInfo} {batchSize : Int} {advance : Bool}
    {processed failed : Nat}
    (h : (c.processAll signatures batchSize advance).outcome w = (.ok (processed, failed), w'))
    (hgoing : w'.stopped = false) : processed + failed = if 0 < batchSize then signatures.length else 0 := by
  rw [processAll] at h
  by_cases hzero : batchSize = 0
  · rw [if_pos hzero] at h
    cases h
  · rw [if_neg hzero] at h
    have hcounts := counts_of_processChunks h hgoing
    by_cases hsize : 0 < batchSize
    · rw [if_pos hsize, hcounts, flatten_chunksOf (by omega)]
    · rw [if_neg hsize, hcounts, chunksOf, dif_neg (by omega)]
      rfl

/-! ## Backfills -/

/-- What a backfill does before it processes anything. -/
def collect (c : Crawler) (r : BackfillRequest) : Attempt World Walk := do
  let watermark ← World.session (Session.openWatermark c.address c.description)
  c.paging.walk
    { stopAt := if r.reprocess then none else watermark.latestSignature, fromSlot := r.fromSlot, toSlot := r.toSlot }

/-- A backfill processes what it collected. -/
theorem outcome_backfill_of_collect {r : BackfillRequest} {walk : Walk} {w₁ : World}
    (h : (c.collect r).outcome w = (.ok walk, w₁)) : ∃ joins, (c.backfill r).outcome w = Attempt.outcome (do
      let (processed, failed) ← c.processAll walk.signatures (c.batchSizeOf r) joins
      return c.completed "Backfill" processed failed) w₁ := by
  obtain ⟨watermark, w₀, hopened, hwalked⟩ := Attempt.outcome_bind_eq_ok_iff.mp h
  refine ⟨walk.connected || watermark.latestSignature.isNone ||
    r.fromSlot.any fun slot => decide (slot ≤ watermark.checkedUpToSlot), ?_⟩
  rw [backfill, Attempt.outcome_bind_of_ok hopened, Attempt.outcome_bind_of_ok (Attempt.outcome_settle_of_eq hwalked)]
  rfl

/-- A backfill that collected signatures and came to a result without a stop accounts for each of them, unless the size
of its batches is negative. A backfill that is asked for by a control request always does. -/
theorem accounts_iff {r : BackfillRequest} {walk : Walk} {result : IngestResult} {w₁ : World} (hbatch : 0 < c.batchSize)
    (hcollected : (c.collect r).outcome w = (.ok walk, w₁)) (hcrawled : (c.backfill r).outcome w = (.ok result, w'))
    (hgoing : w'.stopped = false) :
    (result.processed + result.failed = walk.signatures.length ↔
      (∀ size ∈ r.batchSize, 0 ≤ size) ∨ walk.signatures = []) ∧
    ∀ watched body address, readBackfill watched body = .ok (address, r) →
      result.processed + result.failed = walk.signatures.length := by
  obtain ⟨joins, ho⟩ := outcome_backfill_of_collect hcollected
  rw [ho, Attempt.outcome_bind_eq_ok_iff] at hcrawled
  obtain ⟨⟨processed, failed⟩, w₂, hprocessed, hdone⟩ := hcrawled
  cases hdone
  have hcounts : processed + failed = if 0 < c.batchSizeOf r then walk.signatures.length else 0 :=
    counts_of_processAll hprocessed hgoing
  have hsize : 0 < c.batchSizeOf r ↔ ∀ size ∈ r.batchSize, 0 ≤ size := by
    rw [batchSizeOf]
    cases r.batchSize with
    | none => simpa using hbatch
    | some size =>
      simp only [Option.getD_some, Option.mem_def, Option.some.injEq, forall_eq']
      split <;> omega
  have haccounts : processed + failed = walk.signatures.length ↔
      (∀ size ∈ r.batchSize, 0 ≤ size) ∨ walk.signatures = [] := by
    rw [hcounts, ← hsize, ← List.length_eq_zero_iff]
    by_cases hpositive : 0 < c.batchSizeOf r
    · exact iff_of_true (if_pos hpositive) (.inl hpositive)
    · rw [if_neg hpositive, or_iff_right hpositive, eq_comm]
  refine ⟨haccounts, fun watched body address hread => haccounts.mpr (.inl fun size hasked => ?_)⟩
  exact Int.le_of_lt (batchSize_pos_of_readBackfill hread size hasked)

/-- Three signatures, of which one cannot be fetched. -/
theorem accounts_iff_small :
    ∃ walk w₁ result w',
      (smallCrawler.collect {}).outcome (smallStart World.smallLedger.history ["swap"]) = (.ok walk, w₁) ∧
      (smallCrawler.backfill {}).outcome (smallStart World.smallLedger.history ["swap"]) = (.ok result, w') ∧
      w'.stopped = false ∧ walk.signatures.length = 3 ∧ result.processed + result.failed = 3 := by
  let w := smallStart World.smallLedger.history ["swap"]
  have hcount : ((smallCrawler.collect {}).outcome w).1.toOption.map (·.signatures.length) = some 3 := by decide +kernel
  have hgoing : ((smallCrawler.backfill {}).outcome w).2.stopped = false := by decide +kernel
  obtain ⟨walk, w₁, hcollected⟩ : ∃ walk w₁, (smallCrawler.collect {}).outcome w = (.ok walk, w₁) :=
    Attempt.exists_of_isOk (by decide +kernel)
  obtain ⟨result, w', hcrawled⟩ : ∃ result w', (smallCrawler.backfill {}).outcome w = (.ok result, w') :=
    Attempt.exists_of_isOk (by decide +kernel)
  rw [hcrawled] at hgoing
  rw [hcollected] at hcount
  have hthree : walk.signatures.length = 3 := Option.some.inj hcount
  have haccounts := (accounts_iff (by decide) hcollected hcrawled hgoing).1
  exact ⟨walk, w₁, result, w', hcollected, hcrawled, hgoing, hthree, hthree ▸ haccounts.mpr (.inl nofun)⟩

/-- A command line may ask for batches of a negative size. Then nothing is counted, and nothing fails. -/
theorem negative_batches_count_nothing :
    ¬∀ (arguments : List String) (address : Option String) (r : BackfillRequest) (c : Crawler) (w w₁ w' : World)
      (walk : Walk) (result : IngestResult), Command.read arguments = .ok (.backfill address r) → 0 < c.batchSize →
      (c.collect r).outcome w = (.ok walk, w₁) → (c.backfill r).outcome w = (.ok result, w') → w'.stopped = false →
      result.processed + result.failed = walk.signatures.length := by
  intro h
  let r : BackfillRequest := { batchSize := some (-1) }
  let w := smallStart World.smallLedger.history []
  have hread : Command.read ["backfill", "--batch-size", "-1"] = .ok (.backfill none r) := by rfl
  have hcount : ((smallCrawler.collect r).outcome w).1.toOption.map (·.signatures.length) = some 3 := by decide +kernel
  have hnone : ((smallCrawler.backfill r).outcome w).1.toOption.map (fun result => result.processed + result.failed) =
      some 0 := by
    decide +kernel
  have hgoing : ((smallCrawler.backfill r).outcome w).2.stopped = false := by decide +kernel
  obtain ⟨walk, w₁, hcollected⟩ : ∃ walk w₁, (smallCrawler.collect r).outcome w = (.ok walk, w₁) :=
    Attempt.exists_of_isOk (by decide +kernel)
  obtain ⟨result, w', hcrawled⟩ : ∃ result w', (smallCrawler.backfill r).outcome w = (.ok result, w') :=
    Attempt.exists_of_isOk (by decide +kernel)
  rw [hcollected] at hcount
  rw [hcrawled] at hnone hgoing
  have hthree : walk.signatures.length = 3 := Option.some.inj hcount
  have hzero : result.processed + result.failed = 0 := Option.some.inj hnone
  have hall := h _ none r smallCrawler w w₁ w' walk result hread (by decide) hcollected hcrawled hgoing
  omega

end PairIndex.Crawler
