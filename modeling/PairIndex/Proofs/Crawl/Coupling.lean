import PairIndex.Crawl.Run
import PairIndex.Proofs.Couple
import PairIndex.Proofs.Crawl.Walk

/-! Crawls in two worlds. A relation of worlds that is kept by each call that a crawl makes and by each chunk that it
ingests, and under which these tell the crawl the same, is kept by the crawl as a whole, which comes to the same end in both worlds
(`World.Coupling.backfill`, `World.Coupling.gapFill`). -/

namespace PairIndex

open Attempt (Coupled)

/-- How far an address was crawled: its latest and its first signature, and the slot up to which it was checked. -/
def WatermarkRow.progress (r : WatermarkRow) : Option String × Option String × Int :=
  (r.latestSignature, r.firstSignature, r.checkedUpToSlot)

/-- A relation of worlds that the calls of a crawl of an address and the chunks that it ingests keep, and under which they
tell the crawl the same. -/
structure World.Coupling (address : String) (R : World → World → Prop) : Prop where
  stopped : ∀ {w v : World}, R w v → v.stopped = w.stopped
  ledger : ∀ {w v : World}, R w v → v.ledger = w.ledger
  sleep (seconds : Rat) : Coupled R Eq (World.sleep seconds) (World.sleep seconds)
  page (request : PageRequest) : Coupled R Eq (World.page request) (World.page request)
  ingestChunk (c : Crawler) (haddress : c.address = address) (chunk : List SignatureInfo) :
    Coupled R Eq (c.ingestChunk chunk) (c.ingestChunk chunk)
  look : Coupled R (fun row row' => row.map (·.progress) = row'.map (·.progress))
    (World.session (Session.watermark? address)) (World.session (Session.watermark? address))
  start (description : String) : Coupled R (fun row row' => row.progress = row'.progress)
    (World.session (Session.openWatermark address description))
    (World.session (Session.openWatermark address description))
  advance (signature : String) (slot : Int) (first : Option String) : Coupled R (fun _ _ => True)
    (World.session (Session.advanceWatermark address signature slot first))
    (World.session (Session.advanceWatermark address signature slot first))

namespace World.Coupling

variable {address : String} {R : World → World → Prop}

/-! ## Walks -/

theorem walkPage {p : Paging} {b : WalkBounds} {fuel : Nat}
    (h : ∀ before, Coupled R Eq (p.walkFrom b fuel before) (p.walkFrom b fuel before)) (page : List SignatureInfo) :
    Coupled R Eq (p.walkPage b fuel page) (p.walkPage b fuel page) := by
  rw [Paging.walkPage]
  cases page.getLast? with
  | none => exact .pure rfl
  | some last =>
    cases (b.scan page).2 with
    | reachedUntil => exact .pure rfl
    | belowFromSlot => exact .pure rfl
    | exhausted =>
      simp only
      split
      · exact .pure rfl
      · exact (h (some last.signature)).bind_eq fun _ => .pure rfl

theorem walkFrom (h : World.Coupling address R) (p : Paging) (b : WalkBounds) (fuel : Nat) (before : Option String) :
    Coupled R Eq (p.walkFrom b fuel before) (p.walkFrom b fuel before) := by
  induction fuel generalizing before with
  | zero => exact .pure rfl
  | succ fuel ih =>
    have hpage : Coupled R Eq (World.page (p.request b before) >>= p.walkPage b fuel)
        (World.page (p.request b before) >>= p.walkPage b fuel) := (h.page _).bind_eq (walkPage ih)
    rw [Paging.walkFrom]
    refine .bind .get fun w v hr => ?_
    rw [h.stopped hr]
    split
    · exact .pure rfl
    · cases before with
      | none => exact hpage
      | some signature => exact (h.sleep p.delay).bind_eq fun _ => hpage

theorem walk (h : World.Coupling address R) (p : Paging) (b : WalkBounds) : Coupled R Eq (p.walk b) (p.walk b) := by
  refine .bind .get fun w v hr => ?_
  rw [h.ledger hr]
  exact (h.walkFrom p b _ none).bind_eq fun _ => .pure rfl

/-! ## Processing -/

variable {c : Crawler}

theorem moveWatermark (h : World.Coupling c.address R) (first : Option String) (chunk : List SignatureInfo)
    (count : Nat) : Coupled R Eq (c.moveWatermark first chunk count) (c.moveWatermark first chunk count) := by
  rw [Crawler.moveWatermark]
  cases (chunk.take count).getLast? with
  | none => exact .pure rfl
  | some newest => exact (h.advance newest.signature newest.slot first).bind fun _ _ _ => .pure rfl

theorem processChunks (h : World.Coupling c.address R) (first : Option String) (chunks : List (List SignatureInfo))
    (advance : Bool) :
    Coupled R Eq (c.processChunks first advance chunks) (c.processChunks first advance chunks) := by
  induction chunks generalizing advance with
  | nil => exact .pure rfl
  | cons chunk rest ih =>
    rw [Crawler.processChunks]
    refine .bind .get fun w v hr => ?_
    rw [h.stopped hr]
    split
    · exact .pure rfl
    · refine (h.ingestChunk c rfl chunk).bind_eq fun oks => ?_
      cases advance with
      | false => exact (ih _).bind_eq fun _ => .pure rfl
      | true => exact (h.moveWatermark first chunk _).bind_eq fun _ => (ih _).bind_eq fun _ => .pure rfl

theorem processAll (h : World.Coupling c.address R) (signatures : List SignatureInfo) (batchSize : Int)
    (advance : Bool) :
    Coupled R Eq (c.processAll signatures batchSize advance) (c.processAll signatures batchSize advance) := by
  rw [Crawler.processAll]
  split
  · exact .throw _
  · exact h.processChunks _ _ advance

/-! ## Crawls -/

/-- A failed walk of a crawl ends it: with a result if the ledger failed for the time being, else with the failure. -/
theorem aborted (failure : Failure) (result : IngestResult) :
    Coupled R Eq (if failure.isTransient then pure result else throw failure : Attempt World IngestResult)
      (if failure.isTransient then pure result else throw failure) := by
  split
  · exact .pure rfl
  · exact .throw failure

theorem backfill (h : World.Coupling c.address R) (r : BackfillRequest) :
    Coupled R Eq (c.backfill r) (c.backfill r) := by
  rw [Crawler.backfill]
  refine (h.start c.description).bind fun row row' hrow => ?_
  simp only [WatermarkRow.progress, Prod.mk.injEq] at hrow
  obtain ⟨hlatest, -, hslot⟩ := hrow
  rw [hlatest, hslot]
  refine (h.walk c.paging _).settle_eq.bind_eq fun result => ?_
  cases result with
  | ok walk => exact (h.processAll _ _ _).bind_eq fun _ => .pure rfl
  | error failure => exact aborted failure _

theorem gapFill (h : World.Coupling c.address R) : Coupled R Eq c.gapFill c.gapFill := by
  rw [Crawler.gapFill]
  refine h.look.bind fun row? row?' hrow => ?_
  have hlatest : row?.bind (·.latestSignature) = row?'.bind (·.latestSignature) := by
    have hmap : ∀ o : Option WatermarkRow, o.bind (·.latestSignature) = (o.map (·.progress)).bind (·.1) := by
      intro o
      cases o <;> rfl
    rw [hmap, hmap, hrow]
  rw [hlatest]
  cases row?'.bind (·.latestSignature) with
  | none => exact .pure rfl
  | some latest =>
    refine (h.walk c.paging _).settle_eq.bind_eq fun result => ?_
    cases result with
    | error failure => exact aborted failure _
    | ok walk =>
      simp only
      split
      · exact .pure rfl
      · exact (h.processAll _ _ _).bind_eq fun _ => .pure rfl

end World.Coupling
end PairIndex
