import PairIndex.Proofs.Service.Tasks
import PairIndex.Service.Lifecycle

/-! Which addresses are marked as failed. Crawls leave the marks of all addresses as they are, and a service takes the mark
of an address away only if it knows of it. As long as a service lives it knows of all marks, so that an address whose crawl
went through is active again (`Service.Lives.active_of_crawled`); a service that takes over the store of another one does
not. -/

namespace PairIndex

open Attempt (Coupled)

/-! ## Crawls -/

/-- A later world in which the same addresses are marked as failed. -/
def World.SameMarks (w w' : World) : Prop :=
  ∀ address, w'.database.store.IsActive address ↔ w.database.store.IsActive address

namespace World.SameMarks

variable {w₀ w w' : World}

theorem of_watermarks (h : w₀.SameMarks w) (hsame : w'.database.store.watermarks = w.database.store.watermarks) :
    w₀.SameMarks w' := by
  intro address
  rw [← h address, Store.IsActive, Store.IsActive, hsame]

theorem of_session {α : Type} {session : Session α} (h : w₀.SameMarks w)
    (hkeeps : ∀ s a s', session.run s = .ok (a, s') → ∀ address, s'.IsActive address ↔ s.IsActive address) :
    w₀.SameMarks ((World.session session).outcome w).2 := by
  rw [World.outcome_session_eq]
  cases nextFault w.database.outlook with
  | some failure => exact h.of_watermarks rfl
  | none =>
    cases hrun : session.run w.database.store with
    | error failure => exact h.of_watermarks rfl
    | ok result => exact fun address => (hkeeps _ _ _ hrun address).trans (h address)

end World.SameMarks

namespace Session

theorem isActive_openWatermark (account description : String) (s : Store) {row : WatermarkRow} {s' : Store}
    (h : (openWatermark account description).run s = .ok (row, s')) (address : String) :
    s'.IsActive address ↔ s.IsActive address := by
  have hfind := Table.find?_insertNew s.watermarks { account, description } address
  cases h
  rw [Store.IsActive, Store.IsActive, hfind]
  split
  · cases hold : s.watermarks.find? address with
    | none =>
      refine iff_of_true (fun row hrow => ?_) fun row hrow => (Option.some_ne_none row hrow.symm).elim
      cases hrow
      exact ⟨rfl, rfl⟩
    | some old => rfl
  · rfl

theorem isActive_advanceWatermark (account signature : String) (slot : Int) (first : Option String) (s : Store)
    {moved : Bool} {s' : Store} (h : (advanceWatermark account signature slot first).run s = .ok (moved, s'))
    (address : String) : s'.IsActive address ↔ s.IsActive address := by
  by_cases hfits : fitsColumn slot = true
  · obtain ⟨moved', s'', hrun, hfind, hother⟩ := find?_advanceWatermark account signature first s hfits
    obtain rfl : s'' = s' := congrArg Prod.snd (Except.ok.inj (hrun.symm.trans h))
    by_cases hne : address = account
    · subst hne
      rw [Store.IsActive, Store.IsActive, hfind]
      cases s.watermarks.find? address with
      | none => rfl
      | some old =>
        obtain ⟨hstatus, hlog⟩ := old.mark_moveTo signature (firstOf signature first) slot
        simp only [Option.map_some, Option.some.injEq, forall_eq', hstatus, hlog]
    · exact Store.isActive_congr (hother address hne)
  · rw [run_advanceWatermark_of_not_fits account signature first s hfits] at h
    cases h

end Session

theorem World.database_page (request : PageRequest) (w : World) :
    ((World.page request).outcome w).2.database = w.database := by
  simp only [World.page, Attempt.outcome_bind, Attempt.outcome_modify, Attempt.outcome_get]
  rcases w.ledger.page request with ⟨failure | infos, ledger⟩ <;> split_ifs <;> rfl

theorem World.watermarks_ingestChunk (c : Crawler) (chunk : List SignatureInfo) (w : World) :
    ((c.ingestChunk chunk).outcome w).2.database.store.watermarks = w.database.store.watermarks := by
  obtain ⟨outcomes, w', ho, -, -, made, hstore, -⟩ := c.commits_ingestChunk chunk w
  rw [ho, hstore, Commit.watermarks_applyAll]

theorem World.coupled_marks {α : Type} {w₀ : World} {V : α → α → Prop} (x : Attempt World α)
    (h : ∀ w, w₀.SameMarks w → w₀.SameMarks (x.outcome w).2) (hrefl : ∀ a, V a a) :
    Coupled (fun w v => v = w ∧ w₀.SameMarks w) V x x :=
  (Coupled.preserved_iff hrefl).mpr h

/-- Crawls keep the marks of all addresses. -/
theorem World.coupling_marks (w₀ : World) (address : String) :
    World.Coupling address fun w v => v = w ∧ w₀.SameMarks w where
  stopped h := h.1 ▸ rfl
  ledger h := h.1 ▸ rfl
  sleep seconds := by
    refine coupled_marks _ (fun w h => ?_) fun _ => rfl
    exact h.of_watermarks rfl
  page request := by
    refine coupled_marks _ (fun w h => ?_) fun _ => rfl
    exact h.of_watermarks (by rw [database_page])
  ingestChunk c _ chunk := by
    refine coupled_marks _ (fun w h => ?_) fun _ => rfl
    exact h.of_watermarks (watermarks_ingestChunk c chunk w)
  look := by
    refine coupled_marks _ (fun w h => h.of_session fun s row s' hrun address => ?_) fun _ => rfl
    cases hrun
    rfl
  start description := by
    refine coupled_marks _ (fun w h => ?_) fun _ => rfl
    exact h.of_session fun s _ _ => Session.isActive_openWatermark address description s
  advance signature slot first := by
    refine coupled_marks _ (fun w h => ?_) fun _ => trivial
    exact h.of_session fun s _ _ => Session.isActive_advanceWatermark address signature slot first s

/-! ## Services -/

namespace Service

variable {s : Service} {address : String} {c : Crawler} {r : IngestResult}

theorem sameMarks_task (s : Service) (address : String) (job : Job) :
    s.world.SameMarks (s.afterWorld (s.task job.kind address job.crawl)).world :=
  (job.coupled_task (World.coupling_marks s.world address) s s.world s.world ⟨rfl, fun _ => .rfl⟩).2.2

/-- After a job whose crawl went through and whose mark could be written, an address is marked as failed if and only if it
was before and the service did not know it. -/
theorem active_perform_iff (hs : s.Settled) (hopens : s.config.opens = true)
    (hc : s.config.crawler? address = some c) (hidle : s.crawling.contains address = false) (job : Job)
    (hcrawled : ((job.crawl c).outcome s.world).1 = .ok r)
    (hquiet : ((job.crawl c).outcome s.world).2.database.Quiet) :
    ((job.perform address).outcome s).2.world.database.store.IsActive address ↔
      Assoc.mem address s.failedAddresses = true ∨ s.world.database.store.IsActive address := by
  have hcoupling := World.coupling_marks s.world address
  rw [← ServiceConfig.address_of_crawler? hc] at hcoupling
  have hmarks : s.world.SameMarks ((job.crawl c).outcome s.world).2 :=
    (job.coupled_crawl hcoupling s.world s.world ⟨rfl, fun _ => .rfl⟩).2.2
  exact ((job.performed address hs).recovers c r hopens hc hidle hcrawled hquiet).trans (or_congr_right (hmarks address))

/-- A service that knows all marks knows all marks after a job, whatever fails. -/
theorem knows_perform (hs : s.Settled) (hknows : ∀ other, s.Knows other) (address : String) (job : Job) :
    ((job.perform address).outcome s).2.Settled ∧ ∀ other, ((job.perform address).outcome s).2.Knows other := by
  have hrun := job.performed address hs
  have hmarks := s.sameMarks_task address job
  exact ⟨hrun.marked.settled ⟨hs.opens, hs.watched⟩,
    fun other => hrun.marked.knows other fun hnot => (hmarks other).mpr (hknows other hnot)⟩

/-- How services come to be, and what may happen to them: jobs, closing, and anything to their worlds but changes of the
store. If `restarts` is set, a service may also be left for a new one that works on its world. -/
inductive Lives (restarts : Bool) : Service → Prop where
  | start (config : ServiceConfig) (ledger : RecordedLedger) : Lives restarts { config, world := { ledger } }
  | perform {s : Service} : Lives restarts s → ∀ (address : String) (job : Job),
      Lives restarts ((job.perform address).outcome s).2
  | close {s : Service} : Lives restarts s → Lives restarts (close.run s).2
  | meanwhile {s : Service} : Lives restarts s → ∀ world : World, world.database.store = s.world.database.store →
      Lives restarts { s with world }
  | restart {s : Service} : Lives restarts s → restarts = true → ∀ config : ServiceConfig,
      Lives restarts { config, world := s.world }

/-- While a service lives it knows all marks. -/
theorem Lives.knows (h : Lives false s) : s.Settled ∧ ∀ address, s.Knows address := by
  induction h with
  | start config ledger => exact ⟨⟨nofun, nofun⟩, fun _ _ => nofun⟩
  | perform _ address job ih => exact knows_perform ih.1 ih.2 address job
  | close _ ih =>
    rw [Service.close, run_bind, run_get]
    simp only
    split
    · exact ⟨⟨nofun, nofun⟩, ih.2⟩
    · exact ih
  | meanwhile _ world hstore ih =>
    refine ⟨⟨ih.1.opens, ih.1.watched⟩, fun address hnot => ?_⟩
    rw [hstore]
    exact ih.2 address hnot
  | restart _ hfalse => cases hfalse

/-- While a service lives, an address whose crawl went through is active again if the mark could be written. -/
theorem Lives.active_of_crawled (h : Lives false s) (hopens : s.config.opens = true)
    (hc : s.config.crawler? address = some c) (hidle : s.crawling.contains address = false) (job : Job)
    (hcrawled : ((job.crawl c).outcome s.world).1 = .ok r)
    (hquiet : ((job.crawl c).outcome s.world).2.database.Quiet) :
    ((job.perform address).outcome s).2.world.database.store.IsActive address := by
  obtain ⟨hs, hknows⟩ := h.knows
  rw [active_perform_iff hs hopens hc hidle job hcrawled hquiet]
  cases hmem : Assoc.mem address s.failedAddresses with
  | true => exact .inl rfl
  | false => exact .inr (hknows address hmem)

/-- A service whose ledger breaks the connection at the second transaction. -/
def brokenService : Service :=
  { config := { addresses := ["pool"] }, world := { ledger := { World.smallLedger with switches := { fatal := ["swap"] } } } }

/-- The service that takes over from it after a backfill, once the ledger is well. -/
def successor : Service :=
  let left := (((Job.backfill {}).perform "pool").outcome brokenService).2.world
  { config := brokenService.config, world := { left with ledger := World.smallLedger } }

theorem lives_successor : Lives true successor :=
  .meanwhile (.restart (.perform (.start _ _) "pool" (.backfill {})) rfl _) _ rfl

/-- A service that takes over from one that marked an address as failed does not take the mark away. -/
theorem failed_after_takeover :
    ¬∀ s, Lives true s → ∀ (address : String) (c : Crawler) (r : IngestResult) (job : Job), s.config.opens = true →
      s.config.crawler? address = some c → s.crawling.contains address = false →
      ((job.crawl c).outcome s.world).1 = .ok r → ((job.crawl c).outcome s.world).2.database.Quiet →
      ((job.perform address).outcome s).2.world.database.store.IsActive address := by
  intro h
  let c : Crawler := brokenService.config.crawler "pool"
  have hcrawled : ((Job.crawl (.backfill {}) c).outcome successor.world).1 =
      .ok { message := "Backfill completed for pool: 2 processed, 1 failed", error := some "1 transactions failed"
            processed := 2, failed := 1 } := by
    decide +kernel
  have hquiet : ((Job.crawl (.backfill {}) c).outcome successor.world).2.database.Quiet := by
    have houtlook : ((Job.crawl (.backfill {}) c).outcome successor.world).2.database.outlook = [] := by decide +kernel
    intro fault hfault
    rw [houtlook] at hfault
    cases hfault
  have hactive := h successor lives_successor "pool" c _ (.backfill {}) rfl rfl rfl hcrawled hquiet
  have hstatus : ((((Job.backfill {}).perform "pool").outcome successor).2.world.database.store.watermarks.find?
      "pool").map (·.status) = some .failed := by
    decide +kernel
  obtain ⟨row, hrow, hfailed⟩ := Option.map_eq_some_iff.mp hstatus
  rw [(hactive row hrow).1] at hfailed
  cases hfailed

end Service
end PairIndex
