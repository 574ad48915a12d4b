import PairIndex.Proofs.Service.Tasks

/-! Addresses do not disturb each other. Whatever the other addresses are asked for, and however their jobs end, the jobs of
an address give the same results and take it equally far as if there were no others, while the store reports no failure
(`Service.undisturbed`). -/

namespace PairIndex

/-! ## Steps -/

/-- Which calls of the ledger fail. -/
structure LedgerFaults where
  /-- Transactions that cannot be fetched this time. -/
  failing : List String := []
  /-- Transactions whose fetch breaks the connection. -/
  fatal : List String := []
  /-- Transactions that the ledger does not know yet. -/
  missing : List String := []
  failPages : Bool := false
  /-- The page call of a step that fails. -/
  failPageAt : Option Int := none

def LedgerSwitches.withFaults (switches : LedgerSwitches) (faults : LedgerFaults) : LedgerSwitches :=
  { switches with
    failing := faults.failing, fatal := faults.fatal, missing := faults.missing, failPages := faults.failPages
    failPageAt := faults.failPageAt }

/-- What happens to a service: it is asked for a job, or the ledger goes on or begins to fail in another way. A ledger that
goes on has further transactions, and each address an index that it lists from then on. -/
inductive ServiceStep where
  | job (address : String) (job : Job)
  | grow (txs : List LedgerTransaction) (lists : String → String → Bool)
  | fail (faults : LedgerFaults)

/-- Whether a step is not a job of another address. -/
def ServiceStep.concerns (address : String) : ServiceStep → Bool
  | .job other _ => other == address
  | .grow _ _ | .fail _ => true

namespace Service

/-- A service at the beginning of a step, from which on its page calls are counted. -/
def atStep (s : Service) : Service :=
  { s with world := { s.world with pageCalls := 0 } }

def withLedger (s : Service) (ledger : RecordedLedger) : Service :=
  { s with world := { s.world with ledger } }

/-- What the jobs give, each with its address, and the service after all steps. -/
def runSteps : List ServiceStep → Service → List (String × Except Failure IngestResult) × Service
  | [], s => ([], s)
  | .job address job :: rest, s =>
    let (result, s') := (job.perform address).outcome s.atStep
    let (results, s'') := runSteps rest s'
    ((address, result) :: results, s'')
  | .grow txs lists :: rest, s =>
    runSteps rest (s.withLedger { s.world.ledger with history := s.world.ledger.history ++ txs, lists })
  | .fail faults :: rest, s =>
    runSteps rest (s.withLedger { s.world.ledger with switches := s.world.ledger.switches.withFaults faults })

/-! ## Two runs -/

/-- A service whose store reports no failure and whose ledger answers or fails. -/
structure Calm (s : Service) : Prop where
  settled : s.Settled
  quiet : s.world.database.Quiet
  faults : s.world.ledger.switches.OnlyFaults

/-- Two services that look the same to the jobs of an address. -/
structure Twins (address : String) (s t : Service) : Prop where
  calm : s.Calm
  calm' : t.Calm
  config : t.config = s.config
  crawling : t.crawling = s.crawling
  ledger : t.world.ledger = s.world.ledger
  stopped : t.world.stopped = s.world.stopped
  progress : t.world.database.store.progress? address = s.world.database.store.progress? address

variable {s t : Service} {address other : String}

theorem Calm.atStep (h : s.Calm) : s.atStep.Calm :=
  ⟨⟨h.settled.opens, h.settled.watched⟩, h.quiet, h.faults⟩

theorem Calm.withLedger (h : s.Calm) {ledger : RecordedLedger} (hfaults : ledger.switches.OnlyFaults) :
    (s.withLedger ledger).Calm :=
  ⟨⟨h.settled.opens, h.settled.watched⟩, h.quiet, hfaults⟩

/-- A job gives what its task gives, and ends in a world that differs in marks from that after the task. -/
theorem Calm.perform {w : World} (h : s.Calm) (job : Job) {result : Except Failure IngestResult}
    (htask : (s.task job.kind other job.crawl).outcome s.world = (result, w)) (hledger : w.ledger = s.world.ledger)
    (hquiet : w.database.Quiet) :
    ∃ s', (job.perform other).outcome s = (result, s') ∧ s'.Calm ∧ s'.config = s.config ∧ s'.crawling = s.crawling ∧
      w.Marked s'.world := by
  obtain ⟨hresult, hmarked, -⟩ := job.performed other h.settled
  have hafter : (s.afterWorld (s.task job.kind other job.crawl)).world = w := congrArg Prod.snd htask
  have hworld := hmarked.world
  rw [hafter] at hworld
  rw [htask] at hresult
  refine ⟨_, Prod.ext hresult rfl, ⟨?_, hworld.quiet hquiet, ?_⟩, hmarked.config, hmarked.crawling, hworld⟩
  · exact hmarked.settled ⟨h.settled.opens, h.settled.watched⟩
  · rw [hworld.ledger, hledger]
    exact h.faults

namespace Twins

theorem atStep (h : Twins address s t) : Twins address s.atStep t.atStep :=
  ⟨h.calm.atStep, h.calm'.atStep, h.config, h.crawling, h.ledger, h.stopped, h.progress⟩

/-- A job of the address gives the same in both services, which look the same again. -/
theorem own (h : Twins address s t) (job : Job) :
    ∃ result s' t', (job.perform address).outcome s.atStep = (result, s') ∧
      (job.perform address).outcome t.atStep = (result, t') ∧ Twins address s' t' := by
  have hstep := h.atStep
  have hsame : t.atStep.task job.kind address job.crawl = s.atStep.task job.kind address job.crawl := by
    rw [task, task, hstep.config, hstep.crawling]
  have hworlds : World.Twins address s.atStep.world t.atStep.world s.atStep.world t.atStep.world :=
    ⟨rfl, hstep.ledger, rfl, hstep.stopped, rfl, hstep.calm.quiet, hstep.calm'.quiet, hstep.progress.symm,
      fun _ _ => rfl, fun _ _ => rfl⟩
  obtain ⟨hmatches, htwins⟩ := job.coupled_task (World.coupling_twins hstep.calm.faults) s.atStep _ _ hworlds
  rcases htask : (s.atStep.task job.kind address job.crawl).outcome s.atStep.world with ⟨result, w⟩
  rcases htask' : (s.atStep.task job.kind address job.crawl).outcome t.atStep.world with ⟨result', v⟩
  rw [htask, htask'] at hmatches htwins
  have hresult : result = result' := hmatches.eq
  obtain ⟨s', hs, hcalm, hconfig, hcrawling, hmarked⟩ :=
    hstep.calm.perform job htask htwins.ledger htwins.database.quiet
  obtain ⟨t', ht, hcalm', hconfig', hcrawling', hmarked'⟩ := hstep.calm'.perform job (hsame ▸ htask')
    (htwins.sameLedger.trans (htwins.ledger.trans hstep.ledger.symm)) htwins.database.quiet'
  refine ⟨result, s', t', hs, hresult ▸ ht, hcalm, hcalm', ?_, ?_, ?_, ?_, ?_⟩
  · rw [hconfig', hconfig, hstep.config]
  · rw [hcrawling', hcrawling, hstep.crawling]
  · rw [hmarked'.ledger, hmarked.ledger, htwins.sameLedger]
  · rw [hmarked'.stopped, hmarked.stopped, htwins.sameStopped]
  · rw [hmarked'.progress, hmarked.progress, htwins.database.progress]

/-- A job of another address leaves a service that looks the same. -/
theorem others (h : Twins address s t) (job : Job) (hne : other ≠ address) :
    Twins address ((job.perform other).outcome s.atStep).2 t := by
  have hcalm := h.calm.atStep
  have hworlds : World.Twins other s.atStep.world s.atStep.world s.atStep.world s.atStep.world :=
    ⟨rfl, rfl, rfl, rfl, rfl, hcalm.quiet, hcalm.quiet, rfl, fun _ _ => rfl, fun _ _ => rfl⟩
  obtain ⟨-, htwins⟩ := job.coupled_task (World.coupling_twins hcalm.faults) s.atStep _ _ hworlds
  rcases htask : (s.atStep.task job.kind other job.crawl).outcome s.atStep.world with ⟨result, w⟩
  rw [htask] at htwins
  obtain ⟨s', hs, hcalm', hconfig, hcrawling, hmarked⟩ := hcalm.perform job htask htwins.ledger htwins.database.quiet
  rw [hs]
  refine ⟨hcalm', h.calm', ?_, ?_, ?_, ?_, ?_⟩
  · rw [hconfig]
    exact h.config
  · rw [hcrawling]
    exact h.crawling
  · rw [hmarked.ledger, htwins.ledger]
    exact h.ledger
  · rw [hmarked.stopped, htwins.stopped]
    exact h.stopped
  · rw [hmarked.progress, htwins.database.spares address hne.symm]
    exact h.progress

theorem withLedger (h : Twins address s t) {ledger : RecordedLedger} (hfaults : ledger.switches.OnlyFaults) :
    Twins address (s.withLedger ledger) (t.withLedger ledger) :=
  ⟨h.calm.withLedger hfaults, h.calm'.withLedger hfaults, h.config, h.crawling, rfl, h.stopped, h.progress⟩

/-- What the jobs of an address give is the same if the jobs of other addresses are left out of one run. -/
theorem runSteps (h : Twins address s t) (steps : List ServiceStep) :
    (s.runSteps steps).1.filter (fun result => decide (result.1 = address)) =
        (t.runSteps (steps.filter (·.concerns address))).1 ∧
      Twins address (s.runSteps steps).2 (t.runSteps (steps.filter (·.concerns address))).2 := by
  induction steps generalizing s t with
  | nil => exact ⟨rfl, h⟩
  | cons step rest ih =>
    cases step with
    | grow txs lists =>
      rw [List.filter_cons_of_pos rfl, Service.runSteps, Service.runSteps, h.ledger]
      exact ih (h.withLedger h.calm.faults)
    | fail faults =>
      rw [List.filter_cons_of_pos rfl, Service.runSteps, Service.runSteps, h.ledger]
      exact ih (h.withLedger ⟨h.calm.faults.pages, h.calm.faults.stopOnPage, h.calm.faults.stopOnFetch⟩)
    | job other job =>
      by_cases hne : other = address
      · subst hne
        obtain ⟨result, s', t', hs, ht, htwins⟩ := h.own job
        obtain ⟨hresults, hlast⟩ := ih htwins
        rw [List.filter_cons_of_pos (by simp [ServiceStep.concerns]), Service.runSteps, Service.runSteps, hs, ht]
        refine ⟨?_, hlast⟩
        rw [List.filter_cons_of_pos (by simp), hresults]
      · obtain ⟨hresults, hlast⟩ := ih (h.others job hne)
        rw [List.filter_cons_of_neg (by simp [ServiceStep.concerns, hne]), Service.runSteps]
        refine ⟨?_, hlast⟩
        rw [List.filter_cons_of_neg (by simp [hne]), hresults]

end Twins

/-- What the jobs of an address give, and how far they take it, is the same as if there were no jobs of other addresses. -/
theorem undisturbed (s : Service) (h : s.Calm) (steps : List ServiceStep) (address : String) :
    (s.runSteps steps).1.filter (fun result => decide (result.1 = address)) =
        (s.runSteps (steps.filter (·.concerns address))).1 ∧
      (s.runSteps steps).2.world.database.store.progress? address =
        (s.runSteps (steps.filter (·.concerns address))).2.world.database.store.progress? address := by
  obtain ⟨hresults, htwins⟩ := Twins.runSteps ⟨h, h, rfl, rfl, rfl, rfl, rfl⟩ steps
  exact ⟨hresults, htwins.progress.symm⟩

/-- Two addresses have the oldest transaction in common, and one other each. -/
def smallLists (address signature : String) : Bool :=
  signature == "create" || signature == if address == "pool" then "swap" else "repay"

/-- A later transaction concerns the second address only. -/
def grownLists (address signature : String) : Bool :=
  smallLists address signature || address == "farm" && signature == "burn"

/-- A service that watches two addresses, for each of which the ledger lists other signatures. -/
def smallService : Service :=
  { config := { addresses := ["pool", "farm"] }, world := { ledger := { World.smallLedger with lists := smallLists } } }

/-- Jobs of two addresses, of which the first breaks off, and of one that is not watched. -/
def smallSteps : List ServiceStep :=
  [.fail { fatal := ["swap"] }, .job "pool" (.backfill {}), .fail { failing := ["repay"] }, .job "farm" (.backfill {}),
    .job "nowhere" .gapFill, .fail {}, .grow [⟨"burn", 3, none, [], .null⟩] grownLists, .job "farm" .gapFill]

/-- The jobs of one address go through while those of others, whose transactions are others, fail, and give what they give
alone. -/
theorem undisturbed_small :
    smallService.Calm ∧
      (smallService.world.ledger.index "pool").map (·.signature) = ["swap", "create"] ∧
      (smallService.world.ledger.index "farm").map (·.signature) = ["repay", "create"] ∧
      (smallService.runSteps smallSteps).1.filter (fun result => decide (result.1 = "farm")) =
        (smallService.runSteps (smallSteps.filter (·.concerns "farm"))).1 ∧
      (smallService.runSteps smallSteps).2.world.database.store.progress? "farm" =
        (smallService.runSteps (smallSteps.filter (·.concerns "farm"))).2.world.database.store.progress? "farm" := by
  have hcalm : smallService.Calm := ⟨⟨nofun, nofun⟩, nofun, rfl, rfl, rfl⟩
  exact ⟨hcalm, by decide +kernel, by decide +kernel, undisturbed smallService hcalm smallSteps "farm"⟩

example : (smallService.runSteps smallSteps).1.map (fun result => result.2.toOption.map fun r => (r.processed, r.error)) =
    [some (0, some "connection refused fetching swap"), some (1, some "1 transactions failed"), none,
      some (2, none)] := by
  decide +kernel

end Service
end PairIndex
