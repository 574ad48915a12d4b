import PairIndex.Proofs.Service.Marks

/-! What the jobs of a service do on its world. A job gives what its task gives, after which the service writes nothing but
marks (`Job.performed`), and what the calls of a crawl keep is kept by the tasks of an address
(`Job.coupled_task`). -/

namespace PairIndex

open Attempt (Coupled)

/-- A watched address is crawled as the service was told to. -/
theorem ServiceConfig.address_of_crawler? {config : ServiceConfig} {address : String} {c : Crawler}
    (h : config.crawler? address = some c) : c.address = address := by
  have hwatched : ∀ other watch, Assoc.get? other (Service.watchesOf config) = some watch →
      watch.crawler.address = other := by
    refine List.foldlRecOn (motive := fun watched : List (String × Watch) => ∀ other watch,
      Assoc.get? other watched = some watch → watch.crawler.address = other) config.addresses _ ?_ ?_
    · intro other watch hget
      rw [Assoc.get?_nil] at hget
      cases hget
    · intro watched ih first _ other watch hget
      rw [Assoc.get?_set] at hget
      split at hget
      · cases hget
        assumption
      · exact ih other watch hget
  obtain ⟨watch, hget, rfl⟩ := Option.map_eq_some_iff.mp h
  exact hwatched address watch hget

namespace Service

variable {s : Service}

/-- What a service does on its world when it is asked to crawl an address. -/
def task (s : Service) (kind : JobKind) (address : String) (crawl : Crawler → Attempt World IngestResult) :
    Attempt World IngestResult :=
  if s.config.opens then
    match s.config.crawler? address with
    | none => throw (notWatched address)
    | some c => do
      let result ← (if s.crawling.contains address then pure c.busyResult else crawl c).settle
      return jobResult (jobName kind address) result
  else throw unsupportedCache

/-- Whether a service is open or can be opened. -/
def Opens (s : Service) : Prop :=
  s.isOpen = true ∨ s.config.opens = true

/-- A service once it is open. -/
def opened (s : Service) : Service :=
  if s.isOpen then s else { s with isOpen := true, watched := watchesOf s.config }

theorem outcome_ensureOpen_of_opens (h : s.Opens) : ensureOpen.outcome s = (.ok (), s.opened) := by
  rw [ensureOpen, opened, Attempt.outcome_bind_of_ok (Attempt.outcome_get s)]
  cases hopen : s.isOpen with
  | true => rfl
  | false =>
    have hopens : s.config.opens = true := h.resolve_left (by simp [hopen])
    rw [ServiceConfig.opens, Bool.not_eq_true'] at hopens
    simp only [hopens, Bool.false_eq_true, if_false]
    rfl

theorem outcome_ensureOpen_of_shut (h : ¬s.Opens) : ensureOpen.outcome s = (.error unsupportedCache, s) := by
  obtain ⟨hopen, hopens⟩ := not_or.mp h
  rw [Bool.not_eq_true] at hopen
  rw [ServiceConfig.opens, Bool.not_eq_true, Bool.not_eq_false'] at hopens
  rw [ensureOpen, Attempt.outcome_bind_of_ok (Attempt.outcome_get s)]
  simp only [hopen, hopens, Bool.false_eq_true, if_false, if_true]
  rfl

/-- A service that is asked for a job opens itself, unless it cannot. -/
theorem outcome_ensureOpen (hs : s.Settled) :
    (s.config.opens = false ∧ ensureOpen.outcome s = (.error unsupportedCache, s)) ∨
      (s.config.opens = true ∧ ∃ s', ensureOpen.outcome s = (.ok (), s') ∧ s'.Settled ∧ s'.config = s.config ∧
        s'.isOpen = true ∧ s'.crawling = s.crawling ∧ s'.world = s.world ∧ s'.failedAddresses = s.failedAddresses) := by
  cases hopens : s.config.opens with
  | false =>
    have hshut : ¬s.Opens := by
      rintro (hopen | hopen)
      · exact absurd (hopens.symm.trans (hs.opens hopen)) (by decide)
      · exact absurd (hopens.symm.trans hopen) (by decide)
    exact .inl ⟨rfl, outcome_ensureOpen_of_shut hshut⟩
  | true =>
    refine .inr ⟨rfl, s.opened, outcome_ensureOpen_of_opens (.inr hopens), ?_⟩
    rw [opened]
    cases hopen : s.isOpen with
    | true => exact ⟨hs, rfl, hopen, rfl, rfl, rfl⟩
    | false => exact ⟨⟨fun _ => hopens, fun _ _ => rfl⟩, rfl, rfl, rfl, rfl, rfl⟩

/-- What a service that was asked to crawl an address is to come to: it gives what its task gives, after which it writes
nothing but marks, and an address whose crawl went through recovers if the mark can be written. -/
structure Performed (s : Service) (kind : JobKind) (address : String) (crawl : Crawler → Attempt World IngestResult)
    (outcome : Except Failure IngestResult × Service) : Prop where
  result : outcome.1 = ((s.task kind address crawl).outcome s.world).1
  marked : (s.afterWorld (s.task kind address crawl)).Marked outcome.2
  recovers : ∀ c r, s.config.opens = true → s.config.crawler? address = some c →
    s.crawling.contains address = false → ((crawl c).outcome s.world).1 = .ok r →
    (s.afterWorld (crawl c)).world.database.Quiet → (s.afterWorld (crawl c)).Recovers address outcome.2

theorem performed_runCrawl (hs : s.Settled) (kind : JobKind) (address : String)
    (crawl : Crawler → Attempt World IngestResult) :
    s.Performed kind address crawl ((runCrawl kind address crawl).outcome s) := by
  rw [runCrawl]
  rcases outcome_ensureOpen hs with ⟨hopens, ho⟩ | ⟨hopens, s₁, ho, hs₁, hconfig, hopen, hcrawling, hworld, hfailed⟩
  · have htask : s.task kind address crawl = throw unsupportedCache := by rw [task, if_neg (by simp [hopens])]
    rw [Attempt.outcome_bind_of_error ho]
    exact ⟨htask ▸ rfl, htask ▸ .of_eq rfl rfl rfl rfl rfl rfl, fun c r h => absurd (h.symm.trans hopens) (by decide)⟩
  · rw [Attempt.outcome_bind_of_ok ho, Attempt.outcome_bind_of_ok (Attempt.outcome_get s₁)]
    have hwatched := hs₁.watched hopen address
    rw [hconfig] at hwatched
    have hopened : ∀ w w' : World, w' = w → Marked { s with world := w } { s₁ with world := w' } := by
      rintro w w' rfl
      exact ⟨hconfig, hcrawling, fun _ => ⟨hs₁.opens, hs₁.watched⟩, .refl w',
        fun _ hknows hnot => hknows (hfailed ▸ hnot)⟩
    cases hwatch : Assoc.get? address s₁.watched with
    | none =>
      rw [hwatch] at hwatched
      have htask : s.task kind address crawl = throw (notWatched address) := by
        rw [task, if_pos hopens, ← hwatched]
        rfl
      exact ⟨htask ▸ rfl, htask ▸ hopened s.world s₁.world hworld, fun c r _ hc => nomatch hwatched.trans hc⟩
    | some watch =>
      rw [hwatch] at hwatched
      have htask : s.task kind address crawl = (if s₁.crawling.contains address then pure watch.crawler.busyResult
          else crawl watch.crawler).settle >>= fun result => pure (jobResult (jobName kind address) result) := by
        rw [task, if_pos hopens, ← hwatched, hcrawling]
        rfl
      obtain ⟨hresult, hmarked, hrecovers⟩ := run_runJob (jobName kind address) address
        (if s₁.crawling.contains address then pure watch.crawler.busyResult else crawl watch.crawler) s₁
      rw [hworld] at hresult
      refine ⟨htask ▸ congrArg Except.ok hresult, htask ▸ (hopened _ _ (by rw [hworld]; rfl)).trans hmarked, ?_⟩
      intro c r _ hc hidle hcrawled hquiet
      obtain rfl : watch.crawler = c := Option.some.inj (hwatched.trans hc)
      have hafter := hrecovers r
      rw [Recovers, afterWorld, hcrawling, hidle, hworld, hfailed] at hafter
      rw [← hcrawling] at hidle
      simp only [hidle]
      exact hafter hcrawled hopen hquiet

end Service

/-! ## Jobs -/

/-- What a service is asked to do for an address. -/
inductive Job where
  | backfill (request : BackfillRequest)
  | gapFill

namespace Job

def kind : Job → JobKind
  | .backfill _ => .backfill
  | .gapFill => .gapFill

def crawl : Job → Crawler → Attempt World IngestResult
  | .backfill request, c => c.backfill request
  | .gapFill, c => c.gapFill

def perform (address : String) : Job → Attempt Service IngestResult
  | .backfill request => Service.backfill address request
  | .gapFill => Service.gapFill address

theorem performed (job : Job) (address : String) {s : Service} (hs : s.Settled) :
    s.Performed job.kind address job.crawl ((job.perform address).outcome s) := by
  have hcounted : ∀ count : Service → Service, (∀ s' : Service, s'.Marked (count s')) →
      (∀ s' : Service, (count s').world = s'.world) → s.Performed job.kind address job.crawl (Attempt.outcome (do
        let result ← Service.runCrawl job.kind address job.crawl
        if !result.busy then modify count
        return result) s) := by
    intro count hmarked hworld
    have hrun := Service.performed_runCrawl hs job.kind address job.crawl
    rcases ho : (Service.runCrawl job.kind address job.crawl).outcome s with ⟨failure | result, s'⟩
    · rw [Attempt.outcome_bind_of_error ho, ← ho]
      exact hrun
    · rw [Attempt.outcome_bind_of_ok ho]
      rw [ho] at hrun
      cases result.busy with
      | true => exact hrun
      | false =>
        refine ⟨hrun.result, hrun.marked.trans (hmarked s'), fun c r hopens hc hidle hcrawled hquiet => ?_⟩
        have hrecovers := hrun.recovers c r hopens hc hidle hcrawled hquiet
        rwa [Service.Recovers, ← hworld s'] at hrecovers
  cases job with
  | backfill request => exact hcounted _ (fun s' => .of_eq rfl rfl rfl rfl rfl rfl) fun _ => rfl
  | gapFill => exact hcounted _ (fun s' => .of_eq rfl rfl rfl rfl rfl rfl) fun _ => rfl

theorem coupled_crawl (job : Job) {c : Crawler} {R : World → World → Prop} (h : World.Coupling c.address R) :
    Coupled R Eq (job.crawl c) (job.crawl c) := by
  cases job with
  | backfill request => exact h.backfill request
  | gapFill => exact h.gapFill

/-- What is kept by the calls of the crawls of an address is kept by the tasks that are for the address. -/
theorem coupled_task (job : Job) {address : String} {R : World → World → Prop} (h : World.Coupling address R)
    (s : Service) :
    Coupled R Eq (s.task job.kind address job.crawl) (s.task job.kind address job.crawl) := by
  rw [Service.task]
  split
  · cases hcrawler : s.config.crawler? address with
    | none => exact .throw _
    | some c =>
      have hc : World.Coupling c.address R := (ServiceConfig.address_of_crawler? hcrawler).symm ▸ h
      refine Coupled.bind_eq (Coupled.settle_eq ?_) fun _ => .pure rfl
      split
      · exact .pure rfl
      · exact job.coupled_crawl hc
  · exact .throw _

end Job

end PairIndex
