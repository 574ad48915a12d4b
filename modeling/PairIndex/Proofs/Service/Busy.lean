import PairIndex.Proofs.Service.Recovery
import PairIndex.Service.Report

/-! Busy answers. A job is answered as busy if and only if a crawl of its address is under way, which is so only while the
service is open (`Service.Reached.isOpen_of_crawling`). Before it is answered the job is entered in the record, and the
mark of an address is taken away as if a crawl had gone through, so that a busy answer changes nothing if and only if
there is nothing to enter and no mark that could be taken away (`Service.untouched_perform_iff`). -/

namespace PairIndex

/-! ## Crawls -/

/-- No crawl that runs is answered as busy. -/
theorem Job.not_busy_of_crawl {job : Job} {c : Crawler} {w w' : World} {r : IngestResult}
    (h : (job.crawl c).outcome w = (.ok r, w')) : r.busy = false := by
  cases job with
  | backfill request =>
    rw [crawl, Crawler.backfill] at h
    obtain ⟨watermark, w₁, -, h⟩ := Attempt.outcome_bind_eq_ok_iff.mp h
    obtain ⟨walked, w₂, -, h⟩ := Attempt.outcome_bind_eq_ok_iff.mp h
    cases walked with
    | error failure =>
      dsimp only at h
      split at h <;> cases h
      rfl
    | ok walk =>
      obtain ⟨counts, w₃, -, h⟩ := Attempt.outcome_bind_eq_ok_iff.mp h
      cases h
      rfl
  | gapFill =>
    rw [crawl, Crawler.gapFill] at h
    obtain ⟨watermark, w₁, -, h⟩ := Attempt.outcome_bind_eq_ok_iff.mp h
    split at h
    · cases h
      rfl
    · obtain ⟨walked, w₂, -, h⟩ := Attempt.outcome_bind_eq_ok_iff.mp h
      cases walked with
      | error failure =>
        dsimp only at h
        split at h <;> cases h
        rfl
      | ok walk =>
        dsimp only at h
        split at h
        · cases h
          rfl
        · obtain ⟨counts, w₃, -, h⟩ := Attempt.outcome_bind_eq_ok_iff.mp h
          cases h
          rfl

namespace Service

variable {s s' s'' : Service}

/-! ## Crawls under way -/

/-- A later service for which the same crawls are under way, and which is open if it was. -/
structure StaysOpen (s s' : Service) : Prop where
  crawling : s'.crawling = s.crawling
  isOpen : s.isOpen = true → s'.isOpen = true

namespace StaysOpen

theorem refl (s : Service) : s.StaysOpen s :=
  ⟨rfl, id⟩

theorem trans (h : s.StaysOpen s') (h' : s'.StaysOpen s'') : s.StaysOpen s'' :=
  ⟨h'.crawling.trans h.crawling, h'.isOpen ∘ h.isOpen⟩

end StaysOpen

/-- A program that closes nothing and under which the same crawls stay under way. -/
def KeepsOpen {α : Type} (program : StateM Service α) : Prop :=
  ∀ s : Service, s.StaysOpen (program.run s).2

section KeepsOpen

variable {α β : Type} {program : StateM Service α}

theorem keepsOpen_pure (a : α) : KeepsOpen (pure a) :=
  fun s => .refl s

theorem keepsOpen_get : KeepsOpen get :=
  fun s => .refl s

theorem KeepsOpen.bind (h : KeepsOpen program) {next : α → StateM Service β} (hnext : ∀ a, KeepsOpen (next a)) :
    KeepsOpen (program >>= next) :=
  fun s => (h s).trans (hnext _ _)

theorem keepsOpen_forM {items : List α} {body : α → StateM Service PUnit} (h : ∀ a, KeepsOpen (body a)) :
    KeepsOpen (items.forM body) := by
  induction items with
  | nil => exact keepsOpen_pure _
  | cons a items ih => exact (h a).bind fun _ => ih

theorem keepsOpen_forIn {items : List α} {body : α → PUnit → StateM Service (ForInStep PUnit)}
    (h : ∀ a, KeepsOpen (body a ⟨⟩)) : KeepsOpen (forIn items ⟨⟩ body) := by
  induction items with
  | nil => exact keepsOpen_pure _
  | cons a items ih =>
    rw [List.forIn_cons]
    refine (h a).bind fun step => ?_
    cases step with
    | done _ => exact keepsOpen_pure _
    | yield _ => exact ih

theorem keepsOpen_onWorld (attempt : Attempt World α) : KeepsOpen (onWorld attempt) :=
  fun _ => ⟨rfl, id⟩

/-- An attempt is a program that hands its outcome back as a value. -/
theorem keepsOpen_bind {x : Attempt Service α} {f : α → Attempt Service β} (h : KeepsOpen x.run)
    (hnext : ∀ a, KeepsOpen (f a).run) : KeepsOpen (x >>= f).run := by
  intro s
  have hfirst := h s
  change s.StaysOpen (x.outcome s).2 at hfirst
  change s.StaysOpen (Attempt.outcome (x >>= f) s).2
  rw [Attempt.outcome_bind]
  rcases ho : x.outcome s with ⟨failure | a, s₁⟩
  · rwa [ho] at hfirst
  · rw [ho] at hfirst
    exact hfirst.trans (hnext a s₁)

theorem keepsOpen_lift (h : KeepsOpen program) : KeepsOpen (ExceptT.lift program : Attempt Service α).run :=
  h.bind fun _ => keepsOpen_pure _

end KeepsOpen

/-! ## Jobs and the life of a service -/

theorem keepsOpen_flushMarks : KeepsOpen flushMarks := by
  refine keepsOpen_get.bind fun s => ?_
  dsimp only
  split
  · exact (keepsOpen_onWorld _).bind fun _ => keepsOpen_pure _
  · exact keepsOpen_pure _

theorem keepsOpen_markActive (address : String) : KeepsOpen (markActive address) := by
  refine keepsOpen_get.bind fun s => ?_
  split
  · refine (keepsOpen_onWorld _).bind fun outcome => ?_
    cases outcome with
    | ok _ => exact fun _ => ⟨rfl, id⟩
    | error _ => exact keepsOpen_pure _
  · exact keepsOpen_pure _

theorem keepsOpen_settleJob (name address : String) (result : Except Failure IngestResult) :
    KeepsOpen (settleJob name address result) := by
  cases result with
  | error failure =>
    refine KeepsOpen.bind (fun _ => ⟨rfl, id⟩) fun _ => KeepsOpen.bind ?_ fun _ => keepsOpen_pure _
    exact KeepsOpen.bind (fun _ => ⟨rfl, id⟩) fun _ => keepsOpen_flushMarks
  | ok result =>
    refine keepsOpen_get.bind fun s => ?_
    dsimp only
    split
    · exact (keepsOpen_markActive address).bind fun _ => keepsOpen_pure _
    · exact keepsOpen_pure _

theorem keepsOpen_registerJob (name : String) : KeepsOpen (registerJob name) := by
  intro s
  obtain ⟨jobs, hrun⟩ := run_registerJob name s
  rw [hrun]
  exact ⟨rfl, id⟩

theorem keepsOpen_runJob (name address : String) (job : Attempt World IngestResult) :
    KeepsOpen (runJob name address job) := by
  refine (keepsOpen_registerJob name).bind fun _ => (keepsOpen_onWorld job).bind fun outcome => ?_
  refine (keepsOpen_settleJob name address outcome).bind fun result => ?_
  split
  · exact keepsOpen_pure _
  · exact KeepsOpen.bind (fun _ => ⟨rfl, id⟩) fun _ => keepsOpen_pure _

theorem isOpen_opened (s : Service) : s.opened.isOpen = true := by
  unfold opened
  split
  · assumption
  · rfl

theorem staysOpen_opened (s : Service) : s.StaysOpen s.opened := by
  refine ⟨?_, fun _ => s.isOpen_opened⟩
  unfold opened
  split <;> rfl

theorem keepsOpen_ensureOpen : KeepsOpen ensureOpen.run := by
  intro s
  by_cases hopens : s.Opens
  · have ho : ensureOpen.run.run s = _ := outcome_ensureOpen_of_opens hopens
    rw [ho]
    exact staysOpen_opened s
  · have ho : ensureOpen.run.run s = _ := outcome_ensureOpen_of_shut hopens
    rw [ho]
    exact .refl s

theorem keepsOpen_runCrawl (kind : JobKind) (address : String) (crawl : Crawler → Attempt World IngestResult) :
    KeepsOpen (runCrawl kind address crawl).run := by
  refine keepsOpen_bind keepsOpen_ensureOpen fun _ => keepsOpen_bind (keepsOpen_lift keepsOpen_get) fun s => ?_
  cases Assoc.get? address s.watched with
  | none => exact keepsOpen_pure _
  | some watch => exact keepsOpen_lift (keepsOpen_runJob _ _ _)

theorem keepsOpen_perform (address : String) (job : Job) : KeepsOpen (job.perform address).run := by
  have hcounted : ∀ (kind : JobKind) (crawl : Crawler → Attempt World IngestResult) (count : Service → Service),
      (∀ s : Service, s.StaysOpen (count s)) → KeepsOpen (do
        let result ← runCrawl kind address crawl
        if !result.busy then modify count
        return result : Attempt Service IngestResult).run := by
    intro kind crawl count hcount
    refine keepsOpen_bind (keepsOpen_runCrawl kind address crawl) fun result => ?_
    split
    · exact keepsOpen_bind hcount fun _ => keepsOpen_pure _
    · exact keepsOpen_pure _
  cases job with
  | backfill request => exact hcounted _ _ _ fun _ => ⟨rfl, id⟩
  | gapFill => exact hcounted _ _ _ fun _ => ⟨rfl, id⟩

theorem keepsOpen_follow (address : String) (watch : Watch) (subscriber : Subscriber) :
    KeepsOpen (follow address watch subscriber) :=
  fun _ => ⟨rfl, id⟩

theorem keepsOpen_startUp (address : String) : KeepsOpen (startUp address) := by
  refine keepsOpen_get.bind fun s => ?_
  dsimp only
  split
  case' isTrue => refine (keepsOpen_perform address (.backfill _)).bind fun _ => ?_
  -- Whether or not a backfill came first, the log is followed next.
  all_goals
    refine keepsOpen_get.bind fun s => ?_
    repeat' split
    · exact keepsOpen_follow _ _ _
    all_goals exact keepsOpen_pure _

theorem keepsOpen_tick : KeepsOpen tick := by
  refine keepsOpen_get.bind fun s => ?_
  split
  · refine keepsOpen_flushMarks.bind fun _ => keepsOpen_get.bind fun s => ?_
    refine KeepsOpen.bind (keepsOpen_forIn fun address => ?_) fun _ => keepsOpen_pure _
    exact (keepsOpen_perform address .gapFill).bind fun _ => keepsOpen_pure _
  · exact keepsOpen_pure _

theorem keepsOpen_startUpAll : KeepsOpen startUpAll := by
  refine keepsOpen_get.bind fun s => KeepsOpen.bind (fun _ => ⟨rfl, id⟩) fun _ => ?_
  exact keepsOpen_forM fun address => keepsOpen_startUp address

/-- Only a service that could not be opened is closed again by its start. -/
theorem keepsOpen_start : KeepsOpen start.run := by
  refine keepsOpen_bind (keepsOpen_lift keepsOpen_get) fun s => ?_
  dsimp only
  split
  · exact keepsOpen_pure _
  · refine keepsOpen_bind (fun _ => ⟨rfl, id⟩) fun _ s => ?_
    by_cases hopens : s.Opens
    · change s.StaysOpen (Attempt.outcome (ensureOpen.settle >>= _) s).2
      rw [Attempt.outcome_bind_of_ok (Attempt.outcome_settle_of_eq (outcome_ensureOpen_of_opens hopens))]
      exact ⟨(staysOpen_opened s).crawling, (staysOpen_opened s).isOpen⟩
    · change s.StaysOpen (Attempt.outcome (ensureOpen.settle >>= _) s).2
      rw [Attempt.outcome_bind_of_ok (Attempt.outcome_settle_of_eq (outcome_ensureOpen_of_shut hopens))]
      exact ⟨rfl, fun hopen => absurd (.inl hopen) hopens⟩

/-! ## Reached services -/

/-- A service after a crawl of an address has begun for a job. -/
def beginning (s : Service) (kind : JobKind) (address : String) : Service :=
  { ((registerJob (jobName kind address)).run s.opened).2 with crawling := address :: s.crawling }

/-- How services come to be and what may happen to them. A job is done at once, or its crawl goes on for a while: it begins,
other things happen meanwhile, it ends, and what it came to is noted. -/
inductive Reached : Service → Prop where
  | fresh (config : ServiceConfig) (world : World) (feed : List SocketEvent) : Reached { config, world, feed }
  /-- Crawls that are under way, log connections, announced transactions and requests to stop change the world, the
  subscriptions, the counts and the state in any way. -/
  | meanwhile {s : Service} : Reached s → ∀ (world : World) (watched : List (String × Watch)) (state : ServiceState)
      (stats : ServiceStats) (startups : List String) (stopRequested : Bool) (feed : List SocketEvent) (sent : List Json),
      Reached { s with world, watched, state, stats, startups, stopRequested, feed, sent }
  | perform {s : Service} : Reached s → ∀ (address : String) (job : Job),
      Reached ((job.perform address).outcome s).2
  | begins {s : Service} : Reached s → ∀ (kind : JobKind) (address : String), s.Opens →
      (Assoc.get? address s.opened.watched).isSome = true → s.crawling.contains address = false →
      Reached (s.beginning kind address)
  | ends {s : Service} : Reached s → ∀ crawling, crawling ⊆ s.crawling → Reached { s with crawling }
  | settles {s : Service} : Reached s → ∀ (kind : JobKind) (address : String) (result : Except Failure IngestResult),
      Reached ((runJob (jobName kind address) address fun w => (result, w)).run s).2
  | start {s : Service} : Reached s → Reached (Service.start.outcome s).2
  | startUp {s : Service} : Reached s → ∀ address : String, Reached ((Service.startUp address).run s).2
  | startUpAll {s : Service} : Reached s → Reached (Service.startUpAll.run s).2
  | tick {s : Service} : Reached s → Reached (Service.tick.run s).2
  /-- The crawlers are dropped with all else, and no job is busy with what goes on of their crawls. -/
  | stop {s : Service} : Reached s → Reached { (Service.stop.run s).2 with crawling := [] }
  | close {s : Service} : Reached s → Reached { (Service.close.run s).2 with crawling := [] }

/-- A crawl is under way only while the service is open. -/
theorem Reached.isOpen_of_crawling (h : s.Reached) (hcrawling : s.crawling ≠ []) : s.isOpen = true := by
  have hlater : ∀ {s s' : Service}, s.StaysOpen s' → (s.crawling ≠ [] → s.isOpen = true) → s'.crawling ≠ [] →
      s'.isOpen = true := by
    intro s s' hstays hopen hne
    exact hstays.isOpen (hopen (hstays.crawling ▸ hne))
  induction h with
  | fresh config world feed => exact absurd rfl hcrawling
  | meanwhile _ world watched state stats startups stopRequested feed sent ih => exact ih hcrawling
  | @perform s _ address job ih => exact hlater (keepsOpen_perform address job s) ih hcrawling
  | @begins s _ kind address hopens hwatched hidle ih =>
    exact (keepsOpen_registerJob (jobName kind address) s.opened).isOpen s.isOpen_opened
  | ends _ crawling hsub ih => exact ih fun hnil => hcrawling (List.subset_nil.mp (hnil ▸ hsub))
  | @settles s _ kind address result ih =>
    exact hlater (keepsOpen_runJob (jobName kind address) address (fun w => (result, w)) s) ih hcrawling
  | @start s _ ih => exact hlater (keepsOpen_start s) ih hcrawling
  | @startUp s _ address ih => exact hlater (keepsOpen_startUp address s) ih hcrawling
  | @startUpAll s _ ih => exact hlater (keepsOpen_startUpAll s) ih hcrawling
  | @tick s _ ih => exact hlater (keepsOpen_tick s) ih hcrawling
  | stop _ _ => exact absurd rfl hcrawling
  | close _ _ => exact absurd rfl hcrawling

/-! ## Busy answers -/

/-- A later service that tells nothing else of its jobs, and in whose store the watermarks are the same. -/
structure Untouched (s s' : Service) : Prop where
  jobs : s'.jobs = s.jobs
  stats : s'.stats = s.stats
  failedAddresses : s'.failedAddresses = s.failedAddresses
  health : s'.health = s.health
  watermarks : s'.world.database.store.watermarks = s.world.database.store.watermarks

/-- A service after a busy answer. -/
def afterBusy (s : Service) (name address : String) : Service :=
  let registered := ((registerJob name).run s).2
  if Assoc.mem address s.failedAddresses then ((markActive address).run registered).2 else registered

theorem registerJob_of_mem {name : String} (h : Assoc.mem name s.jobs = true) : (registerJob name).run s = ((), s) := by
  rw [registerJob, run_modify, if_pos h]

theorem mem_of_registerJob {name : String} (h : ((registerJob name).run s).2.jobs = s.jobs) :
    Assoc.mem name s.jobs = true := by
  by_contra hnot
  rw [registerJob, run_modify, if_neg hnot] at h
  have hentered : Assoc.mem name (Assoc.set name {} s.jobs) = true := by
    rw [Assoc.mem_eq_isSome, Assoc.get?_set, if_pos rfl]
    rfl
  exact hnot (h ▸ hentered)

/-- A mark is taken away, unless the store fails just then. -/
theorem run_markActive (address : String) (hopen : s.isOpen = true) :
    ((markActive address).run s).2 =
      let marked := s.afterWorld (World.session (Session.setWatchStatus address .active none))
      match nextFault s.world.database.outlook with
      | some _ => marked
      | none => { marked with failedAddresses := Assoc.erase address s.failedAddresses } := by
  obtain ⟨s', hrun, -⟩ := Session.find?_setWatchStatus address .active none s.world.database.store
  have ho := World.outcome_session_eq (Session.setWatchStatus address .active none) s.world
  rw [hrun] at ho
  rw [markActive, run_bind, run_get]
  simp only [hopen, if_true]
  rw [run_bind, run_onWorld]
  cases hfault : nextFault s.world.database.outlook with
  | some failure =>
    rw [hfault] at ho
    rw [ho]
    rfl
  | none =>
    rw [hfault] at ho
    rw [ho]
    rfl

theorem run_bind_of_eq {α β : Type} {x : StateM Service α} {a : α} (h : x.run s = (a, s')) (f : α → StateM Service β) :
    (x >>= f).run s = (f a).run s' := by
  rw [run_bind, h]

theorem outcome_lift {α : Type} (program : StateM Service α) (s : Service) :
    Attempt.outcome (liftM program) s = (.ok (program.run s).1, (program.run s).2) := rfl

theorem run_settleJob_ok (name address : String) (r : IngestResult) (s : Service) :
    (settleJob name address (.ok r)).run s =
      (r, if Assoc.mem address s.failedAddresses then ((markActive address).run s).2 else s) := by
  rw [settleJob, run_bind, run_get]
  split <;> rfl

/-- A job that is answered as busy is entered in the record, and the mark of its address taken away. -/
theorem run_runJob_of_busy (name address : String) {r : IngestResult} (hbusy : r.busy = true) (s : Service) :
    (runJob name address (pure r)).run s = (r, s.afterBusy name address) := by
  obtain ⟨jobs, hregistered⟩ := run_registerJob name s
  have hcrawled : (onWorld (pure r)).run { s with jobs } = (.ok r, { s with jobs }) := rfl
  have hsettled := run_settleJob_ok name address r { s with jobs }
  rw [runJob, run_bind_of_eq hregistered, run_bind_of_eq hcrawled, run_bind_of_eq hsettled, if_pos hbusy, afterBusy,
    hregistered]
  rfl

/-- A job is answered as busy only while a crawl of its address is under way, and then nothing is crawled. -/
theorem Reached.runCrawl_of_busy (h : s.Reached) {job : Job} {address : String} {r : IngestResult}
    (ho : (runCrawl job.kind address job.crawl).outcome s = (.ok r, s')) (hbusy : r.busy = true) :
    s.isOpen = true ∧ s.crawling.contains address = true ∧ s' = s.afterBusy (jobName job.kind address) address := by
  by_cases hopens : s.Opens
  · rw [runCrawl, Attempt.outcome_bind_of_ok (outcome_ensureOpen_of_opens hopens),
      Attempt.outcome_bind_of_ok (Attempt.outcome_get s.opened)] at ho
    cases hwatch : Assoc.get? address s.opened.watched with
    | none =>
      rw [hwatch] at ho
      cases ho
    | some watch =>
      rw [hwatch] at ho
      cases hcrawling : s.crawling.contains address with
      | true =>
        have hopen : s.isOpen = true :=
          h.isOpen_of_crawling (List.ne_nil_of_mem (List.contains_iff_mem.mp hcrawling))
        have hopened : s.opened = s := if_pos hopen
        rw [hopened] at ho
        simp only [hcrawling, if_true] at ho
        rw [outcome_lift, run_runJob_of_busy (jobName job.kind address) address rfl s] at ho
        cases ho
        exact ⟨hopen, rfl, rfl⟩
      | false =>
        have hidle : s.opened.crawling.contains address = false := by rw [(staysOpen_opened s).crawling, hcrawling]
        simp only [hidle, Bool.false_eq_true, if_false] at ho
        obtain ⟨hresult, -⟩ := run_runJob (jobName job.kind address) address (job.crawl watch.crawler) s.opened
        rw [outcome_lift, hresult] at ho
        have hidle : r.busy = false := by
          cases ho
          rcases hcrawled : (job.crawl watch.crawler).outcome s.opened.world with ⟨failure | result, w⟩
          · rfl
          · exact Job.not_busy_of_crawl hcrawled
        exact absurd (hidle.symm.trans hbusy) (by decide)
  · rw [runCrawl, Attempt.outcome_bind_of_error (outcome_ensureOpen_of_shut hopens)] at ho
    cases ho

theorem Reached.perform_of_busy (h : s.Reached) {job : Job} {address : String} {r : IngestResult}
    (ho : (job.perform address).outcome s = (.ok r, s')) (hbusy : r.busy = true) :
    s.isOpen = true ∧ s.crawling.contains address = true ∧ s' = s.afterBusy (jobName job.kind address) address := by
  have hcounted : ∀ count : Service → Service, Attempt.outcome (do
        let result ← runCrawl job.kind address job.crawl
        if !result.busy then modify count
        return result) s = (.ok r, s') → (runCrawl job.kind address job.crawl).outcome s = (.ok r, s') := by
    intro count hcount
    obtain ⟨result, s₁, hrun, hrest⟩ := Attempt.outcome_bind_eq_ok_iff.mp hcount
    cases hfree : result.busy with
    | true =>
      rw [hfree] at hrest
      cases hrest
      exact hrun
    | false =>
      rw [hfree] at hrest
      cases hrest
      exact absurd (hfree.symm.trans hbusy) (by decide)
  cases job with
  | backfill request => exact h.runCrawl_of_busy (hcounted _ ho) hbusy
  | gapFill => exact h.runCrawl_of_busy (hcounted _ ho) hbusy

/-- What a service after a busy answer tells is the same as before if and only if the job was in its record and no mark
could be taken away. -/
theorem untouched_afterBusy_iff (name address : String) (hopen : s.isOpen = true) :
    s.Untouched (s.afterBusy name address) ↔ Assoc.mem name s.jobs = true ∧
      (Assoc.mem address s.failedAddresses = true → (nextFault s.world.database.outlook).isSome = true) := by
  obtain ⟨jobs, hregistered⟩ := run_registerJob name s
  have hmarked := run_markActive (s := { s with jobs }) address hopen
  have hbusy : s.afterBusy name address =
      if Assoc.mem address s.failedAddresses then ((markActive address).run { s with jobs }).2 else { s with jobs } := by
    rw [afterBusy, hregistered]
  rw [hbusy, hmarked]
  have hentered : jobs = s.jobs ↔ Assoc.mem name s.jobs = true := by
    constructor
    · intro hsame
      exact mem_of_registerJob (by rw [hregistered, hsame])
    · intro hmem
      rw [registerJob_of_mem hmem] at hregistered
      exact congrArg (fun outcome => outcome.2.jobs) hregistered.symm
  rw [← hentered]
  cases hknown : Assoc.mem address s.failedAddresses with
  | false =>
    constructor
    · exact fun h => ⟨h.jobs, nofun⟩
    · rintro ⟨rfl, -⟩
      exact ⟨rfl, rfl, rfl, rfl, rfl⟩
  | true =>
    cases hfault : nextFault s.world.database.outlook with
    | some failure =>
      have hstore : (s.afterWorld (World.session (Session.setWatchStatus address .active none))).world.database.store =
          s.world.database.store := by
        rw [afterWorld, World.outcome_session_eq, hfault]
        rfl
      constructor
      · exact fun h => ⟨h.jobs, fun _ => rfl⟩
      · rintro ⟨rfl, -⟩
        exact ⟨rfl, rfl, rfl, rfl, congrArg (·.watermarks) hstore⟩
    | none =>
      have herased : Assoc.mem address (Assoc.erase address s.failedAddresses) = false := by
        rw [Assoc.mem_eq_isSome, Assoc.get?_erase, if_pos rfl]
        rfl
      constructor
      · intro h
        have hsame : Assoc.erase address s.failedAddresses = s.failedAddresses := h.failedAddresses
        rw [hsame, hknown] at herased
        cases herased
      · exact fun h => absurd (h.2 rfl) (by decide)

/-- A busy answer changes nothing if and only if the job was run or begun before, and either the address is not known to be
failed or the store fails just then. -/
theorem untouched_perform_iff (h : s.Reached) (job : Job) (address : String) {r : IngestResult}
    (ho : (job.perform address).outcome s = (.ok r, s')) (hbusy : r.busy = true) :
    s.Untouched s' ↔ Assoc.mem (jobName job.kind address) s.jobs = true ∧
      (Assoc.mem address s.failedAddresses = true → (nextFault s.world.database.outlook).isSome = true) := by
  obtain ⟨hopen, -, rfl⟩ := h.perform_of_busy ho hbusy
  exact untouched_afterBusy_iff (jobName job.kind address) address hopen

/-- A service that is asked for a backfill while one is under way. -/
theorem untouched_perform_iff_begun :
    let s := brokenService.beginning .backfill "pool"
    s.Reached ∧ ∃ r s', ((Job.backfill {}).perform "pool").outcome s = (.ok r, s') ∧ r.busy = true ∧
      s.Untouched s' := by
  intro s
  have hreached : s.Reached := .begins (.fresh _ _ _) .backfill "pool" (.inr rfl) rfl rfl
  have ho : ((Job.backfill {}).perform "pool").outcome s = (.ok (brokenService.config.crawler "pool").busyResult, s) := rfl
  refine ⟨hreached, _, s, ho, rfl, (untouched_perform_iff hreached (.backfill {}) "pool" ho rfl).mpr ⟨rfl, nofun⟩⟩

/-- A service that tries again after a failure got out of its first backfill. -/
def secondTry : Service :=
  (((Job.backfill {}).perform "pool").outcome brokenService).2.beginning .backfill "pool"

/-- A job that is answered as busy takes the mark of a failed address away. -/
theorem busy_answer_takes_mark_away :
    let after := (((Job.backfill {}).perform "pool").outcome secondTry).2
    secondTry.Reached ∧ (((Job.backfill {}).perform "pool").outcome secondTry).1.toOption.map (·.busy) = some true ∧
      secondTry.failedAddresses = [("pool", "backfill:pool: connection refused fetching swap")] ∧
      after.failedAddresses = [] ∧
      (secondTry.world.database.store.watermarks.find? "pool").map (·.status) = some .failed ∧
      (after.world.database.store.watermarks.find? "pool").map (·.status) = some .active := by
  intro after
  refine ⟨.begins (.perform (.fresh _ _ _) "pool" (.backfill {})) .backfill "pool" (.inl ?_) ?_ ?_, ?_, ?_, ?_, ?_, ?_⟩
  all_goals decide +kernel

end Service
end PairIndex
