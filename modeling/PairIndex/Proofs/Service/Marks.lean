import PairIndex.Proofs.Crawl.Apart
import PairIndex.Service.Jobs

/-! What the jobs of a service write besides what they crawl. They write marks to watermarks, which leaves the progress of
all addresses as it is, and the service knows the addresses whose marks tell of a failure
(`Service.marked_runJob`). -/

namespace PairIndex

/-- Whether no failure is marked at the watermark of an address. -/
def Store.IsActive (s : Store) (address : String) : Prop :=
  ∀ row, s.watermarks.find? address = some row → row.status = .active ∧ row.failureLog = none

theorem Store.isActive_congr {s s' : Store} {address : String}
    (h : s'.watermarks.find? address = s.watermarks.find? address) : s'.IsActive address ↔ s.IsActive address := by
  rw [IsActive, IsActive, h]

/-! ## Sessions -/

/-- A session that goes through and changes nothing but the marks of some addresses. -/
def Session.OnlyMarks (addresses : List String) (session : Session Unit) : Prop :=
  ∀ s : Store, ∃ s', session.run s = .ok ((), s') ∧ (∀ address, s'.progress? address = s.progress? address) ∧
    ∀ address, address ∉ addresses → s'.watermarks.find? address = s.watermarks.find? address

namespace Session

theorem onlyMarks_setWatchStatus (address : String) (status : WatchStatus) (failureLog : Option String) :
    (setWatchStatus address status failureLog).OnlyMarks [address] := by
  intro s
  obtain ⟨s', hrun, hfind⟩ := find?_setWatchStatus address status failureLog s
  refine ⟨s', hrun, fun other => ?_, fun other hother => ?_⟩
  · rw [Store.progress?, hfind, Store.progress?]
    split
    · rw [Option.map_map]
      rfl
    · rfl
  · rw [hfind, if_neg (Ne.symm (List.ne_of_not_mem_cons hother))]

theorem isActive_setWatchStatus (address : String) (s : Store) :
    ∃ s', (setWatchStatus address .active none).run s = .ok ((), s') ∧ s'.IsActive address := by
  obtain ⟨s', hrun, hfind⟩ := find?_setWatchStatus address .active none s
  refine ⟨s', hrun, fun row hrow => ?_⟩
  rw [hfind, if_pos rfl] at hrow
  obtain ⟨old, -, rfl⟩ := Option.map_eq_some_iff.mp hrow
  exact ⟨rfl, rfl⟩

theorem onlyMarks_forM_markFailed (marks : List (String × String)) :
    Session.OnlyMarks (marks.map (·.1)) (marks.forM fun (address, log) => markFailed address log) := by
  induction marks with
  | nil => exact fun s => ⟨s, rfl, fun _ => rfl, fun _ _ => rfl⟩
  | cons mark marks ih =>
    intro s
    obtain ⟨s₁, hrun, hsame, hkept⟩ := onlyMarks_setWatchStatus mark.1 .failed (some mark.2) s
    obtain ⟨s₂, hrun', hsame', hkept'⟩ := ih s₁
    refine ⟨s₂, ?_, fun address => (hsame' address).trans (hsame address), fun address haddress => ?_⟩
    · change (markFailed mark.1 mark.2 >>= fun _ => marks.forM fun (address, log) => markFailed address log).run s = _
      rw [StateT.run_bind, markFailed, hrun]
      exact hrun'
    · rw [List.map_cons, List.mem_cons, not_or] at haddress
      exact (hkept' address haddress.2).trans (hkept address (by simpa using haddress.1))

end Session

/-! ## Worlds -/

/-- A later world in which nothing was written but marks. -/
structure World.Marked (w w' : World) : Prop where
  ledger : w'.ledger = w.ledger
  stopped : w'.stopped = w.stopped
  quiet : w.database.Quiet → w'.database.Quiet
  progress : ∀ address, w'.database.store.progress? address = w.database.store.progress? address

namespace World.Marked

variable {w w' w'' : World}

theorem refl (w : World) : w.Marked w :=
  ⟨rfl, rfl, id, fun _ => rfl⟩

theorem trans (h : w.Marked w') (h' : w'.Marked w'') : w.Marked w'' where
  ledger := h'.ledger.trans h.ledger
  stopped := h'.stopped.trans h.stopped
  quiet hquiet := h'.quiet (h.quiet hquiet)
  progress address := (h'.progress address).trans (h.progress address)

end World.Marked

/-- Marks are written as a whole, or not at all. -/
theorem Session.OnlyMarks.outcome {addresses : List String} {session : Session Unit} (h : session.OnlyMarks addresses)
    (w : World) :
    w.Marked ((World.session session).outcome w).2 ∧ ∀ address, address ∉ addresses →
      ((World.session session).outcome w).2.database.store.watermarks.find? address =
        w.database.store.watermarks.find? address := by
  have hkept : w.Marked (w.afterSession w.database.store) := ⟨rfl, rfl, fun hquiet => hquiet.tail _, fun _ => rfl⟩
  rw [World.outcome_session_eq]
  cases nextFault w.database.outlook with
  | some failure => exact ⟨hkept, fun _ _ => rfl⟩
  | none =>
    obtain ⟨s', hrun, hsame, hother⟩ := h w.database.store
    rw [hrun]
    exact ⟨⟨rfl, rfl, fun hquiet => hquiet.tail s', hsame⟩, hother⟩

/-- A session that fails leaves the store as it is. -/
theorem World.store_of_session_error {α : Type} {session : Session α} {w : World} {failure : Failure}
    (h : ((World.session session).outcome w).1 = .error failure) :
    ((World.session session).outcome w).2.database.store = w.database.store := by
  rw [World.outcome_session_eq] at h ⊢
  cases hfault : nextFault w.database.outlook with
  | some failure => rfl
  | none =>
    rw [hfault] at h
    cases hrun : session.run w.database.store with
    | ok result =>
      rw [hrun] at h
      cases h
    | error failure => rfl

theorem World.isActive_of_setWatchStatus (address : String) (w : World)
    (h : ((World.session (Session.setWatchStatus address .active none)).outcome w).1 = .ok ()) :
    ((World.session (Session.setWatchStatus address .active none)).outcome w).2.database.store.IsActive address := by
  obtain ⟨s', hrun, hactive⟩ := Session.isActive_setWatchStatus address w.database.store
  rw [World.outcome_session_eq] at h ⊢
  cases hfault : nextFault w.database.outlook with
  | some failure =>
    rw [hfault] at h
    cases h
  | none =>
    rw [hrun]
    exact hactive

/-! ## Services -/

/-- Whether a service can be opened. -/
def ServiceConfig.opens (c : ServiceConfig) : Bool :=
  !c.cacheUrl.any fun url => !url.isEmpty && !Service.isCacheUrl url

/-- How an address is crawled, if it is watched. -/
def ServiceConfig.crawler? (c : ServiceConfig) (address : String) : Option Crawler :=
  (Assoc.get? address (Service.watchesOf c)).map (·.crawler)

namespace Service

/-- An open service could be opened, and watches what it was told to. -/
structure Settled (s : Service) : Prop where
  opens : s.isOpen = true → s.config.opens = true
  watched : s.isOpen = true → ∀ address, (Assoc.get? address s.watched).map (·.crawler) = s.config.crawler? address

/-- Whether no failure is marked at an address that the service does not know to be failed. -/
def Knows (s : Service) (address : String) : Prop :=
  Assoc.mem address s.failedAddresses = false → s.world.database.store.IsActive address

/-- A later service that crawls and watches the same, in whose world nothing was written but marks that it knows. -/
structure Marked (s s' : Service) : Prop where
  config : s'.config = s.config
  crawling : s'.crawling = s.crawling
  settled : s.Settled → s'.Settled
  world : s.world.Marked s'.world
  knows : ∀ address, s.Knows address → s'.Knows address

variable {s s' s'' : Service}

namespace Marked

theorem refl (s : Service) : s.Marked s :=
  ⟨rfl, rfl, id, .refl _, fun _ => id⟩

theorem of_eq (hconfig : s'.config = s.config) (hopen : s'.isOpen = s.isOpen) (hwatched : s'.watched = s.watched)
    (hcrawling : s'.crawling = s.crawling) (hworld : s'.world = s.world)
    (hfailed : s'.failedAddresses = s.failedAddresses) : s.Marked s' where
  config := hconfig
  crawling := hcrawling
  settled hs := ⟨by rw [hopen, hconfig]; exact hs.opens, by rw [hopen, hconfig, hwatched]; exact hs.watched⟩
  world := hworld ▸ .refl _
  knows address hknows := by
    rw [Knows, hfailed, hworld]
    exact hknows

theorem trans (h : s.Marked s') (h' : s'.Marked s'') : s.Marked s'' where
  config := h'.config.trans h.config
  crawling := h'.crawling.trans h.crawling
  settled hs := h'.settled (h.settled hs)
  world := h.world.trans h'.world
  knows address hknows := h'.knows address (h.knows address hknows)

end Marked

/-- The service after an attempt on its world. -/
def afterWorld {α : Type} (s : Service) (attempt : Attempt World α) : Service :=
  { s with world := (attempt.outcome s.world).2 }

theorem run_bind {α β : Type} (x : StateM Service α) (f : α → StateM Service β) (s : Service) :
    (x >>= f).run s = (f (x.run s).1).run (x.run s).2 := rfl

theorem run_get (s : Service) : (get : StateM Service Service).run s = (s, s) := rfl

theorem run_modify (f : Service → Service) (s : Service) : (modify f : StateM Service PUnit).run s = (⟨⟩, f s) := rfl

theorem run_onWorld {α : Type} (attempt : Attempt World α) (s : Service) :
    (onWorld attempt).run s = ((attempt.outcome s.world).1, s.afterWorld attempt) := rfl

/-- The marks of addresses that are known to be failed may be written. -/
theorem marked_flushMarks (s : Service) : s.Marked (flushMarks.run s).2 := by
  rw [flushMarks, run_bind, run_get]
  simp only
  split
  · obtain ⟨hmarked, hother⟩ := (Session.onlyMarks_forM_markFailed s.failedAddresses).outcome s.world
    refine ⟨rfl, rfl, fun hs => ⟨hs.opens, hs.watched⟩, hmarked, fun address hknows hnot => ?_⟩
    have hmem : address ∉ s.failedAddresses.map (·.1) := by
      intro hmem
      obtain ⟨mark, hmark, rfl⟩ := List.mem_map.mp hmem
      have hknown : Assoc.mem mark.1 s.failedAddresses = true := List.any_eq_true.mpr ⟨mark, hmark, by simp⟩
      exact absurd (hknown.symm.trans hnot) (by decide)
    exact (Store.isActive_congr (hother address hmem)).mpr (hknows hnot)
  · exact .refl s

theorem marked_markFailed (address log : String) (s : Service) : s.Marked ((markFailed address log).run s).2 := by
  have hset : s.Marked { s with failedAddresses := Assoc.set address log s.failedAddresses } := by
    refine ⟨rfl, rfl, fun hs => ⟨hs.opens, hs.watched⟩, .refl _, fun other hknows hnot => hknows ?_⟩
    rw [Assoc.mem_eq_isSome, Assoc.get?_set] at hnot
    rw [Assoc.mem_eq_isSome]
    split at hnot
    · cases hnot
    · exact hnot
  exact hset.trans (marked_flushMarks _)

theorem marked_markActive (address : String) (s : Service) : s.Marked ((markActive address).run s).2 := by
  obtain ⟨hmarked, hother⟩ := (Session.onlyMarks_setWatchStatus address .active none).outcome s.world
  rw [markActive, run_bind, run_get]
  simp only
  split
  · rw [run_bind, run_onWorld]
    cases hresult : ((World.session (Session.setWatchStatus address .active none)).outcome s.world).1 with
    | ok _ =>
      refine ⟨rfl, rfl, fun hs => ⟨hs.opens, hs.watched⟩, hmarked, fun other hknows hnot => ?_⟩
      by_cases hne : other = address
      · exact hne ▸ World.isActive_of_setWatchStatus address s.world hresult
      · refine (Store.isActive_congr (hother other (by simpa using hne))).mpr (hknows ?_)
        change Assoc.mem other (Assoc.erase address s.failedAddresses) = false at hnot
        rwa [Assoc.mem_eq_isSome, Assoc.get?_erase, if_neg (Ne.symm hne), ← Assoc.mem_eq_isSome] at hnot
    | error failure =>
      refine ⟨rfl, rfl, fun hs => ⟨hs.opens, hs.watched⟩, hmarked, fun other hknows hnot => ?_⟩
      have hstore := World.store_of_session_error hresult
      change (s.afterWorld _).world.database.store.IsActive other
      rw [afterWorld, hstore]
      exact hknows hnot
  · exact .refl s

/-- While the store reports no failure, the mark of an address is taken away. -/
theorem isActive_markActive (address : String) (hopen : s.isOpen = true) (hquiet : s.world.database.Quiet) :
    ((markActive address).run s).2.world.database.store.IsActive address := by
  obtain ⟨s', hrun, hactive⟩ := Session.isActive_setWatchStatus address s.world.database.store
  have ho := World.outcome_session_of_quiet hquiet hrun
  rw [markActive, run_bind, run_get]
  simp only [hopen, if_true]
  rw [run_bind, run_onWorld, ho]
  change (s.afterWorld _).world.database.store.IsActive address
  rw [afterWorld, ho]
  exact hactive

/-- A later service in which an address is marked as failed only if it was before, and the service did not know it. -/
def Recovers (address : String) (s s' : Service) : Prop :=
  s'.world.database.store.IsActive address ↔
    Assoc.mem address s.failedAddresses = true ∨ s.world.database.store.IsActive address

/-- What a job gives whose crawl came to an end. -/
def jobResult (name : String) : Except Failure IngestResult → IngestResult
  | .ok result => result
  | .error failure => failedResult name failure

theorem run_settleJob (name address : String) (result : Except Failure IngestResult) (s : Service) :
    ((settleJob name address result).run s).1 = jobResult name result ∧
      s.Marked ((settleJob name address result).run s).2 ∧
      ∀ r, result = .ok r → s.isOpen = true → s.world.database.Quiet →
        s.Recovers address ((settleJob name address result).run s).2 := by
  cases result with
  | error failure =>
    have hcounted : s.Marked
        { s with stats := { s.stats with errors := s.stats.errors + 1, lastError := some failure.message } } :=
      .of_eq rfl rfl rfl rfl rfl rfl
    exact ⟨rfl, hcounted.trans (marked_markFailed address (name ++ ": " ++ failure.message) _), nofun⟩
  | ok result =>
    rw [settleJob, run_bind, run_get]
    simp only
    split
    · rename_i hmem
      exact ⟨rfl, marked_markActive address s, fun r _ hopen hquiet =>
        iff_of_true (isActive_markActive address hopen hquiet) (.inl hmem)⟩
    · rename_i hmem
      exact ⟨rfl, .refl s, fun r _ _ _ => (or_iff_right hmem).symm⟩

theorem run_registerJob (name : String) (s : Service) : ∃ jobs, (registerJob name).run s = ((), { s with jobs }) := by
  rw [registerJob, run_modify]
  split
  · exact ⟨s.jobs, rfl⟩
  · exact ⟨_, rfl⟩

/-- A job gives what its crawl comes to, and after the crawl writes nothing but marks. -/
theorem run_runJob (name address : String) (job : Attempt World IngestResult) (s : Service) :
    ((runJob name address job).run s).1 = jobResult name (job.outcome s.world).1 ∧
      (s.afterWorld job).Marked ((runJob name address job).run s).2 ∧
      ∀ r, (job.outcome s.world).1 = .ok r → s.isOpen = true → (s.afterWorld job).world.database.Quiet →
        (s.afterWorld job).Recovers address ((runJob name address job).run s).2 := by
  obtain ⟨jobs, hregistered⟩ := run_registerJob name s
  rw [runJob, run_bind, hregistered, run_bind, run_onWorld, run_bind]
  let s₁ : Service := afterWorld { s with jobs } job
  have hcrawled : (s.afterWorld job).Marked s₁ := .of_eq rfl rfl rfl rfl rfl rfl
  obtain ⟨hresult, hmarked, hrecovers⟩ := run_settleJob name address (job.outcome s.world).1 s₁
  simp only
  split
  · exact ⟨hresult, hcrawled.trans hmarked, hrecovers⟩
  · exact ⟨hresult, (hcrawled.trans hmarked).trans (.of_eq rfl rfl rfl rfl rfl rfl), hrecovers⟩

end Service
end PairIndex
