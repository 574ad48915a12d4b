import PairIndex.Proofs.Crawl.Turns

/-! Chunks of signatures that are ingested at the same time. A chunk commits nothing but what was made of its signatures,
and all of what was made of those that succeeded (`Crawler.commits_ingestChunk`). While the store reports no failure, its
outcomes do not depend on the turns that are taken, and its commits do only in their order
(`Crawler.ingestChunk_of_quiet`). -/

namespace PairIndex

/-! ## Commits of a chunk -/

/-- A call that was begun with a transaction, all sessions of which that it counts as successful are among commits. -/
def Progress.Follows (tx : DecodedTransaction) (made : List Commit) : Progress → Prop
  | .recording tx' => tx' = tx
  | .applying signature rest result => ∃ done, tx.failed = false ∧ signature = tx.signature ∧ tx.events = done ++ rest ∧
      .transaction tx.row ∈ made ∧ (result.failed = 0 → ∀ e ∈ done, .event tx.signature e ∈ made)
  | .ended outcome => ∀ r, outcome = .ok r → r.isOk = true → ∀ x ∈ tx.commits, x ∈ made

namespace Progress

variable {tx : DecodedTransaction} {made : List Commit}

/-- What a step comes to that commits nothing but what a transaction tells. -/
def Commits (tx : DecodedTransaction) (made : List Commit) (d : Database) (next : Progress × Database) : Prop :=
  ∃ more, next.2.store = Commit.applyAll more d.store ∧ (∀ x ∈ more, x ∈ tx.commits) ∧
    next.1.Follows tx (made ++ more)

theorem Commits.of_nothing {d : Database} {next : Progress × Database} (hstore : next.2.store = d.store)
    (h : next.1.Follows tx made) : Commits tx made d next :=
  ⟨[], hstore, List.forall_mem_nil _, by rwa [List.append_nil]⟩

theorem commits_recording (tx : DecodedTransaction) (made : List Commit) (d : Database) :
    Commits tx made d ((recording tx).step d) := by
  rw [step_recording, Database.attempt]
  cases hf : (Commit.transaction tx.row).failure? (nextFault d.outlook) with
  | none =>
    refine ⟨[.transaction tx.row], rfl, ?_, ?_⟩
    · simp [DecodedTransaction.commits]
    · cases hfailed : tx.failed with
      | true => simp [Follows, DecodedTransaction.commits, hfailed]
      | false => simp [Follows, hfailed]
  | some failure =>
    refine .of_nothing rfl fun r hr => ?_
    cases hr

theorem commits_event {e : Event} {done rest : List Event} {result : ProcessResult}
    (hfailed : tx.failed = false) (hevents : tx.events = done ++ e :: rest) (hrow : .transaction tx.row ∈ made)
    (hdone : result.failed = 0 → ∀ e ∈ done, .event tx.signature e ∈ made) (d : Database) :
    Commits tx made d ((applying tx.signature (e :: rest) result).step d) := by
  have he : e ∈ tx.events := by simp [hevents]
  have hevents' : tx.events = (done ++ [e]) ++ rest := by simp [hevents]
  rw [step_applying, Database.attempt]
  cases hf : (Commit.event tx.signature e).failure? (nextFault d.outlook) with
  | none =>
    refine ⟨[.event tx.signature e], rfl, ?_, done ++ [e], hfailed, rfl, hevents', List.mem_append_left _ hrow,
      fun hnone => ?_⟩
    · simpa [DecodedTransaction.mem_commits, hfailed] using he
    · rw [DecodedTransaction.failed_counted] at hnone
      refine List.forall_mem_append.mpr ⟨fun e' he' => List.mem_append_left _ (hdone hnone e' he'), ?_⟩
      simp
  | some failure =>
    refine .of_nothing rfl ?_
    cases hfatal : failure.isFatal with
    | true =>
      simp only [hfatal, if_true]
      intro r hr
      cases hr
    | false =>
      simp only [hfatal, Bool.false_eq_true, if_false]
      exact ⟨done ++ [e], hfailed, rfl, hevents', hrow, fun hnone => absurd hnone (Nat.succ_ne_zero _)⟩

theorem Follows.step {call : Progress} (h : call.Follows tx made) (d : Database) :
    Commits tx made d (call.step d) := by
  cases call with
  | recording tx' =>
    cases h
    exact commits_recording tx made d
  | applying signature rest result =>
    obtain ⟨done, hfailed, rfl, hevents, hrow, hdone⟩ := h
    cases rest with
    | nil =>
      refine .of_nothing rfl fun r hr hok x hx => ?_
      cases hr
      rw [List.append_nil] at hevents
      rcases DecodedTransaction.mem_commits.mp hx with rfl | ⟨-, e, he, rfl⟩
      · exact hrow
      · exact hdone (by simpa [ProcessResult.isOk] using hok) e (hevents ▸ he)
    | cons e rest => exact commits_event hfailed hevents hrow hdone d
  | ended outcome => exact .of_nothing rfl h

theorem Follows.mono {call : Progress} (h : call.Follows tx made) (more : List Commit) : call.Follows tx (made ++ more) := by
  cases call with
  | recording tx' => exact h
  | applying signature rest result =>
    obtain ⟨done, hfailed, hsignature, hevents, hrow, hdone⟩ := h
    exact ⟨done, hfailed, hsignature, hevents, List.mem_append_left _ hrow,
      fun hnone e he => List.mem_append_left _ (hdone hnone e he)⟩
  | ended outcome => exact fun r hr hok x hx => List.mem_append_left _ (h r hr hok x hx)

end Progress

/-- An ingestion of a signature that succeeded only if all commits were made of what the crawl made of it. -/
def Ingestion.Follows (l : RecordedLedger) (address : String) (made : List Commit) (info : SignatureInfo) :
    Ingestion → Prop
  | .waiting info' => info' = info
  | .processing call => ∃ tx, l.prepared address info = .ok (some tx) ∧ call.Follows tx made
  | .leaving outcome | .settled outcome =>
    outcome = .ok true → ∃ tx, l.prepared address info = .ok (some tx) ∧ ∀ x ∈ tx.commits, x ∈ made

namespace Ingestion

variable {l : RecordedLedger} {address : String} {made : List Commit} {info : SignatureInfo} {task : Ingestion}

theorem Follows.mono (h : task.Follows l address made info) (more : List Commit) :
    task.Follows l address (made ++ more) info := by
  cases task with
  | waiting info' => exact h
  | processing call =>
    obtain ⟨tx, htx, hcall⟩ := h
    exact ⟨tx, htx, hcall.mono more⟩
  | leaving outcome | settled outcome =>
    intro hok
    obtain ⟨tx, htx, hall⟩ := h hok
    exact ⟨tx, htx, fun x hx => List.mem_append_left _ (hall x hx)⟩

theorem follows_ofPrepared (l : RecordedLedger) (address : String) (made : List Commit) (info : SignatureInfo) :
    (ofPrepared (l.prepared address info)).Follows l address made info := by
  rcases hprepared : l.prepared address info with failure | _ | tx
  · exact nofun
  · exact nofun
  · exact ⟨tx, hprepared, rfl⟩

theorem follows_ofCall {tx : DecodedTransaction} (htx : l.prepared address info = .ok (some tx)) {call : Progress}
    (h : call.Follows tx made) : (ofCall call).Follows l address made info := by
  cases call with
  | recording tx' => exact ⟨tx, htx, h⟩
  | applying signature rest result => exact ⟨tx, htx, h⟩
  | ended outcome =>
    intro hok
    cases outcome with
    | error failure => cases hok
    | ok r => exact ⟨tx, htx, h r rfl (Except.ok.inj hok)⟩

end Ingestion

namespace Crawler

/-- A step of an ingestion commits only what was made of its signature. -/
theorem follows_advance (c : Crawler) {task : Ingestion} {w : World} {made : List Commit} {info : SignatureInfo}
    (h : task.Follows w.ledger c.address made info) :
    (c.advance task w).2.ledger = w.ledger ∧
      (w.ledger.switches.stopOnFetch = none → (c.advance task w).2.stopped = w.stopped) ∧
      ∃ more, (c.advance task w).2.database.store = Commit.applyAll more w.database.store ∧
        (∀ x ∈ more, ∃ tx, w.ledger.prepared c.address info = .ok (some tx) ∧ x ∈ tx.commits) ∧
        (c.advance task w).1.Follows w.ledger c.address (made ++ more) info := by
  cases task with
  | waiting info' =>
    cases h
    obtain ⟨w', hidles, ho⟩ := c.advance_waiting info w
    rw [ho]
    exact ⟨hidles.ledger, hidles.goingOn, [], congrArg Database.store hidles.database, List.forall_mem_nil _,
      Ingestion.follows_ofPrepared ..⟩
  | processing call =>
    obtain ⟨tx, htx, hcall⟩ := h
    obtain ⟨more, hstore, hmore, hcall'⟩ := hcall.step w.database
    exact ⟨rfl, fun _ => rfl, more, hstore, fun x hx => ⟨tx, htx, hmore x hx⟩, Ingestion.follows_ofCall htx hcall'⟩
  | leaving outcome =>
    obtain ⟨w', hidles, ho⟩ := c.advance_leaving outcome w
    rw [ho]
    refine ⟨hidles.ledger, hidles.goingOn, [], congrArg Database.store hidles.database, List.forall_mem_nil _, ?_⟩
    rw [List.append_nil]
    exact fun hok => h (Ingestion.tolerated_eq_ok_true hok)
  | settled outcome => exact ⟨rfl, fun _ => rfl, [], rfl, List.forall_mem_nil _, by rwa [List.append_nil]⟩

/-- Ingestions of a chunk that were begun in a world: what they committed so far is made of the signatures. -/
structure Underway (c : Crawler) (chunk : List SignatureInfo) (w : World) (tasks : List Ingestion) (w' : World) :
    Prop where
  ledger : w'.ledger = w.ledger
  goingOn : w.ledger.switches.stopOnFetch = none → w'.stopped = w.stopped
  commits : ∃ made, w'.database.store = Commit.applyAll made w.database.store ∧
    (∀ x ∈ made, ∃ info ∈ chunk, ∃ tx, w.ledger.prepared c.address info = .ok (some tx) ∧ x ∈ tx.commits) ∧
    List.Forall₂ (fun info task => task.Follows w.ledger c.address made info) chunk tasks

/-- A chunk commits nothing but what was made of its signatures, and all of what was made of those that succeeded. -/
theorem commits_ingestChunk (c : Crawler) (chunk : List SignatureInfo) (w : World) :
    ∃ outcomes w', (c.ingestChunk chunk).outcome w = (allOrFirst outcomes, w') ∧
      c.Underway chunk w (outcomes.map .settled) w' := by
  refine ingestChunk_induction (fun before task after w' _ h => ?_) chunk
    ⟨rfl, fun _ => rfl, [], rfl, List.forall_mem_nil _,
      List.forall₂_map_right_iff.mpr (List.forall₂_same.mpr fun _ _ => rfl)⟩
  obtain ⟨hledger, hgoing, made, hstore, hmade, hfollows⟩ := h
  have hbefore := List.forall₂_take_append _ _ _ hfollows
  obtain ⟨info, rest, htask, hafter, hchunk⟩ := List.forall₂_cons_right_iff.mp (List.forall₂_drop_append _ _ _ hfollows)
  rw [← hledger] at htask
  obtain ⟨hledger', hgoing', more, hstore', hmore, htask'⟩ := c.follows_advance htask
  rw [hledger] at hledger' hgoing' hmore htask'
  have hinfo : info ∈ chunk := List.mem_of_mem_drop (hchunk ▸ List.mem_cons_self)
  refine ⟨hledger', fun hnone => (hgoing' hnone).trans (hgoing hnone), made ++ more, ?_, ?_, ?_⟩
  · rw [hstore', hstore, Commit.applyAll_append]
  · exact List.forall_mem_append.mpr ⟨hmade, fun x hx => ⟨info, hinfo, hmore x hx⟩⟩
  · rw [← List.take_append_drop before.length chunk, hchunk]
    exact List.rel_append (hbefore.imp fun _ _ h => h.mono more) (.cons htask' (hafter.imp fun _ _ h => h.mono more))

end Crawler
/-! ## Chunks while the store reports no failure -/

/-- A later world with the same ledger whose store reports no failure either, and which was not stopped meanwhile unless
a fetch stops a crawl. -/
structure World.Proceeds (w w' : World) : Prop where
  ledger : w'.ledger = w.ledger
  quiet : w'.database.Quiet
  goingOn : w.ledger.switches.stopOnFetch = none → w'.stopped = w.stopped

namespace World.Proceeds

variable {w w' w'' : World}

theorem of_quiet (h : w.database.Quiet) : w.Proceeds w :=
  ⟨rfl, h, fun _ => rfl⟩

theorem of_idles (h : w.database.Quiet) (hidles : w.Idles w') : w.Proceeds w' :=
  ⟨hidles.ledger, hidles.database ▸ h, hidles.goingOn⟩

theorem trans (h : w.Proceeds w') (h' : w'.Proceeds w'') : w.Proceeds w'' :=
  ⟨h'.ledger.trans h.ledger, h'.quiet, fun hnone => (h'.goingOn (h.ledger ▸ hnone)).trans (h.goingOn hnone)⟩

end World.Proceeds

/-- What processing a transaction comes to while the store reports no failure: a row that does not fit ends it, and it
is a success if all of it fits. -/
def DecodedTransaction.verdict (tx : DecodedTransaction) : Except Failure Bool :=
  if (Commit.transaction tx.row).fits then .ok (tx.commits.all (·.fits)) else .error Session.columnOverflow

namespace Progress

/-- What a call comes to while the store reports no failure. -/
def verdict : Progress → Except Failure Bool
  | .recording tx => tx.verdict
  | .applying signature rest result => .ok (result.isOk && rest.all fun e => (Commit.event signature e).fits)
  | .ended outcome => outcome.map (·.isOk)

theorem verdict_step (call : Progress) {d : Database} (hd : d.Quiet) : (call.step d).1.verdict = call.verdict := by
  have hnone : nextFault d.outlook = none := hd.nextFault
  cases call with
  | recording tx =>
    rw [step_recording, hnone, Commit.failure?_none, verdict, DecodedTransaction.verdict]
    by_cases hrow : (Commit.transaction tx.row).fits = true
    · simp only [if_pos hrow]
      cases hfailed : tx.failed with
      | true =>
        simp [verdict, DecodedTransaction.commits, hfailed, hrow, DecodedTransaction.begun, ProcessResult.isOk, Except.map]
      | false =>
        simp [verdict, DecodedTransaction.commits, hfailed, hrow, DecodedTransaction.begun, ProcessResult.isOk,
          Function.comp_def]
    · simp only [if_neg hrow]
      rfl
  | applying signature rest result =>
    cases rest with
    | nil => simp [step, verdict, Except.map]
    | cons e rest =>
      rw [step_applying, hnone, Commit.failure?_none, verdict, List.all_cons]
      by_cases hfits : (Commit.event signature e).fits = true
      · simp only [hfits, if_true, Bool.true_and, verdict, ProcessResult.isOk, DecodedTransaction.failed_counted]
      · have hgoing : Session.columnOverflow.isFatal = false := rfl
        simp [hgoing, verdict, ProcessResult.isOk, hfits]
  | ended outcome => rfl

end Progress

namespace Ingestion

/-- What an ingestion comes to while the store reports no failure. -/
def verdict (l : RecordedLedger) (address : String) : Ingestion → Except Failure Bool
  | .waiting info =>
    match l.prepared address info with
    | .ok (some tx) => tolerated tx.verdict
    | .ok none => .ok false
    | .error failure => tolerated (.error failure)
  | .processing call => tolerated call.verdict
  | .leaving outcome => tolerated outcome
  | .settled outcome => outcome

/-- What an ingestion is still to commit if the store reports no failure. -/
def dues (l : RecordedLedger) (address : String) : Ingestion → List Commit
  | .waiting info =>
    match l.prepared address info with
    | .ok (some tx) => tx.committed []
    | _ => []
  | .processing call => call.pending
  | .leaving _ | .settled _ => []

theorem verdict_ofPrepared (l : RecordedLedger) (address : String) (info : SignatureInfo) :
    (ofPrepared (l.prepared address info)).verdict l address = (waiting info).verdict l address := by
  rw [verdict.eq_1]
  rcases l.prepared address info with failure | _ | tx <;> rfl

theorem dues_ofPrepared (l : RecordedLedger) (address : String) (info : SignatureInfo) :
    (ofPrepared (l.prepared address info)).dues l address = (waiting info).dues l address := by
  rw [dues.eq_1]
  rcases l.prepared address info with failure | _ | tx <;> rfl

theorem verdict_ofCall (l : RecordedLedger) (address : String) (call : Progress) :
    (ofCall call).verdict l address = tolerated call.verdict := by
  cases call <;> rfl

theorem dues_ofCall (l : RecordedLedger) (address : String) (call : Progress) :
    (ofCall call).dues l address = call.pending := by
  cases call <;> rfl

end Ingestion

namespace Crawler

/-- While the store reports no failure, a step commits what is due first, if anything, and leaves the verdict. -/
theorem advance_of_quiet (c : Crawler) (task : Ingestion) {w : World} (hquiet : w.database.Quiet) :
    w.Proceeds (c.advance task w).2 ∧
      (c.advance task w).1.verdict w.ledger c.address = task.verdict w.ledger c.address ∧
      ∃ made, task.dues w.ledger c.address = made ++ (c.advance task w).1.dues w.ledger c.address ∧
        (c.advance task w).2.database.store = Commit.applyAll made w.database.store := by
  cases task with
  | waiting info =>
    obtain ⟨w', hidles, ho⟩ := c.advance_waiting info w
    rw [ho]
    exact ⟨.of_idles hquiet hidles, Ingestion.verdict_ofPrepared .., [], (Ingestion.dues_ofPrepared ..).symm,
      congrArg Database.store hidles.database⟩
  | processing call =>
    obtain ⟨hquiet', made, hpending, hstore⟩ := call.step_pending hquiet
    refine ⟨⟨rfl, hquiet', fun _ => rfl⟩, ?_, made, ?_, hstore⟩
    · rw [Ingestion.verdict, ← call.verdict_step hquiet]
      exact Ingestion.verdict_ofCall ..
    · rw [Ingestion.dues, hpending]
      exact congrArg _ (Ingestion.dues_ofCall ..).symm
  | leaving outcome =>
    obtain ⟨w', hidles, ho⟩ := c.advance_leaving outcome w
    rw [ho]
    exact ⟨.of_idles hquiet hidles, rfl, [], rfl, congrArg Database.store hidles.database⟩
  | settled outcome => exact ⟨.of_quiet hquiet, rfl, [], rfl, rfl⟩

/-- An ingestion that is carried to its end while the store reports no failure comes to its verdict and commits its
dues. -/
theorem outcome_finish_of_quiet (c : Crawler) (task : Ingestion) {w : World} (hquiet : w.database.Quiet) :
    ∃ w', (c.finish task).outcome w = (task.verdict w.ledger c.address, w') ∧ w.Proceeds w' ∧
      w'.database.store = Commit.applyAll (task.dues w.ledger c.address) w.database.store := by
  have hend := carries (c := c) (P := fun task' w' => w.Proceeds w' ∧
    task'.verdict w.ledger c.address = task.verdict w.ledger c.address ∧ ∃ made,
      task.dues w.ledger c.address = made ++ task'.dues w.ledger c.address ∧
      w'.database.store = Commit.applyAll made w.database.store) ?_ task w ⟨.of_quiet hquiet, rfl, [], rfl, rfl⟩
  · obtain ⟨hproceeds, hverdict, made, hdues, hstore⟩ := hend
    rw [show Ingestion.dues _ _ (.settled _) = [] from rfl, List.append_nil] at hdues
    exact ⟨_, Prod.ext hverdict rfl, hproceeds, hdues ▸ hstore⟩
  · rintro task' w' ⟨hproceeds, hverdict, made, hdues, hstore⟩
    obtain ⟨hproceeds', hverdict', more, hdues', hstore'⟩ := c.advance_of_quiet task' hproceeds.quiet
    rw [hproceeds.ledger] at hverdict' hdues'
    refine ⟨hproceeds.trans hproceeds', hverdict'.trans hverdict, made ++ more, ?_, ?_⟩
    · rw [hdues, hdues', List.append_assoc]
    · rw [hstore', hstore, Commit.applyAll_append]

/-- What signatures are to commit that are ingested one after another while the store reports no failure. -/
def dues (c : Crawler) (l : RecordedLedger) (infos : List SignatureInfo) : List Commit :=
  infos.flatMap fun info => (Ingestion.waiting info).dues l c.address

theorem outcome_ingest_of_quiet (c : Crawler) (info : SignatureInfo) {w : World} (hquiet : w.database.Quiet) :
    ∃ w', (c.ingest info).outcome w = ((Ingestion.waiting info).verdict w.ledger c.address, w') ∧ w.Proceeds w' ∧
      w'.database.store = Commit.applyAll ((Ingestion.waiting info).dues w.ledger c.address) w.database.store :=
  c.outcome_finish_of_quiet (.waiting info) hquiet

/-- Ingestions of which only the first that has not settled has begun. -/
def OneByOne (tasks : List Ingestion) : Prop :=
  tasks.Pairwise fun earlier later => (∃ outcome, earlier = .settled outcome) ∨ later.isWaiting = true

/-- If only one signature may be ingested at a time, only the first ingestion goes on that has not settled. -/
theorem settled_of_mayAdvance (c : Crawler) (hone : c.concurrency ≤ 1) {before after : List Ingestion} {task : Ingestion}
    (hmay : c.MayAdvance before task after) (h : OneByOne (before ++ task :: after)) :
    ∀ earlier ∈ before, ∃ outcome, earlier = .settled outcome := by
  rcases hmay with hmay | hsettled
  · intro earlier hearlier
    rcases (List.pairwise_append.mp h).2.2 earlier hearlier task List.mem_cons_self with hdone | hwaiting
    · exact hdone
    · simp only [mayTurn, List.getElem?_append_right (Nat.le_refl _), Nat.sub_self, List.getElem?_cons_zero,
        Option.all_some, hwaiting, Bool.not_true, Bool.false_or, List.take_left, Bool.and_eq_true, List.all_eq_true,
        decide_eq_true_eq] at hmay
      have hnone : (before ++ task :: after).countP (·.isUnderWay) = 0 := by omega
      have hbegun := hmay.1 earlier hearlier
      have hidle := List.countP_eq_zero.mp hnone earlier (List.mem_append_left _ hearlier)
      cases earlier with
      | waiting info => cases hbegun
      | settled outcome => exact ⟨outcome, rfl⟩
      | processing | leaving => exact absurd rfl hidle
  · exact hsettled

theorem OneByOne.advance {c : Crawler} {before after : List Ingestion} {task : Ingestion} {w : World}
    (h : OneByOne (before ++ task :: after)) (hsettled : ∀ earlier ∈ before, ∃ outcome, earlier = .settled outcome) :
    OneByOne (before ++ (c.advance task w).1 :: after) := by
  obtain ⟨hbefore, hrest, -⟩ := List.pairwise_append.mp h
  obtain ⟨htask, hafter⟩ := List.pairwise_cons.mp hrest
  refine List.pairwise_append.mpr ⟨hbefore, List.pairwise_cons.mpr ⟨fun later hlater => ?_, hafter⟩,
    fun earlier hearlier _ _ => .inl (hsettled earlier hearlier)⟩
  rcases htask later hlater with ⟨outcome, rfl⟩ | hwaiting
  · exact .inl ⟨outcome, rfl⟩
  · exact .inr hwaiting

/-- Ingestions of a chunk that were begun in a world whose store reports no failure. What they committed and what is due
is a rearrangement of what was due at first, and in the same order if only one can go on at a time. -/
structure Outstanding (c : Crawler) (chunk : List SignatureInfo) (w : World) (tasks : List Ingestion) (w' : World) :
    Prop where
  proceeds : w.Proceeds w'
  verdicts : tasks.map (·.verdict w.ledger c.address) =
    chunk.map fun info => (Ingestion.waiting info).verdict w.ledger c.address
  commits : ∃ made, w'.database.store = Commit.applyAll made w.database.store ∧
    (made ++ tasks.flatMap (·.dues w.ledger c.address)).Perm (c.dues w.ledger chunk) ∧
    (c.concurrency ≤ 1 ∨ chunk.length ≤ 1 →
      OneByOne tasks ∧ made ++ tasks.flatMap (·.dues w.ledger c.address) = c.dues w.ledger chunk)

theorem Outstanding.advance {c : Crawler} {chunk : List SignatureInfo} {w w' : World} {before after : List Ingestion}
    {task : Ingestion} (hmay : c.MayAdvance before task after) (h : c.Outstanding chunk w (before ++ task :: after) w') :
    c.Outstanding chunk w (before ++ (c.advance task w').1 :: after) (c.advance task w').2 := by
  obtain ⟨hproceeds, hverdicts, made, hstore, hperm, horder⟩ := h
  obtain ⟨hproceeds', hverdict, more, hdues, hstore'⟩ := c.advance_of_quiet task hproceeds.quiet
  rw [hproceeds.ledger] at hverdict hdues
  refine ⟨hproceeds.trans hproceeds', ?_, made ++ more, ?_, ?_, fun hone => ?_⟩
  · rw [← hverdicts]
    simp only [List.map_append, List.map_cons, hverdict]
  · rw [hstore', hstore, Commit.applyAll_append]
  · refine .trans ?_ hperm
    simp only [List.flatMap_append, List.flatMap_cons, hdues, List.append_assoc]
    exact (List.perm_append_comm_assoc ..).append_left made
  · obtain ⟨hordered, heq⟩ := horder hone
    have hsettled : ∀ earlier ∈ before, ∃ outcome, earlier = .settled outcome := by
      rcases hone with hone | hshort
      · exact c.settled_of_mayAdvance hone hmay hordered
      · have hlength := congrArg List.length hverdicts
        simp only [List.length_map, List.length_append, List.length_cons] at hlength
        rw [List.length_eq_zero_iff.mp (by omega : before.length = 0)]
        exact List.forall_mem_nil _
    have hnone : before.flatMap (·.dues w.ledger c.address) = [] := by
      rw [List.flatMap_eq_nil_iff]
      intro earlier hearlier
      obtain ⟨outcome, rfl⟩ := hsettled earlier hearlier
      rfl
    refine ⟨hordered.advance hsettled, ?_⟩
    simpa only [List.flatMap_append, List.flatMap_cons, hnone, hdues, List.nil_append, List.append_assoc] using heq

/-- While the store reports no failure, a chunk comes to its verdicts whatever turns are taken, and commits its dues in
some order. -/
theorem ingestChunk_of_quiet (c : Crawler) (chunk : List SignatureInfo) {w : World} (hquiet : w.database.Quiet) :
    ∃ w' made, (c.ingestChunk chunk).outcome w =
        (allOrFirst (chunk.map fun info => (Ingestion.waiting info).verdict w.ledger c.address), w') ∧ w.Proceeds w' ∧
      w'.database.store = Commit.applyAll made w.database.store ∧ made.Perm (c.dues w.ledger chunk) ∧
      (c.concurrency ≤ 1 ∨ chunk.length ≤ 1 → made = c.dues w.ledger chunk) := by
  have hbegun : c.Outstanding chunk w (chunk.map .waiting) { w with turns := w.turns.tail } := by
    refine ⟨⟨rfl, hquiet, fun _ => rfl⟩, List.map_map, [], rfl, ?_, fun _ => ⟨?_, ?_⟩⟩
    · rw [List.nil_append, List.flatMap_map, dues]
    · exact List.pairwise_map.mpr (List.pairwise_of_forall fun _ _ => .inr rfl)
    · rw [List.nil_append, List.flatMap_map, dues]
  obtain ⟨outcomes, w', ho, hproceeds, hverdicts, made, hstore, hperm, horder⟩ :=
    ingestChunk_induction (fun _ _ _ _ => Outstanding.advance) chunk hbegun
  have hnone : (outcomes.map Ingestion.settled).flatMap (·.dues w.ledger c.address) = [] := by
    simp [List.flatMap_eq_nil_iff, Ingestion.dues]
  have houtcomes : (outcomes.map Ingestion.settled).map (·.verdict w.ledger c.address) = outcomes := by
    simp [Function.comp_def, Ingestion.verdict]
  rw [hnone, List.append_nil] at hperm horder
  rw [houtcomes] at hverdicts
  exact ⟨w', made, hverdicts ▸ ho, hproceeds, hstore, hperm, fun hone => (horder hone).2⟩

theorem turn_second (c : Crawler) (htwo : 2 ≤ c.concurrency) {first : Ingestion} (hbegun : first.isWaiting = false)
    (task : Ingestion) (w : World) :
    c.turn [first, task] w 1 = ([first, (c.advance task w).1], (c.advance task w).2) := by
  have hmay : c.mayTurn [first, task] 1 = true := by
    cases task with
    | waiting info =>
      have hcount : [first, Ingestion.waiting info].countP (·.isUnderWay) ≤ 1 := by
        have hidle : (Ingestion.waiting info).isUnderWay = false := rfl
        rw [List.countP_cons, List.countP_singleton, hidle]
        cases first.isUnderWay <;> simp
      have hroom := Nat.lt_of_le_of_lt hcount htwo
      simp [mayTurn, hbegun, hroom]
    | processing | leaving | settled => rfl
  simp only [turn, List.getElem?_cons_succ, List.getElem?_cons_zero, hmay, if_true]
  rfl

/-- Once the first of two ingestions has begun, the second may take all turns until it settles. -/
theorem exists_turns_second (c : Crawler) (htwo : 2 ≤ c.concurrency) {first : Ingestion}
    (hbegun : first.isWaiting = false) (task : Ingestion) (w : World) :
    ∃ turns : List Nat, turns.foldl (fun now place => c.turn now.1 now.2 place) ([first, task], w) =
      ([first, .settled ((c.finish task).outcome w).1], ((c.finish task).outcome w).2) := by
  refine carries (P := fun task' w' => ∃ turns : List Nat, turns.foldl (fun now place => c.turn now.1 now.2 place)
    ([first, task], w) = ([first, task'], w')) ?_ task w ⟨[], rfl⟩
  rintro task' w' ⟨turns, hturns⟩
  refine ⟨turns ++ [1], ?_⟩
  rw [List.foldl_append, hturns]
  exact c.turn_second htwo hbegun task' w'

/-- If two signatures may be ingested at a time, the second may overtake the first. -/
theorem exists_turns_overtaking (c : Crawler) (htwo : 2 ≤ c.concurrency) (info info' : SignatureInfo) {w : World}
    (hquiet : w.database.Quiet) :
    ∃ turns, ((c.ingestChunk [info, info']).outcome { w with turns := [turns] }).2.database.store =
      Commit.applyAll (c.dues w.ledger [info', info]) w.database.store := by
  have hbegun : ∀ prepared, (Ingestion.ofPrepared prepared).isWaiting = false := by
    rintro (failure | _ | tx) <;> rfl
  obtain ⟨w₁, hidles, hadvance⟩ := c.advance_waiting info { w with turns := [] }
  have hledger : w₁.ledger = w.ledger := hidles.ledger
  have hdatabase : w₁.database = w.database := hidles.database
  have hquiet₁ : w₁.database.Quiet := hdatabase ▸ hquiet
  obtain ⟨turns, hturns⟩ := c.exists_turns_second htwo (hbegun (w.ledger.prepared c.address info)) (.waiting info') w₁
  obtain ⟨w₂, ho, hproceeds, hstore⟩ := c.outcome_finish_of_quiet (.waiting info') hquiet₁
  obtain ⟨w₃, ho', -, hstore'⟩ :=
    c.outcome_finish_of_quiet (.ofPrepared (w.ledger.prepared c.address info)) hproceeds.quiet
  have hmay : c.mayTurn [.waiting info, .waiting info'] 0 = true := by
    simp [mayTurn, Ingestion.isUnderWay, Nat.lt_of_lt_of_le Nat.two_pos htwo]
  have hturn : c.turn [.waiting info, .waiting info'] { w with turns := [] } 0 =
      ([.ofPrepared (w.ledger.prepared c.address info), .waiting info'], w₁) := by
    simp only [turn, List.getElem?_cons_zero, hmay, if_true, hadvance]
    rfl
  have hfold : (0 :: turns).foldl (fun now place => c.turn now.1 now.2 place)
      ([.waiting info, .waiting info'], { w with turns := [] }) =
        ([.ofPrepared (w.ledger.prepared c.address info), .settled ((c.finish (.waiting info')).outcome w₁).1], w₂) := by
    rw [List.foldl_cons, hturn, hturns, ho]
  have hrest : ∀ result, Attempt.outcome ([.ofPrepared (w.ledger.prepared c.address info), .settled result].mapM
      fun task => (c.finish task).settle) w₂ =
        (.ok [(Ingestion.ofPrepared (w.ledger.prepared c.address info)).verdict w₂.ledger c.address, result], w₃) := by
    intro result
    have hsettled : (c.finish (.settled result)).settle.outcome w₃ = (.ok result, w₃) :=
      Attempt.outcome_settle_of_eq (Attempt.outcome_ofExcept result w₃)
    rw [List.mapM_cons, Attempt.outcome_bind_of_ok (Attempt.outcome_settle_of_eq ho'), List.mapM_cons, bind_assoc,
      Attempt.outcome_bind_of_ok hsettled]
    rfl
  have hchunk := outcome_ingestChunk_of_finish (c := c) [info, info'] (w := { w with turns := [0 :: turns] }) hfold
    (hrest _)
  refine ⟨0 :: turns, ?_⟩
  rw [hchunk, hstore', hstore, hproceeds.ledger, hledger, hdatabase, Ingestion.dues_ofPrepared,
    ← Commit.applyAll_append]
  simp only [dues, List.flatMap_cons, List.flatMap_nil, List.append_nil]

end Crawler
end PairIndex
