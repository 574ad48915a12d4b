import PairIndex.Proofs.Crawl.Answers
import PairIndex.Proofs.Crawl.Coupling

/-! Crawls of different addresses keep apart. What a crawl comes to depends on how far its own address was crawled and on
the ledger, but neither on the other rows of the store nor on how far other addresses were crawled, of which it leaves all
as it is (`World.coupling_twins`). -/

namespace PairIndex

def Store.progress? (s : Store) (address : String) : Option (Option String × Option String × Int) :=
  (s.watermarks.find? address).map (·.progress)

/-! ## Stores -/

/-- A later store in which nothing has changed of the progress of other addresses. -/
def Store.Spares (address : String) (s s' : Store) : Prop :=
  ∀ other, other ≠ address → s'.progress? other = s.progress? other

/-- A session that does the same in stores with the same progress of an address, and leaves other addresses alone. -/
def Session.Local {α : Type} (address : String) (V : α → α → Prop) (session : Session α) : Prop :=
  ∀ s t : Store, s.progress? address = t.progress? address →
    (∃ failure, session.run s = .error failure ∧ session.run t = .error failure) ∨
      ∃ a s' b t', session.run s = .ok (a, s') ∧ session.run t = .ok (b, t') ∧ V a b ∧
        s'.progress? address = t'.progress? address ∧ s.Spares address s' ∧ t.Spares address t'

namespace WatermarkRow

/-- How far a moved watermark stands depends on how far it stood. -/
theorem progress_moveTo {r r' : WatermarkRow} (h : r.progress = r'.progress) (signature first : String) (slot : Int) :
    ((r.moveTo signature slot).beginAt first).progress = ((r'.moveTo signature slot).beginAt first).progress := by
  simp only [progress, Prod.mk.injEq] at h
  obtain ⟨hlatest, hfirst, hslot⟩ := h
  rw [moveTo, moveTo, hslot]
  split <;> simp only [beginAt, hfirst] <;> cases hr : r'.firstSignature <;> simp [progress, *]

theorem map_progress_moveTo {row? row?' : Option WatermarkRow} (h : row?.map (·.progress) = row?'.map (·.progress))
    (signature first : String) (slot : Int) :
    (row?.map fun row => (row.moveTo signature slot).beginAt first).map (·.progress) =
      (row?'.map fun row => (row.moveTo signature slot).beginAt first).map (·.progress) := by
  rcases row? with _ | row <;> rcases row?' with _ | row'
  · rfl
  · cases h
  · cases h
  · exact congrArg some (progress_moveTo (Option.some.inj h) signature first slot)

end WatermarkRow

namespace Session

theorem local_watermark? (account : String) :
    (watermark? account).Local account fun r r' => r.map (·.progress) = r'.map (·.progress) :=
  fun s t h => .inr ⟨_, s, _, t, rfl, rfl, h, h, fun _ _ => rfl, fun _ _ => rfl⟩

/-- Opening a watermark gives the row that the address has or a fresh one, and adds no other row. -/
theorem progress?_openWatermark (account description : String) (s : Store) :
    ∃ row s', (openWatermark account description).run s = .ok (row, s') ∧
      row.progress = (s.progress? account).getD ({ account : WatermarkRow }).progress ∧
      s'.progress? account = some row.progress ∧ s.Spares account s' := by
  have hfind := Table.find?_insertNew s.watermarks { account, description }
  have hfound := (hfind account).trans (if_pos rfl)
  refine ⟨_, _, rfl, ?_, ?_, fun other hne => ?_⟩
  · rw [hfound, Option.getD_some, Store.progress?]
    exact (Option.getD_map WatermarkRow.progress { account, description } _).symm
  · rw [Store.progress?, hfound, Option.getD_some, Option.map_some]
  · rw [Store.progress?, (hfind other).trans (if_neg (Ne.symm hne)), Store.progress?]

theorem local_openWatermark (account description : String) :
    (openWatermark account description).Local account fun r r' => r.progress = r'.progress := by
  intro s t h
  obtain ⟨row, s', hrun, hrow, hopened, hspares⟩ := progress?_openWatermark account description s
  obtain ⟨row', t', hrun', hrow', hopened', hspares'⟩ := progress?_openWatermark account description t
  have hsame : row.progress = row'.progress := by rw [hrow, hrow', h]
  exact .inr ⟨row, s', row', t', hrun, hrun', hsame, by rw [hopened, hopened', hsame], hspares, hspares'⟩

theorem local_advanceWatermark (account signature : String) (slot : Int) (first : Option String) :
    (advanceWatermark account signature slot first).Local account fun _ _ => True := by
  intro s t h
  by_cases hfits : fitsColumn slot = true
  · obtain ⟨moved, s', hrun, hfind, hother⟩ := find?_advanceWatermark account signature first s hfits
    obtain ⟨moved', t', hrun', hfind', hother'⟩ := find?_advanceWatermark account signature first t hfits
    refine .inr ⟨moved, s', moved', t', hrun, hrun', trivial, ?_, fun other hne => ?_, fun other hne => ?_⟩
    · rw [Store.progress?, hfind, Store.progress?, hfind']
      exact WatermarkRow.map_progress_moveTo h signature (firstOf signature first) slot
    · rw [Store.progress?, hother other hne, Store.progress?]
    · rw [Store.progress?, hother' other hne, Store.progress?]
  · exact .inl ⟨columnOverflow, run_advanceWatermark_of_not_fits account signature first s hfits,
      run_advanceWatermark_of_not_fits account signature first t hfits⟩

end Session
/-! ## Databases -/

/-- Two databases without failures to come that agree on the progress of an address, and are later than given ones that
may differ from them in the progress of that address only. -/
structure Database.Twins (address : String) (d₀ e₀ d e : Database) : Prop where
  quiet : d.Quiet
  quiet' : e.Quiet
  progress : d.store.progress? address = e.store.progress? address
  spares : d₀.store.Spares address d.store
  spares' : e₀.store.Spares address e.store

theorem Store.progress?_of_watermarks {s s' : Store} (h : s'.watermarks = s.watermarks) (address : String) :
    s'.progress? address = s.progress? address := by
  rw [progress?, progress?, h]

namespace Store.Spares

variable {address : String} {s s' s'' : Store}

theorem of_watermarks (h : s'.watermarks = s.watermarks) : s.Spares address s' :=
  fun other _ => progress?_of_watermarks h other

theorem trans (h : s.Spares address s') (h' : s'.Spares address s'') : s.Spares address s'' :=
  fun other hne => (h' other hne).trans (h other hne)

end Store.Spares

namespace Database

open Attempt (Coupled)

variable {address : String} {d₀ e₀ d e d' e' : Database}

theorem Twins.of_watermarks (h : Twins address d₀ e₀ d e) (hd : d'.store.watermarks = d.store.watermarks)
    (he : e'.store.watermarks = e.store.watermarks) (hquiet : d'.Quiet) (hquiet' : e'.Quiet) :
    Twins address d₀ e₀ d' e' where
  quiet := hquiet
  quiet' := hquiet'
  progress := by rw [Store.progress?_of_watermarks hd, Store.progress?_of_watermarks he, h.progress]
  spares := h.spares.trans (.of_watermarks hd)
  spares' := h.spares'.trans (.of_watermarks he)

theorem outcome_session_of_quiet {α : Type} (session : Session α) (h : d.Quiet) :
    (Database.session session).outcome d =
      match session.run d.store with
      | .ok (a, store) => (.ok a, { store, outlook := d.outlook.tail })
      | .error failure => (.error failure, { d with outlook := d.outlook.tail }) := by
  have hnone : d.outlook.head?.join = none := h.nextFault
  have htransact : (Database.session session).outcome d = transact session d := rfl
  rw [htransact]
  cases hrun : session.run d.store <;> simp only [transact, hnone, hrun]

theorem coupled_session {α : Type} {V : α → α → Prop} {session : Session α} (h : session.Local address V) :
    Coupled (Twins address d₀ e₀) V (Database.session session) (Database.session session) := by
  intro d e htwins
  rw [outcome_session_of_quiet session htwins.quiet, outcome_session_of_quiet session htwins.quiet']
  rcases h d.store e.store htwins.progress with
    ⟨failure, hrun, hrun'⟩ | ⟨a, s, b, t, hrun, hrun', hv, hprogress, hspares, hspares'⟩
  · rw [hrun, hrun']
    exact ⟨.error failure, htwins.of_watermarks rfl rfl (htwins.quiet.tail _) (htwins.quiet'.tail _)⟩
  · rw [hrun, hrun']
    exact ⟨.ok hv, htwins.quiet.tail s, htwins.quiet'.tail t, hprogress, htwins.spares.trans hspares,
      htwins.spares'.trans hspares'⟩

end Database

/-! ## Worlds -/

/-- Switches that only let calls fail: no page is made up, and no stop is asked for. -/
structure LedgerSwitches.OnlyFaults (switches : LedgerSwitches) : Prop where
  pages : switches.pages = none
  stopOnPage : switches.stopOnPage = none
  stopOnFetch : switches.stopOnFetch = none

/-- Two worlds that look the same to the crawls of an address, and are later than given ones of which they may differ in
the progress of that address only. -/
structure World.Twins (address : String) (w₀ v₀ w v : World) : Prop where
  ledger : w.ledger = w₀.ledger
  sameLedger : v.ledger = w.ledger
  stopped : w.stopped = w₀.stopped
  sameStopped : v.stopped = w.stopped
  pageCalls : v.pageCalls = w.pageCalls
  database : Database.Twins address w₀.database v₀.database w.database v.database

namespace World

open Attempt (Coupled)

variable {address : String} {w₀ v₀ : World}

theorem coupled_onDatabase {α : Type} {V : α → α → Prop} {x y : Attempt Database α}
    (h : Coupled (Database.Twins address w₀.database v₀.database) V x y) :
    Coupled (Twins address w₀ v₀) V (onDatabase x) (onDatabase y) := by
  intro w v htwins
  obtain ⟨hmatches, hdatabase⟩ := h _ _ htwins.database
  exact ⟨hmatches, { htwins with database := hdatabase }⟩

theorem coupled_session {α : Type} {V : α → α → Prop} {session : Session α} (h : session.Local address V) :
    Coupled (Twins address w₀ v₀) V (World.session session) (World.session session) :=
  coupled_onDatabase (Database.coupled_session h)

theorem coupled_sleep (seconds : Rat) : Coupled (Twins address w₀ v₀) Eq (sleep seconds) (sleep seconds) :=
  .change fun _ _ htwins => { htwins with }

/-- What ingesting a chunk comes to does not depend on what is stored, nor on the turns that are taken. -/
theorem coupled_ingestChunk (hfaults : w₀.ledger.switches.OnlyFaults) (c : Crawler) (chunk : List SignatureInfo) :
    Coupled (Twins address w₀ v₀) Eq (c.ingestChunk chunk) (c.ingestChunk chunk) := by
  intro w v htwins
  have hnone : w.ledger.switches.stopOnFetch = none := htwins.ledger ▸ hfaults.stopOnFetch
  have hpages := c.pageCalls_ingestChunk chunk w
  have hpages' := c.pageCalls_ingestChunk chunk v
  obtain ⟨w', made, ho, hproceeds, hstore, -⟩ := c.ingestChunk_of_quiet chunk htwins.database.quiet
  obtain ⟨v', made', ho', hproceeds', hstore', -⟩ := c.ingestChunk_of_quiet chunk htwins.database.quiet'
  rw [htwins.sameLedger] at ho'
  rw [ho] at hpages ⊢
  rw [ho'] at hpages' ⊢
  refine ⟨.refl _, ?_⟩
  exact {
    ledger := hproceeds.ledger.trans htwins.ledger
    sameLedger := by rw [hproceeds'.ledger, hproceeds.ledger, htwins.sameLedger]
    stopped := (hproceeds.goingOn hnone).trans htwins.stopped
    sameStopped := by
      rw [hproceeds'.goingOn (htwins.sameLedger ▸ hnone), hproceeds.goingOn hnone, htwins.sameStopped]
    pageCalls := by rw [hpages, hpages', htwins.pageCalls]
    database := htwins.database.of_watermarks (by rw [hstore, Commit.watermarks_applyAll])
      (by rw [hstore', Commit.watermarks_applyAll]) hproceeds.quiet hproceeds'.quiet }

theorem coupled_page (hfaults : w₀.ledger.switches.OnlyFaults) (request : PageRequest) :
    Coupled (Twins address w₀ v₀) Eq (page request) (page request) := by
  rw [page]
  refine .bind_eq (.change fun _ _ htwins => { htwins with pageCalls := congrArg (· + 1) htwins.pageCalls }) fun _ =>
    .bind .get fun w v htwins => ?_
  rw [htwins.sameLedger, htwins.ledger, htwins.pageCalls]
  simp only [hfaults.stopOnPage, RecordedLedger.page_of_history hfaults.pages, reduceCtorEq, if_false]
  split
  · exact (Coupled.throw (V := fun _ _ => False) _).bind fun _ _ h => h.elim
  · refine .bind_eq (.change fun _ _ htwins => { htwins with ledger := rfl, sameLedger := rfl }) fun _ => ?_
    cases w₀.ledger.startOf request.address request.before with
    | none => exact .throw _
    | some start => exact .pure rfl

/-- Worlds that look the same to the crawls of an address go on to do so, and other addresses stay as they are. -/
theorem coupling_twins (hfaults : w₀.ledger.switches.OnlyFaults) : Coupling address (Twins address w₀ v₀) where
  stopped := Twins.sameStopped
  ledger := Twins.sameLedger
  sleep := coupled_sleep
  page := coupled_page hfaults
  ingestChunk c _ := coupled_ingestChunk hfaults c
  look := coupled_session (Session.local_watermark? address)
  start description := coupled_session (Session.local_openWatermark address description)
  advance signature slot first := coupled_session (Session.local_advanceWatermark address signature slot first)

end World
end PairIndex
