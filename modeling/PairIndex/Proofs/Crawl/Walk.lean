import Mathlib.Data.List.Nodup
import PairIndex.Crawl.Walk
import PairIndex.Proofs.Attempt

/-! What a walk of the signature index collects. Page by page it looks at the same entries as one scan of the whole
index (`Paging.outcome_walk`), and what a scan keeps lies in one piece of the index (`WalkBounds.scan_split`). -/

namespace PairIndex

namespace Attempt

variable {σ α : Type}

/-- An attempt whose failure is handed back as a value goes through. -/
theorem outcome_settle (x : Attempt σ α) (s : σ) : x.settle.outcome s = (.ok (x.outcome s).1, (x.outcome s).2) :=
  outcome_lift_run x s

theorem outcome_settle_of_eq {x : Attempt σ α} {s s' : σ} {result : Except Failure α}
    (h : x.outcome s = (result, s')) : x.settle.outcome s = (.ok result, s') := by
  rw [outcome_settle, h]

end Attempt

/-! ## Scans -/

namespace WalkBounds

/-- Why nothing below what was scanned belongs to a walk. -/
def Ends (b : WalkBounds) : PageEnd → List SignatureInfo → Prop
  | .exhausted, below => below = []
  | .reachedUntil, below => ∃ info rest, below = info :: rest ∧ b.stopAt = some info.signature
  | .belowFromSlot, below => ∃ info rest slot, below = info :: rest ∧ b.fromSlot = some slot ∧ info.slot < slot

theorem scan_cons (b : WalkBounds) (info : SignatureInfo) (rest : List SignatureInfo) :
    b.scan (info :: rest) =
      if b.stopAt = some info.signature then ([], .reachedUntil)
      else if b.fromSlot.any (fun slot => decide (info.slot < slot)) then ([], .belowFromSlot)
      else if b.toSlot.any (fun slot => decide (slot < info.slot)) then b.scan rest
      else (info :: (b.scan rest).1, (b.scan rest).2) := by
  rw [scan]

/-- A scan that came to the end of a page goes on with what follows the page. -/
theorem scan_append_of_exhausted {b : WalkBounds} {page : List SignatureInfo} (h : (b.scan page).2 = .exhausted)
    (rest : List SignatureInfo) :
    b.scan (page ++ rest) = ((b.scan page).1 ++ (b.scan rest).1, (b.scan rest).2) := by
  induction page with
  | nil => rfl
  | cons info page ih =>
    rw [scan_cons] at h
    rw [List.cons_append, scan_cons, scan_cons]
    by_cases hstop : b.stopAt = some info.signature
    · simp [hstop] at h
    · by_cases hbelow : b.fromSlot.any (fun slot => decide (info.slot < slot)) = true
      · simp [hstop, hbelow] at h
      · simp only [if_neg hstop, if_neg hbelow] at h ⊢
        by_cases habove : b.toSlot.any (fun slot => decide (slot < info.slot)) = true
        · simp only [if_pos habove] at h ⊢
          exact ih h
        · simp only [if_neg habove] at h ⊢
          rw [ih h, List.cons_append]

/-- A scan that ended on a page does not look at what follows the page. -/
theorem scan_append_of_ne {b : WalkBounds} {page : List SignatureInfo} (h : (b.scan page).2 ≠ .exhausted)
    (rest : List SignatureInfo) : b.scan (page ++ rest) = b.scan page := by
  induction page with
  | nil => exact absurd rfl h
  | cons info page ih =>
    rw [scan_cons] at h
    rw [List.cons_append, scan_cons, scan_cons]
    by_cases hstop : b.stopAt = some info.signature
    · simp only [if_pos hstop]
    · by_cases hbelow : b.fromSlot.any (fun slot => decide (info.slot < slot)) = true
      · simp only [if_neg hstop, if_pos hbelow]
      · simp only [if_neg hstop, if_neg hbelow] at h ⊢
        by_cases habove : b.toSlot.any (fun slot => decide (slot < info.slot)) = true
        · simp only [if_pos habove] at h ⊢
          exact ih h
        · simp only [if_neg habove] at h ⊢
          rw [ih h]

/-- A scan that came to the end of a page did not meet the signature to stop at. -/
theorem stopAt_ne_of_exhausted {b : WalkBounds} {page : List SignatureInfo} (h : (b.scan page).2 = .exhausted)
    {info : SignatureInfo} (hinfo : info ∈ page) : b.stopAt ≠ some info.signature := by
  induction page with
  | nil => cases hinfo
  | cons first page ih =>
    rw [scan_cons] at h
    by_cases hstop : b.stopAt = some first.signature
    · simp [hstop] at h
    · by_cases hbelow : b.fromSlot.any (fun slot => decide (first.slot < slot)) = true
      · simp [hstop, hbelow] at h
      · simp only [if_neg hstop, if_neg hbelow] at h
        have hpage : (b.scan page).2 = .exhausted := by
          by_cases habove : b.toSlot.any (fun slot => decide (slot < first.slot)) = true
          · simpa only [if_pos habove] using h
          · simpa only [if_neg habove] using h
        rcases List.mem_cons.mp hinfo with rfl | hrest
        · exact hstop
        · exact ih hpage hrest

/-- A scan keeps entries in their order. -/
theorem scan_sublist (b : WalkBounds) (infos : List SignatureInfo) : (b.scan infos).1.Sublist infos := by
  induction infos with
  | nil => exact .slnil
  | cons info rest ih =>
    rw [scan_cons]
    split
    · exact List.nil_sublist _
    · split
      · exact List.nil_sublist _
      · split
        · exact ih.cons info
        · exact ih.cons_cons info

/-- What a scan keeps lies in one piece: above it are entries above the slot bound, and below it is
what ended the scan. -/
theorem scan_split (b : WalkBounds) {infos : List SignatureInfo} (h : infos.Pairwise fun x y => y.slot ≤ x.slot) :
    ∃ above below, infos = above ++ (b.scan infos).1 ++ below ∧ b.Ends (b.scan infos).2 below ∧
      ∀ x ∈ above, ∃ slot, b.toSlot = some slot ∧ slot < x.slot := by
  induction infos with
  | nil => exact ⟨[], [], rfl, rfl, fun x hx => nomatch hx⟩
  | cons info rest ih =>
    obtain ⟨hfirst, hrest⟩ := List.pairwise_cons.mp h
    obtain ⟨above, below, heq, hends, habove⟩ := ih hrest
    rw [scan_cons]
    by_cases hstop : b.stopAt = some info.signature
    · rw [if_pos hstop]
      exact ⟨[], info :: rest, rfl, ⟨info, rest, rfl, hstop⟩, fun x hx => nomatch hx⟩
    · rw [if_neg hstop]
      by_cases hbelow : b.fromSlot.any (fun slot => decide (info.slot < slot)) = true
      · rw [if_pos hbelow]
        obtain ⟨slot, hslot, hlt⟩ := (Option.any_eq_true ..).mp hbelow
        exact ⟨[], info :: rest, rfl, ⟨info, rest, slot, rfl, hslot, by simpa using hlt⟩, fun x hx => nomatch hx⟩
      · rw [if_neg hbelow]
        by_cases hskip : b.toSlot.any (fun slot => decide (slot < info.slot)) = true
        · rw [if_pos hskip]
          obtain ⟨slot, hslot, hlt⟩ := (Option.any_eq_true ..).mp hskip
          refine ⟨info :: above, below, ?_, hends, fun x hx => ?_⟩
          · exact congrArg (info :: ·) heq
          · rcases List.mem_cons.mp hx with rfl | hx
            · exact ⟨slot, hslot, by simpa using hlt⟩
            · exact habove x hx
        · rw [if_neg hskip]
          -- Slots only fall from here on, so that nothing more is skipped.
          have hnone : above = [] := by
            rcases above with _ | ⟨x, above⟩
            · rfl
            · obtain ⟨slot, hslot, hlt⟩ := habove x List.mem_cons_self
              have hx : x ∈ rest := by
                rw [heq]
                simp
              have hle := hfirst x hx
              simp only [hslot, Option.any_some, decide_eq_true_eq] at hskip
              omega
          subst hnone
          exact ⟨[], below, congrArg (info :: ·) heq, hends, fun x hx => nomatch hx⟩

end WalkBounds

/-! ## Pages -/

/-- A page is a piece of the index from its first entry on. It ends with the index, or where the walk is to stop, or
when it is full. -/
theorem pageFrom_split (stopAt : Option String) (inclusive : Bool) (limit : Int) (infos : List SignatureInfo) :
    ∃ rest, infos = pageFrom stopAt inclusive limit infos ++ rest ∧
      (rest = [] ∨ (∃ info others, rest = info :: others ∧ stopAt = some info.signature) ∨
        (∃ info ∈ pageFrom stopAt inclusive limit infos, stopAt = some info.signature) ∨
        (pageFrom stopAt inclusive limit infos ≠ [] ∧ limit ≤ (pageFrom stopAt inclusive limit infos).length)) := by
  induction infos generalizing limit with
  | nil => exact ⟨[], rfl, Or.inl rfl⟩
  | cons info infos ih =>
    rw [pageFrom]
    by_cases hstop : stopAt = some info.signature
    · rw [if_pos hstop]
      cases inclusive with
      | true => exact ⟨infos, rfl, Or.inr (Or.inr (Or.inl ⟨info, by simp, hstop⟩))⟩
      | false => exact ⟨info :: infos, rfl, Or.inr (Or.inl ⟨info, infos, rfl, hstop⟩)⟩
    · rw [if_neg hstop]
      by_cases hlimit : limit ≤ 1
      · rw [if_pos hlimit]
        exact ⟨infos, rfl, Or.inr (Or.inr (Or.inr ⟨by simp, by simpa using hlimit⟩))⟩
      · rw [if_neg hlimit]
        obtain ⟨rest, heq, hend⟩ := ih (limit - 1)
        refine ⟨rest, congrArg (info :: ·) heq, ?_⟩
        rcases hend with hnil | hhead | ⟨x, hx, hxstop⟩ | ⟨-, hfull⟩
        · exact Or.inl hnil
        · exact Or.inr (Or.inl hhead)
        · exact Or.inr (Or.inr (Or.inl ⟨x, List.mem_cons_of_mem _ hx, hxstop⟩))
        · refine Or.inr (Or.inr (Or.inr ⟨by simp, ?_⟩))
          simp only [List.length_cons, Int.natCast_succ]
          omega

/-- Nothing is to be looked at below an entry to stop at or the end of the index. -/
theorem WalkBounds.scan_of_stop {b : WalkBounds} {rest : List SignatureInfo}
    (h : rest = [] ∨ ∃ info others, rest = info :: others ∧ b.stopAt = some info.signature) :
    (b.scan rest).1 = [] ∧ (b.scan rest).2 ≠ .belowFromSlot := by
  rcases h with rfl | ⟨info, others, rfl, hstop⟩
  · exact ⟨rfl, nofun⟩
  · rw [WalkBounds.scan_cons, if_pos hstop]
    exact ⟨rfl, nofun⟩

/-- A page that was looked at to its end and is not full is the last that a walk needs. -/
theorem WalkBounds.scan_of_short_page {b : WalkBounds} {inclusive : Bool} {limit : Int}
    {infos page : List SignatureInfo} (hpage : page = pageFrom b.stopAt inclusive limit infos)
    (hend : (b.scan page).2 = .exhausted) (hshort : page = [] ∨ page.length < limit) :
    (b.scan infos).1 = (b.scan page).1 ∧ (b.scan infos).2 ≠ .belowFromSlot := by
  obtain ⟨rest, heq, hrest⟩ := pageFrom_split b.stopAt inclusive limit infos
  rw [← hpage] at heq hrest
  have hstop : rest = [] ∨ ∃ info others, rest = info :: others ∧ b.stopAt = some info.signature := by
    rcases hrest with hnil | hhead | ⟨info, hinfo, hmet⟩ | ⟨hne, hfull⟩
    · exact Or.inl hnil
    · exact Or.inr hhead
    · exact absurd hmet (stopAt_ne_of_exhausted hend hinfo)
    · rcases hshort with hnil | hlt
      · exact absurd hnil hne
      · omega
  obtain ⟨hkept, hbelow⟩ := scan_of_stop hstop
  rw [heq, scan_append_of_exhausted hend, hkept, List.append_nil]
  exact ⟨rfl, hbelow⟩

/-- What a page request finds on the index of its address that it starts from. -/
def RecordedLedger.startOf (l : RecordedLedger) (address : String) : Option String → Option (List SignatureInfo)
  | none => some (l.index address)
  | some signature => RecordedLedger.olderThan? signature (l.index address)

theorem RecordedLedger.page_of_history {l : RecordedLedger} (h : l.switches.pages = none) (request : PageRequest) :
    l.page request =
      (match l.startOf request.address request.before with
        | none => .error unknownSignature
        | some start => .ok (pageFrom request.stopAt l.switches.inclusiveUntil request.limit start), l) := by
  rw [page, h]
  cases request.before with
  | none => rfl
  | some signature => cases hstart : olderThan? signature (l.index request.address) <;> simp [startOf, hstart]

/-- Worlds with the same database and the same ledger. -/
structure World.Alike (w w' : World) : Prop where
  database : w'.database = w.database
  ledger : w'.ledger = w.ledger

theorem World.Alike.refl (w : World) : w.Alike w :=
  ⟨rfl, rfl⟩

theorem World.Alike.trans {w w' w'' : World} (h : w.Alike w') (h' : w'.Alike w'') : w.Alike w'' :=
  ⟨h'.database.trans h.database, h'.ledger.trans h.ledger⟩

/-- Asking for a page fails, or gives the page that the ledger has; the ledger stays as it is if it
answers from its history. -/
theorem World.outcome_page (request : PageRequest) {w : World} (h : w.ledger.switches.pages = none) :
    w.Alike ((World.page request).outcome w).2 ∧
      ((∃ failure, ((World.page request).outcome w).1 = .error failure) ∨
        ((World.page request).outcome w).1 = (w.ledger.page request).1) := by
  simp only [World.page, Attempt.outcome_bind, Attempt.outcome_modify, Attempt.outcome_get,
    RecordedLedger.page_of_history h]
  by_cases hfail : w.ledger.switches.failPages = true ∨
      w.ledger.switches.failPageAt = some ((w.pageCalls + 1 : Nat) : Int)
  · rw [if_pos hfail]
    exact ⟨⟨rfl, rfl⟩, Or.inl ⟨_, rfl⟩⟩
  · rw [if_neg hfail]
    by_cases hstop : w.ledger.switches.stopOnPage = some ((w.pageCalls + 1 : Nat) : Int)
    · rw [if_pos hstop]
      cases w.ledger.startOf request.address request.before <;> exact ⟨⟨rfl, rfl⟩, Or.inr rfl⟩
    · rw [if_neg hstop]
      cases w.ledger.startOf request.address request.before <;> exact ⟨⟨rfl, rfl⟩, Or.inr rfl⟩

namespace RecordedLedger

variable {l : RecordedLedger} {address : String}

theorem mem_of_mem_historyOf {tx : LedgerTransaction} (h : tx ∈ l.historyOf address) : tx ∈ l.history :=
  List.mem_of_mem_filter h

/-- What the index of an address lists stands in the order of the history. -/
theorem historyOf_sublist (l : RecordedLedger) (address : String) : (l.historyOf address).Sublist l.history :=
  List.filter_sublist

theorem nodup_historyOf (h : (l.history.map (·.signature)).Nodup) (address : String) :
    ((l.historyOf address).map (·.signature)).Nodup :=
  h.sublist ((l.historyOf_sublist address).map _)

/-- The index of an address that lists all signatures lists all of the history. -/
theorem historyOf_of_lists (h : ∀ signature, l.lists address signature = true) : l.historyOf address = l.history :=
  List.filter_eq_self.mpr fun tx _ => h tx.signature

/-- The index of an address goes on as the history does, as long as it lists the same signatures. -/
theorem historyOf_prefix {l' : RecordedLedger} (h : l.history <+: l'.history) (hlists : l'.lists = l.lists)
    (address : String) : l.historyOf address <+: l'.historyOf address := by
  rw [historyOf, historyOf, hlists]
  exact h.filter _

theorem length_index_lt (l : RecordedLedger) (address : String) : (l.index address).length < l.pageBound := by
  have hle := (l.historyOf_sublist address).length_le
  rw [index, List.length_reverse, List.length_map, pageBound]
  omega

theorem nodup_index (h : ((l.historyOf address).map (·.signature)).Nodup) :
    ((l.index address).map (·.signature)).Nodup := by
  rw [index, List.map_reverse, List.nodup_reverse, List.map_map]
  exact h

theorem olderThan?_append {front rest : List SignatureInfo} {last : SignatureInfo}
    (h : ∀ info ∈ front, info.signature ≠ last.signature) :
    olderThan? last.signature (front ++ last :: rest) = some rest := by
  rw [olderThan?, List.dropWhile_append_of_pos (by simpa using h)]
  simp

theorem exists_append_of_startOf {before : Option String} {infos : List SignatureInfo}
    (h : l.startOf address before = some infos) : ∃ front, l.index address = front ++ infos := by
  cases before with
  | none =>
    cases h
    exact ⟨[], rfl⟩
  | some signature =>
    rw [startOf, olderThan?] at h
    have hsplit := List.takeWhile_append_dropWhile (p := (·.signature != signature)) (l := l.index address)
    cases hrest : (l.index address).dropWhile (·.signature != signature) with
    | nil => simp [hrest] at h
    | cons first rest =>
      rw [hrest] at h hsplit
      cases h
      exact ⟨(l.index address).takeWhile (·.signature != signature) ++ [first], by simpa using hsplit.symm⟩

/-- The page after one that ends with `last` starts below it. -/
theorem startOf_last (hdistinct : ((l.index address).map (·.signature)).Nodup) {before : Option String}
    {page rest : List SignatureInfo} {last : SignatureInfo} (h : l.startOf address before = some (page ++ rest))
    (hlast : page.getLast? = some last) : l.startOf address (some last.signature) = some rest := by
  obtain ⟨front, hindex⟩ := exists_append_of_startOf h
  obtain ⟨page, rfl⟩ := List.getLast?_eq_some_iff.mp hlast
  have hindex' : l.index address = (front ++ page) ++ last :: rest := by simpa using hindex
  rw [startOf, hindex']
  apply olderThan?_append
  intro info hinfo heq
  rw [hindex', List.map_append, List.map_cons] at hdistinct
  have hdisjoint := (List.nodup_append.mp hdistinct).2.2
  exact hdisjoint _ (List.mem_map_of_mem hinfo) _ List.mem_cons_self heq

end RecordedLedger

namespace Paging

/-- What a walk makes of a page. -/
def walkPage (p : Paging) (b : WalkBounds) (fuel : Nat) (page : List SignatureInfo) :
    Attempt World (List SignatureInfo × Bool) :=
  match page.getLast? with
  | none => return ([], true)
  | some last =>
    match (b.scan page).2 with
    | .reachedUntil => return ((b.scan page).1, true)
    | .belowFromSlot => return ((b.scan page).1, false)
    | .exhausted =>
      if page.length < p.pageSize then return ((b.scan page).1, true)
      else do
        let (older, connected) ← p.walkFrom b fuel (some last.signature)
        return ((b.scan page).1 ++ older, connected)

def request (p : Paging) (b : WalkBounds) (before : Option String) : PageRequest :=
  { address := p.address, before, stopAt := b.stopAt, limit := p.pageSize }

/-- The world in which a walk asks for its next page, after the delay if it is not the first. -/
def beforePage (p : Paging) (before : Option String) (w : World) : World :=
  if before.isSome then { w with calls := { w.calls with sleeps := w.calls.sleeps ++ [p.delay] } } else w

theorem walkFrom_succ (p : Paging) (b : WalkBounds) (fuel : Nat) (before : Option String) {w : World}
    (h : w.stopped = false) : (p.walkFrom b (fuel + 1) before).outcome w =
      Attempt.outcome (World.page (p.request b before) >>= p.walkPage b fuel) (p.beforePage before w) := by
  rw [walkFrom, Attempt.outcome_bind_of_ok (Attempt.outcome_get w)]
  simp only [h, Bool.false_eq_true, if_false]
  cases before <;> rfl

/-- A walk that was not stopped waits, asks for a page and looks at it. -/
theorem outcome_walkFrom_succ (p : Paging) (b : WalkBounds) (fuel : Nat) (before : Option String) {w : World}
    (h : w.stopped = false) :
    ∃ w', w.Alike w' ∧ w'.stopped = w.stopped ∧ (p.walkFrom b (fuel + 1) before).outcome w =
      Attempt.outcome (World.page (p.request b before) >>= p.walkPage b fuel) w' := by
  refine ⟨p.beforePage before w, ?_, ?_, p.walkFrom_succ b fuel before h⟩
  · cases before <;> exact ⟨rfl, rfl⟩
  · cases before <;> rfl

/-- What a walk from a place in the index on is to come to: unless a stop was asked for meanwhile, it collects what
a scan from there keeps. -/
structure Collects (b : WalkBounds) (infos : List SignatureInfo) (w : World)
    (outcome : Except Failure (List SignatureInfo × Bool) × World) : Prop where
  alike : w.Alike outcome.2
  collected : ∀ kept connected, outcome.1 = .ok (kept, connected) → outcome.2.stopped = true ∨
    (kept = (b.scan infos).1 ∧ (connected = true ↔ (b.scan infos).2 ≠ .belowFromSlot))

namespace Collects

variable {b : WalkBounds} {infos : List SignatureInfo} {w w' : World}

theorem of_alike {outcome : Except Failure (List SignatureInfo × Bool) × World} (h : Collects b infos w' outcome)
    (halike : w.Alike w') : Collects b infos w outcome :=
  ⟨halike.trans h.alike, h.collected⟩

theorem done {kept : List SignatureInfo} {connected : Bool} (hkept : kept = (b.scan infos).1)
    (hconnected : connected = true ↔ (b.scan infos).2 ≠ .belowFromSlot) :
    Collects b infos w (.ok (kept, connected), w) := by
  refine ⟨World.Alike.refl w, fun kept' connected' h => Or.inr ?_⟩
  cases h
  exact ⟨hkept, hconnected⟩

/-- What is kept of a page goes before what the rest of the walk collects. -/
theorem after {x : Attempt World (List SignatureInfo × Bool)} {page rest : List SignatureInfo}
    (h : Collects b rest w (x.outcome w)) (hend : (b.scan page).2 = .exhausted) :
    Collects b (page ++ rest) w
      (Attempt.outcome (x >>= fun older => pure ((b.scan page).1 ++ older.1, older.2)) w) := by
  obtain ⟨halike, hcollected⟩ := h
  rcases hx : x.outcome w with ⟨failure | ⟨older, connected⟩, w'⟩
  · rw [hx] at halike
    rw [Attempt.outcome_bind_of_error hx]
    exact ⟨halike, fun _ _ h => nomatch h⟩
  · rw [hx] at halike hcollected
    rw [Attempt.outcome_bind_of_ok hx]
    refine ⟨halike, fun kept connected' h => ?_⟩
    cases h
    rw [WalkBounds.scan_append_of_exhausted hend rest]
    rcases hcollected older connected rfl with hstopped | ⟨rfl, hconnected⟩
    · exact Or.inl hstopped
    · exact Or.inr ⟨rfl, hconnected⟩

end Collects

/-- A page is handled as it should be if the rest of the walk is. -/
theorem collects_walkPage (p : Paging) {b : WalkBounds} {fuel : Nat} {inclusive : Bool} {w : World}
    {infos page : List SignatureInfo} (hpage : page = pageFrom b.stopAt inclusive p.pageSize infos)
    (hrest : ∀ rest last, infos = page ++ rest → page.getLast? = some last →
      Collects b rest w ((p.walkFrom b fuel (some last.signature)).outcome w)) :
    Collects b infos w ((p.walkPage b fuel page).outcome w) := by
  obtain ⟨rest, heq, -⟩ := pageFrom_split b.stopAt inclusive p.pageSize infos
  rw [← hpage] at heq
  cases hlast : page.getLast? with
  | none =>
    have hnil : page = [] := List.getLast?_eq_none_iff.mp hlast
    obtain ⟨hkept, hbelow⟩ := WalkBounds.scan_of_short_page hpage (by rw [hnil]; rfl) (Or.inl hnil)
    rw [walkPage, hlast]
    exact .done (by rw [hkept, hnil]; rfl) (iff_of_true rfl hbelow)
  | some last =>
    rw [walkPage, hlast]
    cases hend : (b.scan page).2 with
    | reachedUntil =>
      have hscan : b.scan infos = b.scan page := heq ▸ WalkBounds.scan_append_of_ne (by simp [hend]) rest
      exact .done (by rw [hscan]) (by simp [hscan, hend])
    | belowFromSlot =>
      have hscan : b.scan infos = b.scan page := heq ▸ WalkBounds.scan_append_of_ne (by simp [hend]) rest
      exact .done (by rw [hscan]) (by simp [hscan, hend])
    | exhausted =>
      -- Only a full page that was looked at to its end is followed by another.
      by_cases hshort : page.length < p.pageSize
      · obtain ⟨hkept, hbelow⟩ := WalkBounds.scan_of_short_page hpage hend (Or.inr hshort)
        simp only [if_pos hshort]
        exact .done hkept.symm (iff_of_true rfl hbelow)
      · simp only [if_neg hshort]
        rw [heq]
        exact (hrest rest last heq hlast).after hend

/-- Unless a stop is asked for meanwhile, a walk from a place in the index on collects what a
scan from there keeps. -/
theorem collects_walkFrom (p : Paging) (b : WalkBounds) (fuel : Nat) (before : Option String) {w : World}
    {infos : List SignatureInfo} (hpages : w.ledger.switches.pages = none)
    (hdistinct : ((w.ledger.index p.address).map (·.signature)).Nodup) (hstart : w.ledger.startOf p.address before = some infos)
    (hfuel : infos.length < fuel) : Collects b infos w ((p.walkFrom b fuel before).outcome w) := by
  induction fuel generalizing before w infos with
  | zero => omega
  | succ fuel ih =>
    cases hstopped : w.stopped with
    | true =>
      rw [walkFrom, Attempt.outcome_bind_of_ok (Attempt.outcome_get w), if_pos hstopped]
      exact ⟨World.Alike.refl w, fun _ _ _ => Or.inl hstopped⟩
    | false =>
      obtain ⟨w₁, halike, -, hwalk⟩ := p.outcome_walkFrom_succ b fuel before hstopped
      have hpages₁ : w₁.ledger.switches.pages = none := by rw [halike.ledger, hpages]
      obtain ⟨halike', hasked⟩ := World.outcome_page (p.request b before) hpages₁
      rw [hwalk]
      rcases hpage : (World.page (p.request b before)).outcome w₁ with ⟨failure | page, w₂⟩
      · rw [hpage] at halike'
        rw [Attempt.outcome_bind_of_error hpage]
        exact ⟨halike.trans halike', fun _ _ h => nomatch h⟩
      · rw [hpage] at halike' hasked
        have hledger : w₂.ledger = w.ledger := (halike.trans halike').ledger
        have hfrom : page = pageFrom b.stopAt w.ledger.switches.inclusiveUntil p.pageSize infos := by
          rcases hasked with ⟨failure, hfailure⟩ | hasked
          · cases hfailure
          · rw [halike.ledger, RecordedLedger.page_of_history hpages, request, hstart] at hasked
            exact Except.ok.inj hasked
        rw [Attempt.outcome_bind_of_ok hpage]
        refine (collects_walkPage p hfrom fun rest last heq hlast => ?_).of_alike (halike.trans halike')
        have hne : page ≠ [] := by
          rintro rfl
          cases hlast
        apply ih
        · rw [hledger, hpages]
        · rw [hledger]
          exact hdistinct
        · rw [hledger]
          exact RecordedLedger.startOf_last hdistinct (heq ▸ hstart) hlast
        · have hpos := List.length_pos_iff.mpr hne
          rw [heq, List.length_append] at hfuel
          omega

/-- Unless a stop is asked for meanwhile, a walk collects what a scan of the whole index keeps, the oldest entry
first, and connects if the scan was not ended by the slot bound. -/
theorem outcome_walk (p : Paging) (b : WalkBounds) {w : World} (hpages : w.ledger.switches.pages = none)
    (hdistinct : ((w.ledger.index p.address).map (·.signature)).Nodup) :
    w.Alike ((p.walk b).outcome w).2 ∧ ∀ walk, ((p.walk b).outcome w).1 = .ok walk →
      ((p.walk b).outcome w).2.stopped = true ∨
        (walk.signatures = (b.scan (w.ledger.index p.address)).1.reverse ∧
          (walk.connected = true ↔ (b.scan (w.ledger.index p.address)).2 ≠ .belowFromSlot)) := by
  obtain ⟨halike, hcollected⟩ :=
    p.collects_walkFrom b w.ledger.pageBound none hpages hdistinct rfl (w.ledger.length_index_lt p.address)
  rw [walk, Attempt.outcome_bind_of_ok (Attempt.outcome_get w)]
  rcases hwalk : (p.walkFrom b w.ledger.pageBound none).outcome w with ⟨failure | ⟨newestFirst, connected⟩, w'⟩
  · rw [hwalk] at halike
    rw [Attempt.outcome_bind_of_error hwalk]
    exact ⟨halike, fun _ h => nomatch h⟩
  · rw [hwalk] at halike hcollected
    rw [Attempt.outcome_bind_of_ok hwalk]
    refine ⟨halike, fun walk h => ?_⟩
    cases h
    rcases hcollected newestFirst connected rfl with hstopped | ⟨rfl, hconnected⟩
    · exact Or.inl hstopped
    · exact Or.inr ⟨rfl, hconnected⟩

end Paging

/-! ## Walks that go through -/

/-- Asking for a page gives the page, unless the ledger fails this time. -/
theorem World.outcome_page_of_history (request : PageRequest) {w : World} (h : w.ledger.switches.pages = none)
    {infos : List SignatureInfo} (hstart : w.ledger.startOf request.address request.before = some infos) :
    ∃ w', w.Alike w' ∧ (w.ledger.switches.stopOnPage = none → w'.stopped = w.stopped) ∧
      ((World.page request).outcome w =
          (.ok (pageFrom request.stopAt w.ledger.switches.inclusiveUntil request.limit infos), w') ∨
        (w.ledger.switches.failPages = true ∨ w.ledger.switches.failPageAt.isSome = true) ∧
          (World.page request).outcome w = (.error RecordedLedger.pageTimeout, w')) := by
  simp only [World.page, Attempt.outcome_bind, Attempt.outcome_modify, Attempt.outcome_get,
    RecordedLedger.page_of_history h, hstart]
  by_cases hfail : w.ledger.switches.failPages = true ∨
      w.ledger.switches.failPageAt = some ((w.pageCalls + 1 : Nat) : Int)
  · rw [if_pos hfail]
    refine ⟨_, ?_, ?_, .inr ⟨hfail.imp_right fun hat => ?_, rfl⟩⟩
    · exact ⟨rfl, rfl⟩
    · exact fun _ => rfl
    · rw [hat]
      rfl
  · rw [if_neg hfail]
    by_cases hstop : w.ledger.switches.stopOnPage = some ((w.pageCalls + 1 : Nat) : Int)
    · rw [if_pos hstop]
      refine ⟨_, ?_, ?_, .inl rfl⟩
      · exact ⟨rfl, rfl⟩
      · intro hnone
        rw [hnone] at hstop
        cases hstop
    · rw [if_neg hstop]
      refine ⟨_, ?_, ?_, .inl rfl⟩
      · exact ⟨rfl, rfl⟩
      · exact fun _ => rfl

namespace Paging

variable {w : World}

/-- What is made of a page that is not the last one goes on with the next page. -/
theorem outcome_walkPage (p : Paging) (b : WalkBounds) (fuel : Nat) (page : List SignatureInfo) (w : World) :
    (∃ walked, (p.walkPage b fuel page).outcome w = (.ok walked, w)) ∨
      ∃ last, page.getLast? = some last ∧ (p.walkPage b fuel page).outcome w =
        Attempt.outcome (p.walkFrom b fuel (some last.signature) >>= fun older =>
          pure ((b.scan page).1 ++ older.1, older.2)) w := by
  rw [walkPage]
  cases hlast : page.getLast? with
  | none => exact .inl ⟨_, rfl⟩
  | some last =>
    cases (b.scan page).2 with
    | reachedUntil => exact .inl ⟨_, rfl⟩
    | belowFromSlot => exact .inl ⟨_, rfl⟩
    | exhausted =>
      by_cases hshort : page.length < p.pageSize
      · simp only [if_pos hshort]
        exact .inl ⟨_, rfl⟩
      · simp only [if_neg hshort]
        exact .inr ⟨last, rfl, rfl⟩

/-- A walk goes through, unless the ledger fails this time. -/
theorem outcome_walkFrom_of_history (p : Paging) (b : WalkBounds) (fuel : Nat) (before : Option String)
    {infos : List SignatureInfo} (hpages : w.ledger.switches.pages = none)
    (hdistinct : ((w.ledger.index p.address).map (·.signature)).Nodup) (hstart : w.ledger.startOf p.address before = some infos) :
    ∃ result w', (p.walkFrom b fuel before).outcome w = (result, w') ∧ w.Alike w' ∧
      (w.ledger.switches.stopOnPage = none → w'.stopped = w.stopped) ∧
      ((∃ walked, result = .ok walked) ∨
        (w.ledger.switches.failPages = true ∨ w.ledger.switches.failPageAt.isSome = true) ∧
          result = .error RecordedLedger.pageTimeout) := by
  induction fuel generalizing before w infos with
  | zero => exact ⟨_, w, rfl, .refl w, fun _ => rfl, .inl ⟨_, rfl⟩⟩
  | succ fuel ih =>
    cases hstopped : w.stopped with
    | true =>
      rw [walkFrom, Attempt.outcome_bind_of_ok (Attempt.outcome_get w), if_pos hstopped]
      exact ⟨_, w, rfl, .refl w, fun _ => hstopped, .inl ⟨_, rfl⟩⟩
    | false =>
      obtain ⟨w₁, halike, hgoing, hwalk⟩ := p.outcome_walkFrom_succ b fuel before hstopped
      have hledger := halike.ledger
      obtain ⟨w₂, halike', hgoing', hpage⟩ := World.outcome_page_of_history (p.request b before)
        (hledger ▸ hpages) (hledger ▸ hstart)
      rw [hledger] at hgoing' hpage
      have hsame : w.ledger.switches.stopOnPage = none → w₂.stopped = false :=
        fun h => (hgoing' h).trans (hgoing.trans hstopped)
      rw [hwalk]
      rcases hpage with hpage | ⟨hfail, hpage⟩
      · obtain ⟨rest, hsplit, -⟩ := pageFrom_split b.stopAt w.ledger.switches.inclusiveUntil p.pageSize infos
        rw [Attempt.outcome_bind_of_ok hpage]
        rcases p.outcome_walkPage b fuel _ w₂ with ⟨walked, hdone⟩ | ⟨last, hlast, hmore⟩
        · exact ⟨_, w₂, hdone, halike.trans halike', hsame, .inl ⟨walked, rfl⟩⟩
        · have hledger₂ : w₂.ledger = w.ledger := halike'.ledger.trans hledger
          have hnext := RecordedLedger.startOf_last hdistinct (hsplit ▸ hstart) hlast
          obtain ⟨result, w₃, ho, halike₃, hgoing₃, hresult⟩ := ih (some last.signature) (w := w₂)
            (hledger₂ ▸ hpages) (hledger₂ ▸ hdistinct) (hledger₂ ▸ hnext)
          have halike'' := (halike.trans halike').trans halike₃
          have hsame₃ : w.ledger.switches.stopOnPage = none → w₃.stopped = false :=
            fun h => (hgoing₃ (hledger₂ ▸ h)).trans (hsame h)
          rw [hmore]
          rcases hresult with ⟨walked, rfl⟩ | ⟨hfail, rfl⟩
          · rw [Attempt.outcome_bind_of_ok ho]
            exact ⟨_, w₃, rfl, halike'', hsame₃, .inl ⟨_, rfl⟩⟩
          · rw [Attempt.outcome_bind_of_error ho]
            exact ⟨_, w₃, rfl, halike'', hsame₃, .inr ⟨hledger₂ ▸ hfail, rfl⟩⟩
      · rw [Attempt.outcome_bind_of_error hpage]
        exact ⟨_, w₂, rfl, halike.trans halike', hsame, .inr ⟨hfail, rfl⟩⟩

/-- A walk collects what a scan of the whole index keeps, unless a stop is asked for meanwhile or the ledger fails this
time. -/
theorem outcome_walk_of_history (p : Paging) (b : WalkBounds) (hpages : w.ledger.switches.pages = none)
    (hdistinct : ((w.ledger.index p.address).map (·.signature)).Nodup) :
    ∃ result w', (p.walk b).outcome w = (result, w') ∧ w.Alike w' ∧
      (w.ledger.switches.stopOnPage = none → w'.stopped = w.stopped) ∧
      ((w.ledger.switches.failPages = true ∨ w.ledger.switches.failPageAt.isSome = true) ∧
          result = .error RecordedLedger.pageTimeout ∨
        ∃ walk, result = .ok walk ∧ (w'.stopped = true ∨ walk.signatures = (b.scan (w.ledger.index p.address)).1.reverse ∧
          (walk.connected = true ↔ (b.scan (w.ledger.index p.address)).2 ≠ .belowFromSlot))) := by
  obtain ⟨result, w', ho, halike, hstopped, hresult⟩ :=
    p.outcome_walkFrom_of_history b w.ledger.pageBound none hpages hdistinct rfl
  obtain ⟨-, hcollected⟩ := p.outcome_walk b hpages hdistinct
  rw [walk, Attempt.outcome_bind_of_ok (Attempt.outcome_get w)] at hcollected ⊢
  rcases hresult with ⟨⟨newestFirst, connected⟩, rfl⟩ | ⟨hfail, rfl⟩
  · rw [Attempt.outcome_bind_of_ok ho] at hcollected ⊢
    exact ⟨_, w', rfl, halike, hstopped, .inr ⟨_, rfl, hcollected _ rfl⟩⟩
  · rw [Attempt.outcome_bind_of_error ho]
    exact ⟨_, w', rfl, halike, hstopped, .inl ⟨hfail, rfl⟩⟩

end Paging
end PairIndex
