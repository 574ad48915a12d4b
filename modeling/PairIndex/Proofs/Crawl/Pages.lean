import PairIndex.Proofs.Crawl.Walk

/-! Walks page by page. While the pages of the index can be had, a walk collects exactly the entries that are newer than
the signature to stop at and lie between the slot bounds, and it asks for no more pages than these fill and one more
(`Paging.walk_exact`). What it collects does not depend on the size of the pages, nor on whether a page includes the
signature to stop at. A ledger gives as many entries as it is asked for; a client asks its node for no more than a page has
at most, and crawls whose settings were accepted never ask for more (`Settings.asks_whole_pages`). -/

namespace PairIndex

/-- The entries of the index of an address, oldest first, that are newer than a signature: all if there is none to stop
at, or if the index does not have it. -/
def RecordedLedger.newer (l : RecordedLedger) (address : String) (stopAt : Option String) : List SignatureInfo :=
  ((l.index address).takeWhile fun info => stopAt != some info.signature).reverse

namespace WalkBounds

/-- Whether an entry is not below the slot bound at which a walk stops. -/
def reaches (b : WalkBounds) (info : SignatureInfo) : Bool :=
  b.fromSlot.all fun slot => decide (slot ≤ info.slot)

/-- Whether an entry lies between the slot bounds. -/
def admits (b : WalkBounds) (info : SignatureInfo) : Bool :=
  b.reaches info && b.toSlot.all fun slot => decide (info.slot ≤ slot)

/-- Where a scan stops. -/
def isNewer (b : WalkBounds) (info : SignatureInfo) : Bool :=
  b.stopAt != some info.signature

variable {b : WalkBounds} {infos : List SignatureInfo}

theorem any_below (b : WalkBounds) (info : SignatureInfo) :
    b.fromSlot.any (fun slot => decide (info.slot < slot)) = !b.reaches info := by
  cases hfrom : b.fromSlot with
  | none => simp [reaches, hfrom]
  | some slot => simp [reaches, hfrom, ← decide_not]

theorem any_above (b : WalkBounds) (info : SignatureInfo) :
    b.toSlot.any (fun slot => decide (slot < info.slot)) = !b.toSlot.all fun slot => decide (info.slot ≤ slot) := by
  cases b.toSlot with
  | none => rfl
  | some slot => simp [← decide_not]

/-- Below an entry that is below the lower bound no entry reaches it. -/
theorem reaches_eq_false_of_le {info older : SignatureInfo} (h : b.reaches info = false) (hle : older.slot ≤ info.slot) :
    b.reaches older = false := by
  cases hfrom : b.fromSlot with
  | none => simp [reaches, hfrom] at h
  | some slot =>
    simp only [reaches, hfrom, Option.all_some, decide_eq_false_iff_not, Int.not_le] at h ⊢
    omega

/-- A scan keeps the newer entries between the bounds, and is ended by the lower bound if a newer entry is below it. -/
theorem scan_eq (b : WalkBounds) (h : infos.Pairwise fun x y => y.slot ≤ x.slot) :
    (b.scan infos).1 = (infos.takeWhile b.isNewer).filter b.admits ∧
      ((b.scan infos).2 ≠ .belowFromSlot ↔ (infos.takeWhile b.isNewer).all b.reaches = true) := by
  induction infos with
  | nil => exact ⟨rfl, iff_of_true nofun rfl⟩
  | cons info rest ih =>
    obtain ⟨hfirst, hrest⟩ := List.pairwise_cons.mp h
    obtain ⟨hkept, hending⟩ := ih hrest
    rw [scan_cons, any_below, any_above]
    by_cases hstop : b.stopAt = some info.signature
    · have hnewer : b.isNewer info = false := by simp [isNewer, hstop]
      rw [if_pos hstop, List.takeWhile_cons_of_neg (by simp [hnewer])]
      exact ⟨rfl, iff_of_true nofun rfl⟩
    · have hnewer : b.isNewer info = true := by simp [isNewer, hstop]
      rw [if_neg hstop, List.takeWhile_cons_of_pos hnewer]
      cases hreaches : b.reaches info with
      | false =>
        -- Nothing older reaches the bound either.
        have hnone : ∀ older ∈ info :: rest.takeWhile b.isNewer, b.admits older = false := by
          intro older holder
          rw [admits]
          rcases List.mem_cons.mp holder with rfl | holder
          · rw [hreaches, Bool.false_and]
          · rw [reaches_eq_false_of_le hreaches (hfirst older (List.takeWhile_subset _ holder)), Bool.false_and]
        rw [List.filter_eq_nil_iff.mpr fun older holder => by simp [hnone older holder]]
        simp [hreaches]
      | true =>
        rw [List.all_cons, hreaches, List.filter_cons, admits, hreaches, Bool.true_and, Bool.true_and]
        cases b.toSlot.all fun slot => decide (info.slot ≤ slot) with
        | true =>
          simp only [Bool.not_true, Bool.false_eq_true, if_false, if_true]
          exact ⟨congrArg (info :: ·) hkept, hending⟩
        | false =>
          simp only [Bool.not_true, Bool.not_false, Bool.false_eq_true, if_false, if_true]
          exact ⟨hkept, hending⟩

/-- A page that was looked at to its end holds only newer entries. -/
theorem takeWhile_append_of_exhausted {page : List SignatureInfo} (h : (b.scan page).2 = .exhausted)
    (rest : List SignatureInfo) : (page ++ rest).takeWhile b.isNewer = page ++ rest.takeWhile b.isNewer := by
  refine List.takeWhile_append_of_pos fun info hinfo => ?_
  simpa [isNewer] using stopAt_ne_of_exhausted h hinfo

end WalkBounds

/-! ## Pages that can be had -/

/-- A world whose next pages, up to a number of them, can be had, and in which no stop is asked for until then. -/
structure World.Serves (count : Nat) (w : World) : Prop where
  pages : w.ledger.switches.pages = none
  failPages : w.ledger.switches.failPages = false
  goingOn : w.stopped = false
  failPageAt : ∀ n : Nat, w.pageCalls < n → n ≤ w.pageCalls + count → w.ledger.switches.failPageAt ≠ some (n : Int)
  stopOnPage : ∀ n : Nat, w.pageCalls < n → n ≤ w.pageCalls + count → w.ledger.switches.stopOnPage ≠ some (n : Int)

namespace World.Serves

variable {w : World} {count : Nat}

theorem mono {count' : Nat} (h : w.Serves count) (hle : count' ≤ count) : w.Serves count' where
  pages := h.pages
  failPages := h.failPages
  goingOn := h.goingOn
  failPageAt n hlt hn := h.failPageAt n hlt (by omega)
  stopOnPage n hlt hn := h.stopOnPage n hlt (by omega)

theorem beforePage (h : w.Serves count) (p : Paging) (before : Option String) : (p.beforePage before w).Serves count := by
  obtain ⟨hpages, hfail, hgoing, hfailAt, hstopAt⟩ := h
  cases before <;> exact ⟨hpages, hfail, hgoing, hfailAt, hstopAt⟩

/-- A page that can be had is what the ledger has, and it is noted that it was asked for. -/
theorem outcome_page (h : w.Serves (count + 1)) (request : PageRequest) {infos : List SignatureInfo}
    (hstart : w.ledger.startOf request.address request.before = some infos) :
    ∃ w', (World.page request).outcome w =
        (.ok (pageFrom request.stopAt w.ledger.switches.inclusiveUntil request.limit infos), w') ∧
      w.Alike w' ∧ w'.Serves count ∧ w'.calls.pages = w.calls.pages ++ [request] := by
  obtain ⟨hpages, hfail, hgoing, hfailAt, hstopAt⟩ := h
  have hanswers : ¬(w.ledger.switches.failPages = true ∨
      w.ledger.switches.failPageAt = some ((w.pageCalls + 1 : Nat) : Int)) := by
    rintro (hfails | hfails)
    · rw [hfail] at hfails
      cases hfails
    · exact hfailAt (w.pageCalls + 1) (by omega) (by omega) hfails
  have hnostop := hstopAt (w.pageCalls + 1) (by omega) (by omega)
  simp only [World.page, Attempt.outcome_bind, Attempt.outcome_modify, Attempt.outcome_get,
    RecordedLedger.page_of_history hpages, hstart, if_neg hanswers, if_neg hnostop]
  refine ⟨_, rfl, ⟨rfl, rfl⟩, ⟨hpages, hfail, hgoing, fun n hlt hn => ?_, fun n hlt hn => ?_⟩, rfl⟩
  · simp only at hlt hn
    exact hfailAt n (by omega) (by omega)
  · simp only at hlt hn
    exact hstopAt n (by omega) (by omega)

end World.Serves

/-! ## Walks -/

namespace Paging

variable {w : World} {b : WalkBounds} {infos page : List SignatureInfo}

/-- The last page of a walk holds all that is left to collect; any other is full of newer entries. -/
theorem outcome_walkPage_eq (p : Paging) {inclusive : Bool} (hpage : page = pageFrom b.stopAt inclusive p.pageSize infos) :
    (∀ fuel w, (p.walkPage b fuel page).outcome w =
        (.ok ((b.scan infos).1, decide ((b.scan infos).2 ≠ .belowFromSlot)), w)) ∨
      ∃ rest last, infos = page ++ rest ∧ page.getLast? = some last ∧ (b.scan page).2 = .exhausted ∧
        p.pageSize ≤ page.length ∧ ∀ fuel w, (p.walkPage b fuel page).outcome w =
          Attempt.outcome (p.walkFrom b fuel (some last.signature) >>= fun older =>
            pure ((b.scan page).1 ++ older.1, older.2)) w := by
  obtain ⟨rest, heq, -⟩ := pageFrom_split b.stopAt inclusive p.pageSize infos
  rw [← hpage] at heq
  cases hlast : page.getLast? with
  | none =>
    have hnil : page = [] := List.getLast?_eq_none_iff.mp hlast
    obtain ⟨hkept, hbelow⟩ := WalkBounds.scan_of_short_page hpage (by rw [hnil]; rfl) (Or.inl hnil)
    refine .inl fun fuel w => ?_
    rw [walkPage, hlast, hkept, decide_eq_true hbelow, hnil]
    rfl
  | some last =>
    simp only [walkPage, hlast]
    cases hend : (b.scan page).2 with
    | reachedUntil =>
      have hscan : b.scan infos = b.scan page := heq ▸ WalkBounds.scan_append_of_ne (by simp [hend]) rest
      exact .inl fun fuel w => by simp [hscan, hend]
    | belowFromSlot =>
      have hscan : b.scan infos = b.scan page := heq ▸ WalkBounds.scan_append_of_ne (by simp [hend]) rest
      exact .inl fun fuel w => by simp [hscan, hend]
    | exhausted =>
      by_cases hshort : page.length < p.pageSize
      · obtain ⟨hkept, hbelow⟩ := WalkBounds.scan_of_short_page hpage hend (Or.inr hshort)
        exact .inl fun fuel w => by simp [hshort, hkept, hbelow]
      · exact .inr ⟨rest, last, heq, rfl, rfl, Int.not_lt.mp hshort, fun fuel w => by simp only [if_neg hshort]⟩

/-- A full page of newer entries leaves fewer pages to be asked for. -/
theorem length_div_of_full_page {size : Nat} (hsize : 0 < size) (rest : List SignatureInfo) (hfull : size ≤ page.length)
    (hend : (b.scan page).2 = .exhausted) :
    (rest.takeWhile b.isNewer).length / size + 1 ≤ ((page ++ rest).takeWhile b.isNewer).length / size := by
  rw [WalkBounds.takeWhile_append_of_exhausted hend, List.length_append]
  calc (rest.takeWhile b.isNewer).length / size + 1
      = ((rest.takeWhile b.isNewer).length + size) / size := (Nat.add_div_right _ hsize).symm
    _ ≤ (page.length + (rest.takeWhile b.isNewer).length) / size := Nat.div_le_div_right (by omega)

/-- From a place in the index on a walk comes to what a scan comes to. Once the walk may take the pages that the newer
entries fill and one more, it makes no difference how many it may take. -/
theorem outcome_walkFrom_eq (p : Paging) (before : Option String) (hsize : 1 ≤ p.pageSize)
    (hdistinct : ((w.ledger.index p.address).map (·.signature)).Nodup) (hstart : w.ledger.startOf p.address before = some infos)
    (hserves : w.Serves ((infos.takeWhile b.isNewer).length / p.pageSize.toNat + 1)) :
    ∃ w' asked, w.Alike w' ∧ w'.calls.pages = w.calls.pages ++ asked ∧
      asked.length ≤ (infos.takeWhile b.isNewer).length / p.pageSize.toNat + 1 ∧
      ∀ fuel, (infos.takeWhile b.isNewer).length / p.pageSize.toNat < fuel → (p.walkFrom b fuel before).outcome w =
        (.ok ((b.scan infos).1, decide ((b.scan infos).2 ≠ .belowFromSlot)), w') := by
  have hpos : 0 < p.pageSize.toNat := by omega
  induction hlength : infos.length using Nat.strongRecOn generalizing before w infos with
  | ind length ih =>
    subst hlength
    have hledger₁ : (p.beforePage before w).ledger = w.ledger := by cases before <;> rfl
    have hdatabase₁ : (p.beforePage before w).database = w.database := by cases before <;> rfl
    have hpages₁ : (p.beforePage before w).calls.pages = w.calls.pages := by cases before <;> rfl
    obtain ⟨w₂, hpage, halike, hserves₂, hasked⟩ :=
      (hserves.beforePage p before).outcome_page (p.request b before) (hledger₁ ▸ hstart)
    rw [hpages₁] at hasked
    have halike₂ : w.Alike w₂ := ⟨halike.database.trans hdatabase₁, halike.ledger.trans hledger₁⟩
    generalize hfrom : pageFrom _ _ _ infos = page at hpage
    have hwalk : ∀ fuel, (p.walkFrom b (fuel + 1) before).outcome w = (p.walkPage b fuel page).outcome w₂ := fun fuel =>
      (p.walkFrom_succ b fuel before hserves.goingOn).trans (Attempt.outcome_bind_of_ok hpage _)
    rcases p.outcome_walkPage_eq (b := b) hfrom.symm with hlast | ⟨rest, last, rfl, hlast, hend, hfull, hmore⟩
    · refine ⟨w₂, [p.request b before], halike₂, hasked, by simp, fun fuel hfuel => ?_⟩
      obtain ⟨fuel, rfl⟩ := Nat.exists_eq_add_one_of_ne_zero (Nat.ne_zero_of_lt hfuel)
      rw [hwalk fuel]
      exact hlast fuel w₂
    · -- What is below a full page is shorter, and takes a page less.
      have hfewer := length_div_of_full_page hpos rest (by omega : p.pageSize.toNat ≤ page.length) hend
      have hshorter : rest.length < (page ++ rest).length := by
        rw [List.length_append]
        omega
      have hnext := RecordedLedger.startOf_last hdistinct hstart hlast
      obtain ⟨w₃, asked, halike₃, hasked₃, hcount, hcollects⟩ := ih rest.length hshorter (some last.signature) (w := w₂)
        (halike₂.ledger ▸ hdistinct) (halike₂.ledger ▸ hnext) (hserves₂.mono hfewer) rfl
      refine ⟨w₃, p.request b before :: asked, halike₂.trans halike₃, ?_, ?_, fun fuel hfuel => ?_⟩
      · rw [hasked₃, hasked, List.append_assoc, List.singleton_append]
      · rw [List.length_cons]
        omega
      · obtain ⟨fuel, rfl⟩ := Nat.exists_eq_add_one_of_ne_zero (Nat.ne_zero_of_lt hfuel)
        rw [hwalk fuel, hmore fuel w₂, Attempt.outcome_bind_of_ok (hcollects fuel (by omega)),
          WalkBounds.scan_append_of_exhausted hend]
        rfl

/-- While the pages can be had and no stop is asked for, a walk collects the entries that are newer than the signature
to stop at and lie between the slot bounds, each of them once and the oldest first. It connects if and only if no newer
entry is below the lower bound. The newer entries fill so many pages, and it asks for one more at most; if it may ask
for as many, it makes no difference how many more it may ask for. -/
theorem walk_exact (p : Paging) (b : WalkBounds) (hsize : 1 ≤ p.pageSize)
    (hdistinct : ((w.ledger.historyOf p.address).map (·.signature)).Nodup)
    (hordered : (w.ledger.historyOf p.address).Pairwise fun earlier later => earlier.slot ≤ later.slot)
    (hserves : w.Serves ((w.ledger.newer p.address b.stopAt).length / p.pageSize.toNat + 1)) :
    ∃ walk w' asked, (p.walk b).outcome w = (.ok walk, w') ∧ w.Alike w' ∧
      walk.signatures = (w.ledger.newer p.address b.stopAt).filter b.admits ∧
      (walk.connected = true ↔ ∀ info ∈ w.ledger.newer p.address b.stopAt, ∀ slot ∈ b.fromSlot, slot ≤ info.slot) ∧
      w'.calls.pages = w.calls.pages ++ asked ∧
      asked.length ≤ (w.ledger.newer p.address b.stopAt).length / p.pageSize.toNat + 1 ∧
      ∀ fuel, (w.ledger.newer p.address b.stopAt).length / p.pageSize.toNat < fuel →
        (p.walkFrom b fuel none).outcome w = (.ok (walk.signatures.reverse, walk.connected), w') := by
  have hindex : (w.ledger.index p.address).Pairwise fun x y => y.slot ≤ x.slot := by
    rw [RecordedLedger.index, List.pairwise_reverse, List.pairwise_map]
    exact hordered
  have hnewer : w.ledger.newer p.address b.stopAt = ((w.ledger.index p.address).takeWhile b.isNewer).reverse := rfl
  obtain ⟨hkept, hending⟩ := b.scan_eq hindex
  rw [hnewer, List.length_reverse] at hserves ⊢
  obtain ⟨w', asked, halike, hasked, hcount, hcollects⟩ :=
    p.outcome_walkFrom_eq none hsize (RecordedLedger.nodup_index hdistinct) rfl hserves
  have hbound : ((w.ledger.index p.address).takeWhile b.isNewer).length / p.pageSize.toNat < w.ledger.pageBound := by
    have hle := (List.takeWhile_sublist (l := w.ledger.index p.address) b.isNewer).length_le
    have hdiv := Nat.div_le_self ((w.ledger.index p.address).takeWhile b.isNewer).length p.pageSize.toNat
    have hlt := w.ledger.length_index_lt p.address
    omega
  refine ⟨⟨(b.scan (w.ledger.index p.address)).1.reverse, decide ((b.scan (w.ledger.index p.address)).2 ≠ .belowFromSlot)⟩, w', asked, ?_, halike,
    ?_, ?_, hasked, hcount, fun fuel hfuel => ?_⟩
  · rw [walk, Attempt.outcome_bind_of_ok (Attempt.outcome_get w), Attempt.outcome_bind_of_ok (hcollects _ hbound)]
    rfl
  · rw [hkept, List.filter_reverse]
  · rw [decide_eq_true_eq, hending]
    simp [WalkBounds.reaches, Option.all_eq_true]
  · rw [List.reverse_reverse]
    exact hcollects fuel hfuel

/-- A ledger whose pages include the signature to stop at. -/
def inclusiveWorld : World where
  ledger :=
    { history := [⟨"create", 1, none, [], .null⟩, ⟨"mint", 2, none, [], .null⟩, ⟨"swap", 2, none, [], .null⟩,
        ⟨"repay", 3, none, [], .null⟩, ⟨"burn", 4, none, [], .null⟩]
      switches := { inclusiveUntil := true } }

/-- Pages of two, which the four newer entries fill, so that a third page begins with the signature to stop at. -/
theorem walk_exact_inclusiveWorld :
    (1 : Int) ≤ 2 ∧ ((inclusiveWorld.ledger.historyOf "pool").map (·.signature)).Nodup ∧
      ((inclusiveWorld.ledger.historyOf "pool").Pairwise fun earlier later => earlier.slot ≤ later.slot) ∧
      inclusiveWorld.Serves 3 ∧
      ∃ walk w' asked, (Paging.walk { address := "pool", pageSize := 2, delay := 0 }
          { stopAt := some "create", fromSlot := some 2, toSlot := some 3 }).outcome inclusiveWorld = (.ok walk, w') ∧
        walk.signatures.map (·.signature) = ["mint", "swap", "repay"] ∧ walk.connected = true ∧
        w'.calls.pages = asked ∧ asked.length ≤ 3 := by
  have hdistinct : ((inclusiveWorld.ledger.historyOf "pool").map (·.signature)).Nodup := by decide
  have hordered : (inclusiveWorld.ledger.historyOf "pool").Pairwise fun earlier later => earlier.slot ≤ later.slot := by decide
  have hserves : inclusiveWorld.Serves 3 := ⟨rfl, rfl, rfl, fun _ _ _ => nofun, fun _ _ _ => nofun⟩
  obtain ⟨walk, w', asked, ho, -, hsignatures, hconnected, hasked, hcount, -⟩ :=
    walk_exact { address := "pool", pageSize := 2, delay := 0 }
      { stopAt := some "create", fromSlot := some 2, toSlot := some 3 } (by decide) hdistinct hordered hserves
  refine ⟨by decide, hdistinct, hordered, hserves, walk, w', asked, ho, ?_, hconnected.mpr (by decide), hasked, hcount⟩
  rw [hsignatures]
  decide

end Paging
end PairIndex
