import PairIndex.Proofs.Crawl.Watermark
import PairIndex.Proofs.Event.Log

/-! Crawling is safe. Whatever fails or is stopped on the way, a backfill or a gap fill leaves watermarks that
promise only what is stored (`Crawler.safe_backfill`, `Crawler.safe_gapFill`), so that in every world that can be
reached all of the history from the first to the latest signature of a watermark is processed
(`World.Reachable.watermark_safe`). -/

namespace PairIndex

/-! ## Chunks -/

theorem flatten_chunksOf {α : Type} {size : Nat} (h : 0 < size) (items : List α) :
    (chunksOf size items).flatten = items := by
  fun_induction chunksOf size items with
  | case1 items _ _ ih => rw [List.flatten_cons, ih, List.take_append_drop]
  | case2 items hend =>
    have hnil : items = [] := by
      by_contra hne
      exact hend ⟨h, hne⟩
    rw [hnil, List.flatten_nil]

theorem length_le_of_mem_chunksOf {α : Type} {size : Nat} {items chunk : List α} (h : chunk ∈ chunksOf size items) :
    chunk.length ≤ size := by
  fun_induction chunksOf size items with
  | case1 items hitems _ ih =>
    rcases List.mem_cons.mp h with rfl | hrest
    · exact List.length_take_le ..
    · exact ih hrest
  | case2 => cases h

theorem chunksOf_of_length_le {α : Type} {size : Nat} {items : List α} (hne : items ≠ []) (h : items.length ≤ size) :
    chunksOf size items = [items] := by
  have hpos := List.length_pos_iff.mpr hne
  have hrest : chunksOf size (items.drop size) = [] := by
    rw [List.drop_of_length_le h, chunksOf, dif_neg fun hnil => hnil.2 rfl]
  rw [chunksOf, dif_pos ⟨by omega, hne⟩, hrest, List.take_of_length_le h]

namespace Crawler

variable {w : World} {older block later : List LedgerTransaction}

/-- The watermark may be moved to the end of the part of a chunk that is stored. -/
theorem passing_moveWatermark (c : Crawler) (first : Option String) {txs : List LedgerTransaction} {count : Nat}
    (h : w.Passing c.address older (block ++ txs.take count) later)
    (hfirst : ∀ oldest, (block ++ txs.take count).head? = some oldest → first = some oldest.signature) :
    ((c.moveWatermark first (txs.map (·.info)) count).outcome w).2.Passing c.address older (block ++ txs.take count)
      later := by
  rw [moveWatermark, ← List.map_take, List.getLast?_map]
  cases hnewest : (txs.take count).getLast? with
  | none => exact h
  | some newest =>
    have hnew : (block ++ txs.take count).getLast? = some newest := by
      rw [List.getLast?_append, hnewest, Option.some_or]
    have hne : block ++ txs.take count ≠ [] := by
      intro hnil
      rw [hnil] at hnew
      cases hnew
    have hold := List.head?_eq_some_head hne
    have hpassing := h.advance hold hnew
    rw [hfirst _ hold, Option.map_some]
    simp only [Attempt.outcome_bind, LedgerTransaction.info]
    split
    · next ho => rwa [ho] at hpassing
    · next ho => rwa [ho] at hpassing

/-- What is done with one chunk. -/
def processChunk (c : Crawler) (first : Option String) (advance : Bool) (chunk : List SignatureInfo) :
    Attempt World (List Bool) := do
  let oks ← c.ingestChunk chunk
  if advance then c.moveWatermark first chunk (successPrefix oks)
  return oks

theorem processChunks_cons (c : Crawler) (first : Option String) (advance : Bool) (chunk : List SignatureInfo)
    (rest : List (List SignatureInfo)) :
    (c.processChunks first advance (chunk :: rest)).outcome w =
      if w.stopped then (.ok (0, 0), w)
      else Attempt.outcome (c.processChunk first advance chunk >>= fun oks =>
        c.processChunks first (advance && successPrefix oks == chunk.length) rest >>= fun counts =>
          pure (oks.countP id + counts.1, chunk.length - oks.countP id + counts.2)) w := by
  rw [processChunks, Attempt.outcome_bind_of_ok (Attempt.outcome_get w)]
  by_cases hstopped : w.stopped = true
  · rw [if_pos hstopped, if_pos hstopped]
    rfl
  · rw [if_neg hstopped, if_neg hstopped, processChunk]
    cases advance <;> simp only [bind_assoc, pure_bind, if_true, Bool.false_eq_true, if_false]

/-- What fits one batch is processed as one chunk. -/
theorem processAll_of_one_chunk (c : Crawler) {infos : List SignatureInfo} {batchSize : Int} {advance : Bool}
    {outcomes : List Bool} {w' : World} (hne : infos ≠ []) (hsize : infos.length ≤ batchSize)
    (hgoing : w.stopped = false)
    (hchunk : (c.processChunk (infos.head?.map (·.signature)) advance infos).outcome w = (.ok outcomes, w')) :
    ((c.processAll infos batchSize advance).outcome w).2 = w' := by
  have hpos := List.length_pos_iff.mpr hne
  have hnonzero : batchSize ≠ 0 := by omega
  rw [processAll, if_neg hnonzero, chunksOf_of_length_le hne (by omega), processChunks_cons, hgoing,
    if_neg Bool.false_ne_true, Attempt.outcome_bind_of_ok hchunk]
  rfl

/-- Processing a chunk keeps watermarks safe. If it is successful as a whole, the crawl has the chunk behind it. -/
theorem safe_processChunk (c : Crawler) (first : Option String) {advance : Bool} {txs : List LedgerTransaction}
    (hsafe : w.Safe) (hhistory : w.ledger.historyOf c.address = older ++ block ++ (txs ++ later))
    (hfirst : ∀ oldest, (block ++ txs).head? = some oldest → first = some oldest.signature)
    (hadvance : advance = true → w.Passing c.address older block (txs ++ later)) :
    ((c.processChunk first advance (txs.map (·.info))).outcome w).2.Safe ∧
      ∀ oks, ((c.processChunk first advance (txs.map (·.info))).outcome w).1 = .ok oks →
        ((c.processChunk first advance (txs.map (·.info))).outcome w).2.ledger.historyOf c.address =
          w.ledger.historyOf c.address ∧
        (advance = true → successPrefix oks = txs.length →
          ((c.processChunk first advance (txs.map (·.info))).outcome w).2.Passing c.address older (block ++ txs)
            later) := by
  have htxs : ∀ tx ∈ txs, tx ∈ w.ledger.history := by
    intro tx htx
    have hlisted : tx ∈ w.ledger.historyOf c.address := by simp [hhistory, htx]
    exact RecordedLedger.mem_of_mem_historyOf hlisted
  obtain ⟨hext, hstored⟩ := c.outcome_ingestChunk htxs hsafe.ledger.distinct
  rw [processChunk]
  rcases hingest : (c.ingestChunk (txs.map (·.info))).outcome w with ⟨failure | oks, w₁⟩
  · rw [hingest] at hext
    rw [Attempt.outcome_bind_of_error hingest]
    exact ⟨hsafe.of_extends hext, fun _ h => nomatch h⟩
  · rw [hingest] at hext hstored
    rw [Attempt.outcome_bind_of_ok hingest]
    cases advance with
    | false => exact ⟨hsafe.of_extends hext, fun _ _ => ⟨congrArg (·.historyOf c.address) hext.ledger, fun h => nomatch h⟩⟩
    | true =>
      have hsplit : txs ++ later = txs.take (successPrefix oks) ++ (txs.drop (successPrefix oks) ++ later) := by
        rw [← List.append_assoc, List.take_append_drop]
      have hpassing := (hsplit ▸ (hadvance rfl).of_extends hext).concat (hstored oks rfl).2
      have hmoved := c.passing_moveWatermark first hpassing fun oldest hold => hfirst oldest <| by
        rw [← List.take_append_drop (successPrefix oks) txs, ← List.append_assoc, List.head?_append, hold]
        rfl
      simp only [if_true]
      rcases hmove : (c.moveWatermark first (txs.map (·.info)) (successPrefix oks)).outcome w₁ with
        ⟨failure | ⟨⟩, w₂⟩
      · rw [hmove] at hmoved
        rw [Attempt.outcome_bind_of_error hmove]
        exact ⟨hmoved.safe, fun _ h => nomatch h⟩
      · rw [hmove] at hmoved
        rw [Attempt.outcome_bind_of_ok hmove]
        refine ⟨hmoved.safe, fun oks' hoks => ⟨?_, fun _ hwhole => ?_⟩⟩
        · refine hmoved.history.trans ?_
          rw [hhistory, hsplit]
          simp only [List.append_assoc]
        · cases hoks
          rwa [hwhole, List.take_length, List.drop_length, List.nil_append] at hmoved

/-- Processing chunks keeps watermarks safe, if it only moves the watermark where it joins up. -/
theorem safe_processChunks (c : Crawler) {first : Option String} {advance : Bool} {chunks : List (List SignatureInfo)}
    {rest : List LedgerTransaction} (hsafe : w.Safe)
    (hhistory : w.ledger.historyOf c.address = older ++ block ++ (rest ++ later))
    (hfirst : first = (block ++ rest).head?.map (·.signature)) (hchunks : chunks.flatten = rest.map (·.info))
    (hadvance : advance = true → w.Passing c.address older block (rest ++ later)) :
    ((c.processChunks first advance chunks).outcome w).2.Safe := by
  induction chunks generalizing w advance block rest with
  | nil => exact hsafe
  | cons chunk chunks ih =>
    rw [processChunks_cons]
    by_cases hstopped : w.stopped = true
    · rw [if_pos hstopped]
      exact hsafe
    · rw [if_neg hstopped]
      -- `block` lies behind the crawl; of what lies ahead the chunk is the next part.
      obtain ⟨txs, rest, rfl, rfl, hrest⟩ := List.append_eq_map_iff.mp (List.flatten_cons ▸ hchunks)
      rw [← List.append_assoc] at hfirst
      rw [List.append_assoc txs] at hhistory hadvance
      have hbegin : ∀ oldest, (block ++ txs).head? = some oldest → first = some oldest.signature := by
        intro oldest hold
        rw [hfirst, List.head?_append, hold]
        rfl
      obtain ⟨hsafe', hthrough⟩ := c.safe_processChunk first hsafe hhistory hbegin hadvance
      rcases hchunk : (c.processChunk first advance (txs.map (·.info))).outcome w with ⟨failure | oks, w'⟩
      · rw [hchunk] at hsafe'
        rw [Attempt.outcome_bind_of_error hchunk]
        exact hsafe'
      · rw [hchunk] at hsafe' hthrough
        obtain ⟨hhistory', hpassing⟩ := hthrough oks rfl
        rw [Attempt.outcome_bind_of_ok hchunk, Attempt.outcome_bind_pure_snd]
        refine ih hsafe' ?_ hfirst hrest.symm fun h => ?_
        · rw [hhistory', hhistory]
          simp only [List.append_assoc]
        · simp only [Bool.and_eq_true, beq_iff_eq, List.length_map] at h
          exact hpassing h.1 h.2

/-- Processing a piece of the history keeps watermarks safe, if it only moves the watermark where
the piece joins up. -/
theorem safe_processAll (c : Crawler) {piece : List LedgerTransaction} {signatures : List SignatureInfo}
    {advance : Bool} (batchSize : Int) (hsafe : w.Safe)
    (hhistory : w.ledger.historyOf c.address = older ++ piece ++ later)
    (hsignatures : signatures = piece.map (·.info))
    (hadvance : advance = true → ∀ row ∈ w.database.store.watermarks.rows, row.account = c.address →
      Joined (w.ledger.historyOf c.address) w.database.store older.length row) :
    ((c.processAll signatures batchSize advance).outcome w).2.Safe := by
  rw [processAll]
  by_cases hzero : batchSize = 0
  · rw [if_pos hzero]
    exact hsafe
  · rw [if_neg hzero]
    by_cases hsize : 0 < batchSize.toNat
    · have hstart : w.ledger.historyOf c.address = older ++ [] ++ (piece ++ later) := by
        rw [hhistory, List.append_nil, List.append_assoc]
      refine c.safe_processChunks hsafe hstart ?_ ?_ fun h => ⟨hsafe, hstart, ?_, hadvance h⟩
      · rw [hsignatures, List.nil_append, List.head?_map, Option.map_map]
        rfl
      · rw [flatten_chunksOf hsize, hsignatures]
      · exact fun tx htx => nomatch htx
    · rw [chunksOf, dif_neg fun h => hsize h.1]
      exact hsafe

/-- Nothing is processed once a stop was asked for. -/
theorem outcome_processAll_of_stopped (c : Crawler) (signatures : List SignatureInfo) (batchSize : Int) (advance : Bool)
    (h : w.stopped = true) : ((c.processAll signatures batchSize advance).outcome w).2 = w := by
  rw [processAll]
  by_cases hzero : batchSize = 0
  · rw [if_pos hzero]
    rfl
  · rw [if_neg hzero]
    cases chunksOf batchSize.toNat signatures with
    | nil => rfl
    | cons chunk chunks =>
      rw [processChunks_cons, if_pos h]

end Crawler

/-! ## Walks -/

namespace RecordedLedger.Sound

variable {l : RecordedLedger} {address : String} {i j : Nat} {tx tx' : LedgerTransaction}

theorem orderedOf (h : l.Sound) (address : String) :
    (l.historyOf address).Pairwise fun earlier later => earlier.slot ≤ later.slot :=
  h.ordered.sublist (l.historyOf_sublist address)

theorem nodup_index (h : l.Sound) (address : String) : ((l.index address).map (·.signature)).Nodup :=
  RecordedLedger.nodup_index (RecordedLedger.nodup_historyOf h.distinct address)

theorem eq_of_signature (h : l.Sound) (hi : (l.historyOf address)[i]? = some tx)
    (hj : (l.historyOf address)[j]? = some tx') (hsignature : tx.signature = tx'.signature) : i = j := by
  have hlt := (List.getElem?_eq_some_iff.mp hi).1
  refine (List.getElem?_inj (by simpa using hlt) (RecordedLedger.nodup_historyOf h.distinct address)).mp ?_
  rw [List.getElem?_map, List.getElem?_map, hi, hj, Option.map_some, Option.map_some, hsignature]

theorem lt_of_slot (h : l.Sound) (hi : (l.historyOf address)[i]? = some tx)
    (hj : (l.historyOf address)[j]? = some tx') (hslot : tx.slot < tx'.slot) : i < j := by
  obtain ⟨hilt, rfl⟩ := List.getElem?_eq_some_iff.mp hi
  obtain ⟨hjlt, rfl⟩ := List.getElem?_eq_some_iff.mp hj
  by_contra hle
  rcases Nat.lt_or_eq_of_le (Nat.le_of_not_lt hle) with hlt | rfl
  · have hordered := List.pairwise_iff_getElem.mp (h.orderedOf address) j i hjlt hilt hlt
    omega
  · omega

end RecordedLedger.Sound

/-- The newest entry of an index is that of the last transaction. -/
theorem exists_concat_of_index {older : List LedgerTransaction} {info : SignatureInfo} {below : List SignatureInfo}
    (h : (older.map (·.info)).reverse = info :: below) : ∃ before tx, older = before ++ [tx] ∧ tx.info = info := by
  rw [List.reverse_eq_iff, List.reverse_cons] at h
  obtain ⟨before, last, rfl, -, hlast⟩ := List.map_eq_append_iff.mp h
  obtain ⟨tx, rfl, hinfo⟩ := List.map_eq_singleton_iff.mp hlast
  exact ⟨before, tx, rfl, hinfo⟩

/-- What a walk keeps joins up with a watermark that it went down to, or that is not below the slot where it ended. -/
theorem Joined.of_ends {l : RecordedLedger} {address : String} {s : Store} {row : WatermarkRow} {b : WalkBounds} {ending : PageEnd}
    {older rest : List LedgerTransaction} (h : Joined (l.historyOf address) s 0 row) (hsound : l.Sound)
    (hhistory : l.historyOf address = older ++ rest) (hends : b.Ends ending (older.map (·.info)).reverse)
    (hstop : b.stopAt = none ∨ b.stopAt = row.latestSignature)
    (hslot : ending = .belowFromSlot → row.latestSignature = none ∨
      ∃ slot, b.fromSlot = some slot ∧ slot ≤ row.checkedUpToSlot) : Joined (l.historyOf address) s older.length row := by
  rcases h with hfresh | ⟨i, j, hspans, -⟩
  · exact Or.inl hfresh
  · refine Or.inr ⟨i, j, hspans, ?_⟩
    obtain ⟨last, hj, hlatest, hchecked, -⟩ := hspans.latest
    -- The newest transaction that the walk left out has the place before the walk begins.
    have hplace : ∀ {before : List LedgerTransaction} {tx : LedgerTransaction}, older = before ++ [tx] →
        (l.historyOf address)[before.length]? = some tx := by
      rintro before tx rfl
      rw [hhistory]
      simp
    cases ending with
    | exhausted =>
      have hnil : older = [] := by simpa [WalkBounds.Ends] using hends
      rw [hnil]
      exact Nat.zero_le _
    | reachedUntil =>
      obtain ⟨info, below, hindex, hmet⟩ := hends
      obtain ⟨before, tx, hconcat, rfl⟩ := exists_concat_of_index hindex
      have hsignature : tx.signature = last.signature := by
        rcases hstop with hnone | hsame
        · rw [hnone] at hmet
          cases hmet
        · rw [hmet, hlatest] at hsame
          exact Option.some.inj hsame
      have heq := hsound.eq_of_signature (hplace hconcat) hj hsignature
      rw [hconcat, List.length_append, List.length_singleton]
      omega
    | belowFromSlot =>
      obtain ⟨info, below, slot, hindex, hfrom, hlt⟩ := hends
      obtain ⟨before, tx, hconcat, rfl⟩ := exists_concat_of_index hindex
      have hle : slot ≤ last.slot := by
        rcases hslot rfl with hnone | ⟨slot', hfrom', hle⟩
        · rw [hnone] at hlatest
          cases hlatest
        · rw [hfrom] at hfrom'
          cases hfrom'
          exact hchecked ▸ hle
      have hbefore := hsound.lt_of_slot (hplace hconcat) hj (show tx.slot < last.slot from Int.lt_of_lt_of_le hlt hle)
      rw [hconcat, List.length_append, List.length_singleton]
      omega

/-- What a walk kept is a piece of the history that the index of the address lists. -/
theorem RecordedLedger.Sound.exists_piece {l : RecordedLedger} (h : l.Sound) (address : String) (b : WalkBounds) :
    ∃ older piece later, l.historyOf address = older ++ piece ++ later ∧
      (b.scan (l.index address)).1.reverse = piece.map (·.info) ∧
      b.Ends (b.scan (l.index address)).2 (older.map (·.info)).reverse := by
  have hordered : (l.index address).Pairwise fun x y => y.slot ≤ x.slot := by
    rw [RecordedLedger.index, List.pairwise_reverse, List.pairwise_map]
    exact h.orderedOf address
  obtain ⟨above, below, hindex, hends, -⟩ := b.scan_split hordered
  have hhistory : (l.historyOf address).map (·.info) =
      below.reverse ++ (b.scan (l.index address)).1.reverse ++ above.reverse := by
    rw [← List.reverse_append, ← List.reverse_append, ← List.append_assoc, ← hindex, RecordedLedger.index,
      List.reverse_reverse]
  obtain ⟨front, later, hfront, hmap, -⟩ := List.map_eq_append_iff.mp hhistory
  obtain ⟨older, piece, rfl, holder, hpiece⟩ := List.map_eq_append_iff.mp hmap
  refine ⟨older, piece, later, hfront, hpiece.symm, ?_⟩
  rwa [holder, List.reverse_reverse]

/-! ## Crawls -/

/-- Opening a watermark writes nothing else, and gives the one of the address. -/
theorem Session.run_openWatermark {account description : String} {s s' : Store} {row : WatermarkRow}
    (h : (openWatermark account description).run s = .ok (row, s')) :
    s'.transactions = s.transactions ∧ s'.details = s.details ∧ row ∈ s'.watermarks.rows ∧ row.account = account ∧
      ∀ row' ∈ s'.watermarks.rows, row'.Fresh ∨ row' ∈ s.watermarks.rows := by
  have hfound := (Table.find?_insertNew s.watermarks { account, description } account).trans (if_pos rfl)
  cases h
  refine ⟨rfl, rfl, ?_, ?_, fun row' hrow' => ?_⟩
  · simp only [hfound, Option.getD_some]
    exact Table.mem_of_find? hfound
  · simp only [hfound, Option.getD_some]
    exact Table.key_of_find? hfound
  · rcases Table.mem_rows_insertNew hrow' with rfl | hold
    · exact Or.inl ⟨rfl, rfl, rfl⟩
    · exact Or.inr hold

namespace World.Safe

variable {w w' : World}

theorem of_alike (h : w.Safe) (halike : w.Alike w') : w'.Safe :=
  h.of_extends (.of_alike halike)

theorem openWatermark (account description : String) (h : w.Safe) :
    ∃ result w', (World.session (Session.openWatermark account description)).outcome w = (result, w') ∧ w'.Safe ∧
      ∀ row, result = .ok row → row ∈ w'.database.store.watermarks.rows ∧ row.account = account := by
  rcases World.outcome_session (Session.openWatermark account description) w with
    ⟨failure, w', ho, hext⟩ | ⟨row, w', ho, hledger, hrun⟩
  · exact ⟨_, w', ho, h.of_extends hext, fun _ heq => nomatch heq⟩
  · obtain ⟨htransactions, hdetails, hrow, haccount, hrows⟩ := Session.run_openWatermark hrun
    refine ⟨_, w', ho, h.of_watermarks hledger hdetails fun row' hrow' => ?_, fun _ heq => ?_⟩
    · rcases hrows row' hrow' with hfresh | hold
      · exact Or.inl hfresh
      · refine (h.watermarks row' hold).mono (fun a tx hstored => ?_) (List.prefix_refl _)
        rw [Stored, htransactions, hdetails]
        exact hstored
    · cases heq
      exact ⟨hrow, haccount⟩

end World.Safe

namespace Crawler

variable {w w' : World}

theorem safe_processAll_of_walk (c : Crawler) {b : WalkBounds} {row : WatermarkRow} {walk : Walk} {advance : Bool}
    (batchSize : Int) (h : w.Safe) (hrow : row ∈ w.database.store.watermarks.rows) (haccount : row.account = c.address)
    (hstop : b.stopAt = none ∨ b.stopAt = row.latestSignature) (hwalk : (c.paging.walk b).outcome w = (.ok walk, w'))
    (hadvance : advance = true → walk.connected = true ∨ row.latestSignature = none ∨
      ∃ slot, b.fromSlot = some slot ∧ slot ≤ row.checkedUpToSlot) :
    ((c.processAll walk.signatures batchSize advance).outcome w').2.Safe := by
  obtain ⟨halike, hcollected⟩ := c.paging.outcome_walk b h.ledger.pages (h.ledger.nodup_index c.address)
  rw [hwalk] at halike hcollected
  have hsafe := h.of_alike halike
  rcases hcollected walk rfl with hstopped | ⟨hsignatures, hconnected⟩
  · rw [c.outcome_processAll_of_stopped walk.signatures batchSize advance hstopped]
    exact hsafe
  · obtain ⟨older, piece, later, hhistory, hpiece, hends⟩ := h.ledger.exists_piece c.address b
    refine c.safe_processAll batchSize hsafe (halike.ledger ▸ hhistory) (hsignatures.trans hpiece) ?_
    intro hadv row' hrow' haccount'
    have hrow₁ : row' ∈ w.database.store.watermarks.rows := halike.database ▸ hrow'
    have hsame : row' = row := List.inj_on_of_nodup_map w.database.store.watermarks.nodup hrow₁ hrow
      (haccount'.trans haccount.symm)
    subst hsame
    rw [halike.ledger, halike.database]
    rw [List.append_assoc] at hhistory
    refine (haccount ▸ h.watermarks row' hrow).of_ends h.ledger hhistory hends hstop fun hbelow => ?_
    rcases hadvance hadv with hconn | hbound
    · exact absurd hbelow (hconnected.mp hconn)
    · exact hbound

/-- A crawl whose walk fails ends there, and otherwise goes on with what the walk collected. -/
theorem walk_induction (c : Crawler) {b : WalkBounds} {P : World → Prop} {aborted : Failure → IngestResult}
    {process : Walk → Attempt World IngestResult} (hsound : w.ledger.Sound) (hfail : ∀ w', w.Alike w' → P w')
    (hprocess : ∀ walk w', (c.paging.walk b).outcome w = (.ok walk, w') → w.Alike w' →
      P ((process walk).outcome w').2) :
    P (Attempt.outcome (do
      match ← (c.paging.walk b).settle with
      | .error failure => if failure.isTransient then return aborted failure else throw failure
      | .ok walk => process walk) w).2 := by
  have halike := (c.paging.outcome_walk b hsound.pages (hsound.nodup_index c.address)).1
  rw [Attempt.outcome_bind_of_ok (Attempt.outcome_settle _ w)]
  rcases hwalk : (c.paging.walk b).outcome w with ⟨failure | walk, w'⟩
  · rw [hwalk] at halike
    by_cases htransient : failure.isTransient = true
    · simp only [if_pos htransient]
      exact hfail w' halike
    · simp only [if_neg htransient]
      exact hfail w' halike
  · rw [hwalk] at halike
    exact hprocess walk w' hwalk halike

theorem safe_backfill (c : Crawler) (r : BackfillRequest) (h : w.Safe) : ((c.backfill r).outcome w).2.Safe := by
  obtain ⟨result, w₁, hopen, hsafe, hopened⟩ := h.openWatermark c.address c.description
  rw [backfill]
  rcases result with failure | row
  · rw [Attempt.outcome_bind_of_error hopen]
    exact hsafe
  · obtain ⟨hrow, haccount⟩ := hopened row rfl
    rw [Attempt.outcome_bind_of_ok hopen]
    refine c.walk_induction hsafe.ledger (fun _ => hsafe.of_alike) fun walk w₂ hwalk _ => ?_
    rw [Attempt.outcome_bind_pure_snd]
    refine c.safe_processAll_of_walk _ hsafe hrow haccount ?_ hwalk fun hadvance => ?_
    · by_cases hreprocess : r.reprocess = true
      · exact Or.inl (if_pos hreprocess)
      · exact Or.inr (if_neg hreprocess)
    · simp only [Bool.or_eq_true, Option.isNone_iff_eq_none, Option.any_eq_true, decide_eq_true_eq] at hadvance
      exact or_assoc.mp hadvance

theorem safe_gapFill (c : Crawler) (h : w.Safe) : (c.gapFill.outcome w).2.Safe := by
  rw [gapFill]
  rcases World.outcome_session (Session.watermark? c.address) w with
    ⟨failure, w₁, ho, hext⟩ | ⟨row?, w₁, ho, hledger, hrun⟩
  · rw [Attempt.outcome_bind_of_error ho]
    exact h.of_extends hext
  · rw [Attempt.outcome_bind_of_ok ho]
    obtain ⟨hfind, hstore⟩ := Prod.mk.inj (Except.ok.inj hrun)
    have hsafe : w₁.Safe := h.of_extends ⟨hledger, [], hstore.symm, fun _ hc => nomatch hc⟩
    cases hlatest : row?.bind (·.latestSignature) with
    | none => exact hsafe
    | some latest =>
      obtain ⟨row, rfl, hrowLatest⟩ := Option.bind_eq_some_iff.mp hlatest
      have hrow : row ∈ w₁.database.store.watermarks.rows := hstore ▸ Table.mem_of_find? hfind
      have haccount : row.account = c.address := Table.key_of_find? hfind
      refine c.walk_induction hsafe.ledger (fun _ => hsafe.of_alike) fun walk w₂ hwalk halike => ?_
      cases hempty : walk.signatures.isEmpty with
      | true => exact hsafe.of_alike halike
      | false =>
        simp only [Bool.false_eq_true, if_false]
        rw [Attempt.outcome_bind_pure_snd]
        exact c.safe_processAll_of_walk _ hsafe hrow haccount (Or.inr hrowLatest.symm) hwalk Or.inl

end Crawler

/-! ## Runs -/

/-- A transaction whose row is stored and, if it took effect, the details of all events that it tells of a program. -/
def Processed (address : String) (tx : LedgerTransaction) (s : Store) : Prop :=
  (s.transactions.find? tx.signature).isSome ∧ (tx.isFailed = false → ∀ e ∈ eventsOf address tx.logs,
    s.details.find? (tx.signature, e.logIndex) = some (e.detail tx.signature))

namespace World

/-- Between two calls the history may grow. What will fail and whether a stop is asked for may change at will. -/
structure Meanwhile (w w' : World) : Prop where
  store : w'.database.store = w.database.store
  history : w.ledger.history <+: w'.ledger.history
  lists : w'.ledger.lists = w.ledger.lists
  ledger : w'.ledger.Sound

/-- What may happen to a world. -/
inductive Step : World → World → Prop where
  | backfill (w : World) (c : Crawler) (r : BackfillRequest) : Step w ((c.backfill r).outcome w).2
  | gapFill (w : World) (c : Crawler) : Step w (c.gapFill.outcome w).2
  | live (w : World) (h : LiveHandler) (signatures : List String) (stats : LiveStats) :
      Step w ((h.handleAll signatures stats).run w).2
  | meanwhile (w w' : World) : w.Meanwhile w' → Step w w'

/-- A world that a run from an empty store leads to. -/
inductive Reachable : World → Prop where
  | start (w : World) : w.ledger.Sound → w.database.store = {} → Reachable w
  | step {w w' : World} : Reachable w → Step w w' → Reachable w'

variable {w w' : World}

theorem Safe.start (hledger : w.ledger.Sound) (hstore : w.database.store = {}) : w.Safe := by
  refine ⟨hledger, fun row hrow => ?_, fun row hrow => ?_⟩ <;>
    · rw [hstore] at hrow
      cases hrow

theorem Safe.meanwhile (h : w.Safe) (hmean : w.Meanwhile w') : w'.Safe := by
  refine ⟨hmean.ledger, fun row hrow => ?_, fun row hrow => ?_⟩
  · rw [hmean.store] at hrow
    obtain ⟨signature, e, heq, tx, htx, htold⟩ := h.details row hrow
    exact ⟨signature, e, heq, tx, hmean.history.subset htx, htold⟩
  · rw [hmean.store] at hrow ⊢
    exact (h.watermarks row hrow).mono (fun _ _ hstored => hstored)
      (RecordedLedger.historyOf_prefix hmean.history hmean.lists row.account)

theorem Safe.step (h : w.Safe) (hstep : Step w w') : w'.Safe := by
  cases hstep with
  | backfill c r => exact c.safe_backfill r h
  | gapFill c => exact c.safe_gapFill h
  | live handler signatures stats => exact h.of_extends (handler.extends_handleAll signatures stats w)
  | meanwhile _ hmean => exact h.meanwhile hmean

theorem Reachable.safe (h : Reachable w) : w.Safe := by
  induction h with
  | start _ hledger hstore => exact .start hledger hstore
  | step _ hstep ih => exact ih.step hstep

/-- A detail that is stored for a line of a transaction is that of the event on the line. -/
theorem Safe.processed (h : w.Safe) {address : String} {tx : LedgerTransaction} (htx : tx ∈ w.ledger.history)
    (hstored : Stored address tx w.database.store) : Processed address tx w.database.store := by
  refine ⟨hstored.1, fun hfailed e he => ?_⟩
  obtain ⟨row, hrow⟩ := Option.isSome_iff_exists.mp (hstored.2 hfailed e he)
  obtain ⟨signature, e', rfl, tx', htx', rfl, source, he'⟩ := h.details row (Table.mem_of_find? hrow)
  have hkey := (Event.detail_key tx'.signature e').symm.trans (Table.key_of_find? hrow)
  obtain ⟨hsignature, hindex⟩ := Prod.mk.inj hkey
  have hsame : tx' = tx := List.inj_on_of_nodup_map h.ledger.distinct htx' htx hsignature
  subst hsame
  rw [hrow, eq_of_logIndex he' he hindex]

/-- All of the history of an address from the first signature of its watermark to the latest is processed, and the slot up
to which it checked is that of the latest. -/
theorem Reachable.watermark_safe (h : Reachable w) {address latest : String} {row : WatermarkRow}
    (hrow : w.database.store.watermarks.find? address = some row) (hlatest : row.latestSignature = some latest) :
    ∃ (i j : Nat) (first last : LedgerTransaction), (w.ledger.historyOf address)[i]? = some first ∧
      row.firstSignature = some first.signature ∧ (w.ledger.historyOf address)[j]? = some last ∧
      last.signature = latest ∧ row.checkedUpToSlot = last.slot ∧
      Processed address first w.database.store ∧ Processed address last w.database.store ∧
      ∀ k tx, i ≤ k → k ≤ j → (w.ledger.historyOf address)[k]? = some tx → Processed address tx w.database.store := by
  have hsafe := h.safe
  have haccount : row.account = address := Table.key_of_find? hrow
  rcases hsafe.watermarks row (Table.mem_of_find? hrow) with hfresh | ⟨i, j, hspans, -⟩
  · rw [hfresh.latest] at hlatest
    cases hlatest
  · obtain ⟨first, hi, hfirst, hfirstStored⟩ := hspans.first
    obtain ⟨last, hj, hlast, hslot, hlastStored⟩ := hspans.latest
    subst haccount
    refine ⟨i, j, first, last, hi, hfirst, hj, Option.some.inj (hlast.symm.trans hlatest), hslot,
      hsafe.processed (RecordedLedger.mem_of_mem_historyOf (List.mem_of_getElem? hi)) hfirstStored,
      hsafe.processed (RecordedLedger.mem_of_mem_historyOf (List.mem_of_getElem? hj)) hlastStored, ?_⟩
    intro k tx hik hkj hk
    exact hsafe.processed (RecordedLedger.mem_of_mem_historyOf (List.mem_of_getElem? hk)) (hspans.between k tx hik hkj hk)

/-- A ledger whose newest transaction cannot be fetched yet. -/
def smallLedger : RecordedLedger where
  history := [⟨"create", 1, none, [], .null⟩, ⟨"swap", 2, none, [], .null⟩, ⟨"repay", 2, none, [], .null⟩]
  switches := { missing := ["repay"] }

/-- The world after a first backfill from it. -/
def smallWorld : World :=
  (Attempt.outcome (Crawler.backfill { address := "pool", batchSize := 2 } {}) { ledger := smallLedger }).2

def smallWatermark : WatermarkRow where
  account := "pool"
  latestSignature := some "swap"
  firstSignature := some "create"
  checkedUpToSlot := 2

theorem watermark_safe_smallWorld :
    Reachable smallWorld ∧ smallWorld.database.store.watermarks.find? "pool" = some smallWatermark ∧
      ∃ (i j : Nat) (first last : LedgerTransaction), (smallWorld.ledger.historyOf "pool")[i]? = some first ∧
        smallWatermark.firstSignature = some first.signature ∧ (smallWorld.ledger.historyOf "pool")[j]? = some last ∧
        last.signature = "swap" ∧ smallWatermark.checkedUpToSlot = last.slot ∧
        Processed "pool" first smallWorld.database.store ∧ Processed "pool" last smallWorld.database.store ∧
        ∀ k tx, i ≤ k → k ≤ j → (smallWorld.ledger.historyOf "pool")[k]? = some tx →
          Processed "pool" tx smallWorld.database.store := by
  have hsound : smallLedger.Sound := ⟨by decide, by decide, by decide, rfl⟩
  have hreachable : Reachable smallWorld := .step (.start { ledger := smallLedger } hsound rfl) (.backfill _ _ _)
  have hrow : smallWorld.database.store.watermarks.find? "pool" = some smallWatermark := by decide +kernel
  exact ⟨hreachable, hrow, hreachable.watermark_safe hrow rfl⟩

end World

end PairIndex
