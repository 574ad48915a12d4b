import PairIndex.Proofs.Ingest.Convergence
import PairIndex.Proofs.Ingest.Quiet

/-! Processing a transaction again. What a commit wrote is found in the store after whatever commits came later, as long
as creations of one pair and of one position tell the same (`Commit.settled_applyAll`). So a transaction that was stored
as a whole may be processed again at any later time: nothing changes, and what is counted as stale are the events that
carry a state (`Call.replay_changes_nothing`). -/

namespace PairIndex

/-! ## Changes that a row shows already -/

theorem PairRow.latestSeqNum_advance (seqNum : Int) (state : PairAmounts) (row : PairRow) :
    (row.advance seqNum state).latestSeqNum = max row.latestSeqNum seqNum := by
  by_cases hnewer : row.latestSeqNum < seqNum
  · rw [PairRow.advance, if_pos hnewer]
    exact (Int.max_eq_right (Int.le_of_lt hnewer)).symm
  · rw [PairRow.advance, if_neg hnewer]
    exact (Int.max_eq_left (Int.not_lt.mp hnewer)).symm

namespace PositionRow

variable (seqNum : Int) (state : PositionAmounts) (liquidated : Bool) (row : PositionRow)

theorem latestSeqNum_advance :
    (row.advance seqNum state liquidated).latestSeqNum = max row.latestSeqNum seqNum := by
  by_cases hnewer : row.latestSeqNum < seqNum
  · rw [advance, if_pos hnewer]
    exact (Int.max_eq_right (Int.le_of_lt hnewer)).symm
  · rw [advance, if_neg hnewer]
    exact (Int.max_eq_left (Int.not_lt.mp hnewer)).symm

theorem withIdentity_advance (userAddress pairAddress : String) :
    (row.advance seqNum state liquidated).withIdentity userAddress pairAddress =
      (row.withIdentity userAddress pairAddress).advance seqNum state liquidated := by
  by_cases hnewer : row.latestSeqNum < seqNum <;> simp [advance, withIdentity, hnewer]

end PositionRow

namespace PairChange

/-- A change that the row of a pair shows already: it was made, or a newer one. -/
def Settled : PairChange → PairRow → Prop
  | .created token0 token1 creator createdAt, row => row.withIdentity token0 token1 creator createdAt = row
  | .moved seqNum _, row => seqNum ≤ row.latestSeqNum

/-- Two changes that are not different creations. -/
def SameCreation : PairChange → PairChange → Prop
  | .created token0 token1 creator createdAt, .created token0' token1' creator' createdAt' =>
    token0 = token0' ∧ token1 = token1' ∧ creator = creator' ∧ createdAt = createdAt'
  | _, _ => True

theorem settled_apply (change : PairChange) (row : PairRow) : change.Settled (change.apply row) := by
  cases change with
  | created => rfl
  | moved seqNum state =>
    rw [Settled, apply, PairRow.latestSeqNum_advance]
    exact Int.le_max_right ..

theorem Settled.apply_eq {change : PairChange} {row : PairRow} (h : change.Settled row) : change.apply row = row := by
  cases change with
  | created => exact h
  | moved seqNum state => exact PairRow.advance_of_not_lt state row (Int.not_lt.mpr h)

/-- A change stays settled under later changes. -/
theorem Settled.after {change other : PairChange} {row : PairRow} (h : change.Settled row)
    (hsame : change.SameCreation other) : change.Settled (other.apply row) := by
  cases change with
  | created token0 token1 creator createdAt =>
    cases other with
    | created token0' token1' creator' createdAt' =>
      obtain ⟨rfl, rfl, rfl, rfl⟩ := hsame
      rfl
    | moved seqNum state => exact (PairRow.withIdentity_advance ..).trans (congrArg (PairRow.advance seqNum state) h)
  | moved seqNum state =>
    cases other with
    | created => exact h
    | moved seqNum' state' =>
      rw [Settled, apply, PairRow.latestSeqNum_advance]
      exact Int.le_trans h (Int.le_max_left ..)

end PairChange

namespace PositionChange

/-- A change that the row of a position shows already: it was made, or a newer one. -/
def Settled : PositionChange → PositionRow → Prop
  | .created userAddress pairAddress, row => row.withIdentity userAddress pairAddress = row
  | .moved seqNum _ _, row => seqNum ≤ row.latestSeqNum

/-- Two changes that are not different creations. -/
def SameCreation : PositionChange → PositionChange → Prop
  | .created userAddress pairAddress, .created userAddress' pairAddress' =>
    userAddress = userAddress' ∧ pairAddress = pairAddress'
  | _, _ => True

theorem settled_apply (change : PositionChange) (row : PositionRow) : change.Settled (change.apply row) := by
  cases change with
  | created => rfl
  | moved seqNum state liquidated =>
    rw [Settled, apply, PositionRow.latestSeqNum_advance]
    exact Int.le_max_right ..

theorem Settled.apply_eq {change : PositionChange} {row : PositionRow} (h : change.Settled row) :
    change.apply row = row := by
  cases change with
  | created => exact h
  | moved seqNum state liquidated => exact if_neg (Int.not_lt.mpr h)

/-- A change stays settled under later changes. -/
theorem Settled.after {change other : PositionChange} {row : PositionRow} (h : change.Settled row)
    (hsame : change.SameCreation other) : change.Settled (other.apply row) := by
  cases change with
  | created userAddress pairAddress =>
    cases other with
    | created userAddress' pairAddress' =>
      obtain ⟨rfl, rfl⟩ := hsame
      rfl
    | moved seqNum state liquidated =>
      exact (PositionRow.withIdentity_advance ..).trans (congrArg (PositionRow.advance seqNum state liquidated) h)
  | moved seqNum state liquidated =>
    cases other with
    | created => exact h
    | moved seqNum' state' liquidated' =>
      rw [Settled, apply, PositionRow.latestSeqNum_advance]
      exact Int.le_trans h (Int.le_max_left ..)

end PositionChange

/-! ## Creations -/

/-- What is kept of the creation of a position. -/
structure PositionCreation where
  positionAddress : String
  user : PublicKey
  pair : PublicKey
  deriving DecidableEq

namespace EventBody

def positionCreation? : EventBody → Option PositionCreation
  | .positionCreated user pair position _ => some ⟨position.toText, user, pair⟩
  | _ => none

theorem positionCreation?_of_created {body : EventBody} {fresh : PositionRow} {userAddress pairAddress : String}
    (h : body.positionChange? = some (fresh, .created userAddress pairAddress)) :
    ∃ user pair, body.positionCreation? = some ⟨fresh.positionAddress, user, pair⟩ ∧ user.toText = userAddress ∧
      pair.toText = pairAddress := by
  cases body <;> simp [positionChange?, positionMove?] at h
  obtain ⟨rfl, h⟩ := h
  exact ⟨_, _, rfl, h⟩

/-- Whether an event carries a numbered state of its pair or its position. -/
def isNumbered : EventBody → Bool
  | .swap .. | .mint .. | .burn .. | .updatePair .. | .positionUpdated .. | .positionLiquidated .. => true
  | _ => false

theorem pairChange?_of_pairMove? {body : EventBody} {state : PairState} {m : EventMetadata}
    (h : body.pairMove? = some (state, m)) :
    body.pairChange? = some (m.pair.toText, .moved m.seqNum.toNat state.amounts) := by
  cases body <;> simp [pairMove?] at h <;> simp [pairChange?, pairMove?, h]

theorem positionChange?_of_positionMove? {body : EventBody} {move : PositionMove} (h : body.positionMove? = some move) :
    ∃ fresh, fresh.positionAddress = move.position.toText ∧ body.positionChange? =
      some (fresh, .moved move.metadata.seqNum.toNat move.state.amounts move.liquidated) := by
  cases body <;> simp [positionMove?] at h <;> simp [positionChange?, positionMove?, ← h]

theorem isNumbered_eq (body : EventBody) : body.isNumbered = (body.pairMove?.isSome || body.positionMove?.isSome) := by
  cases body <;> rfl

end EventBody

namespace Commit

def pairCreation? (c : Commit) : Option PairCreation :=
  c.event?.bind fun (_, body) => body.creation?

def positionCreation? (c : Commit) : Option PositionCreation :=
  c.event?.bind fun (_, body) => body.positionCreation?

def positionChange? (c : Commit) : Option (PositionRow × PositionChange) :=
  c.event?.bind fun (_, body) => body.positionChange?

/-- The creations of a pair and those of a position tell the same. -/
structure CreationsAgree (cs : List Commit) : Prop where
  pairs : ∀ c ∈ cs, ∀ d ∈ cs, ∀ a ∈ c.pairCreation?, ∀ b ∈ d.pairCreation?, a.pairAddress = b.pairAddress → a = b
  positions : ∀ c ∈ cs, ∀ d ∈ cs, ∀ a ∈ c.positionCreation?, ∀ b ∈ d.positionCreation?,
    a.positionAddress = b.positionAddress → a = b

/-- What a commit writes is in the store: the keys of its rows are taken, and its pair and its position show its changes
or newer ones. -/
structure Settled (c : Commit) (s : Store) : Prop where
  transactions : s.transactions.Holds c.transactionRow?
  details : s.details.Holds c.detailRow?
  swaps : s.swaps.Holds (c.event?.bind fun (signature, body) => body.swapRow? signature)
  liquidityChanges : s.liquidityChanges.Holds (c.event?.bind fun (signature, body) => body.liquidityRow? signature)
  pricePoints : s.pricePoints.Holds (c.event?.bind fun (signature, body) => body.pricePointRow? signature)
  pairStates : s.pairStates.Holds (c.event?.bind fun (signature, body) => body.pairStateRow? signature)
  liquidations : s.liquidations.Holds (c.event?.bind fun (signature, body) => body.liquidationRow? signature)
  pair : ∀ address change, c.pairChange? = some (address, change) →
    ∃ row, s.pairs.find? address = some row ∧ change.Settled row
  position : ∀ fresh change, c.positionChange? = some (fresh, change) →
    ∃ row, s.positions.find? fresh.positionAddress = some row ∧ change.Settled row

theorem find?_positions_apply (c : Commit) (s : Store) (address : String) :
    (c.apply s).positions.find? address =
      match c.positionChange? with
      | none => s.positions.find? address
      | some (fresh, change) =>
        if fresh.positionAddress = address then some (change.apply ((s.positions.find? address).getD fresh))
        else s.positions.find? address := by
  cases c with
  | transaction row => rfl
  | event signature e => exact find?_positions_event signature e s address

/-- A commit is settled once it was made. -/
theorem settled_apply_self (c : Commit) (s : Store) : c.Settled (c.apply s) where
  transactions := s.transactions.holds_insertIfAny_self _
  details := s.details.holds_insertIfAny_self _
  swaps := s.swaps.holds_insertIfAny_self _
  liquidityChanges := s.liquidityChanges.holds_insertIfAny_self _
  pricePoints := s.pricePoints.holds_insertIfAny_self _
  pairStates := s.pairStates.holds_insertIfAny_self _
  liquidations := s.liquidations.holds_insertIfAny_self _
  pair := by
    intro address change hchange
    refine ⟨_, ?_, change.settled_apply ((s.pairs.find? address).getD { pairAddress := address })⟩
    rw [find?_pairs_apply, pairAfter, hchange]
    exact if_pos rfl
  position := by
    intro fresh change hchange
    refine ⟨_, ?_, change.settled_apply ((s.positions.find? fresh.positionAddress).getD fresh)⟩
    rw [find?_positions_apply, hchange]
    exact if_pos rfl

/-- Making a settled commit again changes nothing. -/
theorem Settled.apply_eq {c : Commit} {s : Store} (h : c.Settled s) : c.apply s = s := by
  have hpairs : s.pairs.upsertIfAny (c.event?.bind (·.2.pairUpsert?)) = s.pairs := by
    refine Table.upsertIfAny_of_fixed fun u hu => ?_
    obtain ⟨⟨signature, body⟩, hevent, hu⟩ := Option.bind_eq_some_iff.mp hu
    obtain ⟨⟨address, change⟩, hchange, rfl⟩ := Option.map_eq_some_iff.mp hu
    obtain ⟨row, hfind, hsettled⟩ := h.pair address change (by rw [pairChange?, hevent]; exact hchange)
    exact ⟨row, hfind, hsettled.apply_eq⟩
  have hpositions : s.positions.upsertIfAny (c.event?.bind (·.2.positionUpsert?)) = s.positions := by
    refine Table.upsertIfAny_of_fixed fun u hu => ?_
    obtain ⟨⟨signature, body⟩, hevent, hu⟩ := Option.bind_eq_some_iff.mp hu
    obtain ⟨⟨fresh, change⟩, hchange, rfl⟩ := Option.map_eq_some_iff.mp hu
    obtain ⟨row, hfind, hsettled⟩ := h.position fresh change (by rw [positionChange?, hevent]; exact hchange)
    exact ⟨row, hfind, hsettled.apply_eq⟩
  rw [apply, h.transactions.insertIfAny_eq, h.details.insertIfAny_eq, h.swaps.insertIfAny_eq,
    h.liquidityChanges.insertIfAny_eq, h.pricePoints.insertIfAny_eq, h.pairStates.insertIfAny_eq,
    h.liquidations.insertIfAny_eq, hpairs, hpositions]

namespace CreationsAgree

variable {cs : List Commit} {c d : Commit}

theorem pair_sameCreation (h : CreationsAgree cs) (hc : c ∈ cs) (hd : d ∈ cs) {address : String} {a b : PairChange}
    (ha : c.pairChange? = some (address, a)) (hb : d.pairChange? = some (address, b)) : a.SameCreation b := by
  obtain ⟨⟨signature, body⟩, hevent, ha⟩ := Option.bind_eq_some_iff.mp ha
  obtain ⟨⟨signature', body'⟩, hevent', hb⟩ := Option.bind_eq_some_iff.mp hb
  cases a with
  | moved => trivial
  | created token0 token1 creator createdAt =>
    cases b with
    | moved => trivial
    | created token0' token1' creator' createdAt' =>
      obtain ⟨t0, t1, cr, timestamp, hcreation, rfl, rfl, rfl, rfl⟩ := EventBody.creation?_of_created ha
      obtain ⟨t0', t1', cr', timestamp', hcreation', rfl, rfl, rfl, rfl⟩ := EventBody.creation?_of_created hb
      have hleft : c.pairCreation? = some ⟨address, t0, t1, cr, timestamp⟩ := by
        rw [pairCreation?, hevent]
        exact hcreation
      have hright : d.pairCreation? = some ⟨address, t0', t1', cr', timestamp'⟩ := by
        rw [pairCreation?, hevent']
        exact hcreation'
      cases h.pairs c hc d hd _ hleft _ hright rfl
      exact ⟨rfl, rfl, rfl, rfl⟩

theorem position_sameCreation (h : CreationsAgree cs) (hc : c ∈ cs) (hd : d ∈ cs) {fresh fresh' : PositionRow}
    {a b : PositionChange} (ha : c.positionChange? = some (fresh, a)) (hb : d.positionChange? = some (fresh', b))
    (haddress : fresh.positionAddress = fresh'.positionAddress) : a.SameCreation b := by
  obtain ⟨⟨signature, body⟩, hevent, ha⟩ := Option.bind_eq_some_iff.mp ha
  obtain ⟨⟨signature', body'⟩, hevent', hb⟩ := Option.bind_eq_some_iff.mp hb
  cases a with
  | moved => trivial
  | created userAddress pairAddress =>
    cases b with
    | moved => trivial
    | created userAddress' pairAddress' =>
      obtain ⟨user, pair, hcreation, rfl, rfl⟩ := EventBody.positionCreation?_of_created ha
      obtain ⟨user', pair', hcreation', rfl, rfl⟩ := EventBody.positionCreation?_of_created hb
      have hleft : c.positionCreation? = some ⟨fresh.positionAddress, user, pair⟩ := by
        rw [positionCreation?, hevent]
        exact hcreation
      have hright : d.positionCreation? = some ⟨fresh'.positionAddress, user', pair'⟩ := by
        rw [positionCreation?, hevent']
        exact hcreation'
      have hsame := h.positions c hc d hd _ hleft _ hright haddress
      rw [PositionCreation.mk.injEq] at hsame
      obtain ⟨-, rfl, rfl⟩ := hsame
      exact ⟨rfl, rfl⟩

end CreationsAgree

/-- A commit stays settled under one more commit. -/
theorem settled_apply {cs : List Commit} (hagree : CreationsAgree cs) {c d : Commit} (hc : c ∈ cs) (hd : d ∈ cs)
    {s : Store} (h : c.Settled s) : c.Settled (d.apply s) where
  transactions := h.transactions.insertIfAny _
  details := h.details.insertIfAny _
  swaps := h.swaps.insertIfAny _
  liquidityChanges := h.liquidityChanges.insertIfAny _
  pricePoints := h.pricePoints.insertIfAny _
  pairStates := h.pairStates.insertIfAny _
  liquidations := h.liquidations.insertIfAny _
  pair := by
    intro address change hchange
    obtain ⟨row, hfind, hsettled⟩ := h.pair address change hchange
    rw [find?_pairs_apply, pairAfter, hfind]
    cases hother : d.pairChange? with
    | none => exact ⟨row, rfl, hsettled⟩
    | some changed =>
      obtain ⟨address', other⟩ := changed
      by_cases hsame : address' = address
      · subst hsame
        exact ⟨other.apply row, if_pos rfl, hsettled.after (hagree.pair_sameCreation hc hd hchange hother)⟩
      · exact ⟨row, if_neg hsame, hsettled⟩
  position := by
    intro fresh change hchange
    obtain ⟨row, hfind, hsettled⟩ := h.position fresh change hchange
    rw [find?_positions_apply, hfind]
    cases hother : d.positionChange? with
    | none => exact ⟨row, rfl, hsettled⟩
    | some changed =>
      obtain ⟨fresh', other⟩ := changed
      by_cases hsame : fresh'.positionAddress = fresh.positionAddress
      · exact ⟨other.apply row, if_pos hsame,
          hsettled.after (hagree.position_sameCreation hc hd hchange hother hsame.symm)⟩
      · exact ⟨row, if_neg hsame, hsettled⟩

/-- A commit that was made is settled after whatever commits that agree with it. -/
theorem settled_applyAll {cs : List Commit} (hagree : CreationsAgree cs) {c : Commit} (hc : c ∈ cs) (s : Store) :
    c.Settled (applyAll cs s) := by
  obtain ⟨before, after, rfl⟩ := List.append_of_mem hc
  rw [applyAll_append, applyAll_cons]
  refine applyAll_induction after (fun d hd s hsettled => ?_) (c.settled_apply_self _)
  exact settled_apply hagree hc (List.mem_append_right _ (List.mem_cons_of_mem _ hd)) hsettled

/-- Of settled events those are stale that carry a state. -/
theorem Settled.isNewer_eq {signature : String} {e : Event} {s : Store} (h : (Commit.event signature e).Settled s) :
    e.body.isNewer s = !e.body.isNumbered := by
  rw [EventBody.isNumbered_eq, EventBody.isNewer]
  cases hpair : e.body.pairMove? with
  | some move =>
    obtain ⟨state, m⟩ := move
    obtain ⟨row, hfind, hsettled⟩ := h.pair _ _ (EventBody.pairChange?_of_pairMove? hpair)
    have hle : (m.seqNum.toNat : Int) ≤ row.latestSeqNum := hsettled
    simp [hfind, hle]
  | none =>
    cases hposition : e.body.positionMove? with
    | none => rfl
    | some move =>
      obtain ⟨fresh, haddress, hchange⟩ := EventBody.positionChange?_of_positionMove? hposition
      obtain ⟨row, hfind, hsettled⟩ := h.position _ _ hchange
      have hle : (move.metadata.seqNum.toNat : Int) ≤ row.latestSeqNum := hsettled
      rw [haddress] at hfind
      simp [hfind, hle]

end Commit

/-! ## Calls that were made before -/

namespace DecodedTransaction

/-- The events that processing a transaction applies. -/
def effects (tx : DecodedTransaction) : List Event :=
  if tx.failed then [] else tx.events

/-- What is answered when a transaction is processed again. -/
def replayed (tx : DecodedTransaction) : ProcessResult where
  signature := tx.signature
  type := tx.row.type
  status := tx.status
  isNew := false
  applied := tx.effects.countP fun e => !e.body.isNumbered
  stale := tx.effects.countP fun e => e.body.isNumbered
  failed := 0

/-- Events that are settled are applied without a trace. -/
theorem outcome_applyEvents_of_settled {signature : String} {events : List Event} {db : Database} (hquiet : db.Quiet)
    (hfits : ∀ e ∈ events, (Commit.event signature e).fits = true)
    (hsettled : ∀ e ∈ events, (Commit.event signature e).Settled db.store) (result : ProcessResult) :
    ((applyEvents signature events result).outcome db).1 = .ok
        { result with
          applied := result.applied + events.countP fun e => !e.body.isNumbered
          stale := result.stale + events.countP fun e => e.body.isNumbered } ∧
      ((applyEvents signature events result).outcome db).2.store = db.store := by
  induction events generalizing db result with
  | nil => exact ⟨rfl, rfl⟩
  | cons e rest ih =>
    have hfit := hfits e List.mem_cons_self
    have hdone := hsettled e List.mem_cons_self
    have hsame : (db.attempt (.event signature e)).store = db.store := by
      rw [Database.attempt, hquiet.failure?_eq_none hfit]
      exact hdone.apply_eq
    have hrest := ih (hquiet.attempt (.event signature e)) (fun e' he' => hfits e' (List.mem_cons_of_mem _ he'))
      (fun e' he' => hsame ▸ hsettled e' (List.mem_cons_of_mem _ he')) (counted (e.body.isNewer db.store) result)
    rw [outcome_applyEvents_cons, hquiet.failure?_eq_none hfit]
    refine ⟨hrest.1.trans (congrArg Except.ok ?_), hrest.2.trans hsame⟩
    rw [hdone.isNewer_eq, List.countP_cons, List.countP_cons]
    cases e.body.isNumbered with
    | true => simp [counted, Nat.add_assoc, Nat.add_comm 1]
    | false => simp [counted, Nat.add_assoc, Nat.add_comm 1]

/-- A transaction all of whose commits are settled is processed without a trace. -/
theorem outcome_process_of_settled {tx : DecodedTransaction} {db : Database} (hquiet : db.Quiet)
    (hfits : ∀ c ∈ tx.commits, c.fits = true) (hsettled : ∀ c ∈ tx.commits, c.Settled db.store) :
    (tx.process.outcome db).1 = .ok tx.replayed ∧ (tx.process.outcome db).2.store = db.store := by
  rw [commits, List.forall_mem_cons] at hfits hsettled
  obtain ⟨hrow, hfits⟩ := hfits
  obtain ⟨hrowSettled, hsettled⟩ := hsettled
  have hknown : (db.store.transactions.find? tx.row.key).isNone = false := by
    rw [Option.isNone_eq_false_iff]
    exact hrowSettled.transactions tx.row rfl
  have hsame : (db.attempt (.transaction tx.row)).store = db.store := by
    rw [Database.attempt, hquiet.failure?_eq_none hrow]
    exact hrowSettled.apply_eq
  rw [outcome_process, hquiet.failure?_eq_none hrow, replayed, effects]
  simp only [hknown]
  cases hfailed : tx.failed with
  | true => exact ⟨rfl, hsame⟩
  | false =>
    simp only [hfailed, Bool.false_eq_true, if_false, List.forall_mem_map] at hfits hsettled ⊢
    obtain ⟨ho, hstore⟩ := outcome_applyEvents_of_settled (hquiet.attempt (.transaction tx.row)) hfits
      (fun e he => hsame ▸ hsettled e he) (tx.begun false)
    simp only [begun, Nat.zero_add] at ho
    exact ⟨ho, hstore.trans hsame⟩

end DecodedTransaction

namespace Call

/-- Whether a call answers that no event failed. -/
def isOk (call : Call) (db : Database) : Bool :=
  match (call.attempt.outcome db).1 with
  | .ok r => r.isOk
  | .error _ => false

theorem outcome_attempt {call : Call} {tx : DecodedTransaction} (h : call.transaction? = some tx) (db : Database) :
    call.attempt.outcome db = tx.process.outcome db := by
  cases call with
  | decoded tx' =>
    cases h
    rfl
  | fetched tx' source =>
    rw [attempt, outcome_processTransaction]
    rcases tx'.decode_cases source with ⟨moment, hmoment, hread⟩ | ⟨hmoment, -⟩
    · rw [transaction?, hmoment] at h
      cases h
      rw [hread]
    · rw [transaction?, hmoment] at h
      cases h

theorem committed_of_isOk {call : Call} {tx : DecodedTransaction} (htx : call.transaction? = some tx) {db : Database}
    (hok : call.isOk db = true) : call.committed db.outlook = tx.commits := by
  rw [isOk, outcome_attempt htx] at hok
  rw [committed, htx]
  split at hok
  · rename_i r ho
    exact DecodedTransaction.committed_of_outcome ho hok
  · cases hok

/-- A transaction of which no event failed may be processed again at any later time: nothing changes, the transaction is
not new, no event fails, and those are stale that carry a state. -/
theorem replay_changes_nothing {call : Call} {tx : DecodedTransaction} (htx : call.transaction? = some tx)
    (before : List (Call × List (Option Failure))) {after : List (Call × List (Option Failure))}
    {outlook : List (Option Failure)} {s : Store} (hok : call.isOk { store := runAll before s, outlook } = true)
    (hagree : Commit.CreationsAgree (trace ((call, outlook) :: after))) {db : Database}
    (hstore : db.store = runAll (before ++ (call, outlook) :: after) s) (hquiet : db.Quiet) :
    (call.attempt.outcome db).1 = .ok tx.replayed ∧ (call.attempt.outcome db).2.store = db.store := by
  have hcommits : call.committed outlook = tx.commits := committed_of_isOk htx hok
  have hfinal : db.store = Commit.applyAll (trace ((call, outlook) :: after)) (runAll before s) := by
    rw [hstore, store_runAll, store_runAll, trace, List.flatMap_append, Commit.applyAll_append]
    rfl
  have hmem : ∀ c ∈ tx.commits, c ∈ trace ((call, outlook) :: after) := by
    intro c hc
    rw [← hcommits] at hc
    exact List.mem_append_left _ hc
  rw [outcome_attempt htx]
  apply DecodedTransaction.outcome_process_of_settled hquiet
  · intro c hc
    exact fits_of_mem_trace (hmem c hc)
  · intro c hc
    rw [hfinal]
    exact Commit.settled_applyAll hagree (hmem c hc) _

/-- The creation of a pair with its first swap, and a later swap. -/
def twoCalls : List (Call × List (Option Failure)) :=
  [(.decoded Pool.creationAndSwap, []), (.decoded Pool.laterSwap, [])]

/-- The first of the two is processed again after the second. -/
theorem replay_changes_nothing_first : (decoded Pool.creationAndSwap).transaction? = some Pool.creationAndSwap ∧
    (decoded Pool.creationAndSwap).isOk { store := .empty } = true ∧ Commit.CreationsAgree (trace twoCalls) ∧
    Database.Quiet { store := runAll twoCalls .empty } ∧
    ((decoded Pool.creationAndSwap).attempt.outcome { store := runAll twoCalls .empty }).1 =
      .ok Pool.creationAndSwap.replayed ∧
    ((decoded Pool.creationAndSwap).attempt.outcome { store := runAll twoCalls .empty }).2.store =
      runAll twoCalls .empty := by
  have hok : (decoded Pool.creationAndSwap).isOk { store := .empty } = true := by decide +kernel
  have hagree : Commit.CreationsAgree (trace twoCalls) := by constructor <;> decide +kernel
  have hquiet : Database.Quiet { store := runAll twoCalls .empty } := nofun
  exact ⟨rfl, hok, hagree, hquiet, replay_changes_nothing rfl [] hok hagree rfl hquiet⟩

end Call
end PairIndex
