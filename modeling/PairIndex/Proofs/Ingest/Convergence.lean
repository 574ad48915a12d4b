import Mathlib.Data.List.Nodup
import PairIndex.Proofs.Ingest.Interleaving

/-! Interleaved calls converge. Rows that are added where their keys are free, and changes of a pair that commute,
leave a store that depends on which commits were made and not on their order or number (`Commit.same_of_mem_iff`).
So whatever the schedule is and however often each transaction is processed, the tables of the pair side end up the
same (`Pool.pair_side_converges`). -/

namespace PairIndex

open Table (Upsert)

/-! ## Folds whose steps commute -/

section Fold

variable {α β : Type} {f : β → α → β}

theorem foldl_step_comm {l : List α} {a : α} (comm : ∀ b ∈ l, ∀ s, f (f s b) a = f (f s a) b) (s : β) :
    f (l.foldl f s) a = l.foldl f (f s a) := by
  induction l generalizing s with
  | nil => rfl
  | cons b l ih =>
    rw [List.foldl_cons, List.foldl_cons, ih (fun c hc => comm c (List.mem_cons_of_mem _ hc)),
      comm b List.mem_cons_self]

/-- A step that was taken before changes nothing. -/
theorem foldl_step_of_mem {l : List α} {a : α} (comm : ∀ b ∈ l, ∀ s, f (f s b) a = f (f s a) b)
    (idem : ∀ s, f (f s a) a = f s a) (ha : a ∈ l) (s : β) : f (l.foldl f s) a = l.foldl f s := by
  obtain ⟨before, after, rfl⟩ := List.append_of_mem ha
  rw [List.foldl_append, List.foldl_cons,
    foldl_step_comm fun b hb => comm b (List.mem_append_right _ (List.mem_cons_of_mem _ hb)), idem]

theorem foldl_append_of_subset {l l' : List α} (comm : ∀ a ∈ l, ∀ b ∈ l, ∀ s, f (f s b) a = f (f s a) b)
    (idem : ∀ a ∈ l, ∀ s, f (f s a) a = f s a) (h : ∀ a ∈ l', a ∈ l) (s : β) :
    (l ++ l').foldl f s = l.foldl f s := by
  rw [List.foldl_append]
  induction l' with
  | nil => rfl
  | cons a l' ih =>
    have ha := h a List.mem_cons_self
    rw [List.foldl_cons, foldl_step_of_mem (comm a ha) (idem a ha) ha]
    exact ih fun b hb => h b (List.mem_cons_of_mem _ hb)

/-- Steps that commute and need be taken but once: only which steps are taken matters. -/
theorem foldl_eq_of_mem_iff {l l' : List α} (comm : ∀ a ∈ l, ∀ b ∈ l, ∀ s, f (f s b) a = f (f s a) b)
    (idem : ∀ a ∈ l, ∀ s, f (f s a) a = f s a) (h : ∀ a, a ∈ l ↔ a ∈ l') (s : β) :
    l.foldl f s = l'.foldl f s := by
  have comm' : ∀ a ∈ l', ∀ b ∈ l', ∀ s, f (f s b) a = f (f s a) b :=
    fun a ha b hb => comm a ((h a).mpr ha) b ((h b).mpr hb)
  have idem' : ∀ a ∈ l', ∀ s, f (f s a) a = f s a := fun a ha => idem a ((h a).mpr ha)
  calc l.foldl f s
      = (l ++ l').foldl f s := (foldl_append_of_subset comm idem (fun a => (h a).mpr) s).symm
    _ = (l' ++ l).foldl f s := by
        refine List.perm_append_comm.foldl_eq' (fun a ha b hb s => ?_) s
        have hmem : ∀ c ∈ l ++ l', c ∈ l := fun c hc => (List.mem_append.mp hc).elim id (h c).mpr
        exact (comm a (hmem a ha) b (hmem b hb) s).symm
    _ = l'.foldl f s := foldl_append_of_subset comm' idem' (fun a => (h a).mp) s

end Fold

/-! ## Tables under commits with the same members -/

namespace Commit

/-- A table in which rows are added where their keys are free holds the same rows after commits with the same members,
if those of its rows that share a key are equal. -/
theorem same_of_mem_iff {α κ : Type} [DecidableEq κ] {key : α → κ} (tableOf : Store → Table key)
    (rowOf : Commit → Option α) (happly : ∀ c s, tableOf (c.apply s) = (tableOf s).insertIfAny (rowOf c))
    {cs ds : List Commit}
    (agree : ∀ c ∈ cs, ∀ d ∈ cs, ∀ a b, rowOf c = some a → rowOf d = some b → key a = key b → a = b)
    (h : ∀ c, c ∈ cs ↔ c ∈ ds) (s : Store) : (tableOf (applyAll cs s)).Same (tableOf (applyAll ds s)) := by
  have hfind : ∀ (k : κ) (cs : List Commit) (s : Store), (tableOf (applyAll cs s)).find? k =
      cs.foldl (fun old c => old.or (Table.ofKey key k (rowOf c))) ((tableOf s).find? k) := by
    intro k cs s
    induction cs generalizing s with
    | nil => rfl
    | cons c cs ih => rw [applyAll_cons, ih, happly, Table.find?_insertIfAny, List.foldl_cons]
  rw [Table.same_iff_find?]
  intro k
  rw [hfind, hfind]
  refine foldl_eq_of_mem_iff (fun c hc d hd old => ?_) (fun c _ old => ?_) h _
  · cases old with
    | some row => rfl
    | none =>
      rw [Option.none_or, Option.none_or]
      cases hrowc : Table.ofKey key k (rowOf c) with
      | none => rw [Option.none_or, Option.or_none]
      | some a =>
        cases hrowd : Table.ofKey key k (rowOf d) with
        | none => rw [Option.none_or, Option.or_none]
        | some b =>
          obtain ⟨hca, hka⟩ := Table.ofKey_eq_some_iff.mp hrowc
          obtain ⟨hdb, hkb⟩ := Table.ofKey_eq_some_iff.mp hrowd
          rw [agree c hc d hd a b hca hdb (hka.trans hkb.symm)]
  · rw [Option.or_assoc, Option.or_self]

end Commit

/-! ## Changes of a pair -/

namespace PairRow

variable {seqNum seqNum' : Int} (state state' : PairAmounts) (row : PairRow)

theorem withIdentity_advance (token0 token1 creator : String) (createdAt : Option Moment) :
    (row.advance seqNum state).withIdentity token0 token1 creator createdAt =
      (row.withIdentity token0 token1 creator createdAt).advance seqNum state := by
  by_cases hnewer : row.latestSeqNum < seqNum <;> simp [advance, withIdentity, hnewer]

theorem advance_of_not_lt (h : ¬row.latestSeqNum < seqNum) : row.advance seqNum state = row :=
  if_neg h

/-- A move to a state that is not the newest leaves no trace. -/
theorem advance_advance_of_lt (h : seqNum < seqNum') :
    (row.advance seqNum state).advance seqNum' state' = row.advance seqNum' state' := by
  by_cases hnewer : row.latestSeqNum < seqNum
  · have hnewer' : row.latestSeqNum < seqNum' := Int.lt_trans hnewer h
    simp [advance, hnewer, hnewer', h]
  · rw [advance_of_not_lt state row hnewer]

/-- A move to a state that is not newer than the last one changes nothing. -/
theorem advance_advance_of_le (h : seqNum ≤ seqNum') :
    (row.advance seqNum' state').advance seqNum state = row.advance seqNum' state' := by
  apply advance_of_not_lt
  by_cases hnewer : row.latestSeqNum < seqNum'
  · simpa [advance, hnewer] using h
  · rw [advance_of_not_lt state' row hnewer]
    omega

end PairRow

namespace PairChange

/-- Changes of one pair that do not contradict one another: creations tell the same, and so do moves of one number. -/
def Agrees : PairChange → PairChange → Prop
  | .created token0 token1 creator createdAt, .created token0' token1' creator' createdAt' =>
    token0 = token0' ∧ token1 = token1' ∧ creator = creator' ∧ createdAt = createdAt'
  | .moved seqNum state, .moved seqNum' state' => seqNum = seqNum' → state = state'
  | _, _ => True

theorem apply_comm {a b : PairChange} (h : a.Agrees b) (row : PairRow) :
    a.apply (b.apply row) = b.apply (a.apply row) := by
  cases a with
  | created token0 token1 creator createdAt =>
    cases b with
    | created token0' token1' creator' createdAt' =>
      obtain ⟨rfl, rfl, rfl, rfl⟩ := h
      rfl
    | moved seqNum state => exact PairRow.withIdentity_advance ..
  | moved seqNum state =>
    cases b with
    | created token0 token1 creator createdAt => exact (PairRow.withIdentity_advance ..).symm
    | moved seqNum' state' =>
      simp only [apply]
      rcases Int.lt_trichotomy seqNum seqNum' with hlt | rfl | hgt
      · rw [PairRow.advance_advance_of_lt _ _ _ hlt, PairRow.advance_advance_of_le _ _ _ (Int.le_of_lt hlt)]
      · rw [h rfl]
      · rw [PairRow.advance_advance_of_lt _ _ _ hgt, PairRow.advance_advance_of_le _ _ _ (Int.le_of_lt hgt)]

theorem apply_idem (a : PairChange) (row : PairRow) : a.apply (a.apply row) = a.apply row := by
  cases a with
  | created => rfl
  | moved seqNum state => exact PairRow.advance_advance_of_le _ _ _ (Int.le_refl _)

end PairChange

namespace Commit

def pairChange? (c : Commit) : Option (String × PairChange) :=
  c.event?.bind fun (_, body) => body.pairChange?

/-- What a commit makes of the row of an address. -/
def pairAfter (address : String) (old : Option PairRow) (c : Commit) : Option PairRow :=
  match c.pairChange? with
  | none => old
  | some (pairAddress, change) =>
    if pairAddress = address then some (change.apply (old.getD { pairAddress })) else old

theorem find?_pairs_apply (c : Commit) (s : Store) (address : String) :
    (c.apply s).pairs.find? address = pairAfter address (s.pairs.find? address) c := by
  cases c with
  | transaction row => rfl
  | event signature e => exact find?_pairs_event signature e s address

theorem find?_pairs_applyAll (cs : List Commit) (s : Store) (address : String) :
    (applyAll cs s).pairs.find? address = cs.foldl (pairAfter address) (s.pairs.find? address) := by
  induction cs generalizing s with
  | nil => rfl
  | cons c cs ih => rw [applyAll_cons, ih, find?_pairs_apply, List.foldl_cons]

theorem pairAfter_comm {address : String} {c d : Commit}
    (h : ∀ a b, c.pairChange? = some (address, a) → d.pairChange? = some (address, b) → a.Agrees b)
    (old : Option PairRow) :
    pairAfter address (pairAfter address old d) c = pairAfter address (pairAfter address old c) d := by
  unfold pairAfter
  rcases hc : c.pairChange? with _ | ⟨addressC, a⟩
  · rfl
  · rcases hd : d.pairChange? with _ | ⟨addressD, b⟩
    · rfl
    · by_cases hca : addressC = address
      · by_cases hda : addressD = address
        · subst hca hda
          simp [PairChange.apply_comm (h a b hc hd)]
        · simp [hda]
      · simp [hca]

theorem pairAfter_idem (address : String) (c : Commit) (old : Option PairRow) :
    pairAfter address (pairAfter address old c) c = pairAfter address old c := by
  unfold pairAfter
  rcases c.pairChange? with _ | ⟨addressC, a⟩
  · rfl
  · by_cases hca : addressC = address <;> simp [hca, a.apply_idem]

/-- The pairs are the same after commits with the same members, if their changes of one pair do not
contradict one another. -/
theorem same_pairs_of_mem_iff {cs ds : List Commit}
    (agree : ∀ c ∈ cs, ∀ d ∈ cs, ∀ address a b, c.pairChange? = some (address, a) →
      d.pairChange? = some (address, b) → a.Agrees b)
    (h : ∀ c, c ∈ cs ↔ c ∈ ds) (s : Store) : (applyAll cs s).pairs.Same (applyAll ds s).pairs := by
  rw [Table.same_iff_find?]
  intro address
  rw [find?_pairs_applyAll, find?_pairs_applyAll]
  exact foldl_eq_of_mem_iff (fun c hc d hd => pairAfter_comm (agree c hc d hd address))
    (fun c _ => pairAfter_idem address c) h _

end Commit

/-! ## Transactions that do not contradict one another -/

/-- The events that transactions apply, each with the signature of its transaction. -/
def appliedEvents (txs : List DecodedTransaction) : List (String × Event) :=
  (txs.filter (!·.failed)).flatMap fun tx => tx.events.map fun e => (tx.signature, e)

/-- Two events never write rows of one key to a table. -/
def Apart {α κ : Type} (events : List (String × Event)) (rowOf : String → EventBody → Option α) (key : α → κ) : Prop :=
  ∀ x ∈ events, ∀ y ∈ events, ∀ a ∈ rowOf x.1 x.2.body, ∀ b ∈ rowOf y.1 y.2.body, key a = key b → x = y

instance {α κ : Type} [DecidableEq κ] (events : List (String × Event)) (rowOf : String → EventBody → Option α)
    (key : α → κ) : Decidable (Apart events rowOf key) :=
  inferInstanceAs (Decidable (∀ x ∈ events, ∀ y ∈ events, ∀ a ∈ rowOf x.1 x.2.body, ∀ b ∈ rowOf y.1 y.2.body,
    key a = key b → x = y))

/-- What the creation of a pair tells. -/
structure PairCreation where
  pairAddress : String
  token0 : PublicKey
  token1 : PublicKey
  creator : PublicKey
  timestamp : Int64
  deriving DecidableEq

def EventBody.creation? : EventBody → Option PairCreation
  | .pairCreated token0 token1 pair creator timestamp => some ⟨pair.toText, token0, token1, creator, timestamp⟩
  | _ => none

theorem EventBody.creation?_of_created {body : EventBody} {pairAddress token0 token1 creator : String}
    {createdAt : Option Moment} (h : body.pairChange? = some (pairAddress, .created token0 token1 creator createdAt)) :
    ∃ t0 t1 cr timestamp, body.creation? = some ⟨pairAddress, t0, t1, cr, timestamp⟩ ∧ t0.toText = token0 ∧
      t1.toText = token1 ∧ cr.toText = creator ∧ Moment.ofSeconds? timestamp.toInt = createdAt := by
  cases body <;> simp [pairChange?, pairMove?] at h
  obtain ⟨rfl, h⟩ := h
  exact ⟨_, _, _, _, rfl, h⟩

/-- Transactions with distinct signatures whose events do not compete: the events of one transaction stand on
distinct lines, two events never write rows of one key, and so two states of a pair never have one number, and the
creations of a pair tell the same. -/
structure Consistent (txs : List DecodedTransaction) : Prop where
  signatures : (txs.map (·.signature)).Nodup
  lines : ∀ tx ∈ txs, (tx.events.map (·.logIndex)).Nodup
  swaps : Apart (appliedEvents txs) (fun signature body => body.swapRow? signature) SwapRow.key
  liquidityChanges : Apart (appliedEvents txs) (fun signature body => body.liquidityRow? signature) LiquidityRow.key
  pricePoints : Apart (appliedEvents txs) (fun signature body => body.pricePointRow? signature) PricePointRow.key
  pairStates : Apart (appliedEvents txs) (fun signature body => body.pairStateRow? signature) PairStateRow.key
  liquidations : Apart (appliedEvents txs) (fun signature body => body.liquidationRow? signature) LiquidationRow.key
  creations : ∀ x ∈ appliedEvents txs, ∀ y ∈ appliedEvents txs,
    ∀ a ∈ x.2.body.creation?, ∀ b ∈ y.2.body.creation?, a.pairAddress = b.pairAddress → a = b

/-- The tables but those of the positions and of the watermarks hold the same rows. -/
structure Store.SamePairSide (s t : Store) : Prop where
  transactions : s.transactions.Same t.transactions
  details : s.details.Same t.details
  swaps : s.swaps.Same t.swaps
  liquidityChanges : s.liquidityChanges.Same t.liquidityChanges
  pricePoints : s.pricePoints.Same t.pricePoints
  pairStates : s.pairStates.Same t.pairStates
  liquidations : s.liquidations.Same t.liquidations
  pairs : s.pairs.Same t.pairs

theorem mem_appliedEvents {txs : List DecodedTransaction} {x : String × Event} :
    x ∈ appliedEvents txs ↔ ∃ tx ∈ txs, tx.failed = false ∧ x.1 = tx.signature ∧ x.2 ∈ tx.events := by
  constructor
  · intro hx
    obtain ⟨tx, htx, hx⟩ := List.mem_flatMap.mp hx
    obtain ⟨e, he, rfl⟩ := List.mem_map.mp hx
    obtain ⟨hmem, hfailed⟩ := List.mem_filter.mp htx
    exact ⟨tx, hmem, by simpa using hfailed, rfl, he⟩
  · rintro ⟨tx, htx, hfailed, hsignature, he⟩
    refine List.mem_flatMap.mpr ⟨tx, List.mem_filter.mpr ⟨htx, by simp [hfailed]⟩, List.mem_map.mpr ⟨x.2, he, ?_⟩⟩
    rw [← hsignature]

/-- A commit of a transaction records it or applies one of its events. -/
theorem commits_cases {txs : List DecodedTransaction} {c : Commit} (h : ∃ tx ∈ txs, c ∈ tx.commits) :
    (∃ tx ∈ txs, c = .transaction tx.row) ∨ ∃ x ∈ appliedEvents txs, c = .event x.1 x.2 := by
  obtain ⟨tx, htx, hc⟩ := h
  rcases DecodedTransaction.mem_commits.mp hc with rfl | ⟨hfailed, e, he, rfl⟩
  · exact Or.inl ⟨tx, htx, rfl⟩
  · exact Or.inr ⟨(tx.signature, e), mem_appliedEvents.mpr ⟨tx, htx, hfailed, rfl, he⟩, rfl⟩

namespace Consistent

variable {txs : List DecodedTransaction}

theorem eq_of_signature (h : Consistent txs) {tx tx' : DecodedTransaction} (htx : tx ∈ txs) (htx' : tx' ∈ txs)
    (heq : tx.signature = tx'.signature) : tx = tx' :=
  List.inj_on_of_nodup_map h.signatures htx htx' heq

/-- An event is told by its transaction and its line. -/
theorem eq_of_line (h : Consistent txs) {x y : String × Event} (hx : x ∈ appliedEvents txs)
    (hy : y ∈ appliedEvents txs) (hsignature : x.1 = y.1) (hline : x.2.logIndex = y.2.logIndex) : x = y := by
  obtain ⟨tx, htx, -, hxs, hxe⟩ := mem_appliedEvents.mp hx
  obtain ⟨tx', htx', -, hys, hye⟩ := mem_appliedEvents.mp hy
  have htx'' : tx = tx' := h.eq_of_signature htx htx' (by rw [← hxs, ← hys, hsignature])
  subst htx''
  exact Prod.ext hsignature (List.inj_on_of_nodup_map (h.lines tx htx) hxe hye hline)

variable {c d : Commit}

theorem transactions_agree (h : Consistent txs) (hc : ∃ tx ∈ txs, c ∈ tx.commits) (hd : ∃ tx ∈ txs, d ∈ tx.commits)
    {a b : TransactionRow} (ha : c.transactionRow? = some a) (hb : d.transactionRow? = some b) (hkey : a.key = b.key) :
    a = b := by
  rcases commits_cases hc with ⟨tx, htx, rfl⟩ | ⟨x, hx, rfl⟩
  · rcases commits_cases hd with ⟨tx', htx', rfl⟩ | ⟨y, hy, rfl⟩
    · cases ha
      cases hb
      rw [h.eq_of_signature htx htx' hkey]
    · cases hb
  · cases ha

theorem details_agree (h : Consistent txs) (hc : ∃ tx ∈ txs, c ∈ tx.commits) (hd : ∃ tx ∈ txs, d ∈ tx.commits)
    {a b : DetailRow} (ha : c.detailRow? = some a) (hb : d.detailRow? = some b) (hkey : a.key = b.key) : a = b := by
  rcases commits_cases hc with ⟨tx, htx, rfl⟩ | ⟨x, hx, rfl⟩
  · cases ha
  · rcases commits_cases hd with ⟨tx', htx', rfl⟩ | ⟨y, hy, rfl⟩
    · cases hb
    · cases ha
      cases hb
      rw [Event.detail_key, Event.detail_key, Prod.mk.injEq] at hkey
      rw [h.eq_of_line hx hy hkey.1 hkey.2]

/-- Rows of one key that events write to a table are equal if no two events compete for a key. -/
theorem rows_agree {α κ : Type} {rowOf : String → EventBody → Option α} {key : α → κ}
    (h : Apart (appliedEvents txs) rowOf key) (hc : ∃ tx ∈ txs, c ∈ tx.commits) (hd : ∃ tx ∈ txs, d ∈ tx.commits)
    {a b : α} (ha : (c.event?.bind fun (signature, body) => rowOf signature body) = some a)
    (hb : (d.event?.bind fun (signature, body) => rowOf signature body) = some b) (hkey : key a = key b) : a = b := by
  rcases commits_cases hc with ⟨tx, htx, rfl⟩ | ⟨x, hx, rfl⟩
  · cases ha
  · rcases commits_cases hd with ⟨tx', htx', rfl⟩ | ⟨y, hy, rfl⟩
    · cases hb
    · simp only [Commit.event?, Option.bind_some] at ha hb
      have hxy := h x hx y hy a ha b hb hkey
      rw [← hxy, ha] at hb
      exact Option.some.inj hb

theorem pairs_agree (h : Consistent txs) (hc : ∃ tx ∈ txs, c ∈ tx.commits) (hd : ∃ tx ∈ txs, d ∈ tx.commits)
    {address : String} {a b : PairChange} (ha : c.pairChange? = some (address, a))
    (hb : d.pairChange? = some (address, b)) : a.Agrees b := by
  rcases commits_cases hc with ⟨tx, htx, rfl⟩ | ⟨x, hx, rfl⟩
  · cases ha
  · rcases commits_cases hd with ⟨tx', htx', rfl⟩ | ⟨y, hy, rfl⟩
    · cases hb
    · change x.2.body.pairChange? = some (address, a) at ha
      change y.2.body.pairChange? = some (address, b) at hb
      cases a with
      | created token0 token1 creator createdAt =>
        cases b with
        | created token0' token1' creator' createdAt' =>
          obtain ⟨t0, t1, cr, timestamp, hcx, rfl, rfl, rfl, rfl⟩ := EventBody.creation?_of_created ha
          obtain ⟨t0', t1', cr', timestamp', hcy, rfl, rfl, rfl, rfl⟩ := EventBody.creation?_of_created hb
          cases h.creations x hx y hy _ hcx _ hcy rfl
          exact ⟨rfl, rfl, rfl, rfl⟩
        | moved => trivial
      | moved seqNum state =>
        cases b with
        | created => trivial
        | moved seqNum' state' =>
          rintro rfl
          have hrowx := EventBody.pairStateRow?_of_moved ha x.1
          have hrowy := EventBody.pairStateRow?_of_moved hb y.1
          have hxy : x = y := h.pairStates x hx y hy _ hrowx _ hrowy rfl
          subst hxy
          rw [ha] at hb
          cases hb
          rfl

/-- Commits of consistent transactions with the same members leave the same rows. -/
theorem samePairSide (h : Consistent txs) {cs ds : List Commit} (hcs : ∀ c ∈ cs, ∃ tx ∈ txs, c ∈ tx.commits)
    (hmem : ∀ c, c ∈ cs ↔ c ∈ ds) (s : Store) :
    (Commit.applyAll cs s).SamePairSide (Commit.applyAll ds s) where
  transactions := Commit.same_of_mem_iff (·.transactions) _ (fun _ _ => rfl)
    (fun c hc d hd _ _ => h.transactions_agree (hcs c hc) (hcs d hd)) hmem s
  details := Commit.same_of_mem_iff (·.details) _ (fun _ _ => rfl)
    (fun c hc d hd _ _ => h.details_agree (hcs c hc) (hcs d hd)) hmem s
  swaps := Commit.same_of_mem_iff (·.swaps) _ (fun _ _ => rfl)
    (fun c hc d hd _ _ => rows_agree h.swaps (hcs c hc) (hcs d hd)) hmem s
  liquidityChanges := Commit.same_of_mem_iff (·.liquidityChanges) _ (fun _ _ => rfl)
    (fun c hc d hd _ _ => rows_agree h.liquidityChanges (hcs c hc) (hcs d hd)) hmem s
  pricePoints := Commit.same_of_mem_iff (·.pricePoints) _ (fun _ _ => rfl)
    (fun c hc d hd _ _ => rows_agree h.pricePoints (hcs c hc) (hcs d hd)) hmem s
  pairStates := Commit.same_of_mem_iff (·.pairStates) _ (fun _ _ => rfl)
    (fun c hc d hd _ _ => rows_agree h.pairStates (hcs c hc) (hcs d hd)) hmem s
  liquidations := Commit.same_of_mem_iff (·.liquidations) _ (fun _ _ => rfl)
    (fun c hc d hd _ _ => rows_agree h.liquidations (hcs c hc) (hcs d hd)) hmem s
  pairs := Commit.same_pairs_of_mem_iff (fun c hc d hd _ _ _ => h.pairs_agree (hcs c hc) (hcs d hd)) hmem s

end Consistent

/-- The calls of any schedule that process each of some consistent transactions, in whatever order, how ever often and
interleaved how ever, leave the same tables of the pair side. -/
theorem Pool.pair_side_converges {txs calls calls' : List DecodedTransaction} {schedule schedule' : List Nat}
    (s : Store) (h : Consistent txs) (hcalls : ∀ tx, tx ∈ calls ↔ tx ∈ txs) (hcalls' : ∀ tx, tx ∈ calls' ↔ tx ∈ txs)
    (hdone : ((start calls s).run schedule).isDone = true) (hdone' : ((start calls' s).run schedule').isDone = true) :
    ((start calls s).run schedule).database.store.SamePairSide ((start calls' s).run schedule').database.store := by
  obtain ⟨trace, hstore, hmem⟩ := trace_of_isDone hdone
  obtain ⟨trace', hstore', hmem'⟩ := trace_of_isDone hdone'
  rw [hstore, hstore']
  refine h.samePairSide (fun c hc => ?_) (fun c => ?_) s
  · obtain ⟨tx, htx, hcommitted⟩ := (hmem c).mp hc
    exact ⟨tx, (hcalls tx).mp htx, (DecodedTransaction.mem_committed hcommitted).1⟩
  · simp only [hmem, hmem', hcalls, hcalls']

namespace Pool

/-- The creation of a pair and its first swap. -/
def creationAndSwap : DecodedTransaction :=
  ⟨"first", 1, none,
    [⟨.pairCreated (.small 3) (.small 4) (.small 2) (.small 5) 0, 0⟩,
      ⟨.swap true 10 9 1 ⟨100, 90, 50, 0, 0, 0, 0⟩ ⟨.small 1, .small 2, 1, 0⟩, 1⟩], false⟩

def laterSwap : DecodedTransaction :=
  ⟨"second", 2, none, [⟨.swap false 9 10 1 ⟨90, 100, 50, 0, 0, 0, 0⟩ ⟨.small 1, .small 2, 2, 0⟩, 0⟩], false⟩

/-- One after the other, and interleaved with the later one twice. -/
theorem pair_side_converges_swaps :
    ((start [creationAndSwap, laterSwap] .empty).run [0, 0, 0, 0, 1, 1, 1]).database.store.SamePairSide
      ((start [laterSwap, creationAndSwap, laterSwap] .empty).run [1, 0, 1, 2, 0, 1, 0, 2, 1, 2]).database.store := by
  have hconsistent : Consistent [creationAndSwap, laterSwap] := by constructor <;> decide +kernel
  refine pair_side_converges .empty hconsistent (fun _ => Iff.rfl) (fun tx => ?_) ?_ ?_
  · simp only [List.mem_cons, List.not_mem_nil, or_false]
    tauto
  · decide +kernel
  · decide +kernel

end Pool
end PairIndex
