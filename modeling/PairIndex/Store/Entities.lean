import PairIndex.Store.Basic

/-! Statements on the snapshots of pairs and positions. What a creation tells and what the latest event tells are
written apart: a state is only written with a number above the one written last, so the newest event wins in whatever
order events arrive. -/

namespace PairIndex

/-- A pair with what its creation told. -/
def PairRow.withIdentity (token0 token1 creator : String) (createdAt : Option Moment) (r : PairRow) : PairRow :=
  { r with token0 := some token0, token1 := some token1, creator := some creator, createdAt }

/-- A pair with a newer state; a state that is not newer changes nothing. -/
def PairRow.advance (seqNum : Int) (state : PairAmounts) (r : PairRow) : PairRow :=
  if r.latestSeqNum < seqNum then { r with state, latestSeqNum := seqNum } else r

/-- A position with what its creation told. -/
def PositionRow.withIdentity (userAddress pairAddress : String) (r : PositionRow) : PositionRow :=
  { r with userAddress := some userAddress, pairAddress }

/-- A position with a newer state, marked as liquidated if the state is that after a liquidation; a state that is not
newer changes nothing. -/
def PositionRow.advance (seqNum : Int) (state : PositionAmounts) (liquidated : Bool) (r : PositionRow) : PositionRow :=
  if r.latestSeqNum < seqNum then
    { r with state, latestSeqNum := seqNum, liquidated := liquidated || r.liquidated }
  else r

theorem PairRow.key_advance (seqNum : Int) (state : PairAmounts) (r : PairRow) :
    (r.advance seqNum state).key = r.key := by
  unfold PairRow.advance
  split <;> rfl

theorem PositionRow.key_advance (seqNum : Int) (state : PositionAmounts) (liquidated : Bool) (r : PositionRow) :
    (r.advance seqNum state liquidated).key = r.key := by
  unfold PositionRow.advance
  split <;> rfl

namespace Session

def pair? (address : String) : Session (Option PairRow) := do
  return (← get).pairs.find? address

/-- Adds an empty pair unless the address is known. -/
def ensurePair (address : String) : Session Unit :=
  modify fun s => { s with pairs := (s.pairs.insertNew { pairAddress := address }).1 }

/-- Writes what the creation of a pair told, and leaves its state alone. -/
def registerPair (address token0 token1 creator : String) (createdAt : Option Moment) : Session Unit :=
  modify fun s =>
    { s with
      pairs := (s.pairs.insertNew { pairAddress := address }).1.update address
        (PairRow.withIdentity token0 token1 creator createdAt) (fun _ => rfl) }

/-- Writes a newer state of a pair, and tells whether there was an older one. -/
def applyPairState (address : String) (seqNum : Int) (state : PairAmounts) : Session Bool := do
  checkColumn seqNum
  modifyGet fun s =>
    let applies := (s.pairs.find? address).any fun r => decide (r.latestSeqNum < seqNum)
    (applies, { s with
      pairs := s.pairs.update address (PairRow.advance seqNum state) (PairRow.key_advance seqNum state) })

def position? (address : String) : Session (Option PositionRow) := do
  return (← get).positions.find? address

/-- The positions of a user, by address. -/
def positionsOfUser (userAddress : String) : Session (List PositionRow) := do
  let rows := (← get).positions.rows.filter fun row => row.userAddress == some userAddress
  return rows.mergeSort fun a b => decide (a.positionAddress ≤ b.positionAddress)

/-- Adds an empty position unless the address is known. -/
def ensurePosition (address pairAddress : String) (userAddress : Option String) : Session Unit :=
  modify fun s =>
    { s with positions := (s.positions.insertNew { positionAddress := address, userAddress, pairAddress }).1 }

/-- Writes what the creation of a position told, and leaves its state alone. -/
def registerPosition (address userAddress pairAddress : String) : Session Unit :=
  modify fun s =>
    { s with
      positions :=
        (s.positions.insertNew { positionAddress := address, userAddress := some userAddress, pairAddress }).1.update
          address (PositionRow.withIdentity userAddress pairAddress) (fun _ => rfl) }

/-- Writes a newer state of a position, and tells whether there was an older one. -/
def applyPositionState (address : String) (seqNum : Int) (state : PositionAmounts) (liquidated : Bool) :
    Session Bool := do
  checkColumn seqNum
  modifyGet fun s =>
    let applies := (s.positions.find? address).any fun r => decide (r.latestSeqNum < seqNum)
    (applies, { s with
      positions := s.positions.update address (PositionRow.advance seqNum state liquidated)
        (PositionRow.key_advance seqNum state liquidated) })

end Session
end PairIndex
