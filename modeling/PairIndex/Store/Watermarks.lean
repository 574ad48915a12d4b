import PairIndex.Store.Basic

/-! Statements on watermarks. A watermark never moves to a lower slot, and its first signature is written once. -/

namespace PairIndex

/-- A watermark moved to a signature, unless that lies below the slot it stands at. -/
def WatermarkRow.moveTo (signature : String) (slot : Int) (r : WatermarkRow) : WatermarkRow :=
  if r.checkedUpToSlot ≤ slot then { r with latestSignature := some signature, checkedUpToSlot := slot } else r

/-- A watermark with its first signature, unless it has one. -/
def WatermarkRow.beginAt (signature : String) (r : WatermarkRow) : WatermarkRow :=
  match r.firstSignature with
  | none => { r with firstSignature := some signature }
  | some _ => r

def WatermarkRow.withStatus (status : WatchStatus) (failureLog : Option String) (r : WatermarkRow) : WatermarkRow :=
  { r with status, failureLog }

theorem WatermarkRow.key_moveTo (signature : String) (slot : Int) (r : WatermarkRow) :
    (r.moveTo signature slot).key = r.key := by
  unfold WatermarkRow.moveTo
  split <;> rfl

theorem WatermarkRow.key_beginAt (signature : String) (r : WatermarkRow) : (r.beginAt signature).key = r.key := by
  unfold WatermarkRow.beginAt
  split <;> rfl

namespace Session

def watermark? (account : String) : Session (Option WatermarkRow) := do
  return (← get).watermarks.find? account

/-- All watermarks, by address. -/
def allWatermarks : Session (List WatermarkRow) := do
  return (← get).watermarks.rows.mergeSort fun a b => decide (a.account ≤ b.account)

/-- Adds a watermark at the start of the history unless the address has one, and gives the one it has. -/
def openWatermark (account description : String) : Session WatermarkRow :=
  modifyGet fun s =>
    let fresh : WatermarkRow := { account, description }
    let watermarks := (s.watermarks.insertNew fresh).1
    ((watermarks.find? account).getD fresh, { s with watermarks })

/-- Moves a watermark, and tells whether it moved. The oldest signature of the batch, or else the one moved to, becomes
the first signature of a watermark that has none. -/
def advanceWatermark (account signature : String) (slot : Int) (firstSignature : Option String) : Session Bool := do
  checkColumn slot
  let first :=
    match firstSignature with
    | some first => if first.isEmpty then signature else first
    | none => signature
  modifyGet fun s =>
    let moves := (s.watermarks.find? account).any fun r => decide (r.checkedUpToSlot ≤ slot)
    let moved := s.watermarks.update account (WatermarkRow.moveTo signature slot) (WatermarkRow.key_moveTo signature slot)
    (moves, { s with
      watermarks := moved.update account (WatermarkRow.beginAt first) (WatermarkRow.key_beginAt first) })

def setWatchStatus (account : String) (status : WatchStatus) (failureLog : Option String) : Session Unit :=
  modify fun s =>
    { s with watermarks := s.watermarks.update account (WatermarkRow.withStatus status failureLog) (fun _ => rfl) }

def markFailed (account failureLog : String) : Session Unit :=
  setWatchStatus account .failed (some failureLog)

end Session
end PairIndex
