import PairIndex.Crawl.World

/-! Walking the signature index from the newest entry down, page by page, until a known signature, a slot bound or the
start of the history. -/

namespace PairIndex

/-- What bounds a walk. -/
structure WalkBounds where
  /-- The signature to stop at. -/
  stopAt : Option String := none
  /-- The slot below which to stop. -/
  fromSlot : Option Int := none
  /-- The slot above which entries are skipped. -/
  toSlot : Option Int := none
  deriving DecidableEq, Repr

/-- How the entries of a page ended. -/
inductive PageEnd where
  /-- All were looked at. -/
  | exhausted
  /-- The signature to stop at was met. -/
  | reachedUntil
  /-- An entry lies below the slot bound. -/
  | belowFromSlot
  deriving DecidableEq, Repr

/-- The entries of a page that a walk keeps, and how it ended. -/
def WalkBounds.scan (b : WalkBounds) : List SignatureInfo → List SignatureInfo × PageEnd
  | [] => ([], .exhausted)
  | info :: rest =>
    if b.stopAt = some info.signature then ([], .reachedUntil)
    else if b.fromSlot.any (fun slot => decide (info.slot < slot)) then ([], .belowFromSlot)
    else
      let (kept, ending) := b.scan rest
      if b.toSlot.any (fun slot => decide (slot < info.slot)) then (kept, ending) else (info :: kept, ending)

/-- What a walk collected. -/
structure Walk where
  /-- The entries, oldest first. -/
  signatures : List SignatureInfo
  /-- Whether the walk reached what was known before, or the start of the history. -/
  connected : Bool

/-- How pages are asked for. -/
structure Paging where
  address : String
  pageSize : Int
  /-- The delay before every page but the first, in seconds. -/
  delay : Rat

/-- The entries, newest first, from the given page on, and whether the walk connects. The walk stops after `fuel`
pages. -/
def Paging.walkFrom (p : Paging) (b : WalkBounds) :
    Nat → Option String → Attempt World (List SignatureInfo × Bool)
  | 0, _ => return ([], false)
  | fuel + 1, before => do
    if (← get).stopped then return ([], false)
    if before.isSome then World.sleep p.delay
    let page ← World.page { address := p.address, before, stopAt := b.stopAt, limit := p.pageSize }
    match page.getLast? with
    | none => return ([], true)
    | some last =>
      let (kept, ending) := b.scan page
      match ending with
      | .reachedUntil => return (kept, true)
      | .belowFromSlot => return (kept, false)
      | .exhausted =>
        if page.length < p.pageSize then return (kept, true)
        else
          let (older, connected) ← p.walkFrom b fuel (some last.signature)
          return (kept ++ older, connected)

def Paging.walk (p : Paging) (b : WalkBounds) : Attempt World Walk := do
  let (newestFirst, connected) ← p.walkFrom b (← get).ledger.pageBound none
  return { signatures := newestFirst.reverse, connected }

end PairIndex
