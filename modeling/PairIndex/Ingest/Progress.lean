import PairIndex.Ingest.Process

/-! Processing a transaction session by session, so that something else may come between two sessions. -/

namespace PairIndex

/-- How far a call of the processor has come: the transaction is to be recorded, some events are to be applied, or the
call ended. -/
inductive Progress where
  | recording (tx : DecodedTransaction)
  | applying (signature : String) (rest : List Event) (result : ProcessResult)
  | ended (outcome : Except Failure ProcessResult)

namespace Progress

/-- The call after its next session, and what this leaves in the database. -/
def step : Progress → Database → Progress × Database
  | .recording tx, d =>
    match (Database.session (Session.insertTransaction tx.row)).outcome d with
    | (.ok isNew, d') =>
      let result : ProcessResult := { signature := tx.signature, type := tx.row.type, status := tx.status, isNew }
      (if tx.failed then .ended (.ok result) else .applying tx.signature tx.events result, d')
    | (.error failure, d') => (.ended (.error failure), d')
  | .applying _ [] result, d => (.ended (.ok result), d)
  | .applying signature (e :: rest) result, d =>
    match (Database.session (Session.applyEvent signature e)).outcome d with
    | (.ok true, d') => (.applying signature rest { result with applied := result.applied + 1 }, d')
    | (.ok false, d') => (.applying signature rest { result with stale := result.stale + 1 }, d')
    | (.error failure, d') =>
      (if failure.isFatal then .ended (.error failure)
        else .applying signature rest { result with failed := result.failed + 1 }, d')
  | .ended outcome, d => (.ended outcome, d)

/-- Runs a call to its end. -/
def finish : Progress → Attempt Database ProcessResult
  | .recording tx => tx.process
  | .applying signature rest result => DecodedTransaction.applyEvents signature rest result
  | .ended outcome => MonadExcept.ofExcept outcome

end Progress
end PairIndex
