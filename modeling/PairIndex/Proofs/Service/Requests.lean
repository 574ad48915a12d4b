import PairIndex.Proofs.Json.Access
import PairIndex.Proofs.Service.Tasks
import PairIndex.Service.Control

/-! Control requests, whatever the bytes of their bodies are. A request is answered with a message and an error, and
with nothing else done if it is rejected, except in two cases: one of its numbers is infinite, or the service is asked
for a job and cannot be opened (`Service.answered_iff`). -/

namespace PairIndex

/-! ## Reading requests -/

section Escapes

variable {α β : Type}

/-- A request that cannot even be rejected. -/
def Escapes (request : Except ControlError α) : Prop :=
  ∃ failure, request = .error (.escaped failure)

@[simp]
theorem not_escapes_ok (a : α) : ¬Escapes (.ok a) :=
  fun ⟨_, h⟩ => nomatch h

@[simp]
theorem not_escapes_rejected (message : String) : ¬Escapes (.error (.rejected message) : Except ControlError α) :=
  fun ⟨_, h⟩ => nomatch h

@[simp]
theorem escapes_escaped (failure : Failure) : Escapes (.error (.escaped failure) : Except ControlError α) :=
  ⟨failure, rfl⟩

theorem escapes_bind_iff {x : Except ControlError α} {f : α → Except ControlError β} :
    Escapes (x >>= f) ↔ Escapes x ∨ ∃ a, x = .ok a ∧ Escapes (f a) := by
  cases x with
  | error e => simp [Escapes, bind, Except.bind]
  | ok a => simp [Escapes, bind, Except.bind]

end Escapes

theorem not_escapes_readControlBody (body : ByteArray) : ¬Escapes (readControlBody body) := by
  rw [readControlBody]
  repeat' split
  all_goals simp

theorem not_escapes_controlAddress (watched : List String) (members : List (String × Json)) :
    ¬Escapes (controlAddress watched members) := by
  unfold controlAddress
  simp only
  repeat' split
  all_goals simp

theorem not_escapes_controlReprocess (members : List (String × Json)) : ¬Escapes (controlReprocess members) := by
  rw [controlReprocess]
  split <;> simp

/-- Of what can stand under a key only an infinite number is not rejected. -/
theorem escapes_controlNumber_iff {members : List (String × Json)} {key : String} :
    Escapes (controlNumber members key) ↔ InfiniteAt members key := by
  rw [controlNumber, infiniteAt_iff]
  generalize (Assoc.get? key members).getD .null = value
  cases value with
  | null => simp [Json.toInteger]
  | bool b => simp [Json.toInteger]
  | _ =>
    dsimp only
    split
    · next n hread => split <;> simp [hread]
    · next hread => simp [hread]
    · next e hother hread => simpa [hread] using hother

/-- A request whose first number that cannot be read is infinite, and that is well-formed before it. -/
def MeetsInfinite (watched : List String) (body : ByteArray) : Prop :=
  ∃ members address, readControlBody body = .ok members ∧ controlAddress watched members = .ok address ∧
    (InfiniteAt members "from_slot" ∨
      ∃ fromSlot, controlNumber members "from_slot" = .ok fromSlot ∧
        (InfiniteAt members "to_slot" ∨
          ∃ toSlot, controlNumber members "to_slot" = .ok toSlot ∧ InfiniteAt members "batch_size"))

theorem escapes_readBackfill_iff {watched : List String} {body : ByteArray} :
    Escapes (readBackfill watched body) ↔ MeetsInfinite watched body := by
  simp only [readBackfill, escapes_bind_iff, not_escapes_readControlBody, not_escapes_controlAddress,
    not_escapes_controlReprocess, escapes_controlNumber_iff, false_or]
  constructor
  · rintro ⟨members, hread, address, haddress, h⟩
    refine ⟨members, address, hread, haddress, ?_⟩
    rcases h with hinfinite | ⟨fromSlot, hfrom, hinfinite | ⟨toSlot, hto, hinfinite | ⟨batchSize, -, reprocess, -, h⟩⟩⟩
    · exact .inl hinfinite
    · exact .inr ⟨fromSlot, hfrom, .inl hinfinite⟩
    · exact .inr ⟨fromSlot, hfrom, .inr ⟨toSlot, hto, hinfinite⟩⟩
    · -- What is checked last is rejected or accepted.
      revert h
      repeat' split
      all_goals
        exact fun h => absurd h (by simp [throw, throwThe, MonadExceptOf.throw, bind, Except.bind, pure, Except.pure])
  · rintro ⟨members, address, hread, haddress, h⟩
    refine ⟨members, hread, address, haddress, ?_⟩
    rcases h with hinfinite | ⟨fromSlot, hfrom, hinfinite | ⟨toSlot, hto, hinfinite⟩⟩
    · exact .inl hinfinite
    · exact .inr ⟨fromSlot, hfrom, .inl hinfinite⟩
    · exact .inr ⟨fromSlot, hfrom, .inr ⟨toSlot, hto, .inl hinfinite⟩⟩

theorem not_escapes_readGapFill (watched : List String) (body : ByteArray) : ¬Escapes (readGapFill watched body) := by
  simp only [readGapFill, escapes_bind_iff, not_escapes_readControlBody, not_escapes_controlAddress, false_or,
    and_false, exists_false, not_false_eq_true]

/-- A number that is accepted is not negative. -/
theorem nonneg_of_controlNumber {members : List (String × Json)} {key : String} {n : Int}
    (h : controlNumber members key = .ok (some n)) : 0 ≤ n := by
  unfold controlNumber at h
  simp only at h
  split at h
  · cases h
  · cases h
  · split at h
    · split at h
      · cases h
      · cases h
        omega
    · cases h
    · cases h

/-- A batch size that is accepted is positive. -/
theorem batchSize_pos_of_readBackfill {watched : List String} {body : ByteArray} {address : String}
    {r : BackfillRequest} (h : readBackfill watched body = .ok (address, r)) : ∀ n ∈ r.batchSize, 0 < n := by
  simp only [readBackfill, bind_eq_ok_iff] at h
  obtain ⟨members, -, address', -, fromSlot, -, toSlot, -, batchSize, hbatch, reprocess, -, h⟩ := h
  have hnonzero : batchSize ≠ some 0 := by
    intro hzero
    rw [if_pos hzero] at h
    cases h
  have hsame : r.batchSize = batchSize := by
    rw [if_neg hnonzero] at h
    split at h
    · split at h
      · cases h
      · cases h
        rfl
    · cases h
      rfl
  intro n hn
  rw [hsame] at hn
  rw [Option.mem_def.mp hn] at hbatch hnonzero
  have hnonneg := nonneg_of_controlNumber hbatch
  have hne : n ≠ 0 := fun h => hnonzero (congrArg some h)
  omega

/-! ## Answers -/

namespace Service

/-- An answer to a control request: one of four statuses, with an object that holds a message and an error. Of a service
that answers that a request is malformed nothing has changed. -/
structure Answered (s : Service) (outcome : Except Failure ControlResponse × Service) : Prop where
  response : ∃ response members, outcome.1 = .ok response ∧ response.status ∈ [200, 400, 404, 409] ∧
    response.body = some (.obj members) ∧ (Assoc.get? "message" members).isSome ∧ (Assoc.get? "error" members).isSome
  unchanged : ∀ response, outcome.1 = .ok response → response.status = 400 → outcome.2 = s

/-- How a job for an address ends. A failure that gets out of its crawl is a result as well. -/
inductive JobEnd (s : Service) (address : String) : Except Failure IngestResult → Prop where
  | done (hopens : s.Opens) (result : IngestResult) : JobEnd s address (.ok result)
  | unwatched (hopens : s.Opens) : JobEnd s address (.error (notWatched address))
  | shut (hshut : ¬s.Opens) : JobEnd s address (.error unsupportedCache)

theorem jobEnd_runCrawl (kind : JobKind) (address : String) (crawl : Crawler → Attempt World IngestResult)
    (s : Service) : JobEnd s address ((runCrawl kind address crawl).outcome s).1 := by
  rw [runCrawl]
  by_cases hopens : s.Opens
  · rw [Attempt.outcome_bind_of_ok (outcome_ensureOpen_of_opens hopens),
      Attempt.outcome_bind_of_ok (Attempt.outcome_get s.opened)]
    cases Assoc.get? address s.opened.watched with
    | none => exact .unwatched hopens
    | some watch => exact .done hopens _
  · rw [Attempt.outcome_bind_of_error (outcome_ensureOpen_of_shut hopens)]
    exact .shut hopens

end Service

theorem Job.jobEnd_perform (job : Job) (address : String) (s : Service) :
    s.JobEnd address ((job.perform address).outcome s).1 := by
  have hcounted : ∀ (kind : JobKind) (crawl : Crawler → Attempt World IngestResult) (count : Service → Service),
      s.JobEnd address (Attempt.outcome (do
        let result ← Service.runCrawl kind address crawl
        if !result.busy then modify count
        return result) s).1 := by
    intro kind crawl count
    have hend := Service.jobEnd_runCrawl kind address crawl s
    rcases ho : (Service.runCrawl kind address crawl).outcome s with ⟨failure | result, s'⟩
    · rw [Attempt.outcome_bind_of_error ho]
      rwa [ho] at hend
    · rw [Attempt.outcome_bind_of_ok ho]
      rw [ho] at hend
      cases hbusy : result.busy <;> exact hend
  cases job with
  | backfill request => exact hcounted _ _ _
  | gapFill => exact hcounted _ _ _

namespace Service

variable {s : Service}

/-- Whatever is said about a request that did not lead to a job, nothing has changed. -/
theorem answered_refusal {status : Nat} (message : String) (hstatus : status ∈ [200, 400, 404, 409]) {s' : Service}
    (hsame : status = 400 → s' = s) : Answered s (.ok (refusal status message), s') := by
  refine ⟨⟨_, _, rfl, hstatus, rfl, by simp [Assoc.get?], by simp [Assoc.get?]⟩, fun response hresponse hrejected => ?_⟩
  cases hresponse
  exact hsame hrejected

theorem answered_jobResponse (result : IngestResult) (s' : Service) : Answered s (.ok (jobResponse result), s') := by
  have hstatus : (jobResponse result).status = if result.busy then 409 else 200 := rfl
  refine ⟨⟨_, result.members, rfl, ?_, rfl, by simp [Assoc.get?, IngestResult.members],
    by simp [Assoc.get?, IngestResult.members]⟩, fun response hresponse hrejected => ?_⟩
  · rw [hstatus]
    cases result.busy <;> decide
  · cases hresponse
    rw [hstatus] at hrejected
    cases hbusy : result.busy <;> simp [hbusy] at hrejected

/-- A request is answered unless it cannot even be rejected, or asks for a job of a service that cannot be opened. -/
theorem answered_respond_iff {α : Type} {request : Except ControlError α} {job : α → Attempt Service IngestResult}
    (hjob : ∀ asked, ∃ address, JobEnd s address ((job asked).outcome s).1) :
    Answered s ((respond request job).outcome s) ↔
      ¬Escapes request ∧ (s.Opens ∨ ∀ asked, request ≠ .ok asked) := by
  have hthrown : ∀ failure s', ¬Answered s (.error failure, s') := by
    rintro failure s' ⟨⟨response, members, hresponse, -⟩, -⟩
    cases hresponse
  cases request with
  | error e =>
    cases e with
    | rejected message =>
      exact iff_of_true (answered_refusal message (by decide) fun _ => rfl)
        ⟨not_escapes_rejected message, .inr (by simp)⟩
    | escaped failure => exact iff_of_false (hthrown failure s) fun h => h.1 (escapes_escaped failure)
  | ok asked =>
    obtain ⟨address, hend⟩ := hjob asked
    rcases ho : (job asked).outcome s with ⟨result, s'⟩
    rw [ho] at hend
    rw [respond, Attempt.outcome_bind_of_ok (Attempt.outcome_settle_of_eq ho)]
    cases hend with
    | done hopens result => exact iff_of_true (answered_jobResponse result s') ⟨not_escapes_ok asked, .inl hopens⟩
    | unwatched hopens =>
      exact iff_of_true (answered_refusal (notWatched address).message (by decide) fun h => absurd h (by decide))
        ⟨not_escapes_ok asked, .inl hopens⟩
    | shut hshut => exact iff_of_false (hthrown unsupportedCache s') fun h => (h.2.resolve_left hshut) asked rfl

/-- Every control request is answered, except one for a backfill in which an infinite number is met, and one for a job
of a service that cannot be opened. -/
theorem answered_iff (s : Service) (body : ByteArray) :
    (Answered s ((receive "POST" "/backfill" body).outcome s) ↔ ¬MeetsInfinite s.config.addresses body ∧
      (s.Opens ∨ ∀ asked, readBackfill s.config.addresses body ≠ .ok asked)) ∧
    (Answered s ((receive "POST" "/gap-fill" body).outcome s) ↔
      s.Opens ∨ ∀ asked, readGapFill s.config.addresses body ≠ .ok asked) := by
  have hbackfill : (receive "POST" "/backfill" body).outcome s =
      (respond (readBackfill s.config.addresses body) fun asked => backfill asked.1 asked.2).outcome s := rfl
  have hgapFill : (receive "POST" "/gap-fill" body).outcome s =
      (respond (readGapFill s.config.addresses body) gapFill).outcome s := rfl
  have hasked : ∀ asked : String × BackfillRequest, JobEnd s asked.1 ((backfill asked.1 asked.2).outcome s).1 :=
    fun asked => (Job.backfill asked.2).jobEnd_perform asked.1 s
  have haddress : ∀ address, JobEnd s address ((gapFill address).outcome s).1 :=
    fun address => Job.gapFill.jobEnd_perform address s
  rw [hbackfill, hgapFill, answered_respond_iff fun asked => ⟨asked.1, hasked asked⟩,
    answered_respond_iff fun address => ⟨address, haddress address⟩, escapes_readBackfill_iff,
    and_iff_right (not_escapes_readGapFill _ _)]
  exact ⟨Iff.rfl, Iff.rfl⟩

/-- The body of a request from a slot that is infinite. -/
def infiniteSlot : ByteArray :=
  "\x7b\"from_slot\": Infinity\x7d".toUTF8

/-- An infinite slot is rejected by nothing, and the failure to read it is not answered. -/
theorem infinite_slot_is_not_answered :
    ¬∀ (s : Service) (body : ByteArray), Answered s ((receive "POST" "/backfill" body).outcome s) := by
  intro h
  have hescapes : ((receive "POST" "/backfill" infiniteSlot).outcome
      { config := { addresses := ["pool"] } }).1.isOk = false := by
    decide +kernel
  obtain ⟨⟨response, members, hresponse, -⟩, -⟩ := h { config := { addresses := ["pool"] } } infiniteSlot
  rw [hresponse] at hescapes
  cases hescapes

end Service
end PairIndex
