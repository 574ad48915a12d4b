import PairIndex.Proofs.Event.Format
import PairIndex.Proofs.Event.Log
import PairIndex.Proofs.Ingest.Quiet
import PairIndex.Proofs.Number.Price

/-! Which events the store takes. The ratio of any two words is a price (`Price.ofRatio_words`), a time outside the
calendar is left out, and amounts are no columns of sixty-four bits. So of all that an event may carry only its number
can be too large (`Event.exists_failure_iff`). -/

namespace PairIndex

/-- The ratios that are worked out for an event: the prices of a swap, and those that the reserves after it imply. -/
def EventBody.ratios : EventBody → List (UInt64 × UInt64)
  | .swap _ amountIn amountOut _ state _ =>
    [(amountOut, amountIn), (amountIn, amountOut), (state.reserve1, state.reserve0), (state.reserve0, state.reserve1)]
  | _ => []

/-- Whether the number of an event, if it has one, is too large for a signed word. -/
def EventBody.overflows (body : EventBody) : Bool :=
  body.seqNum?.any fun n => decide (2 ^ 63 ≤ n.toNat)

theorem EventBody.overflows_iff {body : EventBody} :
    body.overflows = true ↔ ∃ n, body.seqNum? = some n ∧ 2 ^ 63 ≤ n.toNat := by
  simp [overflows, Option.any_eq_true]

/-- An unsigned word fits its column if a signed one can hold it. -/
theorem Session.fitsColumn_word (n : UInt64) : fitsColumn n.toNat = !decide (2 ^ 63 ≤ n.toNat) := by
  have htwo : Number.twoTo 63 = 2 ^ 63 := rfl
  rw [fitsColumn, htwo, ← decide_not, decide_eq_decide]
  omega

namespace Event

/-- Every price that is stored for an event is one of its ratios. -/
theorem exists_ratio_of_price {signature : String} {e : Event} {price : Price}
    (h : (e.detail signature).price0 = some price ∨ (e.detail signature).price1 = some price ∨
      ∃ row ∈ e.body.pricePointRow? signature, row.price0 = some price ∨ row.price1 = some price) :
    ∃ ratio ∈ e.body.ratios, Price.ofWords ratio.1 ratio.2 = some price := by
  obtain ⟨body, logIndex⟩ := e
  cases body with
  | swap isToken0In amountIn amountOut fee state m =>
    simp only [EventBody.ratios, List.exists_mem_cons_iff, List.not_mem_nil, false_and, exists_false, or_false]
    rcases h with h | h | ⟨row, hrow, h⟩
    · cases isToken0In with
      | true => exact .inl h
      | false => exact .inr (.inl h)
    · cases isToken0In with
      | true => exact .inr (.inl h)
      | false => exact .inl h
    · cases hrow
      exact .inr (.inr h)
  | _ => simp [detail, commonDetail, EventBody.pricePointRow?] at h

/-- An event that decoding returns for some payload, on a line whose number fits its column. -/
def IsDecoded (e : Event) : Prop :=
  ∃ payload logIndex, Session.fitsColumn logIndex = true ∧ decodePayload payload logIndex = .ok (some e)

/-- The commit of a decoded event fits, unless its number overflows. -/
theorem IsDecoded.fits_eq {e : Event} (h : e.IsDecoded) (signature : String) :
    (Commit.event signature e).fits = !e.body.overflows := by
  obtain ⟨payload, logIndex, hindex, hdecoded⟩ := h
  rw [Commit.fits, logIndex_of_decodePayload hdecoded, hindex, Bool.true_and, EventBody.overflows]
  cases e.body.seqNum? with
  | none => rfl
  | some n => rw [Option.all_some, Option.any_some, Session.fitsColumn_word]

/-- While the store reports no failure, the session of a decoded event fails if and only if its number overflows. -/
theorem exists_failure_iff {e : Event} (h : e.IsDecoded) (signature : String) {db : Database} (hquiet : db.Quiet) :
    (∃ failure, ((Database.session (Session.applyEvent signature e)).outcome db).1 = .error failure) ↔
      e.body.overflows = true := by
  rw [Database.outcome_applyEvent, hquiet.nextFault, Commit.failure?_none, h.fits_eq]
  cases e.body.overflows <;> simp

end Event

namespace DecodedTransaction

/-- Of decoded events just those fail whose number is too large for a signed word, from whatever store, as long as the
store itself reports no failure: the session of an event fails if and only if that is so, no ratio is too long for a
price, and a transaction is processed with just those events counted as failed. -/
theorem event_fails_iff_seqNum_overflows {tx : DecodedTransaction} (hdecoded : ∀ e ∈ tx.events, e.IsDecoded)
    {db : Database} (hquiet : db.Quiet) :
    (∀ e ∈ tx.events,
      ((∃ failure, ((Database.session (Session.applyEvent tx.signature e)).outcome db).1 = .error failure) ↔
        ∃ n, e.body.seqNum? = some n ∧ 2 ^ 63 ≤ n.toNat) ∧
      ∀ ratio ∈ e.body.ratios,
        Price.ofRatio ratio.1.toNat ratio.2.toNat = .ok (Price.ofWords ratio.1 ratio.2)) ∧
    (tx.failed = false → Session.fitsColumn tx.slot = true →
      ∃ r db', tx.process.outcome db = (.ok r, db') ∧ r.failed = tx.events.countP (·.body.overflows)) := by
  refine ⟨fun e he => ⟨?_, fun ratio _ => Price.ofRatio_words ratio.1 ratio.2⟩, fun hsuccess hslot => ?_⟩
  · rw [Event.exists_failure_iff (hdecoded e he) tx.signature hquiet, EventBody.overflows_iff]
  · obtain ⟨r, db', ho, hcount, -⟩ := hquiet.failed_process (d := tx) hslot
    refine ⟨r, db', ho, ?_⟩
    simp only [hcount, hsuccess, Bool.false_eq_true, if_false]
    refine List.countP_congr fun e he => ?_
    rw [(hdecoded e he).fits_eq, Bool.not_not]

/-- The largest amounts, an empty reserve, times before and after the calendar, and the first number that is too
large. -/
def extremes : DecodedTransaction :=
  let state : PairState := ⟨0, 18446744073709551615, 18446744073709551615, 0, 0, 0, 0⟩
  ⟨"extremes", 1, none,
    [⟨.pairCreated (.small 3) (.small 4) (.small 2) (.small 5) (-9223372036854775808), 0⟩,
      ⟨.swap true 1 18446744073709551615 0 state ⟨.small 1, .small 2, 9223372036854775807, 9223372036854775807⟩, 1⟩,
      ⟨.flashloan 18446744073709551615 18446744073709551615 18446744073709551615 18446744073709551615 (.small 6)
        ⟨.small 1, .small 2, 0, 0⟩, 2⟩,
      ⟨.updatePair state ⟨.small 1, .small 2, 9223372036854775808, 0⟩, 3⟩], false⟩

/-- Only the last one fails. -/
theorem event_fails_iff_seqNum_overflows_extremes :
    (∀ e ∈ extremes.events, e.IsDecoded) ∧ Database.Quiet { store := .empty } ∧
      ∃ r db', extremes.process.outcome { store := .empty } = (.ok r, db') ∧ r.failed = 1 := by
  have hindex : ∀ e ∈ extremes.events, Session.fitsColumn e.logIndex = true := by decide +kernel
  have hdecoded : ∀ e ∈ extremes.events, e.IsDecoded := fun e he =>
    ⟨e.body.encode ++ [], e.logIndex, hindex e he, decodePayload_encode e.body [] e.logIndex⟩
  have hquiet : Database.Quiet { store := .empty } := nofun
  have hcount : extremes.events.countP (·.body.overflows) = 1 := by decide +kernel
  obtain ⟨-, hprocess⟩ := event_fails_iff_seqNum_overflows hdecoded hquiet
  rw [hcount] at hprocess
  exact ⟨hdecoded, hquiet, hprocess rfl (by decide)⟩

end DecodedTransaction
end PairIndex
