import PairIndex.Proofs.Json.Access
import PairIndex.Proofs.Ledger.Cache
import PairIndex.Settings.Basic

/-! What accepted settings promise to a crawl. Its batches are not empty and it may ingest at least one signature at a
time (`IndexingSettings.within_of_read`); its pages are not empty either, and no larger than those that a client asks its
node for (`Settings.asks_whole_pages`). -/

namespace PairIndex

namespace Field

/-- A number between bounds. -/
structure IntegerBounds.Within (b : IntegerBounds) (n : Int) : Prop where
  low : b.low ≤ n
  high : ∀ high ∈ b.high, n ≤ high

theorem IntegerBounds.within_of_check {b : IntegerBounds} {n m : Int} (h : b.check n = .ok m) : b.Within m := by
  rw [check] at h
  split at h
  · cases h
  · next habove =>
    split at h
    · cases h
    · next hbelow =>
      cases h
      refine ⟨Int.not_lt.mp hbelow, fun high hhigh => ?_⟩
      simpa [Option.mem_def.mp hhigh] using habove

theorem within_of_integer {b : IntegerBounds} {text : String} {n : Int} (h : integer b text = .ok n) : b.Within n := by
  rw [integer] at h
  split at h
  · cases h
  · exact IntegerBounds.within_of_check h

end Field

namespace Checked

variable {α β : Type} {P : α → Prop}

/-- What holds of a value, if there is one. -/
def Holds (P : α → Prop) : Checked α → Prop
  | .valid a => P a
  | .invalid _ => True

theorem holds_of_forall (h : ∀ a, P a) (x : Checked α) : x.Holds P := by
  cases x with
  | valid a => exact h a
  | invalid errors => trivial

theorem holds_map_iff {P : β → Prop} (f : α → β) (x : Checked α) : (f <$> x).Holds P ↔ x.Holds fun a => P (f a) := by
  cases x <;> rfl

theorem holds_seq_iff {P : β → Prop} (f : Checked (α → β)) (x : Checked α) :
    (f <*> x).Holds P ↔ f.Holds fun g => x.Holds fun a => P (g a) := by
  cases f with
  | valid g => cases x <;> rfl
  | invalid errors => cases x <;> exact iff_of_true trivial trivial

theorem holds_of_toExcept {x : Checked α} (hx : x.Holds P) {a : α} (h : x.toExcept = .ok a) : P a := by
  cases x with
  | valid a' => exact Except.ok.inj h ▸ hx
  | invalid errors => cases h

/-- A number that is set is between the bounds of its setting, if the default is. -/
theorem holds_integer {P : Int → Prop} {e : Environment} {name : String} {b : Field.IntegerBounds} {default : Int}
    (hdefault : b.Within default) (h : ∀ n, b.Within n → P n) :
    (e.setting name default (Field.integer b)).Holds P := by
  rw [Environment.setting]
  split
  · exact h default hdefault
  · split
    · next n hread => exact h n (Field.within_of_integer hread)
    · trivial

end Checked

/-- Settings of a crawl the numbers of which are between their bounds. -/
structure IndexingSettings.Within (s : IndexingSettings) : Prop where
  pageSize : (⟨1, some 1000⟩ : Field.IntegerBounds).Within s.pageSize
  batchSize : (⟨1, some 100000⟩ : Field.IntegerBounds).Within s.batchSize
  concurrency : (⟨1, some 200⟩ : Field.IntegerBounds).Within s.concurrency
  gapFillInterval : (⟨5, some 86400⟩ : Field.IntegerBounds).Within s.gapFillInterval
  maxInFlight : (⟨1, some 10000⟩ : Field.IntegerBounds).Within s.maxInFlight

open Checked in
theorem IndexingSettings.within_of_read (e : Environment) : (read e).Holds Within := by
  simp only [read, holds_seq_iff, holds_map_iff]
  refine holds_of_forall (fun addresses => ?_) _
  refine holds_integer ⟨by decide, by decide⟩ fun pageSize hpageSize => ?_
  refine holds_integer ⟨by decide, by decide⟩ fun batchSize hbatchSize => ?_
  refine holds_integer ⟨by decide, by decide⟩ fun concurrency hconcurrency => ?_
  refine holds_of_forall (fun pageDelay => ?_) _
  refine holds_of_forall (fun requestDelay => ?_) _
  refine holds_integer ⟨by decide, by decide⟩ fun gapFillInterval hgapFillInterval => ?_
  refine holds_of_forall (fun fetchDelay => ?_) _
  refine holds_integer ⟨by decide, by decide⟩ fun maxInFlight hmaxInFlight => ?_
  refine holds_of_forall (fun skipBackfill => ?_) _
  refine holds_of_forall (fun backfillFromSlot => ?_) _
  exact ⟨hpageSize, hbatchSize, hconcurrency, hgapFillInterval, hmaxInFlight⟩

theorem Settings.within_of_read {e : Environment} {s : Settings} (h : read e = .ok s) : s.indexing.Within := by
  simp only [read, bind_eq_ok_iff] at h
  obtain ⟨database, -, cache, -, ledger, -, indexing, hindexing, h⟩ := h
  have hwithin := Checked.holds_of_toExcept (IndexingSettings.within_of_read e) hindexing
  refine Checked.holds_of_toExcept (P := fun s => s.indexing.Within) ?_ h
  simp only [Checked.holds_seq_iff, Checked.holds_map_iff]
  refine Checked.holds_of_forall (fun logLevel => ?_) _
  refine Checked.holds_of_forall (fun controlHost => ?_) _
  exact Checked.holds_of_forall (fun controlPort => hwithin) _

namespace LedgerClient

/-- A later client that made at most one call since, and no other than the given one. -/
def CallsOnly (client : LedgerClient) (c : RpcCall) (client' : LedgerClient) : Prop :=
  client'.calls = client.calls ∨ client'.calls = client.calls ++ [c]

/-- A client that refuses a text stays as it is. -/
theorem CallsOnly.of_check {α : Type} {client : LedgerClient} {c : RpcCall} {size : Nat} {text : String}
    {next : Unit → Attempt LedgerClient α} (h : client.CallsOnly c ((next ()).outcome client).2) :
    client.CallsOnly c (Attempt.outcome (checkBase58 size text >>= next) client).2 := by
  rw [Attempt.outcome_bind, outcome_checkBase58]
  cases (Base58.decode? text).any (·.length == size) with
  | true => exact h
  | false => exact .inl rfl

/-- What a client makes of a reply does not change it. -/
theorem CallsOnly.of_call {α : Type} {client : LedgerClient} {c : LedgerClient → RpcCall}
    {next : LedgerClient → RpcReply → Attempt LedgerClient α}
    (h : ∀ reply client', ((next client reply).outcome client').2 = client') :
    client.CallsOnly (c client) (Attempt.outcome (get >>= fun now => call (c now) >>= next now) client).2 := by
  rw [Attempt.outcome_bind_of_ok (Attempt.outcome_get client), Attempt.outcome_bind_of_ok (outcome_call _ client), h]
  exact .inr rfl

/-- A client that is asked for no more entries than a page has at most asks its node for as many, if it asks at all. -/
theorem callsOnly_signatures (client : LedgerClient) (address : String) (before stopAt : Option String) {limit : Int}
    (hlimit : limit ≤ maxPageSize) :
    client.CallsOnly
      (.signatures address (signatureOrNone before) (signatureOrNone stopAt) limit client.config.commitment)
      ((signatures address before stopAt limit).outcome client).2 := by
  rw [signatures, Int.min_eq_left hlimit]
  refine .of_check ?_
  cases signatureOrNone before with
  | none =>
    cases signatureOrNone stopAt with
    | none => exact .of_call fun reply _ => by cases reply <;> rfl
    | some stop => exact .of_check (.of_call fun reply _ => by cases reply <;> rfl)
  | some start =>
    refine .of_check ?_
    cases signatureOrNone stopAt with
    | none => exact .of_call fun reply _ => by cases reply <;> rfl
    | some stop => exact .of_check (.of_call fun reply _ => by cases reply <;> rfl)

end LedgerClient

/-- The pages that a crawl with accepted settings asks for are not empty, and a client asks its node for all of each. -/
theorem Settings.asks_whole_pages {e : Environment} {s : Settings} (h : read e = .ok s) (live : Bool) (address : String)
    (before stopAt : Option String) (client : LedgerClient) :
    let p := ((s.serviceConfig live).crawler address).paging
    1 ≤ p.pageSize ∧ client.CallsOnly
      (.signatures address (LedgerClient.signatureOrNone before) (LedgerClient.signatureOrNone stopAt) p.pageSize
        client.config.commitment) ((LedgerClient.signatures address before stopAt p.pageSize).outcome client).2 := by
  have hwithin := (within_of_read h).pageSize
  exact ⟨hwithin.low, client.callsOnly_signatures address before stopAt (hwithin.high 1000 rfl)⟩

end PairIndex
