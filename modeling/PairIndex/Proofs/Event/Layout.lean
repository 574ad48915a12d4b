import PairIndex.Event.Layout

/-! How many bytes the fields of an event take (`EventKind.fieldsSize`). A payload is an event if and only if its first
bytes name a kind and as many follow as the fields of that kind take (`exists_decodePayload_iff`). -/

namespace PairIndex

/-- How many bytes the fields of a kind take. -/
def EventKind.fieldsSize : EventKind → Nat
  | .pairCreated => 4 * 32 + 8
  | .swap => 1 + 3 * 8 + 7 * 8 + 80
  | .mint | .burn => 3 * 8 + 7 * 8 + 80
  | .adjustLiquidity => 3 * 8 + 80
  | .updatePair => 7 * 8 + 80
  | .adjustCollateral | .adjustDebt => 2 * 8 + 80
  | .flashloan => 4 * 8 + 32 + 80
  | .positionCreated => 3 * 32 + 8
  | .positionUpdated => 32 + 4 * 8 + 80
  | .positionLiquidated => 2 * 32 + 6 * 8 + 4 * 8 + 80

namespace FieldReader

variable {α β : Type}

/-- A reader takes a number of bytes whatever they are, and fails if there are fewer. -/
structure Takes (r : FieldReader α) (size : Nat) : Prop where
  reads : ∀ c : Cursor, size ≤ c.rest.length → ∃ a, r.run c = .ok (a, ⟨c.consumed + size, c.rest.drop size⟩)
  fails : ∀ c : Cursor, c.rest.length < size → ∃ e, r.run c = .error e

theorem takes_take (size : Nat) : Takes (take size) size where
  reads c h := ⟨⟨c.rest.take size, by simp [h]⟩, by simp [take, StateT.run, h]⟩
  fails c h := ⟨_, by simp [take, StateT.run, Nat.not_le.mpr h]; rfl⟩

theorem takes_pure (a : α) : Takes (pure a) 0 where
  reads _ _ := ⟨a, rfl⟩
  fails _ h := absurd h (Nat.not_lt_zero _)

theorem Takes.bind {r : FieldReader α} {next : α → FieldReader β} {size size' : Nat} (hr : Takes r size)
    (hnext : ∀ a, Takes (next a) size') : Takes (r >>= next) (size + size') where
  reads c h := by
    obtain ⟨a, ha⟩ := hr.reads c (by omega)
    obtain ⟨b, hb⟩ := (hnext a).reads ⟨c.consumed + size, c.rest.drop size⟩ (by simp; omega)
    refine ⟨b, ?_⟩
    rw [StateT.run_bind, ha]
    rw [List.drop_drop, Nat.add_assoc] at hb
    exact hb
  fails c h := by
    by_cases hsize : size ≤ c.rest.length
    · obtain ⟨a, ha⟩ := hr.reads c hsize
      obtain ⟨e, he⟩ := (hnext a).fails ⟨c.consumed + size, c.rest.drop size⟩ (by simp; omega)
      exact ⟨e, by rw [StateT.run_bind, ha]; exact he⟩
    · obtain ⟨e, he⟩ := hr.fails c (by omega)
      exact ⟨e, by rw [StateT.run_bind, he]; rfl⟩

theorem Takes.map {r : FieldReader α} {size : Nat} (f : α → β) (hr : Takes r size) :
    Takes (r >>= fun a => pure (f a)) size :=
  hr.bind fun a => takes_pure (f a)

theorem takes_publicKey : Takes publicKey 32 :=
  (takes_take 32).map fun bytes : { bytes : Bytes // bytes.length = 32 } => (⟨bytes.1, bytes.2⟩ : PublicKey)

theorem takes_word : Takes word 8 :=
  (takes_take 8).map fun bytes : { bytes : Bytes // bytes.length = 8 } => UInt64.ofNat bytes.1.toNatLE

theorem takes_signedWord : Takes signedWord 8 :=
  takes_word.map UInt64.toInt64

theorem takes_flag : Takes flag 1 :=
  (takes_take 1).map fun bytes : { bytes : Bytes // bytes.length = 1 } => bytes.1 != [0]

theorem takes_metadata : Takes metadata 80 :=
  takes_publicKey.bind fun _ => takes_publicKey.bind fun _ => takes_word.bind fun _ => takes_signedWord.map _

theorem takes_pairState : Takes pairState (7 * 8) :=
  takes_word.bind fun _ => takes_word.bind fun _ => takes_word.bind fun _ => takes_word.bind fun _ =>
    takes_word.bind fun _ => takes_word.bind fun _ => takes_word.map _

theorem takes_positionState : Takes positionState (4 * 8) :=
  takes_word.bind fun _ => takes_word.bind fun _ => takes_word.bind fun _ => takes_word.map _

/-- The fields of an event take the bytes of its kind. -/
theorem takes_body (kind : EventKind) : Takes (body kind) kind.fieldsSize := by
  cases kind with
  | pairCreated =>
    exact takes_publicKey.bind fun _ => takes_publicKey.bind fun _ => takes_publicKey.bind fun _ =>
      takes_publicKey.bind fun _ => takes_signedWord.map _
  | swap =>
    exact takes_flag.bind fun _ => takes_word.bind fun _ => takes_word.bind fun _ => takes_word.bind fun _ =>
      takes_pairState.bind fun _ => takes_metadata.map _
  | mint =>
    exact takes_word.bind fun _ => takes_word.bind fun _ => takes_word.bind fun _ =>
      takes_pairState.bind fun _ => takes_metadata.map _
  | burn =>
    exact takes_word.bind fun _ => takes_word.bind fun _ => takes_word.bind fun _ =>
      takes_pairState.bind fun _ => takes_metadata.map _
  | adjustLiquidity =>
    exact takes_word.bind fun _ => takes_word.bind fun _ => takes_word.bind fun _ => takes_metadata.map _
  | updatePair => exact takes_pairState.bind fun _ => takes_metadata.map _
  | adjustCollateral => exact takes_signedWord.bind fun _ => takes_signedWord.bind fun _ => takes_metadata.map _
  | adjustDebt => exact takes_signedWord.bind fun _ => takes_signedWord.bind fun _ => takes_metadata.map _
  | flashloan =>
    exact takes_word.bind fun _ => takes_word.bind fun _ => takes_word.bind fun _ => takes_word.bind fun _ =>
      takes_publicKey.bind fun _ => takes_metadata.map _
  | positionCreated =>
    exact takes_publicKey.bind fun _ => takes_publicKey.bind fun _ => takes_publicKey.bind fun _ =>
      takes_signedWord.map _
  | positionUpdated => exact takes_publicKey.bind fun _ => takes_positionState.bind fun _ => takes_metadata.map _
  | positionLiquidated =>
    exact takes_publicKey.bind fun _ => takes_publicKey.bind fun _ => takes_word.bind fun _ =>
      takes_word.bind fun _ => takes_word.bind fun _ => takes_word.bind fun _ => takes_word.bind fun _ =>
        takes_word.bind fun _ => takes_positionState.bind fun _ => takes_metadata.map _

end FieldReader

/-- A payload is an event if and only if it names a kind and is long enough for the fields of that kind. -/
theorem exists_decodePayload_iff {payload : Bytes} {logIndex : Int} :
    (∃ event, decodePayload payload logIndex = .ok (some event)) ↔
      ∃ kind, EventKind.ofDiscriminator? (payload.take discriminatorSize) = some kind ∧
        discriminatorSize + kind.fieldsSize ≤ payload.length := by
  rw [decodePayload]
  split
  · next hshort => exact iff_of_false nofun fun ⟨kind, _, hlong⟩ => by omega
  · next hlong =>
    cases hkind : EventKind.ofDiscriminator? (payload.take discriminatorSize) with
    | none => exact iff_of_false nofun nofun
    | some kind =>
      simp only [Option.some.injEq, exists_eq_left']
      by_cases hfields : discriminatorSize + kind.fieldsSize ≤ payload.length
      · obtain ⟨body, hbody⟩ :=
          (FieldReader.takes_body kind).reads ⟨0, payload.drop discriminatorSize⟩ (by simp; omega)
        exact iff_of_true ⟨_, by rw [hbody]⟩ hfields
      · obtain ⟨e, he⟩ := (FieldReader.takes_body kind).fails ⟨0, payload.drop discriminatorSize⟩ (by simp; omega)
        exact iff_of_false (by simp [he]) hfields

end PairIndex
