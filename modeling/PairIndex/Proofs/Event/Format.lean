import PairIndex.Proofs.Bytes.Base58
import PairIndex.Proofs.Event.Layout

/-! The format of payloads. What a field reader reads is told by the bytes that stand for a value (`FieldReader.Reads`),
one lemma for each way to build a reader; for the fields of an event these are the bytes that `EventBody.encodeFields`
writes, where any byte but zero stands for `true`. So decoding and encoding are inverse to each other, up to that
byte and to the bytes after the last field (`decodePayload_format`). -/

namespace PairIndex

theorem PublicKey.toText_injective : Function.Injective PublicKey.toText := by
  intro key key' h
  obtain ⟨bytes, hlength⟩ := key
  obtain ⟨bytes', hlength'⟩ := key'
  have hbytes : bytes = bytes' := Base58.encode_injective h
  subst hbytes
  rfl

/-! ## What readers read -/

namespace FieldReader

variable {α β : Type}

/-- A reader reads a value from just those bytes that stand for it. -/
def Reads (r : FieldReader α) (form : α → Bytes → Prop) : Prop :=
  ∀ c a c', r.run c = .ok (a, c') ↔
    ∃ bytes, form a bytes ∧ c.rest = bytes ++ c'.rest ∧ c'.consumed = c.consumed + bytes.length

theorem run_bind_eq_ok_iff {r : FieldReader α} {next : α → FieldReader β} {c c' : Cursor} {b : β} :
    (r >>= next).run c = .ok (b, c') ↔ ∃ a c₁, r.run c = .ok (a, c₁) ∧ (next a).run c₁ = .ok (b, c') := by
  rw [StateT.run_bind]
  rcases r.run c with e | ⟨a, c₁⟩
  · exact iff_of_false nofun nofun
  · constructor
    · intro h
      exact ⟨a, c₁, rfl, h⟩
    · rintro ⟨a', c₁', hfirst, hnext⟩
      cases hfirst
      exact hnext

theorem reads_pure (a : α) : Reads (pure a) fun b bytes => b = a ∧ bytes = [] := by
  intro c b c'
  constructor
  · intro h
    cases h
    exact ⟨[], ⟨rfl, rfl⟩, rfl, rfl⟩
  · rintro ⟨_, ⟨rfl, rfl⟩, hrest, hconsumed⟩
    have hc : c' = c := by
      cases c
      cases c'
      simp_all
    rw [hc]
    rfl

theorem Reads.congr {r : FieldReader α} {form form' : α → Bytes → Prop} (hr : Reads r form)
    (h : ∀ a bytes, form a bytes ↔ form' a bytes) : Reads r form' := by
  intro c a c'
  rw [hr]
  exact exists_congr fun bytes => and_congr_left' (h a bytes)

/-- What two readers read one after the other. -/
theorem Reads.bind {r : FieldReader α} {next : α → FieldReader β} {form : α → Bytes → Prop}
    {form' : α → β → Bytes → Prop} (hr : Reads r form) (hnext : ∀ a, Reads (next a) (form' a)) :
    Reads (r >>= next) fun b bytes => ∃ a front back, form a front ∧ form' a b back ∧ bytes = front ++ back := by
  intro c b c'
  rw [run_bind_eq_ok_iff]
  constructor
  · rintro ⟨a, c₁, hfirst, hsecond⟩
    obtain ⟨front, hform, hrest, hconsumed⟩ := (hr c a c₁).mp hfirst
    obtain ⟨back, hform', hrest', hconsumed'⟩ := (hnext a c₁ b c').mp hsecond
    refine ⟨front ++ back, ⟨a, front, back, hform, hform', rfl⟩, ?_, ?_⟩
    · rw [hrest, hrest', List.append_assoc]
    · rw [hconsumed', hconsumed, List.length_append]
      omega
  · rintro ⟨_, ⟨a, front, back, hform, hform', rfl⟩, hrest, hconsumed⟩
    rw [List.append_assoc] at hrest
    rw [List.length_append, ← Nat.add_assoc] at hconsumed
    have hfirst : r.run c = .ok (a, ⟨c.consumed + front.length, back ++ c'.rest⟩) :=
      (hr _ _ _).mpr ⟨front, hform, hrest, rfl⟩
    exact ⟨a, _, hfirst, (hnext a _ _ _).mpr ⟨back, hform', rfl, hconsumed⟩⟩

/-- A reader that reads what an encoding writes, and then another one. -/
theorem Reads.next {r : FieldReader α} {next : α → FieldReader β} {encode : α → Bytes} {form : α → β → Bytes → Prop}
    (hr : Reads r fun a bytes => bytes = encode a) (hnext : ∀ a, Reads (next a) (form a)) :
    Reads (r >>= next) fun b bytes => ∃ a back, form a b back ∧ bytes = encode a ++ back :=
  (hr.bind hnext).congr (by simp)

theorem reads_take (size : Nat) : Reads (take size) fun a bytes => bytes = a.1 := by
  intro c a c'
  obtain ⟨bytes, hbytes⟩ := a
  constructor
  · intro h
    by_cases hsize : size ≤ c.rest.length
    · simp only [take, StateT.run, hsize, dif_pos] at h
      cases h
      exact ⟨_, rfl, (List.take_append_drop size c.rest).symm, by rw [hbytes]⟩
    · simp only [take, StateT.run, hsize, dif_neg, not_false_eq_true] at h
      cases h
  · rintro ⟨front, hfront, hrest, hconsumed⟩
    have hfront : front = bytes := hfront
    subst hfront
    have hsize : size ≤ c.rest.length := by
      rw [hrest, List.length_append, hbytes]
      omega
    have htake : c.rest.take size = front := by rw [hrest, List.take_left' hbytes]
    have hdrop : c.rest.drop size = c'.rest := by rw [hrest, List.drop_left' hbytes]
    have hcursor : (⟨c.consumed + size, c'.rest⟩ : Cursor) = c' := by rw [← hbytes, ← hconsumed]
    simp only [take, StateT.run, hsize, dif_pos, htake, hdrop, hcursor]

theorem reads_publicKey : Reads publicKey fun key bytes => bytes = key.bytes := by
  refine ((reads_take 32).next fun x => reads_pure (⟨x.1, x.2⟩ : PublicKey)).congr fun key bytes => ?_
  constructor
  · rintro ⟨x, _, ⟨rfl, rfl⟩, rfl⟩
    exact List.append_nil _
  · rintro rfl
    exact ⟨⟨key.bytes, key.length_eq⟩, [], ⟨rfl, rfl⟩, (List.append_nil _).symm⟩

theorem reads_word : Reads word fun w bytes => bytes = encodeWord w := by
  refine ((reads_take 8).next fun x => reads_pure (UInt64.ofNat x.1.toNatLE)).congr fun w bytes => ?_
  constructor
  · rintro ⟨⟨x, hx⟩, _, ⟨rfl, rfl⟩, rfl⟩
    have hlt : x.toNatLE < 2 ^ 64 := by
      have hbound := Bytes.toNatLE_lt x
      rwa [hx] at hbound
    have hword : encodeWord (UInt64.ofNat x.toNatLE) = Bytes.ofNatLE x.length x.toNatLE := by
      rw [encodeWord, UInt64.toNat_ofNat_of_lt' hlt, hx]
    rw [hword, Bytes.ofNatLE_toNatLE, List.append_nil]
  · rintro rfl
    refine ⟨⟨encodeWord w, Bytes.length_ofNatLE 8 w.toNat⟩, [], ⟨?_, rfl⟩, (List.append_nil _).symm⟩
    show w = UInt64.ofNat (Bytes.ofNatLE 8 w.toNat).toNatLE
    have hlt : w.toNat < Nat.pow 256 8 := w.toNat_lt
    rw [Bytes.toNatLE_ofNatLE, Nat.mod_eq_of_lt hlt, UInt64.ofNat_toNat]

theorem reads_signedWord : Reads signedWord fun w bytes => bytes = encodeSignedWord w := by
  refine (reads_word.next fun w => reads_pure w.toInt64).congr fun w bytes => ?_
  constructor
  · rintro ⟨w, _, ⟨rfl, rfl⟩, rfl⟩
    rw [List.append_nil]
    rfl
  · rintro rfl
    exact ⟨w.toUInt64, [], ⟨rfl, rfl⟩, (List.append_nil _).symm⟩

theorem reads_metadata : Reads metadata fun m bytes => bytes = m.encode := by
  refine (reads_publicKey.next fun signer => reads_publicKey.next fun pair => reads_word.next fun seqNum =>
    reads_signedWord.next fun timestamp => reads_pure (⟨signer, pair, seqNum, timestamp⟩ : EventMetadata)).congr ?_
  intro m bytes
  obtain ⟨signer, pair, seqNum, timestamp⟩ := m
  simp [EventMetadata.encode]

theorem reads_pairState : Reads pairState fun s bytes => bytes = s.encode := by
  refine (reads_word.next fun _ => reads_word.next fun _ => reads_word.next fun _ => reads_word.next fun _ =>
    reads_word.next fun _ => reads_word.next fun _ => reads_word.next fun _ => reads_pure _).congr ?_
  intro s bytes
  cases s
  simp [PairState.encode]

theorem reads_positionState : Reads positionState fun s bytes => bytes = s.encode := by
  refine (reads_word.next fun _ => reads_word.next fun _ => reads_word.next fun _ => reads_word.next fun _ =>
    reads_pure _).congr ?_
  intro s bytes
  cases s
  simp [PositionState.encode]

/-- Any byte stands for a truth value. -/
theorem reads_flag : Reads flag fun b bytes => ∃ byte, bytes = [byte] ∧ b = (byte != 0) := by
  refine ((reads_take 1).next fun x => reads_pure (x.1 != [0])).congr fun b bytes => ?_
  have hsame : ∀ byte : UInt8, ([byte] != [0]) = (byte != 0) := by
    intro byte
    rw [Bool.eq_iff_iff, bne_iff_ne, bne_iff_ne, ne_eq, List.singleton_inj]
  constructor
  · rintro ⟨⟨x, hx⟩, _, ⟨rfl, rfl⟩, rfl⟩
    obtain ⟨byte, rfl⟩ := List.length_eq_one_iff.mp hx
    exact ⟨byte, List.append_nil _, hsame byte⟩
  · rintro ⟨byte, rfl, rfl⟩
    exact ⟨⟨[byte], rfl⟩, [], ⟨(hsame byte).symm, rfl⟩, (List.append_nil _).symm⟩

end FieldReader

/-- The fields of a kind with a truth value, which only a swap has, as it is written. -/
def EventKind.normalFields : EventKind → Bytes → Bytes
  | .swap, byte :: rest => encodeFlag (byte != 0) ++ rest
  | _, fields => fields

theorem normalFields_swap_eq_iff {b : Bool} {fields rest : Bytes} :
    EventKind.swap.normalFields fields = encodeFlag b ++ rest ↔ ∃ byte, b = (byte != 0) ∧ fields = byte :: rest := by
  cases fields with
  | nil =>
    refine iff_of_false ?_ (by simp)
    cases b <;> nofun
  | cons byte fields =>
    have hflag : ∀ b b' : Bool, encodeFlag b ++ fields = encodeFlag b' ++ rest ↔ b' = b ∧ fields = rest := by
      intro b b'
      cases b <;> cases b' <;> simp [encodeFlag]
    rw [EventKind.normalFields, hflag]
    constructor
    · rintro ⟨hb, rfl⟩
      exact ⟨byte, hb, rfl⟩
    · rintro ⟨_, hb, heq⟩
      cases heq
      exact ⟨hb, rfl⟩

/-- The fields of an event are read from what is written for them, up to truth values. -/
theorem FieldReader.reads_body (kind : EventKind) :
    Reads (body kind) fun event fields => event.kind = kind ∧ kind.normalFields fields = event.encodeFields := by
  cases kind with
  | pairCreated =>
    refine (reads_publicKey.next fun _ => reads_publicKey.next fun _ => reads_publicKey.next fun _ =>
      reads_publicKey.next fun _ => reads_signedWord.next fun _ => reads_pure _).congr ?_
    intro event fields
    cases event <;> simp [EventBody.kind, EventBody.encodeFields, EventKind.normalFields]
  | swap =>
    refine (reads_flag.bind fun _ => reads_word.next fun _ => reads_word.next fun _ => reads_word.next fun _ =>
      reads_pairState.next fun _ => reads_metadata.next fun _ => reads_pure _).congr ?_
    intro event fields
    cases event <;> simp [EventBody.kind, EventBody.encodeFields, normalFields_swap_eq_iff]
  | mint =>
    refine (reads_word.next fun _ => reads_word.next fun _ => reads_word.next fun _ =>
      reads_pairState.next fun _ => reads_metadata.next fun _ => reads_pure _).congr ?_
    intro event fields
    cases event <;> simp [EventBody.kind, EventBody.encodeFields, EventKind.normalFields]
  | burn =>
    refine (reads_word.next fun _ => reads_word.next fun _ => reads_word.next fun _ =>
      reads_pairState.next fun _ => reads_metadata.next fun _ => reads_pure _).congr ?_
    intro event fields
    cases event <;> simp [EventBody.kind, EventBody.encodeFields, EventKind.normalFields]
  | adjustLiquidity =>
    refine (reads_word.next fun _ => reads_word.next fun _ => reads_word.next fun _ =>
      reads_metadata.next fun _ => reads_pure _).congr ?_
    intro event fields
    cases event <;> simp [EventBody.kind, EventBody.encodeFields, EventKind.normalFields]
  | updatePair =>
    refine (reads_pairState.next fun _ => reads_metadata.next fun _ => reads_pure _).congr ?_
    intro event fields
    cases event <;> simp [EventBody.kind, EventBody.encodeFields, EventKind.normalFields]
  | adjustCollateral =>
    refine (reads_signedWord.next fun _ => reads_signedWord.next fun _ => reads_metadata.next fun _ =>
      reads_pure _).congr ?_
    intro event fields
    cases event <;> simp [EventBody.kind, EventBody.encodeFields, EventKind.normalFields]
  | adjustDebt =>
    refine (reads_signedWord.next fun _ => reads_signedWord.next fun _ => reads_metadata.next fun _ =>
      reads_pure _).congr ?_
    intro event fields
    cases event <;> simp [EventBody.kind, EventBody.encodeFields, EventKind.normalFields]
  | flashloan =>
    refine (reads_word.next fun _ => reads_word.next fun _ => reads_word.next fun _ => reads_word.next fun _ =>
      reads_publicKey.next fun _ => reads_metadata.next fun _ => reads_pure _).congr ?_
    intro event fields
    cases event <;> simp [EventBody.kind, EventBody.encodeFields, EventKind.normalFields]
  | positionCreated =>
    refine (reads_publicKey.next fun _ => reads_publicKey.next fun _ => reads_publicKey.next fun _ =>
      reads_signedWord.next fun _ => reads_pure _).congr ?_
    intro event fields
    cases event <;> simp [EventBody.kind, EventBody.encodeFields, EventKind.normalFields]
  | positionUpdated =>
    refine (reads_publicKey.next fun _ => reads_positionState.next fun _ => reads_metadata.next fun _ =>
      reads_pure _).congr ?_
    intro event fields
    cases event <;> simp [EventBody.kind, EventBody.encodeFields, EventKind.normalFields]
  | positionLiquidated =>
    refine (reads_publicKey.next fun _ => reads_publicKey.next fun _ => reads_word.next fun _ =>
      reads_word.next fun _ => reads_word.next fun _ => reads_word.next fun _ => reads_word.next fun _ =>
        reads_word.next fun _ => reads_positionState.next fun _ => reads_metadata.next fun _ => reads_pure _).congr ?_
    intro event fields
    cases event <;> simp [EventBody.kind, EventBody.encodeFields, EventKind.normalFields]

/-! ## Sizes -/

@[simp]
theorem length_encodeWord (w : UInt64) : (encodeWord w).length = 8 :=
  Bytes.length_ofNatLE 8 w.toNat

@[simp]
theorem length_encodeSignedWord (w : Int64) : (encodeSignedWord w).length = 8 :=
  length_encodeWord w.toUInt64

@[simp]
theorem length_encodeFlag (b : Bool) : (encodeFlag b).length = 1 :=
  rfl

@[simp]
theorem EventMetadata.length_encode (m : EventMetadata) : m.encode.length = 80 := by
  simp [encode, PublicKey.length_eq]

@[simp]
theorem PairState.length_encode (s : PairState) : s.encode.length = 7 * 8 := by
  simp [encode]

@[simp]
theorem PositionState.length_encode (s : PositionState) : s.encode.length = 4 * 8 := by
  simp [encode]

/-- The fields of a kind have the same size in every event. -/
theorem EventBody.length_encodeFields (body : EventBody) : body.encodeFields.length = body.kind.fieldsSize := by
  cases body <;> simp [encodeFields, kind, EventKind.fieldsSize, PublicKey.length_eq]

@[simp]
theorem EventKind.length_normalFields (kind : EventKind) (fields : Bytes) :
    (kind.normalFields fields).length = fields.length := by
  cases kind <;> cases fields <;> simp [normalFields, Nat.add_comm]

/-! ## Discriminators -/

theorem EventKind.mem_all (kind : EventKind) : kind ∈ all := by
  cases kind <;> decide

/-- No two kinds have the same discriminator. -/
theorem EventKind.discriminator_injective : Function.Injective EventKind.discriminator := by
  have hnodup : (all.map discriminator).Nodup := by decide +kernel
  intro kind kind' h
  exact List.inj_on_of_nodup_map hnodup kind.mem_all kind'.mem_all h

theorem EventKind.length_discriminator (kind : EventKind) : kind.discriminator.length = discriminatorSize := by
  have hall : ∀ kind ∈ all, (discriminator kind).length = discriminatorSize := by decide +kernel
  exact hall kind kind.mem_all

theorem EventKind.ofDiscriminator?_eq_some_iff {bytes : Bytes} {kind : EventKind} :
    ofDiscriminator? bytes = some kind ↔ bytes = kind.discriminator := by
  have hfound : ∀ entry, registry.find? (·.1 == bytes) = some entry → entry = (bytes, entry.2) ∧
      bytes = entry.2.discriminator := by
    intro entry hentry
    have hkey : entry.1 = bytes := by simpa using List.find?_some hentry
    obtain ⟨kind', -, rfl⟩ := List.mem_map.mp (List.mem_of_find?_eq_some hentry)
    exact ⟨by rw [← hkey], hkey.symm⟩
  rw [ofDiscriminator?, Option.map_eq_some_iff]
  constructor
  · rintro ⟨entry, hentry, rfl⟩
    exact (hfound entry hentry).2
  · rintro rfl
    have hmem : (kind.discriminator, kind) ∈ registry := List.mem_map.mpr ⟨kind, kind.mem_all, rfl⟩
    have hsome : (registry.find? (·.1 == kind.discriminator)).isSome = true :=
      List.find?_isSome.mpr ⟨_, hmem, by simp⟩
    obtain ⟨entry, hentry⟩ := Option.isSome_iff_exists.mp hsome
    exact ⟨entry, hentry, (discriminator_injective (hfound entry hentry).2).symm⟩

/-! ## Payloads -/

namespace EventKind

/-- How many bytes of a payload are its discriminator and its fields. -/
def payloadSize (kind : EventKind) : Nat :=
  discriminatorSize + kind.fieldsSize

/-- The discriminator and the fields of a payload, with a truth value as it is written. -/
def normalPayload (kind : EventKind) (payload : Bytes) : Bytes :=
  payload.take discriminatorSize ++ kind.normalFields ((payload.drop discriminatorSize).take kind.fieldsSize)

end EventKind

/-- What is written for the fields of an event is in normal form. -/
theorem EventBody.normalFields_encodeFields (body : EventBody) :
    body.kind.normalFields body.encodeFields = body.encodeFields := by
  cases body with
  | swap isToken0In =>
    rw [encodeFields, List.append_assoc, List.append_assoc]
    exact normalFields_swap_eq_iff.mpr ⟨if isToken0In then 1 else 0, by cases isToken0In <;> rfl, rfl⟩
  | _ => rfl

/-- What is read of some bytes as the fields of a kind: nothing if there are too few of them, else an event of this kind
that is written as they are. -/
theorem FieldReader.run_body (kind : EventKind) (rest : Bytes) :
    (rest.length < kind.fieldsSize ∧ ∃ error, (body kind).run ⟨0, rest⟩ = .error error) ∨
      kind.fieldsSize ≤ rest.length ∧ ∃ event c, (body kind).run ⟨0, rest⟩ = .ok (event, c) ∧ event.kind = kind ∧
        event.encodeFields = kind.normalFields (rest.take kind.fieldsSize) := by
  by_cases hsize : kind.fieldsSize ≤ rest.length
  · obtain ⟨event, hevent⟩ := (takes_body kind).reads ⟨0, rest⟩ hsize
    obtain ⟨fields, ⟨hkind, hnormal⟩, hfields, -⟩ := (reads_body kind _ _ _).mp hevent
    have hlength : fields.length = kind.fieldsSize := by
      rw [← EventKind.length_normalFields kind, hnormal, EventBody.length_encodeFields, hkind]
    have htake : rest.take kind.fieldsSize = fields :=
      (congrArg (List.take kind.fieldsSize) hfields).trans (List.take_left' hlength)
    exact .inr ⟨hsize, event, _, hevent, hkind, by rw [htake, hnormal]⟩
  · have hless : rest.length < kind.fieldsSize := Nat.lt_of_not_le hsize
    obtain ⟨error, herror⟩ := (takes_body kind).fails ⟨0, rest⟩ hless
    exact .inl ⟨hless, error, herror⟩

/-- What decoding does: a payload is too short for a discriminator, or it has none that is known, or it is too short for
the fields of its kind, or it holds an event that is written as its fields are. -/
theorem decodePayload_cases (payload : Bytes) (logIndex : Int) :
    (payload.length < discriminatorSize ∧ ∃ error, decodePayload payload logIndex = .error error) ∨
      (discriminatorSize ≤ payload.length ∧
          (∀ kind : EventKind, payload.take discriminatorSize ≠ kind.discriminator) ∧
          decodePayload payload logIndex = .ok none) ∨
        ∃ kind : EventKind, discriminatorSize ≤ payload.length ∧ payload.take discriminatorSize = kind.discriminator ∧
          (payload.length < kind.payloadSize ∧ (∃ error, decodePayload payload logIndex = .error error) ∨
            kind.payloadSize ≤ payload.length ∧ ∃ body : EventBody, body.kind = kind ∧
              body.encode = kind.normalPayload payload ∧
              decodePayload payload logIndex = .ok (some ⟨body, logIndex⟩)) := by
  by_cases hshort : payload.length < discriminatorSize
  · exact .inl ⟨hshort, _, by rw [decodePayload, if_pos hshort]⟩
  have hlong : discriminatorSize ≤ payload.length := Nat.le_of_not_lt hshort
  have hrest : (payload.drop discriminatorSize).length = payload.length - discriminatorSize := List.length_drop
  refine .inr ?_
  rw [decodePayload, if_neg hshort]
  cases hkind : EventKind.ofDiscriminator? (payload.take discriminatorSize) with
  | none =>
    refine .inl ⟨hlong, fun kind hpayload => ?_, rfl⟩
    rw [EventKind.ofDiscriminator?_eq_some_iff.mpr hpayload] at hkind
    cases hkind
  | some kind =>
    have hpayload := EventKind.ofDiscriminator?_eq_some_iff.mp hkind
    refine .inr ⟨kind, hlong, hpayload, ?_⟩
    rcases FieldReader.run_body kind (payload.drop discriminatorSize) with
      ⟨hless, error, herror⟩ | ⟨hsize, body, c, hbody, hbodykind, hfields⟩
    · rw [hrest] at hless
      refine .inl ⟨by rw [EventKind.payloadSize]; omega, error, ?_⟩
      simp only [herror]
    · rw [hrest] at hsize
      refine .inr ⟨by rw [EventKind.payloadSize]; omega, body, hbodykind, ?_, ?_⟩
      · rw [EventBody.encode, EventKind.normalPayload, hfields, hpayload, hbodykind]
      · simp only [hbody]

/-- What is written for an event is read as this event, whatever follows. -/
theorem decodePayload_encode (body : EventBody) (trailing : Bytes) (logIndex : Int) :
    decodePayload (body.encode ++ trailing) logIndex = .ok (some ⟨body, logIndex⟩) := by
  have htake : (body.encode ++ trailing).take discriminatorSize = body.kind.discriminator := by
    rw [EventBody.encode, List.append_assoc, List.take_left' body.kind.length_discriminator]
  have hdrop : (body.encode ++ trailing).drop discriminatorSize = body.encodeFields ++ trailing := by
    rw [EventBody.encode, List.append_assoc, List.drop_left' body.kind.length_discriminator]
  have hlong : ¬(body.encode ++ trailing).length < discriminatorSize := by
    rw [EventBody.encode, List.append_assoc, List.length_append, body.kind.length_discriminator]
    omega
  have hbody : (FieldReader.body body.kind).run ⟨0, body.encodeFields ++ trailing⟩ =
      .ok (body, ⟨0 + body.encodeFields.length, trailing⟩) :=
    (FieldReader.reads_body body.kind _ _ _).mpr
      ⟨body.encodeFields, ⟨rfl, body.normalFields_encodeFields⟩, rfl, rfl⟩
  rw [decodePayload, if_neg hlong, htake, EventKind.ofDiscriminator?_eq_some_iff.mpr rfl, hdrop]
  simp only [hbody]

theorem EventBody.encode_injective : Function.Injective EventBody.encode := by
  intro body body' h
  have hsame : decodePayload (body.encode ++ []) 0 = decodePayload (body'.encode ++ []) 0 := by rw [h]
  rw [decodePayload_encode, decodePayload_encode] at hsame
  cases hsame
  rfl

theorem EventBody.length_encode (body : EventBody) : body.encode.length = body.kind.payloadSize := by
  rw [encode, List.length_append, EventKind.length_discriminator, length_encodeFields, EventKind.payloadSize]

/-- An event is read from the payloads that, up to truth values, begin with what is written for it. -/
theorem decodePayload_eq_event_iff {payload : Bytes} {logIndex : Int} {event : Event} :
    decodePayload payload logIndex = .ok (some event) ↔
      event.logIndex = logIndex ∧ event.body.kind.payloadSize ≤ payload.length ∧
        event.body.encode = event.body.kind.normalPayload payload := by
  constructor
  · intro h
    rcases decodePayload_cases payload logIndex with
      ⟨-, _, herror⟩ | ⟨-, -, hnone⟩ | ⟨kind, -, -, ⟨-, _, herror⟩ | ⟨hsize, body, rfl, hbody, hsome⟩⟩
    · rw [herror] at h
      cases h
    · rw [hnone] at h
      cases h
    · rw [herror] at h
      cases h
    · rw [hsome] at h
      cases h
      exact ⟨rfl, hsize, hbody⟩
  · rintro ⟨rfl, hsize, hevent⟩
    have hgrown : payload.take discriminatorSize = event.body.kind.discriminator := by
      have hlength : (payload.take discriminatorSize).length = event.body.kind.discriminator.length := by
        rw [EventKind.length_discriminator, List.length_take]
        rw [EventKind.payloadSize] at hsize
        omega
      exact (List.append_inj hevent.symm hlength).1
    rcases decodePayload_cases payload event.logIndex with
      ⟨hshort, -⟩ | ⟨-, hunknown, -⟩ | ⟨kind, -, hkind, ⟨hshort, -⟩ | ⟨-, body, hbodykind, hbody, hsome⟩⟩
    · rw [EventKind.payloadSize] at hsize
      omega
    · exact absurd hgrown (hunknown _)
    · rw [EventKind.discriminator_injective (hkind.symm.trans hgrown)] at hshort
      omega
    · have hsame : kind = event.body.kind := EventKind.discriminator_injective (hkind.symm.trans hgrown)
      have hequal : body = event.body := EventBody.encode_injective (by rw [hbody, hevent, hsame])
      rw [hsome, hequal]

theorem decodePayload_eq_error_iff {payload : Bytes} {logIndex : Int} :
    (∃ error, decodePayload payload logIndex = .error error) ↔
      payload.length < discriminatorSize ∨ ∃ kind : EventKind,
        payload.take discriminatorSize = kind.discriminator ∧ payload.length < kind.payloadSize := by
  rcases decodePayload_cases payload logIndex with
    ⟨hshort, herror⟩ | ⟨hlong, hunknown, hnone⟩ | ⟨kind, hlong, hkind, ⟨hless, herror⟩ | ⟨hsize, body, -, -, hsome⟩⟩
  · exact iff_of_true herror (.inl hshort)
  · refine iff_of_false (by simp [hnone]) ?_
    rintro (hshort | ⟨kind, hkind, -⟩)
    · omega
    · exact hunknown kind hkind
  · exact iff_of_true herror (.inr ⟨kind, hkind, hless⟩)
  · refine iff_of_false (by simp [hsome]) ?_
    rintro (hshort | ⟨kind', hkind', hless⟩)
    · omega
    · rw [EventKind.discriminator_injective (hkind'.symm.trans hkind)] at hless
      omega

theorem decodePayload_eq_none_iff {payload : Bytes} {logIndex : Int} :
    decodePayload payload logIndex = .ok none ↔
      discriminatorSize ≤ payload.length ∧
        ∀ kind : EventKind, payload.take discriminatorSize ≠ kind.discriminator := by
  rcases decodePayload_cases payload logIndex with
    ⟨hshort, error, herror⟩ | ⟨hlong, hunknown, hnone⟩ |
      ⟨kind, hlong, hkind, ⟨-, error, herror⟩ | ⟨-, body, -, -, hsome⟩⟩
  · exact iff_of_false (by simp [herror]) (by omega)
  · exact iff_of_true hnone ⟨hlong, hunknown⟩
  · exact iff_of_false (by simp [herror]) fun h => h.2 kind hkind
  · exact iff_of_false (by simp [hsome]) fun h => h.2 kind hkind

/-- The format of payloads. The event that is written is read, whatever follows it, and takes as many bytes as any of its
kind. Decoding fails just if the bytes do not suffice, and gives nothing just if no kind has the discriminator. An event
is read from just those bytes that are written for it, up to truth values, so that other bytes give another event; the
texts of its keys tell the keys. -/
theorem decodePayload_format :
    (∀ (body : EventBody) (trailing : Bytes) (logIndex : Int), body.encode.length = body.kind.payloadSize ∧
        decodePayload (body.encode ++ trailing) logIndex = .ok (some ⟨body, logIndex⟩)) ∧
      (∀ (payload : Bytes) (logIndex : Int),
        ((∃ error, decodePayload payload logIndex = .error error) ↔
          payload.length < discriminatorSize ∨ ∃ kind : EventKind,
            payload.take discriminatorSize = kind.discriminator ∧ payload.length < kind.payloadSize) ∧
        (decodePayload payload logIndex = .ok none ↔
          discriminatorSize ≤ payload.length ∧
            ∀ kind : EventKind, payload.take discriminatorSize ≠ kind.discriminator) ∧
        ∀ event : Event, decodePayload payload logIndex = .ok (some event) ↔
          event.logIndex = logIndex ∧ event.body.kind.payloadSize ≤ payload.length ∧
            event.body.encode = event.body.kind.normalPayload payload) ∧
      (∀ (payload payload' : Bytes) (logIndex : Int) (event : Event),
        decodePayload payload logIndex = .ok (some event) → decodePayload payload' logIndex = .ok (some event) →
          event.body.kind.normalPayload payload = event.body.kind.normalPayload payload') ∧
      Function.Injective PublicKey.toText := by
  refine ⟨fun body trailing logIndex => ⟨body.length_encode, decodePayload_encode body trailing logIndex⟩,
    fun payload logIndex => ⟨decodePayload_eq_error_iff, decodePayload_eq_none_iff, fun event =>
      decodePayload_eq_event_iff⟩, ?_, PublicKey.toText_injective⟩
  intro payload payload' logIndex event h h'
  obtain ⟨-, -, hwritten⟩ := decodePayload_eq_event_iff.mp h
  obtain ⟨-, -, hwritten'⟩ := decodePayload_eq_event_iff.mp h'
  rw [← hwritten, hwritten']

end PairIndex
