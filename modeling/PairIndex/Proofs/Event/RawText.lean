import PairIndex.Ingest.Detail
import PairIndex.Proofs.Event.Format
import PairIndex.Proofs.Json.Printing

/-! The text that a detail keeps of an event tells the event, the number of its log line included
(`Event.rawEvent_lossless`). -/

namespace PairIndex

/-! ## Values as JSON -/

theorem Number.integerText_injective : Function.Injective integerText := by
  intro m n h
  have hchars : integerChars m ++ [] = integerChars n ++ [] := by
    rw [List.append_nil, List.append_nil]
    exact String.ofList_injective h
  have hend : Json.Follows [] := nofun
  exact (Json.integerChars_append_inj hend hend hchars).1

@[simp]
theorem wordJson_inj {v w : UInt64} : wordJson v = wordJson w ↔ v = w := by
  rw [wordJson, wordJson, Json.str.injEq, Number.integerText_injective.eq_iff, Int.natCast_inj, UInt64.toNat_inj]

@[simp]
theorem signedWordJson_inj {v w : Int64} : signedWordJson v = signedWordJson w ↔ v = w := by
  rw [signedWordJson, signedWordJson, Json.str.injEq, Number.integerText_injective.eq_iff, Int64.toInt_inj]

@[simp]
theorem PublicKey.toJson_inj {key key' : PublicKey} : key.toJson = key'.toJson ↔ key = key' := by
  rw [toJson, toJson, Json.str.injEq, toText_injective.eq_iff]

@[simp]
theorem EventMetadata.toJson_inj {m m' : EventMetadata} : m.toJson = m'.toJson ↔ m = m' := by
  obtain ⟨signer, pair, seqNum, timestamp⟩ := m
  obtain ⟨signer', pair', seqNum', timestamp'⟩ := m'
  simp only [toJson, Json.obj.injEq, List.cons.injEq, Prod.mk.injEq, PublicKey.toJson_inj, wordJson_inj,
    signedWordJson_inj, EventMetadata.mk.injEq, true_and, and_true]
  tauto

@[simp]
theorem PairState.toJson_inj {s s' : PairState} : s.toJson = s'.toJson ↔ s = s' := by
  cases s
  cases s'
  simp only [toJson, Json.obj.injEq, List.cons.injEq, Prod.mk.injEq, wordJson_inj, PairState.mk.injEq, true_and,
    and_true]
  tauto

@[simp]
theorem PositionState.toJson_inj {s s' : PositionState} : s.toJson = s'.toJson ↔ s = s' := by
  cases s
  cases s'
  simp [toJson]

theorem EventKind.name_injective : Function.Injective name := by
  intro kind kind' h
  have hnodup : (all.map name).Nodup := by decide
  exact List.inj_on_of_nodup_map hnodup kind.mem_all kind'.mem_all h

namespace Event

theorem exact_toJson (e : Event) : e.toJson.Exact := by
  obtain ⟨body, logIndex⟩ := e
  cases body <;>
    simp [toJson, Json.Exact, Json.ExactMembers, wordJson, signedWordJson, PublicKey.toJson, EventMetadata.toJson,
      PairState.toJson, PositionState.toJson]

/-- The object of an event tells its kind. -/
theorem get?_event_toJson (e : Event) : e.toJson.get? "event" = some (.str e.body.kind.name) := by
  obtain ⟨body, logIndex⟩ := e
  cases body <;> rfl

theorem kind_eq_of_toJson_eq {e e' : Event} (h : e.toJson = e'.toJson) : e.body.kind = e'.body.kind := by
  have hname := get?_event_toJson e
  rw [h, get?_event_toJson e', Option.some.injEq, Json.str.injEq] at hname
  exact EventKind.name_injective hname.symm

theorem toJson_injective : Function.Injective toJson := by
  intro e e' h
  have hkind := kind_eq_of_toJson_eq h
  obtain ⟨body, logIndex⟩ := e
  obtain ⟨body', logIndex'⟩ := e'
  -- Events of different kinds are told apart by the kinds.
  cases body <;> cases body' <;> first
    | (cases hkind; done)
    | simp only [toJson, Json.obj.injEq, List.cons.injEq, Prod.mk.injEq, Json.int.injEq, Json.bool.injEq, wordJson_inj,
        signedWordJson_inj, PublicKey.toJson_inj, EventMetadata.toJson_inj, PairState.toJson_inj,
        PositionState.toJson_inj, true_and, and_true] at h
      simp only [h]

theorem rawEvent_detail (signature : String) (e : Event) : (e.detail signature).rawEvent = e.rawText := by
  obtain ⟨body, logIndex⟩ := e
  cases body <;> rfl

/-- Two events have the same text in their details if and only if they are the same event on the same line of the log. -/
theorem rawEvent_lossless (signature signature' : String) (e e' : Event) :
    (e.detail signature).rawEvent = (e'.detail signature').rawEvent ↔ e = e' := by
  rw [rawEvent_detail, rawEvent_detail]
  constructor
  · intro h
    exact toJson_injective (Json.print_injective e.exact_toJson e'.exact_toJson h)
  · exact congrArg rawText

end Event
end PairIndex
