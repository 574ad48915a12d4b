import PairIndex.Event.Log

/-! Events and the lines that carry them. A line carries at most one event, whichever program is asked for
(`eq_of_logIndex`). -/

namespace PairIndex

theorem logIndex_of_decodePayload {payload : Bytes} {index : Int} {e : Event}
    (h : decodePayload payload index = .ok (some e)) : e.logIndex = index := by
  rw [decodePayload] at h
  split at h
  · cases h
  · split at h
    · cases h
    · split at h
      · cases h
        rfl
      · cases h

theorem logIndex_of_eventOfData? {payload : List Char} {index : Nat} {e : Event}
    (h : eventOfData? payload index = some e) : e.logIndex = index := by
  simp only [eventOfData?, Option.bind_eq_bind, Option.bind_eq_some_iff] at h
  obtain ⟨bytes, -, hdecoded⟩ := h
  rcases hpayload : decodePayload bytes index with failure | event?
  · simp [hpayload, Except.toOption] at hdecoded
  · rw [hpayload] at hdecoded
    cases hdecoded
    exact logIndex_of_decodePayload hpayload

/-- An event is read from the line of its number. -/
theorem line_of_mem_eventsFrom {source : List Char} {index : Nat} {stack : CallStack} {lines : List (List Char)}
    {e : Event} (h : e ∈ eventsFrom source index stack lines) :
    ∃ k payload, (lines[k]?).map LogLine.ofChars = some (.data payload) ∧
      eventOfData? payload (index + k) = some e := by
  induction lines generalizing index stack with
  | nil => cases h
  | cons line rest ih =>
    rw [eventsFrom] at h
    rcases List.mem_append.mp h with hfirst | hrest
    · obtain ⟨payload, hpayload, hdata⟩ := Option.bind_eq_some_iff.mp (Option.mem_toList.mp hfirst)
      refine ⟨0, payload, ?_, hdata⟩
      cases hkind : LogLine.ofChars line with
      | data found =>
        simp only [CallStack.dataFrom?, hkind, Option.ite_none_right_eq_some, Option.some.injEq] at hpayload
        simp [hkind, hpayload.2]
      | invoke => simp [CallStack.dataFrom?, hkind] at hpayload
      | exit => simp [CallStack.dataFrom?, hkind] at hpayload
      | other => simp [CallStack.dataFrom?, hkind] at hpayload
    · obtain ⟨k, payload, hline, hdata⟩ := ih hrest
      refine ⟨k + 1, payload, by simpa using hline, ?_⟩
      rwa [Nat.add_comm k 1, ← Nat.add_assoc]

/-- The line of an event tells the event. -/
theorem eq_of_logIndex {source source' : String} {lines : List String} {e e' : Event} (h : e ∈ eventsOf source lines)
    (h' : e' ∈ eventsOf source' lines) (hindex : e.logIndex = e'.logIndex) : e = e' := by
  obtain ⟨k, payload, hline, hdata⟩ := line_of_mem_eventsFrom h
  obtain ⟨k', payload', hline', hdata'⟩ := line_of_mem_eventsFrom h'
  rw [Nat.zero_add] at hdata hdata'
  have hk : k = k' := by
    rw [logIndex_of_eventOfData? hdata, logIndex_of_eventOfData? hdata'] at hindex
    exact Int.ofNat.inj hindex
  subst hk
  rw [hline] at hline'
  cases hline'
  rw [hdata] at hdata'
  exact Option.some.inj hdata'

end PairIndex
