import PairIndex.Live.Subscription
import PairIndex.Proofs.Json.Access

/-! Frames of a subscription, whatever their texts are. A frame rejects the subscription, confirms it, announces a
transaction or means nothing, and it is then taken in order; or it cannot be read (`Unreadable`), and then it tears the
connection down as a rejection does. There are four ways to be unreadable, and none of them loses what was announced
before (`Subscriber.keeps_listening_iff`). -/

namespace PairIndex

/-! ## Kinds of frames -/

/-- An object that answers a request: it has a result, and the number of the request. -/
def IsReply (members : List (String × Json)) : Prop :=
  Assoc.mem "result" members = true ∧ Assoc.mem "id" members = true

/-- An object that is meant to announce a transaction. -/
structure IsAnnouncement (members : List (String × Json)) : Prop where
  noError : Assoc.get? "error" members = none
  noReply : ¬IsReply members
  method : Assoc.get? "method" members = some (.str "logsNotification")

/-- A value in which everything up to the slot of an announcement is found, and the slot is infinite. -/
def SlotIsInfinite (data : Json) : Prop :=
  (∃ signature, data.at? ["params", "result", "value", "signature"] = some signature) ∧
    ∃ x negative, data.at? ["params", "result", "context", "slot"] = some (.float x) ∧ x.shape = .infinite negative

/-- A frame that rejects the subscription: an object that tells an error. -/
def Rejects (text : String) (reason : Json) : Prop :=
  ∃ members, Json.parse text = .ok (.obj members) ∧ Assoc.get? "error" members = some reason

/-- A frame that tells the number of the subscription. -/
def Confirms (text : String) (id : Int) : Prop :=
  ∃ members, Json.parse text = .ok (.obj members) ∧ Assoc.get? "error" members = none ∧ IsReply members ∧
    ((Assoc.get? "result" members).getD .null).toInteger = .ok id

/-- A frame that announces a transaction. -/
def Announces (text : String) (notification : LogNotification) : Prop :=
  ∃ members, Json.parse text = .ok (.obj members) ∧ IsAnnouncement members ∧
    LogNotification.ofJson (.obj members) = .ok notification

/-- A frame that is neither taken nor passed over: reading it fails, though it rejects nothing. -/
inductive Unreadable (text : String) : Prop where
  /-- An integer in it has too many digits. -/
  | tooManyDigits (digits : Nat) (hparse : Json.parse text = .error (.tooManyDigits digits))
  /-- It holds a value that is no object. -/
  | noObject (value : Json) (hparse : Json.parse text = .ok value) (hvalue : ∀ members, value ≠ .obj members)
  /-- It answers the request with something that is no number. -/
  | noNumber (members : List (String × Json)) (hparse : Json.parse text = .ok (.obj members))
      (herror : Assoc.get? "error" members = none) (hreply : IsReply members)
      (hid : ∀ id, ((Assoc.get? "result" members).getD .null).toInteger ≠ .ok id)
  /-- It announces a transaction in an infinite slot. -/
  | infiniteSlot (members : List (String × Json)) (hparse : Json.parse text = .ok (.obj members))
      (hannounced : IsAnnouncement members) (hslot : SlotIsInfinite (.obj members))

/-! ## Announcements -/

namespace Json

variable {key : String} {value found : Json} {e : AccessError}

theorem isDropped_of_member (h : value.member key = .error e) : e.isDropped = true := by
  cases value with
  | obj members =>
    rw [member] at h
    split at h <;> cases h
    rfl
  | _ =>
    cases h
    rfl

theorem isDropped_of_itemsOrNone (h : value.itemsOrNone = .error e) : e.isDropped = true := by
  rw [itemsOrNone] at h
  split at h
  · cases value <;> cases h <;> rfl
  · cases h

theorem isDropped_of_toInteger (h : value.toInteger = .error e) : e.isDropped = true ∨ e = .infinite := by
  cases value with
  | bool b => cases h
  | int n => cases h
  | float x =>
    rw [toInteger] at h
    split at h <;> cases h
    · exact .inr rfl
    · exact .inl rfl
  | str text =>
    rw [toInteger] at h
    split at h <;> cases h <;> exact .inl rfl
  | _ =>
    cases h
    exact .inl rfl

/-- A value that has a member is an object, so it may have others. -/
theorem optionalMember_of_get? (h : value.get? key = some found) (other : String) :
    value.optionalMember other = .ok ((value.get? other).getD .null) := by
  cases value with
  | obj members => rfl
  | _ => cases h

end Json

namespace LogNotification

variable {data : Json}

/-- An announcement that cannot be read is dropped, unless its slot is infinite. -/
theorem slotIsInfinite_of_undropped {e : Json.AccessError} (h : ofJson data = .error e) (hkept : e.isDropped = false) :
    SlotIsInfinite data := by
  have hmember : ∀ key (value : Json), value.member key ≠ .error e := fun key value hmember =>
    Bool.false_ne_true (hkept.symm.trans (Json.isDropped_of_member hmember))
  have hitems : ∀ value : Json, value.itemsOrNone ≠ .error e := fun value hitems =>
    Bool.false_ne_true (hkept.symm.trans (Json.isDropped_of_itemsOrNone hitems))
  simp only [ofJson, bind_eq_error_iff, Json.member_eq_ok_iff, hmember, hitems, false_or] at h
  obtain ⟨params, hparams, result, hresult, value, hvalue, signature, hsignature, h⟩ := h
  obtain ⟨context, hcontext, slot, hslot, h⟩ := h
  have hother := Json.optionalMember_of_get? hsignature
  simp only [hother, reduceCtorEq, pure, Except.pure, and_false, exists_false, or_false] at h
  have he : e = .infinite := (Json.isDropped_of_toInteger h).resolve_left (Bool.eq_false_iff.mp hkept)
  obtain ⟨x, negative, rfl, hshape⟩ := Json.toInteger_eq_infinite_iff.mp (he ▸ h)
  simp only [SlotIsInfinite, Json.at?_cons_iff, Json.at?_nil_iff]
  exact ⟨⟨signature, params, hparams, result, hresult, value, hvalue, signature, hsignature, rfl⟩,
    x, negative, ⟨params, hparams, result, hresult, context, hcontext, _, hslot, rfl⟩, hshape⟩

theorem ofJson_of_slotIsInfinite (h : SlotIsInfinite data) : ofJson data = .error .infinite := by
  simp only [SlotIsInfinite, Json.at?_cons_iff, Json.at?_nil_iff] at h
  obtain ⟨⟨_, params, hparams, result, hresult, value, hvalue, signature, hsignature, -⟩, x, negative, hslot, hshape⟩ := h
  obtain ⟨params', hparams', result', hresult', context, hcontext, _, hslot, rfl⟩ := hslot
  obtain rfl : params = params' := Option.some_inj.mp (hparams.symm.trans hparams')
  obtain rfl : result = result' := Option.some_inj.mp (hresult.symm.trans hresult')
  have hinfinite : (Json.float x).toInteger = .error .infinite :=
    Json.toInteger_eq_infinite_iff.mpr ⟨x, negative, rfl, hshape⟩
  simp only [ofJson, bind_eq_error_iff, Json.member_eq_ok_iff]
  exact .inr ⟨params, hparams, .inr ⟨result, hresult, .inr ⟨value, hvalue, .inr ⟨signature, hsignature,
    .inr ⟨context, hcontext, .inr ⟨_, hslot, .inl hinfinite⟩⟩⟩⟩⟩⟩

end LogNotification

/-- What is said about an infinite slot is the failure of the reading, and any other announcement that cannot be read is
passed over. -/
theorem readNotification_cases (data : Json) :
    (∃ notification, LogNotification.ofJson data = .ok notification ∧
        readNotification data = .ok (.notified notification)) ∨
      (¬SlotIsInfinite data ∧ readNotification data = .ok .ignored) ∨
      (SlotIsInfinite data ∧ readNotification data = .error (Json.AccessError.failure .infinite)) := by
  cases hread : LogNotification.ofJson data with
  | ok notification => exact .inl ⟨notification, rfl, by rw [readNotification, hread]⟩
  | error e =>
    by_cases hslot : SlotIsInfinite data
    · refine .inr (.inr ⟨hslot, ?_⟩)
      rw [readNotification, LogNotification.ofJson_of_slotIsInfinite hslot]
      rfl
    · have hdropped : e.isDropped = true := by
        cases hkept : e.isDropped with
        | false => exact absurd (LogNotification.slotIsInfinite_of_undropped hread hkept) hslot
        | true => rfl
      refine .inr (.inl ⟨hslot, ?_⟩)
      rw [readNotification, hread]
      exact if_pos hdropped

/-! ## Objects -/

namespace Frame

variable {members : List (String × Json)}

theorem mentions_obj (key : String) : (Json.obj members).mentions key = .ok (Assoc.get? key members).isSome :=
  congrArg _ (Assoc.mem_eq_isSome key members)

theorem ofJson_of_error {reason : Json} (h : Assoc.get? "error" members = some reason) :
    ofJson (.obj members) = .error (rejection reason) := by
  have hmentions : (Json.obj members).mentions "error" = .ok true := by
    rw [mentions_obj, h]
    rfl
  have hmember : (Json.obj members).member "error" = .ok reason := Json.member_eq_ok_iff.mpr h
  simp only [ofJson, hmentions, hmember, mapError_ok]
  rfl

theorem mentions_of_none {key : String} (h : Assoc.get? key members = none) :
    (Json.obj members).mentions key = .ok false := by
  rw [mentions_obj, h]
  rfl

theorem ofJson_of_reply (h : Assoc.get? "error" members = none) (hreply : IsReply members) :
    ofJson (.obj members) =
      (((Assoc.get? "result" members).getD .null).toInteger.mapError (·.failure)).map .subscribed := by
  obtain ⟨hresult, hid⟩ := hreply
  have hmentions : (Json.obj members).mentions "result" = .ok true := congrArg _ hresult
  have hmentions' : (Json.obj members).mentions "id" = .ok true := congrArg _ hid
  obtain ⟨result, hfound⟩ := Option.isSome_iff_exists.mp ((Assoc.mem_eq_isSome _ _).symm.trans hresult)
  have hmember : (Json.obj members).member "result" = .ok result := Json.member_eq_ok_iff.mpr hfound
  rw [hfound, Option.getD_some]
  simp only [ofJson, mentions_of_none h, hmentions, hmentions', hmember, mapError_ok, bind, Except.bind, Except.map,
    pure, Except.pure, if_true]
  cases result.toInteger <;> rfl

/-- An object that is no reply is read by its method. -/
theorem ofJson_of_not_reply (h : Assoc.get? "error" members = none) (hreply : ¬IsReply members) :
    ofJson (.obj members) =
      match (Assoc.get? "method" members).getD .null with
      | .str "logsNotification" => readNotification (.obj members)
      | _ => .ok .ignored := by
  have hmethod : (Json.obj members).optionalMember "method" = .ok ((Assoc.get? "method" members).getD .null) := rfl
  have hmentions : ∀ key, (Json.obj members).mentions key = .ok (Assoc.mem key members) := fun _ => rfl
  simp only [ofJson, mentions_of_none h, hmentions, hmethod, mapError_ok, bind, Except.bind]
  cases hresult : Assoc.mem "result" members with
  | false => rfl
  | true =>
    have hid : Assoc.mem "id" members = false := Bool.eq_false_iff.mpr fun hid => hreply ⟨hresult, hid⟩
    rw [hid]
    rfl

theorem ofJson_of_announcement (h : IsAnnouncement members) :
    ofJson (.obj members) = readNotification (.obj members) := by
  rw [ofJson_of_not_reply h.noError h.noReply, h.method]
  rfl

theorem ofJson_of_other (h : Assoc.get? "error" members = none) (hreply : ¬IsReply members)
    (hmethod : Assoc.get? "method" members ≠ some (.str "logsNotification")) :
    ofJson (.obj members) = .ok .ignored := by
  rw [ofJson_of_not_reply h hreply]
  split
  · next heq =>
    cases hfound : Assoc.get? "method" members with
    | none =>
      rw [hfound] at heq
      cases heq
    | some found =>
      rw [hfound] at heq
      exact absurd (hfound.trans (congrArg some heq)) hmethod
  · rfl

/-- What is no object has no members, so every question about one of them fails in the end. -/
theorem ofJson_of_no_object {value : Json} (h : ∀ members, value ≠ .obj members) :
    ∃ e : Json.AccessError, ofJson value = .error e.failure := by
  have hmember : ∀ key, ∃ e, value.member key = .error e := by
    intro key
    cases value with
    | obj members => exact absurd rfl (h members)
    | _ => exact ⟨_, rfl⟩
  have hmethod : ∃ e, value.optionalMember "method" = .error e := by
    cases value with
    | obj members => exact absurd rfl (h members)
    | _ => exact ⟨_, rfl⟩
  obtain ⟨noError, herror⟩ := hmember "error"
  obtain ⟨noResult, hresult⟩ := hmember "result"
  obtain ⟨noMethod, hmethod⟩ := hmethod
  simp only [ofJson, herror, hresult, hmethod, mapError_error, bind, Except.bind]
  -- A list or a text may well contain the key, but it has no member of that name.
  rcases value.mentions "error" with e | _ | _
  · exact ⟨e, rfl⟩
  · rcases value.mentions "result" with e | _ | _
    · exact ⟨e, rfl⟩
    · exact ⟨noMethod, rfl⟩
    · rcases value.mentions "id" with e | _ | _
      · exact ⟨e, rfl⟩
      · exact ⟨noMethod, rfl⟩
      · exact ⟨noResult, rfl⟩
  · exact ⟨noError, rfl⟩

end Frame

/-! ## Texts -/

section Texts

variable {text : String}

theorem Rejects.readFrame_eq {reason : Json} (h : Rejects text reason) :
    readFrame text = .error (rejection reason) := by
  obtain ⟨members, hparse, herror⟩ := h
  rw [readFrame, hparse]
  exact Frame.ofJson_of_error herror

theorem Confirms.readFrame_eq {id : Int} (h : Confirms text id) : readFrame text = .ok (.subscribed id) := by
  obtain ⟨members, hparse, herror, hreply, hid⟩ := h
  rw [readFrame, hparse]
  refine (Frame.ofJson_of_reply herror hreply).trans ?_
  rw [hid]
  rfl

theorem Announces.readFrame_eq {notification : LogNotification} (h : Announces text notification) :
    readFrame text = .ok (.notified notification) := by
  obtain ⟨members, hparse, hannounced, hread⟩ := h
  rw [readFrame, hparse]
  refine (Frame.ofJson_of_announcement hannounced).trans ?_
  rw [readNotification, hread]

theorem Json.AccessError.failure_kind_ne (e : Json.AccessError) : e.failure.kind ≠ .subscription := by
  intro h
  cases e <;> cases h

/-- A frame that cannot be read fails, and not as a rejection does. -/
theorem Unreadable.readFrame_eq (h : Unreadable text) :
    ∃ failure, readFrame text = .error failure ∧ failure.kind ≠ .subscription := by
  cases h with
  | tooManyDigits digits hparse =>
    refine ⟨⟨.invalidValue, Json.tooManyDigitsMessage digits⟩, by rw [readFrame, hparse], fun hkind => ?_⟩
    cases hkind
  | noObject value hparse hvalue =>
    obtain ⟨e, he⟩ := Frame.ofJson_of_no_object hvalue
    exact ⟨e.failure, by rw [readFrame, hparse]; exact he, e.failure_kind_ne⟩
  | noNumber members hparse herror hreply hid =>
    cases hread : ((Assoc.get? "result" members).getD .null).toInteger with
    | ok id => exact absurd hread (hid id)
    | error e =>
      refine ⟨e.failure, ?_, e.failure_kind_ne⟩
      rw [readFrame, hparse]
      refine (Frame.ofJson_of_reply herror hreply).trans ?_
      rw [hread]
      rfl
  | infiniteSlot members hparse hannounced hslot =>
    refine ⟨Json.AccessError.infinite.failure, ?_, Json.AccessError.failure_kind_ne _⟩
    rw [readFrame, hparse]
    refine (Frame.ofJson_of_announcement hannounced).trans ?_
    rw [readNotification, LogNotification.ofJson_of_slotIsInfinite hslot]
    rfl

/-- What a frame can be. -/
inductive Meaning (text : String) : Prop where
  | rejection (reason : Json) (h : Rejects text reason)
  | confirmation (id : Int) (h : Confirms text id)
  | announcement (notification : LogNotification) (h : Announces text notification)
  | unreadable (h : Unreadable text)
  | nothing (h : readFrame text = .ok .ignored)

theorem meaning_of_obj {members : List (String × Json)} (hparse : Json.parse text = .ok (.obj members)) :
    Meaning text := by
  have hread : readFrame text = Frame.ofJson (.obj members) := by rw [readFrame, hparse]
  cases herror : Assoc.get? "error" members with
  | some reason => exact .rejection reason ⟨members, hparse, herror⟩
  | none =>
    by_cases hreply : IsReply members
    · cases hid : ((Assoc.get? "result" members).getD .null).toInteger with
      | ok id => exact .confirmation id ⟨members, hparse, herror, hreply, hid⟩
      | error e =>
        have hnone : ∀ id, ((Assoc.get? "result" members).getD .null).toInteger ≠ .ok id := fun id => by
          rw [hid]
          exact nofun
        exact .unreadable (.noNumber members hparse herror hreply hnone)
    · by_cases hmethod : Assoc.get? "method" members = some (.str "logsNotification")
      · have hannounced : IsAnnouncement members := ⟨herror, hreply, hmethod⟩
        have hannouncement := Frame.ofJson_of_announcement hannounced
        rcases readNotification_cases (.obj members) with ⟨n, hn, -⟩ | ⟨-, hignored⟩ | ⟨hslot, -⟩
        · exact .announcement n ⟨members, hparse, hannounced, hn⟩
        · exact .nothing (hread.trans (hannouncement.trans hignored))
        · exact .unreadable (.infiniteSlot members hparse hannounced hslot)
      · exact .nothing (hread.trans (Frame.ofJson_of_other herror hreply hmethod))

/-- Every frame rejects, confirms, announces, cannot be read, or means nothing. -/
theorem meaning (text : String) : Meaning text := by
  cases hparse : Json.parse text with
  | error e =>
    cases e with
    | malformed => exact .nothing (by rw [readFrame, hparse])
    | tooManyDigits digits => exact .unreadable (.tooManyDigits digits hparse)
  | ok value =>
    by_cases hobject : ∃ members, value = .obj members
    · obtain ⟨members, rfl⟩ := hobject
      exact meaning_of_obj hparse
    · exact .unreadable (.noObject value hparse fun members hvalue => hobject ⟨members, hvalue⟩)

theorem readFrame_eq_notified_iff {notification : LogNotification} :
    readFrame text = .ok (.notified notification) ↔ Announces text notification := by
  refine ⟨fun h => ?_, Announces.readFrame_eq⟩
  cases meaning text with
  | rejection reason h' => cases h.symm.trans h'.readFrame_eq
  | confirmation id h' => cases h.symm.trans h'.readFrame_eq
  | announcement n h' =>
    cases h.symm.trans h'.readFrame_eq
    exact h'
  | unreadable h' =>
    obtain ⟨failure, hfailure, -⟩ := h'.readFrame_eq
    cases h.symm.trans hfailure
  | nothing h' => cases h.symm.trans h'

end Texts

/-! ## Taking frames -/

namespace Subscriber

variable {s : Subscriber}

/-- The subscriber after an announcement was delivered to the receiver, once. -/
def receive (notification : LogNotification) (s : Subscriber) : Subscriber :=
  { s with
    notifications := s.notifications + 1
    hasReceived := true
    received := s.received ++ [notification] }

section Take

variable {react : LogNotification → Reaction} {text : String}

theorem takeFrame_of_error {failure : Failure} (h : readFrame text = .error failure) :
    s.takeFrame react text = (some failure, s) := by
  rw [takeFrame, h]

theorem takeFrame_of_ignored (h : readFrame text = .ok .ignored) : s.takeFrame react text = (none, s) := by
  rw [takeFrame, h]

theorem takeFrame_of_subscribed {id : Int} (h : readFrame text = .ok (.subscribed id)) :
    s.takeFrame react text = (none, { s with subscriptionId := some id }) := by
  rw [takeFrame, h]

theorem takeFrame_of_notified {notification : LogNotification} (h : readFrame text = .ok (.notified notification)) :
    s.takeFrame react text =
      ((react notification).failure,
        if (react notification).stops then (s.receive notification).stop else s.receive notification) := by
  rw [takeFrame, h]
  rfl

end Take

/-- A frame is taken in order: a rejection is the failure that is told, and any other frame is ignored, confirms the
subscription or is delivered once; then only the receiver itself may fail. -/
inductive InOrder (react : LogNotification → Reaction) (s : Subscriber) (text : String) :
    Option Failure × Subscriber → Prop where
  | rejected (reason : Json) (h : Rejects text reason) : InOrder react s text (some (rejection reason), s)
  | confirmed (id : Int) (h : Confirms text id) : InOrder react s text (none, { s with subscriptionId := some id })
  | delivered (notification : LogNotification) (h : Announces text notification) :
    InOrder react s text
      ((react notification).failure,
        if (react notification).stops then (s.receive notification).stop else s.receive notification)
  | ignored (hrejects : ∀ reason, ¬Rejects text reason) (hconfirms : ∀ id, ¬Confirms text id)
      (hannounces : ∀ notification, ¬Announces text notification) : InOrder react s text (none, s)

/-- Exactly the frames that cannot be read are not taken in order. -/
theorem inOrder_takeFrame_iff (react : LogNotification → Reaction) (s : Subscriber) (text : String) :
    InOrder react s text (s.takeFrame react text) ↔ ¬Unreadable text := by
  constructor
  · intro h hunreadable
    obtain ⟨failure, hread, hkind⟩ := hunreadable.readFrame_eq
    have htake : s.takeFrame react text = (some failure, s) := takeFrame_of_error hread
    -- A failure that is no rejection could only be the receiver's, and nothing was delivered to it.
    generalize houtcome : s.takeFrame react text = outcome at h
    cases h with
    | rejected reason h =>
      cases htake.symm.trans houtcome
      exact hkind rfl
    | delivered n h => cases hread.symm.trans h.readFrame_eq
    | _ => cases htake.symm.trans houtcome
  · intro hreadable
    cases meaning text with
    | rejection reason h =>
      rw [takeFrame_of_error h.readFrame_eq]
      exact .rejected reason h
    | confirmation id h =>
      rw [takeFrame_of_subscribed h.readFrame_eq]
      exact .confirmed id h
    | announcement n h =>
      rw [takeFrame_of_notified h.readFrame_eq]
      exact .delivered n h
    | unreadable h => exact absurd h hreadable
    | nothing h =>
      rw [takeFrame_of_ignored h]
      refine .ignored (fun _ h' => ?_) (fun _ h' => ?_) (fun _ h' => ?_) <;> cases h.symm.trans h'.readFrame_eq

end Subscriber

/-! ## Taking what happens on a connection -/

namespace SocketEvent

/-- The events after which nothing more is heard of a connection: it broke, the subscription is rejected, or a frame
cannot be read. -/
def Tears : SocketEvent → Prop
  | .text frame => (∃ reason, Rejects frame reason) ∨ Unreadable frame
  | .binary | .silence => False
  | .broken _ => True

/-- What an event announces. -/
def announced : SocketEvent → Option LogNotification
  | .text frame =>
    match readFrame frame with
    | .ok (.notified notification) => some notification
    | _ => none
  | _ => none

theorem announced_text_eq_some_iff {frame : String} {notification : LogNotification} :
    (text frame).announced = some notification ↔ Announces frame notification := by
  rw [← readFrame_eq_notified_iff, announced]
  split
  · next n hn => rw [hn, Option.some_inj, Except.ok.injEq, Frame.notified.injEq]
  · next hother => exact iff_of_false nofun (hother notification)

end SocketEvent

namespace Subscriber

variable {s : Subscriber}

section Text

variable {react : LogNotification → Reaction} {frame : String} {s' : Subscriber}

/-- The next event is listened for after a frame that is taken. -/
theorem deliver_text_of_taken (hrunning : s.isRunning = true) (h : s.takeFrame react frame = (none, s'))
    (rest : List SocketEvent) : deliver react (.text frame :: rest) s = deliver react rest s' := by
  rw [deliver.eq_def]
  dsimp only
  rw [if_pos hrunning, h]

/-- Nothing more is listened for after a frame whose taking fails. -/
theorem deliver_text_of_failed {failure : Failure} (hrunning : s.isRunning = true)
    (h : s.takeFrame react frame = (some failure, s')) (rest : List SocketEvent) :
    deliver react (.text frame :: rest) s = (some failure, s') := by
  rw [deliver.eq_def]
  dsimp only
  rw [if_pos hrunning, h]

end Text

/-- A receiver that never stops and never fails. -/
def calm (_ : LogNotification) : Reaction :=
  {}

theorem takeFrame_calm {text : String} {notification : LogNotification} (h : Announces text notification) :
    s.takeFrame calm text = (none, s.receive notification) :=
  takeFrame_of_notified h.readFrame_eq

variable {event : SocketEvent}

/-- After an event that tears nothing more is taken. -/
theorem deliver_cons_of_tears (hrunning : s.isRunning = true) (h : event.Tears) (rest : List SocketEvent) :
    (deliver calm (event :: rest) s).2 = s := by
  cases event with
  | text frame =>
    have hfails : ∃ failure, readFrame frame = .error failure :=
      h.elim (fun ⟨reason, h⟩ => ⟨_, h.readFrame_eq⟩) fun h => h.readFrame_eq.imp fun _ => And.left
    obtain ⟨failure, hfailure⟩ := hfails
    rw [deliver_text_of_failed hrunning (takeFrame_of_error hfailure)]
  | broken failure => simp only [deliver, if_pos hrunning]
  | _ => exact h.elim

/-- Any other event is taken, what it announces is delivered, and the next one is listened for. -/
theorem deliver_cons_of_not_tears (hrunning : s.isRunning = true) (h : ¬event.Tears) (rest : List SocketEvent) :
    ∃ s' : Subscriber, deliver calm (event :: rest) s = deliver calm rest s' ∧ s'.isRunning = true ∧
      s'.received = s.received ++ event.announced.toList := by
  cases event with
  | text frame =>
    cases meaning frame with
    | rejection reason h' => exact absurd (.inl ⟨reason, h'⟩) h
    | confirmation id h' =>
      have hannounced : (SocketEvent.text frame).announced = none := by rw [SocketEvent.announced, h'.readFrame_eq]
      have htake : s.takeFrame calm frame = _ := takeFrame_of_subscribed h'.readFrame_eq
      rw [hannounced]
      exact ⟨_, deliver_text_of_taken hrunning htake rest, hrunning, (List.append_nil _).symm⟩
    | announcement n h' =>
      rw [SocketEvent.announced_text_eq_some_iff.mpr h']
      exact ⟨_, deliver_text_of_taken hrunning (takeFrame_calm h') rest, hrunning, rfl⟩
    | unreadable h' => exact absurd (.inr h') h
    | nothing h' =>
      have hannounced : (SocketEvent.text frame).announced = none := by rw [SocketEvent.announced, h']
      have htake : s.takeFrame calm frame = _ := takeFrame_of_ignored h'
      rw [hannounced]
      exact ⟨s, deliver_text_of_taken hrunning htake rest, hrunning, (List.append_nil _).symm⟩
  | broken failure => exact absurd trivial h
  | _ => exact ⟨s, by simp only [deliver, if_pos hrunning], hrunning, (List.append_nil _).symm⟩

/-- As long as nothing tears, all that is announced is delivered. -/
theorem deliver_append_of_not_tears (events : List SocketEvent) (hrunning : s.isRunning = true)
    (h : ∀ event ∈ events, ¬event.Tears) (rest : List SocketEvent) :
    ∃ s' : Subscriber, deliver calm (events ++ rest) s = deliver calm rest s' ∧ s'.isRunning = true ∧
      s'.received = s.received ++ events.filterMap SocketEvent.announced := by
  induction events generalizing s with
  | nil => exact ⟨s, rfl, hrunning, (List.append_nil _).symm⟩
  | cons event events ih =>
    obtain ⟨hevent, hevents⟩ := List.forall_mem_cons.mp h
    obtain ⟨s₁, hstep, hrunning₁, hreceived₁⟩ := deliver_cons_of_not_tears hrunning hevent (events ++ rest)
    obtain ⟨s₂, hrun, hrunning₂, hreceived₂⟩ := ih hrunning₁ hevents
    refine ⟨s₂, hstep.trans hrun, hrunning₂, ?_⟩
    rw [hreceived₂, hreceived₁, List.append_assoc, List.filterMap_cons]
    cases event.announced <;> rfl

/-- Once something tears, at most what was announced before is delivered, whatever comes after. -/
theorem received_deliver_le_of_tears (events : List SocketEvent) (hrunning : s.isRunning = true)
    (h : ∃ event ∈ events, event.Tears) (rest : List SocketEvent) :
    (deliver calm (events ++ rest) s).2.received.length ≤
      (s.received ++ events.filterMap SocketEvent.announced).length := by
  induction events generalizing s with
  | nil =>
    obtain ⟨event, hmem, -⟩ := h
    cases hmem
  | cons event events ih =>
    by_cases hevent : event.Tears
    · rw [List.cons_append, deliver_cons_of_tears hrunning hevent, List.length_append]
      exact Nat.le_add_right _ _
    · obtain ⟨s₁, hstep, hrunning₁, hreceived₁⟩ := deliver_cons_of_not_tears hrunning hevent (events ++ rest)
      have hlater : ∃ event ∈ events, event.Tears := by
        obtain ⟨torn, hmem, htears⟩ := h
        rcases List.mem_cons.mp hmem with rfl | hmem
        · exact absurd htears hevent
        · exact ⟨torn, hmem, htears⟩
      have hsplit : (event :: events).filterMap SocketEvent.announced =
          event.announced.toList ++ events.filterMap SocketEvent.announced := by
        rw [List.filterMap_cons]
        cases event.announced <;> rfl
      rw [List.cons_append, hstep, hsplit, ← List.append_assoc, ← hreceived₁]
      exact ih hrunning₁ hlater

/-- A frame is taken in order exactly if it can be read; and on a connection that is listened to, an announcement is
delivered after all earlier ones exactly if nothing before it tears the connection down, which of all frames only the
rejections and the ones that cannot be read do. -/
theorem keeps_listening_iff (s : Subscriber) :
    (∀ react text, InOrder react s text (s.takeFrame react text) ↔ ¬Unreadable text) ∧
      (s.isRunning = true → ∀ events later notification, Announces later notification →
        ((deliver calm (events ++ [.text later]) s).2.received =
            s.received ++ events.filterMap SocketEvent.announced ++ [notification] ↔
          ∀ event ∈ events, ¬event.Tears)) := by
  refine ⟨fun react text => inOrder_takeFrame_iff react s text, fun hrunning events later n hlater => ?_⟩
  constructor
  · intro hreceived event hevent htears
    have hle := received_deliver_le_of_tears events hrunning ⟨event, hevent, htears⟩ [.text later]
    rw [hreceived, List.length_append] at hle
    exact Nat.not_succ_le_self _ hle
  · intro hquiet
    obtain ⟨s', hrun, hrunning', hreceived'⟩ := deliver_append_of_not_tears events hrunning hquiet [.text later]
    rw [hrun, deliver_text_of_taken hrunning' (takeFrame_calm hlater), ← hreceived']
    rfl

/-- A subscriber that listens. -/
def listening : Subscriber :=
  { config := { url := "wss://ledger", address := "pool" }, isRunning := true, isOpen := true }

/-- A frame that announces a transaction. -/
def announcement : String :=
  "\x7b\"method\": \"logsNotification\", \"params\": \x7b\"result\": \x7b\"context\": \x7b\"slot\": 7\x7d, " ++
    "\"value\": \x7b\"signature\": \"later\"\x7d\x7d\x7d\x7d"

theorem exists_announces_announcement : ∃ notification, Announces announcement notification := by
  have h : (SocketEvent.text announcement).announced.isSome = true := by decide +kernel
  exact (Option.isSome_iff_exists.mp h).imp fun _ => SocketEvent.announced_text_eq_some_iff.mp

/-- A text that is not JSON is passed over. -/
theorem not_tears_of_malformed {text : String} (h : Json.parse text = .error .malformed) :
    ¬(SocketEvent.text text).Tears := by
  rintro (⟨reason, members, hparse, -⟩ | hunreadable)
  · cases h.symm.trans hparse
  · cases hunreadable with
    | tooManyDigits digits hparse => cases h.symm.trans hparse
    | noObject value hparse => cases h.symm.trans hparse
    | noNumber members hparse => cases h.symm.trans hparse
    | infiniteSlot members hparse => cases h.symm.trans hparse

theorem announced_of_malformed {text : String} (h : Json.parse text = .error .malformed) :
    (SocketEvent.text text).announced = none := by
  rw [SocketEvent.announced, readFrame, h]

/-- After a text that is not JSON and a while in which nothing happens, an announcement is delivered. -/
theorem keeps_listening_iff_pong :
    ∃ notification, listening.isRunning = true ∧ Announces announcement notification ∧
      (deliver calm ([.text "pong", .silence] ++ [.text announcement]) listening).2.received = [notification] := by
  obtain ⟨n, hn⟩ := exists_announces_announcement
  have hpong : Json.parse "pong" = .error .malformed := by
    have hscalar : Json.parseScalar ['p', 'o', 'n', 'g'] = .error .malformed := rfl
    simp [Json.parse, Json.parseValue, Json.skipSpace, Json.isSpace, hscalar, bind, Except.bind]
  have hnone : [SocketEvent.text "pong", .silence].filterMap SocketEvent.announced = [] := by
    rw [List.filterMap_cons_none (announced_of_malformed hpong)]
    rfl
  have hgoing : ∀ event ∈ [SocketEvent.text "pong", .silence], ¬event.Tears :=
    List.forall_mem_cons.mpr ⟨not_tears_of_malformed hpong, List.forall_mem_singleton.mpr not_false⟩
  have hreceived := ((keeps_listening_iff listening).2 rfl [.text "pong", .silence] announcement n hn).mpr hgoing
  rw [hnone] at hreceived
  exact ⟨n, rfl, hn, hreceived⟩

/-- A frame that holds no value rejects nothing, is not taken in order, and loses the announcement after it. -/
theorem null_tears_the_connection_down :
    (¬∃ reason, Rejects "null" reason) ∧ ¬InOrder calm listening "null" (listening.takeFrame calm "null") ∧
      (deliver calm [.text "null", .text announcement] listening).2.received = [] := by
  have hkind : (Json.parse "null").toOption.map Json.kindName = some "NoneType" := by decide +kernel
  have hobject : ∀ members, Json.parse "null" ≠ .ok (.obj members) := by
    intro members hparse
    rw [hparse] at hkind
    have hdict : "dict" = "NoneType" := Option.some_inj.mp hkind
    exact absurd hdict (by decide)
  have hunreadable : Unreadable "null" := by
    cases hparse : Json.parse "null" with
    | error e =>
      rw [hparse] at hkind
      cases hkind
    | ok value => exact .noObject value hparse fun members hvalue => hobject members (hvalue ▸ hparse)
  refine ⟨?_, fun h => (inOrder_takeFrame_iff _ _ _).mp h hunreadable, ?_⟩
  · rintro ⟨reason, members, hparse, -⟩
    exact hobject members hparse
  · have htears : (SocketEvent.text "null").Tears := .inr hunreadable
    exact congrArg received (deliver_cons_of_tears rfl htears [.text announcement])

end Subscriber
end PairIndex
