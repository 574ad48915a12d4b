import Mathlib.Algebra.Order.Field.Rat
import Mathlib.Data.List.DropRight
import Mathlib.Tactic.Linarith
import Mathlib.Tactic.Ring
import PairIndex.Proofs.Live.Frames

/-! The waits between connections. Each wait is the first delay, doubled once for every attempt since the last one that
connected, up to a bound (`Subscriber.runUntil_waits`). A run is followed attempt by attempt: one that fails adds a wait,
and the first one that ends in a stop ends the run. -/

namespace PairIndex

/-! ## Attempts that fail -/

/-- Whether a session ends with a failure before a stop is asked for. -/
def sessionFails (react : LogNotification → Reaction) : List SocketEvent → Bool
  | [] => false
  | .text frame :: rest =>
    match readFrame frame with
    | .error _ => true
    | .ok (.notified notification) =>
      let reaction := react notification
      match reaction.failure with
      | some _ => !reaction.stops
      | none => !reaction.stops && sessionFails react rest
    | .ok _ => sessionFails react rest
  | .binary :: rest | .silence :: rest => sessionFails react rest
  | .broken _ :: _ => true

namespace ConnectionScript

/-- Whether a connection is made and the log is asked for over it. -/
def connects : ConnectionScript → Bool
  | .refused _ | .unasked _ => false
  | .listening _ => true

/-- Whether an attempt fails, or the session after it, before a stop is asked for. -/
def fails (react : LogNotification → Reaction) : ConnectionScript → Bool
  | .refused _ | .unasked _ => true
  | .listening events => sessionFails react events

end ConnectionScript

/-! ## What a wait leaves as it is -/

namespace Subscriber

/-- What the waits depend on, and what they leave behind. -/
def account (s : Subscriber) : SubscriberConfig × List Rat × Nat :=
  (s.config, s.backoff, s.reconnects)

variable {s : Subscriber}

theorem account_eq_iff {config : SubscriberConfig} {backoff : List Rat} {reconnects : Nat} :
    s.account = (config, backoff, reconnects) ↔
      s.config = config ∧ s.backoff = backoff ∧ s.reconnects = reconnects := by
  rw [account, Prod.mk.injEq, Prod.mk.injEq]

@[simp]
theorem account_enter (state : ConnectionState) (s : Subscriber) : (s.enter state).account = s.account := by
  rw [enter]
  split <;> rfl

@[simp]
theorem isRunning_enter (state : ConnectionState) (s : Subscriber) : (s.enter state).isRunning = s.isRunning := by
  rw [enter]
  split <;> rfl

theorem state_enter (state : ConnectionState) (s : Subscriber) : (s.enter state).state = state := by
  rw [enter]
  split
  · assumption
  · rfl

@[simp]
theorem account_unsubscribe (s : Subscriber) : s.unsubscribe.account = s.account := by
  rw [unsubscribe]
  split <;> rfl

@[simp]
theorem isRunning_unsubscribe (s : Subscriber) : s.unsubscribe.isRunning = s.isRunning := by
  rw [unsubscribe]
  split <;> rfl

@[simp]
theorem account_stop (s : Subscriber) : s.stop.account = s.account :=
  account_unsubscribe _

@[simp]
theorem isRunning_stop (s : Subscriber) : s.stop.isRunning = false :=
  isRunning_unsubscribe _

@[simp]
theorem account_connected (s : Subscriber) : s.connected.account = s.account :=
  account_enter .connected s.subscribe

@[simp]
theorem isRunning_connected (s : Subscriber) : s.connected.isRunning = s.isRunning :=
  isRunning_enter .connected s.subscribe

variable (react : LogNotification → Reaction)

theorem account_takeFrame (text : String) (s : Subscriber) : (s.takeFrame react text).2.account = s.account := by
  rw [takeFrame]
  split
  · rfl
  · rfl
  · rfl
  · dsimp only
    split
    · exact account_stop _
    · rfl

theorem account_deliver (events : List SocketEvent) (s : Subscriber) :
    (deliver react events s).2.account = s.account := by
  induction events generalizing s with
  | nil => rfl
  | cons event rest ih =>
    rw [deliver.eq_def]
    dsimp only
    split
    · cases event with
      | text frame =>
        have htake := account_takeFrame react frame s
        dsimp only
        generalize s.takeFrame react frame = taken at htake ⊢
        obtain ⟨_ | failure, s'⟩ := taken
        · exact (ih s').trans htake
        · exact htake
      | broken failure => rfl
      | _ => exact ih s
    · rfl

theorem account_listen (events : List SocketEvent) (s : Subscriber) :
    (listen react events s).2.account = s.account := by
  have hdeliver := account_deliver react events s
  rw [listen]
  generalize deliver react events s = delivered at hdeliver ⊢
  obtain ⟨_ | failure, s'⟩ := delivered
  · dsimp only at hdeliver ⊢
    split
    · exact (account_stop s').trans hdeliver
    · exact hdeliver
  · exact hdeliver

/-! ## What comes of an attempt -/

theorem deliver_of_stopped (events : List SocketEvent) (hstopped : s.isRunning = false) :
    deliver react events s = (none, s) := by
  cases events with
  | nil => rfl
  | cons event rest =>
    rw [deliver.eq_def]
    exact if_neg (Bool.eq_false_iff.mp hstopped)

/-- A session fails exactly if a failure comes while no stop was asked for. -/
theorem sessionFails_eq (events : List SocketEvent) (hrunning : s.isRunning = true) :
    sessionFails react events = ((deliver react events s).1.isSome && (deliver react events s).2.isRunning) := by
  induction events generalizing s with
  | nil => rfl
  | cons event rest ih =>
    cases event with
    | text frame =>
      rw [sessionFails]
      cases hread : readFrame frame with
      | error failure =>
        rw [deliver_text_of_failed hrunning (takeFrame_of_error hread)]
        exact hrunning.symm
      | ok taken =>
        cases taken with
        | ignored =>
          rw [deliver_text_of_taken hrunning (takeFrame_of_ignored hread)]
          exact ih hrunning
        | subscribed id =>
          rw [deliver_text_of_taken hrunning (takeFrame_of_subscribed hread)]
          exact ih hrunning
        | notified n =>
          have htake : s.takeFrame react frame =
              ((react n).failure, if (react n).stops then (s.receive n).stop else s.receive n) :=
            takeFrame_of_notified hread
          dsimp only
          cases hfailure : (react n).failure with
          | some failure =>
            rw [hfailure] at htake
            rw [deliver_text_of_failed hrunning htake]
            -- A receiver that asks for a stop and then fails ends the session, and nothing is waited for.
            cases (react n).stops with
            | false => exact hrunning.symm
            | true => exact (isRunning_stop _).symm
          | none =>
            rw [hfailure] at htake
            rw [deliver_text_of_taken hrunning htake]
            cases (react n).stops with
            | false => exact ih hrunning
            | true =>
              rw [if_pos rfl, deliver_of_stopped react rest (isRunning_stop _)]
              rfl
    | broken failure =>
      simp only [deliver, if_pos hrunning, sessionFails]
      exact hrunning.symm
    | _ =>
      simp only [deliver, if_pos hrunning, sessionFails]
      exact ih hrunning

/-- The subscriber when an attempt begins. -/
def attempting (s : Subscriber) : Subscriber :=
  { (s.enter .connecting) with attempts := s.attempts + 1 }

theorem account_attempting (s : Subscriber) : s.attempting.account = s.account :=
  account_enter .connecting s

theorem isRunning_attempting (s : Subscriber) : s.attempting.isRunning = s.isRunning :=
  isRunning_enter .connecting s

theorem attempt_listening (events : List SocketEvent) (s : Subscriber) :
    s.attempt react (.listening events) =
      ((listen react events s.attempting.connected).1, true, (listen react events s.attempting.connected).2) :=
  rfl

/-- What listening comes to: a failure while the subscriber runs, or a stop. -/
theorem listen_cases (events : List SocketEvent) (hrunning : s.isRunning = true) :
    (sessionFails react events = true ∧ ∃ failure, (listen react events s).1 = some failure ∧
        (listen react events s).2.isRunning = true) ∨
      (sessionFails react events = false ∧ (listen react events s).2.isRunning = false) := by
  have houtcome := sessionFails_eq react events hrunning
  rw [listen]
  generalize deliver react events s = delivered at houtcome ⊢
  obtain ⟨_ | failure, s'⟩ := delivered
  · refine .inr ⟨houtcome, ?_⟩
    dsimp only
    split
    · exact isRunning_stop s'
    · next hstopped => exact Bool.eq_false_iff.mpr hstopped
  · by_cases hrunning' : s'.isRunning = true
    · exact .inl ⟨houtcome.trans hrunning', failure, rfl, hrunning'⟩
    · have hstopped := Bool.eq_false_iff.mpr hrunning'
      exact .inr ⟨houtcome.trans hstopped, hstopped⟩

/-- An attempt fails while the subscriber runs, and tells whether it connected; or a stop was asked for. Waits are made
after it, not in it. -/
theorem attempt_cases (script : ConnectionScript) (hrunning : s.isRunning = true) :
    (script.fails react = true ∧ ∃ failure s', s.attempt react script = (some failure, script.connects, s') ∧
        s'.isRunning = true ∧ s'.account = s.account) ∨
      (script.fails react = false ∧ ∃ failure s', s.attempt react script = (failure, script.connects, s') ∧
        s'.isRunning = false ∧ s'.account = s.account) := by
  have hstart : s.attempting.isRunning = true := (isRunning_attempting s).trans hrunning
  have haccount := account_attempting s
  cases script with
  | refused failure => exact .inl ⟨rfl, _, _, rfl, hstart, haccount⟩
  | unasked failure => exact .inl ⟨rfl, _, _, rfl, hstart, haccount⟩
  | listening events =>
    have hconnected : s.attempting.connected.isRunning = true := (isRunning_connected _).trans hstart
    have hlisten : (listen react events s.attempting.connected).2.account = s.account :=
      (account_listen react events _).trans ((account_connected _).trans haccount)
    rw [attempt_listening]
    rcases listen_cases react events hconnected with ⟨hfails, failure, hfailure, hrunning'⟩ | ⟨hstops, hstopped⟩
    · rw [hfailure]
      exact .inl ⟨hfails, failure, _, rfl, hrunning', hlisten⟩
    · exact .inr ⟨hstops, _, _, rfl, hstopped, hlisten⟩

/-! ## Attempts one after another -/

/-- There is no connection and no subscription. -/
def Closed (s : Subscriber) : Prop :=
  s.isOpen = false ∧ s.subscriptionId = none

theorem closed_close (s : Subscriber) : s.close.Closed :=
  ⟨rfl, rfl⟩

theorem closed_enter (state : ConnectionState) (h : s.Closed) : (s.enter state).Closed := by
  rw [enter]
  split <;> exact h

/-- The waits after failed attempts, told as they are made: `delay` is the next one unless the attempt connects. -/
def delays (config : SubscriberConfig) : Rat → List ConnectionScript → List Rat
  | _, [] => []
  | delay, script :: rest =>
    let wait := if script.connects then config.initialDelay else delay
    wait :: delays config (config.nextDelay wait) rest

theorem account_backOff (failure : Failure) (delay : Rat) (s : Subscriber) :
    (s.backOff failure delay).account = (s.config, s.backoff ++ [delay], s.reconnects + 1) := by
  rw [backOff, enter]
  dsimp only
  split <;> rfl

theorem isRunning_backOff (failure : Failure) (delay : Rat) (s : Subscriber) :
    (s.backOff failure delay).isRunning = s.isRunning :=
  isRunning_enter _ _

theorem connectLoop_of_stopped (moment : StopMoment) (scripts : List ConnectionScript) (delay : Rat)
    (hstopped : s.isRunning = false) : connectLoop react moment scripts delay s = s := by
  cases scripts <;> exact if_neg (Bool.eq_false_iff.mp hstopped)

section Step

variable (moment : StopMoment) {script : ConnectionScript} (rest : List ConnectionScript) (delay : Rat)

/-- After an attempt that fails the loop waits, for the first delay if the attempt connected, and goes on with twice the
delay unless a stop is asked for in the wait. -/
theorem connectLoop_of_fails (hrunning : s.isRunning = true) (hfails : script.fails react = true) :
    let wait := if script.connects then s.config.initialDelay else delay
    ∃ waiting : Subscriber, waiting.isRunning = true ∧
      waiting.account = (s.config, s.backoff ++ [wait], s.reconnects + 1) ∧
      connectLoop react moment (script :: rest) delay s =
        if rest.isEmpty ∧ moment = .waiting then waiting.stop.close
        else connectLoop react moment rest (s.config.nextDelay wait) waiting.close := by
  intro wait
  obtain ⟨-, failure, s', hattempt, hrunning', haccount⟩ | ⟨hends, -⟩ := attempt_cases react script hrunning
  · obtain ⟨hconfig, hbackoff, hreconnects⟩ := account_eq_iff.mp haccount
    refine ⟨s'.backOff failure wait, (isRunning_backOff failure wait s').trans hrunning', ?_, ?_⟩
    · rw [account_backOff, hconfig, hbackoff, hreconnects]
    · simp only [connectLoop, if_pos hrunning, hattempt, if_pos hrunning', hconfig]
      rfl
  · exact absurd (hfails.symm.trans hends) nofun

/-- After any other attempt the loop ends, and no wait was made. -/
theorem connectLoop_of_not_fails (hrunning : s.isRunning = true) (hends : script.fails react = false) :
    ∃ s' : Subscriber, s'.account = s.account ∧ connectLoop react moment (script :: rest) delay s = s'.close := by
  obtain ⟨hfails, -⟩ | ⟨-, failure, s', hattempt, hstopped, haccount⟩ := attempt_cases react script hrunning
  · exact absurd (hfails.symm.trans hends) nofun
  · refine ⟨s', haccount, ?_⟩
    simp only [connectLoop, if_pos hrunning, hattempt]
    cases failure with
    | some failure => exact if_neg (Bool.eq_false_iff.mp hstopped)
    | none => exact connectLoop_of_stopped react moment rest _ hstopped

end Step

/-- The loop adds the waits after the attempts up to the first one that ends in a stop, and leaves nothing open. -/
theorem connectLoop_account (moment : StopMoment) (scripts : List ConnectionScript) (delay : Rat)
    (hrunning : s.isRunning = true) :
    (connectLoop react moment scripts delay s).account =
        (s.config, s.backoff ++ delays s.config delay (scripts.takeWhile (·.fails react)),
          s.reconnects + (scripts.takeWhile (·.fails react)).length) ∧
      (connectLoop react moment scripts delay s).Closed := by
  induction scripts generalizing s delay with
  | nil =>
    have haccount : s.attempting.stop.account = s.account := (account_stop _).trans (account_attempting s)
    have hloop : connectLoop react moment [] delay s =
        { s.attempting.stop with lastError := some noMoreConnections.message }.close := if_pos hrunning
    rw [hloop, List.takeWhile_nil, delays, List.append_nil]
    exact ⟨haccount, closed_close _⟩
  | cons script rest ih =>
    cases hfails : script.fails react with
    | true =>
      obtain ⟨waiting, hrunning', haccount, hloop⟩ := connectLoop_of_fails react moment rest delay hrunning hfails
      rw [hloop, List.takeWhile_cons_of_pos hfails, delays, List.length_cons]
      split
      · next hlast =>
        rw [List.isEmpty_iff.mp hlast.1, List.takeWhile_nil, delays]
        exact ⟨(account_stop _).trans haccount, closed_close _⟩
      · obtain ⟨hrest, hclosed⟩ := ih _ (s := waiting.close) hrunning'
        have hclosing : waiting.close.account = _ := haccount
        obtain ⟨hconfig, hbackoff, hreconnects⟩ := account_eq_iff.mp hclosing
        rw [hconfig, hbackoff, hreconnects, List.append_assoc, Nat.add_right_comm] at hrest
        exact ⟨hrest, hclosed⟩
    | false =>
      obtain ⟨s', haccount, hloop⟩ := connectLoop_of_not_fails react moment rest delay hrunning hfails
      rw [hloop, List.takeWhile_cons_of_neg (Bool.eq_false_iff.mp hfails), delays, List.append_nil]
      exact ⟨haccount, closed_close _⟩

/-! ## The waits in closed form -/

/-- How many attempts were made since the last one that connected; if none did, how many were made since the first. -/
def sinceConnection (tried : List ConnectionScript) : Nat :=
  if tried.any ConnectionScript.connects then (tried.rtakeWhile fun script => !script.connects).length
  else tried.length - 1

/-- The count starts with the first attempt, and again with every attempt that connects. -/
theorem sinceConnection_concat (tried : List ConnectionScript) (script : ConnectionScript) :
    sinceConnection (tried ++ [script]) =
      if script.connects ∨ tried = [] then 0 else sinceConnection tried + 1 := by
  by_cases hconnects : script.connects = true
  · have hany : (tried ++ [script]).any ConnectionScript.connects = true := by simp [hconnects]
    rw [if_pos (.inl hconnects), sinceConnection, if_pos hany, List.rtakeWhile_concat_neg _ _ _ (by simp [hconnects]),
      List.length_nil]
  · have hany : (tried ++ [script]).any ConnectionScript.connects = tried.any ConnectionScript.connects := by
      simp [hconnects]
    rw [sinceConnection, sinceConnection, hany, List.rtakeWhile_concat_pos _ _ _ (by simp [hconnects]),
      List.length_append, List.length_append]
    cases tried with
    | nil => exact (if_pos (.inr rfl)).symm
    | cons first later =>
      have hlater : ¬(script.connects = true ∨ first :: later = []) := by simp [hconnects]
      rw [if_neg hlater]
      split <;> rfl

/-- The wait after the last of some attempts. -/
def waitAfter (config : SubscriberConfig) (tried : List ConnectionScript) : Rat :=
  min config.maxDelay (config.initialDelay * 2 ^ sinceConnection tried)

/-- The waits after failed attempts, told one by one. -/
def waits (config : SubscriberConfig) (failed : List ConnectionScript) : List Rat :=
  (List.range failed.length).map fun n => waitAfter config (failed.take (n + 1))

variable {config : SubscriberConfig}

/-- A bounded delay is doubled as the delay itself is, below the bound. -/
theorem nextDelay_min (hbound : 0 < config.maxDelay) (delay : Rat) :
    config.nextDelay (min config.maxDelay delay) = min config.maxDelay (delay * 2) := by
  have hnext : ∀ delay, config.nextDelay delay = min config.maxDelay (delay * 2) := fun delay => by
    rw [SubscriberConfig.nextDelay, min_def]
  rw [hnext]
  rcases le_total config.maxDelay delay with h | h
  · rw [min_eq_left h, min_eq_left (by linarith), min_eq_left (by linarith)]
  · rw [min_eq_right h]

/-- The wait after an attempt is the delay that the loop holds, unless the attempt connects. -/
theorem waitAfter_concat (hinitial : 0 < config.initialDelay) (hbound : config.initialDelay ≤ config.maxDelay)
    (tried : List ConnectionScript) (script : ConnectionScript) :
    waitAfter config (tried ++ [script]) =
      if script.connects ∨ tried = [] then config.initialDelay
      else config.nextDelay (waitAfter config tried) := by
  rw [waitAfter, sinceConnection_concat]
  split
  · rw [pow_zero, mul_one, min_eq_right hbound]
  · rw [waitAfter, nextDelay_min (hinitial.trans_le hbound), pow_succ, mul_assoc]

/-- Told as they are made, the waits are the first delay, doubled for every attempt since the last connection. -/
theorem delays_eq (hinitial : 0 < config.initialDelay) (hbound : config.initialDelay ≤ config.maxDelay)
    (failed tried : List ConnectionScript) {delay : Rat}
    (hdelay : delay = if tried = [] then config.initialDelay else config.nextDelay (waitAfter config tried)) :
    delays config delay failed =
      (List.range failed.length).map fun n => waitAfter config (tried ++ failed.take (n + 1)) := by
  -- The count looks back over all attempts, so the ones before are carried along.
  induction failed generalizing tried delay with
  | nil => rfl
  | cons script rest ih =>
    have hwait : (if script.connects then config.initialDelay else delay) = waitAfter config (tried ++ [script]) := by
      rw [waitAfter_concat hinitial hbound, hdelay]
      by_cases hconnects : script.connects <;> simp [hconnects]
    have hnext := ih (tried ++ [script]) (if_neg (by simp)).symm
    rw [delays, hwait, hnext, List.length_cons, List.range_succ_eq_map, List.map_cons, List.map_map]
    simp

/-- Whatever is attempted and however the run is stopped, the wait after each failed attempt is the first delay, doubled
for every attempt since the last one that connected, up to the bound. Each wait is counted, and at the end nothing is
left open. -/
theorem runUntil_waits (s : Subscriber) (moment : StopMoment) (scripts : List ConnectionScript)
    (hinitial : 0 < s.config.initialDelay) (hbound : s.config.initialDelay ≤ s.config.maxDelay) :
    let failed := scripts.takeWhile (·.fails react)
    let stopped := s.runUntil moment react scripts
    stopped.backoff = s.backoff ++ waits s.config failed ∧
      (∀ wait ∈ waits s.config failed, wait ≤ s.config.maxDelay) ∧
      stopped.reconnects = s.reconnects + (waits s.config failed).length ∧
      stopped.state = .disconnected ∧ stopped.isOpen = false ∧ stopped.subscriptionId = none := by
  intro failed stopped
  have hrunning : s.begin.isRunning = true := rfl
  obtain ⟨hloop, hclosed⟩ := connectLoop_account react moment scripts s.config.initialDelay hrunning
  have hstopped : stopped.account = _ := (account_enter _ _).trans hloop
  have hdelays : delays s.config s.config.initialDelay failed = waits s.config failed :=
    delays_eq hinitial hbound failed [] rfl
  obtain ⟨-, hbackoff, hreconnects⟩ := account_eq_iff.mp hstopped
  refine ⟨hbackoff.trans (congrArg _ hdelays), fun wait hwait => ?_, ?_, state_enter _ _, closed_enter _ hclosed⟩
  · obtain ⟨n, -, rfl⟩ := List.mem_map.mp hwait
    exact min_le_left _ _
  · rw [waits, List.length_map, List.length_range]
    exact hreconnects

/-- A subscriber that waits for at most three seconds. -/
def impatient : Subscriber :=
  { config := { url := "wss://ledger", address := "pool", maxDelay := 3 } }

/-- Three attempts that do not connect, a session that breaks, one more refusal, and a session that is stopped. -/
def mixedAttempts : List ConnectionScript :=
  let failure : Failure := ⟨.system, "unreachable"⟩
  [.refused failure, .unasked failure, .refused failure, .listening [.silence, .broken failure], .refused failure,
    .listening []]

theorem runUntil_waits_mixed :
    0 < impatient.config.initialDelay ∧ impatient.config.initialDelay ≤ impatient.config.maxDelay ∧
      (impatient.runUntil .connecting calm mixedAttempts).backoff = [1, 2, 3, 1, 2] ∧
      (impatient.runUntil .connecting calm mixedAttempts).reconnects = 5 := by
  have hinitial : 0 < impatient.config.initialDelay := by decide +kernel
  have hbound : impatient.config.initialDelay ≤ impatient.config.maxDelay := by decide +kernel
  have hwaits : waits impatient.config (mixedAttempts.takeWhile (·.fails calm)) = [1, 2, 3, 1, 2] := by decide +kernel
  obtain ⟨hbackoff, -, hreconnects, -⟩ := runUntil_waits calm impatient .connecting mixedAttempts hinitial hbound
  rw [hwaits] at hbackoff hreconnects
  exact ⟨hinitial, hbound, hbackoff, hreconnects⟩

end Subscriber
end PairIndex
