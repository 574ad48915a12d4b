import PairIndex.Json.Printer
import PairIndex.Live.Notification

/-! A log subscription over a connection that may break. The subscriber connects, asks for the log of one address,
delivers announcements, and after a failure connects again: it waits for a delay that doubles up to a bound and starts
over with every connection that succeeds. -/

namespace PairIndex

/-- Where a subscription stands. -/
inductive ConnectionState where
  | disconnected
  | connecting
  | connected
  | reconnecting
  deriving DecidableEq, Repr, Inhabited

def ConnectionState.name : ConnectionState → String
  | .disconnected => "disconnected"
  | .connecting => "connecting"
  | .connected => "connected"
  | .reconnecting => "reconnecting"

/-- What happens while a connection is listened to. -/
inductive SocketEvent where
  | text (frame : String)
  | binary
  /-- Nothing arrives in time. -/
  | silence
  | broken (failure : Failure)

/-- What comes of an attempt to connect. -/
inductive ConnectionScript where
  /-- No connection is made. -/
  | refused (failure : Failure)
  /-- A connection is made, and asking for the log over it fails. -/
  | unasked (failure : Failure)
  /-- A connection is made, and these events happen before a stop is asked for. -/
  | listening (events : List SocketEvent)

/-- When a stop is asked for after the last connection: while the next one is attempted, or in the wait before that. -/
inductive StopMoment where
  | connecting
  | waiting
  deriving DecidableEq, Repr, Inhabited

/-- What the receiver of an announcement does: it may ask for a stop, and it may fail. -/
structure Reaction where
  stops : Bool := false
  failure : Option Failure := none

/-- How a subscription is made. -/
structure SubscriberConfig where
  url : String
  address : String
  commitment : String := "confirmed"
  /-- Seconds between pings. -/
  pingInterval : Int := 30
  /-- The bound of the delay, in seconds. -/
  maxDelay : Rat := 30
  /-- The first delay, in seconds. -/
  initialDelay : Rat := 1
  deriving Inhabited

/-- The delay after this one: twice as long, up to the bound. -/
def SubscriberConfig.nextDelay (config : SubscriberConfig) (delay : Rat) : Rat :=
  if config.maxDelay ≤ delay * 2 then config.maxDelay else delay * 2

/-- The state of a subscriber, and what it did since it was made. -/
structure Subscriber where
  config : SubscriberConfig
  state : ConnectionState := .disconnected
  subscriptionId : Option Int := none
  /-- Whether there is a connection. -/
  isOpen : Bool := false
  isRunning : Bool := false
  /-- How many requests were made. -/
  requests : Nat := 0
  notifications : Nat := 0
  reconnects : Nat := 0
  lastError : Option String := none
  /-- Whether an announcement ever arrived. -/
  hasReceived : Bool := false
  /-- Whether a connection was ever made. -/
  hasConnected : Bool := false
  states : List ConnectionState := []
  received : List LogNotification := []
  sent : List Json := []
  /-- The delays waited for, in seconds. -/
  backoff : List Rat := []
  /-- How many connections were attempted in the current run. -/
  attempts : Nat := 0
  deriving Inhabited

namespace Subscriber

/-- Enters a state, unless it is the current one. -/
def enter (state : ConnectionState) (s : Subscriber) : Subscriber :=
  if s.state = state then s else { s with state, states := s.states ++ [state] }

/-- Sends a request with the next number. -/
def request (method : String) (params : List Json) (s : Subscriber) : Subscriber :=
  let n := s.requests + 1
  { s with
    requests := n
    sent := s.sent ++
      [.obj [("jsonrpc", .str "2.0"), ("id", .int n), ("method", .str method), ("params", .arr params)]] }

/-- Asks for the log of the address. -/
def subscribe (s : Subscriber) : Subscriber :=
  s.request "logsSubscribe"
    [.obj [("mentions", .arr [.str s.config.address])], .obj [("commitment", .str s.config.commitment)]]

/-- Gives up the subscription, if there is one on an open connection. -/
def unsubscribe (s : Subscriber) : Subscriber :=
  match s.isOpen, s.subscriptionId with
  | true, some id => { (s.request "logsUnsubscribe" [.int id]) with subscriptionId := none }
  | _, _ => s

/-- Stops for good, until the next run. -/
def stop (s : Subscriber) : Subscriber :=
  ({ s with isRunning := false }).unsubscribe

/-- Leaves no connection and no subscription. -/
def close (s : Subscriber) : Subscriber :=
  { s with isOpen := false, subscriptionId := none }

/-- Starts a connection: it is made and the subscription is asked for. -/
def connected (s : Subscriber) : Subscriber :=
  { (s.subscribe.enter .connected) with isOpen := true, hasConnected := true }

/-- Takes a text frame; the receiver's reaction to an announcement counts. -/
def takeFrame (react : LogNotification → Reaction) (text : String) (s : Subscriber) : Option Failure × Subscriber :=
  match readFrame text with
  | .error failure => (some failure, s)
  | .ok .ignored => (none, s)
  | .ok (.subscribed id) => (none, { s with subscriptionId := some id })
  | .ok (.notified notification) =>
    let s :=
      { s with
        notifications := s.notifications + 1
        hasReceived := true
        received := s.received ++ [notification] }
    let reaction := react notification
    (reaction.failure, if reaction.stops then s.stop else s)

/-- Takes what happens on a connection, until a stop or a failure. -/
def deliver (react : LogNotification → Reaction) : List SocketEvent → Subscriber → Option Failure × Subscriber
  | [], s => (none, s)
  | event :: rest, s =>
    if s.isRunning then
      match event with
      | .text frame =>
        match s.takeFrame react frame with
        | (none, s) => deliver react rest s
        | (some failure, s) => (some failure, s)
      | .binary | .silence => deliver react rest s
      | .broken failure => (some failure, s)
    else (none, s)

/-- Listens to a connection until a stop or a failure; when nothing more happens a stop is asked for. -/
def listen (react : LogNotification → Reaction) (events : List SocketEvent) (s : Subscriber) :
    Option Failure × Subscriber :=
  match deliver react events s with
  | (none, s) => (none, if s.isRunning then s.stop else s)
  | (some failure, s) => (some failure, s)

/-- What is said about a connection that could not be made. -/
def connectFailure (s : Subscriber) (cause : Failure) : Failure :=
  ⟨.subscriptionConnection, "Failed to connect to " ++ s.config.url ++ ": " ++ cause.message⟩

/-- Attempts one connection and uses it up; tells the failure, and whether a connection was made. -/
def attempt (react : LogNotification → Reaction) (script : ConnectionScript) (s : Subscriber) :
    Option Failure × Bool × Subscriber :=
  let s := { (s.enter .connecting) with attempts := s.attempts + 1 }
  match script with
  | .refused failure => (some (s.connectFailure failure), false, { s with lastError := some failure.message })
  | .unasked failure => (some failure, false, { s with requests := s.requests + 1 })
  | .listening events =>
    let (failure, s) := listen react events s.connected
    (failure, true, s)

/-- Waits after a failure, and connects again later. -/
def backOff (failure : Failure) (delay : Rat) (s : Subscriber) : Subscriber :=
  let s := { s with reconnects := s.reconnects + 1, lastError := some failure.message }
  { (s.enter .reconnecting) with backoff := s.backoff ++ [delay] }

/-- What is said when no connection is left to attempt. -/
def noMoreConnections : Failure :=
  ⟨.system, "no more connections"⟩

/-- Connects again and again until a stop. When no connection is left a stop is asked for: in the last wait, or in the
next attempt to connect, which then fails. -/
def connectLoop (react : LogNotification → Reaction) (moment : StopMoment) :
    List ConnectionScript → Rat → Subscriber → Subscriber
  | [], _, s =>
    if s.isRunning then
      let s := { (s.enter .connecting) with attempts := s.attempts + 1 }
      { s.stop with lastError := some noMoreConnections.message }.close
    else s
  | script :: rest, delay, s =>
    if s.isRunning then
      let (failure, made, s) := s.attempt react script
      let delay := if made then s.config.initialDelay else delay
      match failure with
      | some failure =>
        if s.isRunning then
          let waiting := s.backOff failure delay
          if rest.isEmpty ∧ moment = .waiting then waiting.stop.close
          else connectLoop react moment rest (s.config.nextDelay delay) waiting.close
        else s.close
      | none => connectLoop react moment rest delay s.close
    else s

/-- The subscriber at the start of a run. -/
def begin (s : Subscriber) : Subscriber :=
  { s with isRunning := true, attempts := 0 }

/-- Runs until a stop, for which the last occasion is told. -/
def runUntil (moment : StopMoment) (react : LogNotification → Reaction) (scripts : List ConnectionScript)
    (s : Subscriber) : Subscriber :=
  (connectLoop react moment scripts s.config.initialDelay s.begin).enter .disconnected

/-- Runs until a stop, at the latest when no connection is left to attempt. -/
def run (react : LogNotification → Reaction) (scripts : List ConnectionScript) (s : Subscriber) : Subscriber :=
  s.runUntil .connecting react scripts

/-- Starts a run whose first connection is made and delivers some frames, and is then left open. -/
def follow (react : LogNotification → Reaction) (events : List SocketEvent) (s : Subscriber) : Subscriber :=
  let s := { (s.begin.enter .connecting) with attempts := 1 }
  match deliver react events s.connected with
  | (none, s) => s
  | (some failure, s) => (s.backOff failure s.config.initialDelay).close

end Subscriber
end PairIndex
