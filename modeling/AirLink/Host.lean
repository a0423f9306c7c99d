/-
  A host that runs one endpoint on timers and events.

  Its timers end at whole milliseconds.  It wakes up when the timer of the
  last tick ends, when the radio reports something and when the application
  has a command or hangs up; after each of these it ticks and sets the timer
  anew.  Beside it runs a script, which sleeps, plays the radio and gives
  commands.  At one moment the host comes first and the script after it, and
  time passes only when neither has anything to do.
-/
import AirLink.Link.Endpoint

namespace AirLink

/-- Something that the radio reports. -/
inductive RadioEvent where
  /-- a packet, whose first bit arrived at the given reading -/
  | received (data : Bytes) (captured : UInt32) (rssi : Int8)
  | broken
  | sent
deriving DecidableEq

/-- Something that the script does. -/
inductive ScriptCall where
  | sleep (millis : Nat)
  /-- the radio receives a packet -/
  | receive (data : Bytes) (rssi : Int8)
  | broken
  | sent
  | request (port : UInt8) (payload : Bytes) (priority : UInt8)
  | cancel
  /-- the application hangs up -/
  | hangUp
deriving DecidableEq

/-- What is written down of a run. -/
inductive HostEntry where
  /-- something done to the surroundings, and when -/
  | effect (now : Nat) (e : Effect)
  /-- a call of the script, and when -/
  | call (now : Nat)
deriving DecidableEq

/-- A host with its endpoint. -/
structure Host where
  endpoint : Endpoint
  now : Nat
  /-- when its timer ends -/
  wakeAt : Nat
  /-- what the radio has reported -/
  events : List RadioEvent
  /-- whether the radio reports the end of a transmission by itself -/
  reportsSent : Bool
  /-- whether the application may still give commands -/
  commandsOpen : Bool
  log : List HostEntry

namespace Host

/-- Microseconds between two moments at which a timer may end. -/
def tickMicros : Nat := 1000

/-- The first moment at or after a time at which a timer may end. -/
def timerEnd (t : Nat) : Nat := (t + (tickMicros - 1)) / tickMicros * tickMicros

def raw (h : Host) : UInt32 := UInt32.ofNat h.now

/-- The radio of a host is always free. -/
def moment (h : Host) : Moment := ⟨h.raw, true, true⟩

/-- Writes down what was done, and has the end of a transmission reported. -/
def note (h : Host) (e : Effect) : Host :=
  let h := { h with log := h.log ++ [.effect h.now e] }
  match e with
  | .send .. => if h.reportsSent then { h with events := h.events ++ [.sent] } else h
  | _ => h

/-- Replaces the endpoint by one that an operation left. -/
def update (h : Host) (e : Endpoint) : Host :=
  let (effects, endpoint) := e.flush
  effects.foldl note { h with endpoint }

/-- Ticks, and sets the timer. -/
def tick (h : Host) : Except Fault Host := do
  let (delay, e) ← h.endpoint.tick h.moment
  return { h.update e with wakeAt := timerEnd (h.now + delay) }

/-- Passes on what the radio reports. -/
def handle (h : Host) : RadioEvent → Except Fault Host
  | .received data captured rssi => do
    return h.update (← h.endpoint.onReceive h.moment data captured rssi)
  | .broken => .ok (h.update h.endpoint.onBroken)
  | .sent => .ok (h.update (h.endpoint.onSent h.moment))

/-- Gives a command to the host, if it still takes commands. -/
def command (h : Host) (f : Endpoint → Endpoint) : Except Fault Host :=
  if h.commandsOpen then (h.update (f h.endpoint)).tick else .ok h

/-- What a call of the script has the radio report. -/
def report (h : Host) (event : RadioEvent) : Except Fault Host :=
  .ok { h with events := h.events ++ [event] }

/-- Carries out a call of the script. -/
def call (h : Host) (c : ScriptCall) : Except Fault Host :=
  let h := { h with log := h.log ++ [.call h.now] }
  match c with
  | .sleep _ => .ok h
  | .receive data rssi => h.report (.received data h.raw rssi)
  | .broken => h.report .broken
  | .sent => h.report .sent
  | .request port payload priority =>
    h.command fun e => (e.request h.raw port payload priority).2
  | .cancel => h.command Endpoint.cancel
  | .hangUp =>
    if h.commandsOpen then { h with commandsOpen := false }.tick else .ok h

/-- When a call of the script takes effect, if it is begun now. -/
def callAt (h : Host) : ScriptCall → Nat
  | .sleep millis => h.now + millis * tickMicros
  | _ => h.now

/-- Runs the script to its end, at most `fuel` wakeups and calls; `dueAt` is
    when the first call takes effect. -/
def runScript : (fuel : Nat) → Host → (dueAt : Nat) → List ScriptCall → Except Fault Host
  | 0, h, _, _ => .ok h
  | fuel + 1, h, dueAt, calls =>
    match h.events, calls with
    | event :: events, _ => do
      let h ← ({ h with events }).handle event
      runScript fuel (← h.tick) dueAt calls
    | [], [] => .ok h
    | [], c :: rest =>
      if h.wakeAt ≤ dueAt then do
        runScript fuel (← { h with now := h.wakeAt }.tick) dueAt calls
      else do
        let h ← { h with now := dueAt }.call c
        match rest with
        | [] => runScript fuel h dueAt []
        | next :: _ => runScript fuel h (h.callAt next) rest

/-- Wakeups and calls that a script can lead to: few in each of its
    milliseconds and for each of its calls. -/
def enough (calls : List ScriptCall) : Nat :=
  calls.foldl (fun n c => n + 16 * (match c with | .sleep millis => millis + 1 | _ => 1)) 16

/-- Starts the endpoint, runs it beside the script, and stops it at the end.
    The host begins at time zero. -/
def run (e : Endpoint) (reportsSent : Bool) (calls : List ScriptCall) :
    Except Fault (Except EndpointRefusal Unit × Host) := do
  let h : Host := ⟨e.flush.2, 0, 0, [], reportsSent, true, []⟩
  let (result, e) := h.endpoint.start h.raw
  let h := h.update e
  match result with
  | .error r => return (.error r, h)
  | .ok () =>
    let h ← h.tick
    let dueAt := match calls with
      | c :: _ => h.callAt c
      | [] => h.now
    let h ← runScript (enough calls) h dueAt calls
    return (.ok (), h.update (h.endpoint.stop h.raw))

end Host
end AirLink
