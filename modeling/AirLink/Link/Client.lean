/-
  The client's part of the link.  It searches the advertising channels,
  follows the server's switch to linking, sets its clock by the server's and
  announces the switch to linked.  On the link it goes on measuring its clock
  error, and corrects and tunes the clock.
-/
import AirLink.Link.Station
import AirLink.Link.Switch
import AirLink.Sync.Drift
import AirLink.Sync.ErrorLog
import AirLink.Sync.Requester

namespace AirLink

/-- The client's own state. -/
structure Client where
  /-- the number of the channel being searched -/
  searchIndex : Nat
  dwellStarted : Nat
  assembly : Assembly
  /-- the number of the next part of its identity -/
  identitySent : Nat
  linkingStarted : Nat
  follower : Follower
  announcer : Announcer
  /-- what the server wants answered -/
  serverChallenge : Option UInt32
  /-- what the server has to answer -/
  challenge : UInt32
  requester : Requester
  lastTuneRequest : Nat
  errors : ErrorLog
  drift : Drift

namespace Client

def create (settings : Settings) : Client where
  searchIndex := 0
  dwellStarted := 0
  assembly := .empty
  identitySent := 0
  linkingStarted := 0
  follower := .idle
  announcer := .ofDuration settings.switchDuration.toMicros
  serverChallenge := none
  challenge := 0
  requester := .ofRetryPeriod settings.syncRetryMicros
  lastTuneRequest := 0
  errors := .ofLimits settings.deviationThreshold settings.qualityReference
  drift := .ofTolerance settings.tuneTolerancePpm

/-- The channel with a number in the search. -/
def channelOf (settings : Settings) (index : Nat) : UInt8 :=
  settings.advertisingChannels.getD (index % settings.advertisingChannels.length) 0

/-- Begins the search for a server, on the channel of the last one. -/
def restart (v : Client) (s : Station) (now : Nat) : Client × Station :=
  let s := { s with session := s.session.reset }.resetLink now
  let s := { s with clock := s.clock.setTune 0 now }.count fun t => { t with clockQuality := 0 }
  let v := { v with
    assembly := .empty
    identitySent := 0
    follower := .idle
    serverChallenge := none
    requester := v.requester.reset
    errors := v.errors.reset
    drift := v.drift.reset
    dwellStarted := now }
  (v, (s.tuneTo (channelOf s.settings v.searchIndex)).setStage .awaiting now)

/-- Gives up an attempt to link. -/
def fail (v : Client) (s : Station) (now : Nat) : Turn Client :=
  let (v, s) := v.restart (s.count fun t => { t with failedAttempts := t.failedAttempts + 1 }) now
  ⟨v, s, 0⟩

/-! ## Ticks -/

/-- When the next channel is searched. -/
def dwellEnd (v : Client) (s : Station) : Nat := v.dwellStarted + s.settings.searchDwell.toMicros

/-- Goes on to the next channel. -/
def searchNext (v : Client) (s : Station) (now : Nat) : Client × Station :=
  let index := (v.searchIndex + 1) % s.settings.advertisingChannels.length
  ({ v with searchIndex := index, dwellStarted := now, assembly := .empty },
    (s.tuneTo (channelOf s.settings index)).listen now)

def tickAwaiting (v : Client) (s : Station) (now : Nat) : Turn Client :=
  let (v, s) := if v.dwellEnd s ≤ now then v.searchNext s now else (v, s)
  ⟨v, s, v.dwellEnd s - now⟩

/-- Sends the next part of its identity, if it can be sent now. -/
def introduce (v : Client) (s : Station) (m : Moment) (now : Nat) : Turn Client :=
  let fragment := Fragment.of s.session.identity v.identitySent
  let (ok, s) := s.trySendMessage m (.pairing (.startRequest s.session.id fragment)) now
  ⟨if ok then { v with identitySent := v.identitySent + 1 } else v, s, s.slotDelay now⟩

def tickPairing (v : Client) (s : Station) (m : Moment) (now : Nat) : Turn Client :=
  if s.settings.pairingTimeout.toMicros ≤ s.stageAge now then v.fail s now
  else if s.session.isReady then v.introduce s m now
  else match s.session.calculate with
    | .error _ => v.fail s now
    | .ok session =>
      let s := { s with session }
      if session.isReady then v.introduce s m now else ⟨v, s, 0⟩

/-- Draws a challenge, and waits for the server's. -/
def enterAuthenticating (v : Client) (s : Station) (now : Nat) : Client × Station :=
  let (challenge, s) := s.drawWord
  ({ v with challenge, serverChallenge := none }, s.setStage .authenticating now)

/-- Acknowledges the switch to linking, if that is pending and can be sent
    now. -/
def acknowledge (v : Client) (s : Station) (m : Moment) (now : Nat) : Client × Station :=
  if v.follower.ackPending then
    let (ok, s) := s.trySendMessage m (.handshake .switchToLinkingAck) now
    (if ok then { v with follower := v.follower.onAckSent } else v, s)
  else (v, s)

def tickSwitchingToLinking (v : Client) (s : Station) (m : Moment) (now : Nat) : Turn Client :=
  if v.follower.isDue now then
    let (v, s) := v.enterAuthenticating s now
    ⟨v, s, 0⟩
  else
    let (v, s) := v.acknowledge s m now
    let slot := s.slotDelay now
    ⟨v, s, match v.follower.delay? now with
      | some d => min slot d
      | none => slot⟩

def tickAuthenticating (v : Client) (s : Station) (m : Moment) (now : Nat) : Turn Client :=
  match v.serverChallenge with
  | none => ⟨v, s, s.slotDelay now⟩
  | some challenge =>
    match s.session.authResponse challenge Role.client.sendDirection with
    | .ok response =>
      let (_, s) := s.trySendMessage m (.handshake (.authReply response v.challenge)) now
      ⟨v, s, s.slotDelay now⟩
    | .error _ => v.fail s now

/-- The message of a clock request. -/
def syncMessage (q : SyncRequest) (estimate : LinkTime) : Message :=
  .handshake (.syncRequest q.phase q.sequence estimate)

/-- Sends a clock request, with the link time of its first bit, if it can be
    sent now. -/
def requestSync (v : Client) (s : Station) (m : Moment) (now : Nat) (q : SyncRequest) :
    Client × Station :=
  let estimate := s.clock.linkTimeAt (s.firstBit now (syncMessage q .zero))
  let (ok, s) := s.trySendMessage m (syncMessage q estimate) now
  if ok then
    let requester := v.requester.onSent q now
    ({ v with requester },
      s.count fun t => { t with broadRequests := requester.broadRequests })
  else (v, s)

def tickSyncing (v : Client) (s : Station) (m : Moment) (now : Nat) : Turn Client :=
  if v.requester.isSynced then
    ⟨{ v with announcer := v.announcer.start now }, s.setStage .switchingToLinked now, 0⟩
  else
    let (v, s) := match v.requester.nextRequest now with
      | some q => v.requestSync s m now q
      | none => (v, s)
    let slot := s.slotDelay now
    ⟨v, s, match v.requester.retryDelay now with
      | some retry => if 0 < retry then min slot retry else slot
      | none => slot⟩

/-- Announces the switch to linked, if it can be announced now. -/
def announce (v : Client) (s : Station) (m : Moment) (now : Nat) : Client × Station :=
  match v.announcer.timeRemaining (s.firstBit now (.handshake (.switchToLinked 0))) with
  | some remaining =>
    let (ok, s) := s.trySendMessage m (.handshake (.switchToLinked remaining)) now
    (if ok then { v with announcer := v.announcer.onRequestSent } else v, s)
  | none => (v, s)

def tickSwitchingToLinked (v : Client) (s : Station) (m : Moment) (now : Nat) : Turn Client :=
  let (outcome, announcer) := v.announcer.poll now
  let v := { v with announcer }
  match outcome with
  | .completed =>
    match s.enterLinked now (s.settings.duplexMicros / 2) with
    | some s => ⟨{ v with lastTuneRequest := now }, s, 0⟩
    | none => v.fail s now
  | .failed => v.fail s now
  | .restarted | .pending =>
    let (v, s) := v.announce s m now
    ⟨v, s, min (s.slotDelay now) (v.announcer.deadline - now)⟩

/-- When the clock error is measured again. -/
def tuneAt (v : Client) (s : Station) : Nat := v.lastTuneRequest + s.settings.tunePeriod.toMicros

/-- The request to measure the clock error, with the link time of its first
    bit. -/
def tuneRequest (s : Station) (now : Nat) : UpkeepMessage :=
  .tuneRequest (s.clock.linkTimeAt (s.firstBit now (.upkeep (.tuneRequest .zero))))

def tickLinked (v : Client) (s : Station) (m : Moment) (now : Nat) : Turn Client :=
  if s.timeoutAt ≤ now then
    let (v, s) := v.restart (s.count fun t => { t with linkLosses := t.linkLosses + 1 }) now
    ⟨v, s, 0⟩
  else
    let dueAt := v.tuneAt s
    let control := if dueAt ≤ now then some (tuneRequest s now) else none
    let (sent, s) := s.linkedSend m now control
    let delay := s.linkedDelay now
    ⟨if sent then { v with lastTuneRequest := now } else v, s,
      if dueAt ≤ now then delay else min delay (dueAt - now)⟩

/-- Whether linking has taken too long. -/
def isLinkingOver (v : Client) (s : Station) (now : Nat) : Bool :=
  s.stage.isLinking && v.linkingStarted + s.settings.linkingTimeout.toMicros ≤ now

def tick (v : Client) (s : Station) (m : Moment) (now : Nat) : Turn Client :=
  let s := s.listen now
  if v.isLinkingOver s now then v.fail s now
  else match s.stage with
    | .awaiting => v.tickAwaiting s now
    | .pairing => v.tickPairing s m now
    | .switchingToLinking => v.tickSwitchingToLinking s m now
    | .authenticating => v.tickAuthenticating s m now
    | .syncing => v.tickSyncing s m now
    | .switchingToLinked => v.tickSwitchingToLinked s m now
    | .linked => v.tickLinked s m now
    | .disabled | .booting => ⟨v, s, s.slotDelay now⟩

/-! ## Messages -/

/-- A server advertises a session.  Its advertisements start its halves. -/
def onSessionAvailable (v : Client) (s : Station) (session : SessionId) (fragment : Fragment)
    (a : Arrival) (now : Nat) : Except Fault (Client × Station) :=
  let s := s.alignTo a
  if s.stage = .pairing then .ok (v, s)
  else do
    let (identity, assembly) ← v.assembly.accept session fragment
    let v := { v with assembly }
    match identity with
    | none => return (v, s)
    | some identity =>
      let s := { s with session := s.session.setId session }
      match s.session.setPartner identity with
      | .ok session => return ({ v with identitySent := 0 }, { s with session }.setStage .pairing now)
      | .error _ => return ({ v with assembly := .empty }, s)

/-- The server announces the switch to linking. -/
def onSwitchToLinking (v : Client) (s : Station) (remaining : UInt32) (a : Arrival) (now : Nat) :
    Client × Station :=
  let v := { v with follower := .onRequest a.micros remaining }
  if s.stage = .pairing then
    ({ v with linkingStarted := now }, s.setStage .switchingToLinking now)
  else (v, s)

/-- The server sends its challenge, maybe having switched before us. -/
def onAuthRequest (v : Client) (s : Station) (challenge : UInt32) (now : Nat) : Client × Station :=
  let (v, s) :=
    if s.stage = .switchingToLinking then v.enterAuthenticating s now else (v, s)
  ({ v with serverChallenge := some challenge }, s)

/-- The server answers the challenge. -/
def onAuthAccepted (v : Client) (s : Station) (response : UInt32) (now : Nat) : Client × Station :=
  match s.session.authResponse v.challenge Role.server.sendDirection with
  | .ok expected =>
    if expected = response then
      ({ v with requester := v.requester.reset }, s.setStage .syncing now)
    else (v, s.reject)
  | .error _ => (v, s)

/-- The server judges an estimate; the clock is corrected by its error. -/
def onSyncReply (v : Client) (s : Station) (phase : Phase) (sequence : UInt8) (error : Offset)
    (accepted : Bool) : Client × Station :=
  let (correction, requester) := v.requester.onReply phase sequence error accepted
  ({ v with requester },
    match correction with
    | some c => { s with clock := s.clock.shift c }
    | none => s)

/-- The server tells the clock error.  Once there are enough of them the clock
    is corrected and tuned. -/
def onTuneReply (v : Client) (s : Station) (error : Int32) (now : Nat) :
    Except Fault (Client × Station) := do
  let errors ← v.errors.add error
  let s := s.count fun t => { t with clockQuality := errors.quality }
  match errors.estimate with
  | none => return ({ v with errors }, s)
  | some estimate =>
    let drift := v.drift.onCorrection (-estimate) now
    return ({ v with errors := errors.clearSamples, drift },
      { s with clock := (s.clock.shift (-estimate)).setTune drift.tune now })

/-- Takes a message, which counts in certain stages only. -/
def onMessage (v : Client) (s : Station) (message : Message) (a : Arrival) (now : Nat) :
    Except Fault (Client × Station) :=
  match s.stage, message with
  | .awaiting, .pairing (.sessionAvailable session fragment)
  | .pairing, .pairing (.sessionAvailable session fragment) =>
    v.onSessionAvailable s session fragment a now
  | .pairing, .handshake (.switchToLinking remaining)
  | .switchingToLinking, .handshake (.switchToLinking remaining) =>
    .ok (v.onSwitchToLinking s remaining a now)
  | .switchingToLinking, .handshake (.authRequest challenge)
  | .authenticating, .handshake (.authRequest challenge) =>
    .ok (v.onAuthRequest s challenge now)
  | .authenticating, .handshake (.authAccepted response) =>
    .ok (v.onAuthAccepted s response now)
  | .syncing, .handshake (.syncReply phase sequence error accepted) =>
    .ok (v.onSyncReply s phase sequence error accepted)
  | .switchingToLinked, .handshake .switchToLinkedAck =>
    .ok ({ v with announcer := v.announcer.onAck }, s)
  | .linked, .upkeep (.tuneReply error) => v.onTuneReply s error now
  | _, _ => .ok (v, s)

end Client
end AirLink
