/-
  The server's part of the link.  It advertises sessions, answers the client
  and is the reference for the clock.  It announces the switch to linking and
  follows the client's switch to linked.

  Each stage has a tick of its own; a message counts in certain stages only
  (`Server.onMessage`).
-/
import AirLink.Link.Station
import AirLink.Link.Switch
import AirLink.Sync.Judge

namespace AirLink

/-- The server's own state. -/
structure Server where
  assembly : Assembly
  /-- the number of the next advertisement of the session -/
  advertised : Nat
  sessionStarted : Nat
  linkingStarted : Nat
  announcer : Announcer
  follower : Follower
  /-- what the client has to answer -/
  challenge : UInt32
  judge : Judge
  pendingReply : Option HandshakeMessage
  pendingTuneReply : Option Int32

namespace Server

def create (settings : Settings) : Server where
  assembly := .empty
  advertised := 0
  sessionStarted := 0
  linkingStarted := 0
  announcer := .ofDuration settings.switchDuration.toMicros
  follower := .idle
  challenge := 0
  judge := .ofTolerances settings.broadToleranceSeconds settings.fineToleranceMicros
  pendingReply := none
  pendingTuneReply := none

/-- The channel that a session is advertised on. -/
def channelOf (settings : Settings) (session : SessionId) : UInt8 :=
  settings.advertisingChannels.getD (session.toNat % settings.advertisingChannels.length) 0

/-- Starts to advertise another session. -/
def rotate (v : Server) (s : Station) (now : Nat) : Server × Station :=
  let (id, s) := s.drawHalfWord
  ({ v with assembly := .empty, advertised := 0, sessionStarted := now },
    ({ s with session := s.session.setId id }.tuneTo (channelOf s.settings id)).startDuplex now)

/-- Begins the search for a client. -/
def restart (v : Server) (s : Station) (now : Nat) : Server × Station :=
  let s := { s with session := s.session.reset }.resetLink now
  let v := { v with
    follower := .idle
    judge := v.judge.reset
    pendingReply := none
    pendingTuneReply := none }
  let (v, s) := v.rotate s now
  (v, s.setStage .awaiting now)

/-- Gives up an attempt to link. -/
def fail (v : Server) (s : Station) (now : Nat) : Turn Server :=
  let (v, s) := v.restart (s.count fun t => { t with failedAttempts := t.failedAttempts + 1 }) now
  ⟨v, s, 0⟩

/-- Sends the next advertisement, if it can be sent now. -/
def advertise (v : Server) (s : Station) (m : Moment) (now : Nat) : Server × Station :=
  let fragment := Fragment.of s.session.identity v.advertised
  let (ok, s) := s.trySendMessage m (.pairing (.sessionAvailable s.session.id fragment)) now
  (if ok then { v with advertised := v.advertised + 1 } else v, s)

/-! ## Ticks -/

/-- When another session is advertised. -/
def rotationAt (v : Server) (s : Station) : Nat :=
  v.sessionStarted + s.settings.sessionRotation.toMicros

def tickAwaiting (v : Server) (s : Station) (m : Moment) (now : Nat) : Turn Server :=
  let (v, s) := if v.rotationAt s ≤ now then v.rotate s now else (v, s)
  let (v, s) := v.advertise s m now
  ⟨v, s, min (s.slotDelay now) (v.rotationAt s - now)⟩

def tickPairing (v : Server) (s : Station) (m : Moment) (now : Nat) : Turn Server :=
  if s.settings.pairingTimeout.toMicros ≤ s.stageAge now then v.fail s now
  else match s.session.calculate with
    | .error _ => v.fail s now
    | .ok session =>
      let s := { s with session }
      if session.isReady then
        ⟨{ v with linkingStarted := now, announcer := v.announcer.start now },
          s.setStage .switchingToLinking now, 0⟩
      else
        -- the client keeps its timing aligned to the advertisements
        let (v, s) := v.advertise s m now
        ⟨v, s, 0⟩

/-- Announces the switch to linking, if it can be announced now. -/
def announce (v : Server) (s : Station) (m : Moment) (now : Nat) : Server × Station :=
  match v.announcer.timeRemaining (s.firstBit now (.handshake (.switchToLinking 0))) with
  | some remaining =>
    let (ok, s) := s.trySendMessage m (.handshake (.switchToLinking remaining)) now
    (if ok then { v with announcer := v.announcer.onRequestSent } else v, s)
  | none => (v, s)

def tickSwitchingToLinking (v : Server) (s : Station) (m : Moment) (now : Nat) : Turn Server :=
  let (outcome, announcer) := v.announcer.poll now
  let v := { v with announcer }
  match outcome with
  | .completed =>
    let (challenge, s) := s.drawWord
    ⟨{ v with challenge }, s.setStage .authenticating now, 0⟩
  | .failed => v.fail s now
  | .restarted | .pending =>
    let (v, s) := v.announce s m now
    ⟨v, s, min (s.slotDelay now) (v.announcer.deadline - now)⟩

def tickAuthenticating (v : Server) (s : Station) (m : Moment) (now : Nat) : Turn Server :=
  let (_, s) := s.trySendMessage m (.handshake (.authRequest v.challenge)) now
  ⟨v, s, s.slotDelay now⟩

def tickSyncing (v : Server) (s : Station) (m : Moment) (now : Nat) : Turn Server :=
  match v.pendingReply with
  | some reply =>
    let (ok, s) := s.trySendMessage m (.handshake reply) now
    ⟨if ok then { v with pendingReply := none } else v, s, s.slotDelay now⟩
  | none => ⟨v, s, s.slotDelay now⟩

/-- Acknowledges the switch to linked, if that is pending and can be sent
    now. -/
def acknowledge (v : Server) (s : Station) (m : Moment) (now : Nat) : Server × Station :=
  if v.follower.ackPending then
    let (ok, s) := s.trySendMessage m (.handshake .switchToLinkedAck) now
    (if ok then { v with follower := v.follower.onAckSent } else v, s)
  else (v, s)

def tickSwitchingToLinked (v : Server) (s : Station) (m : Moment) (now : Nat) : Turn Server :=
  if v.follower.isDue now then
    match s.enterLinked now 0 with
    | some s => ⟨v, s.count fun t => { t with clockQuality := 255 }, 0⟩
    | none => v.fail s now
  else
    let (v, s) := v.acknowledge s m now
    let slot := s.slotDelay now
    ⟨v, s, match v.follower.delay? now with
      | some d => min slot d
      | none => slot⟩

def tickLinked (v : Server) (s : Station) (m : Moment) (now : Nat) : Turn Server :=
  if s.timeoutAt ≤ now then
    let (v, s) := v.restart (s.count fun t => { t with linkLosses := t.linkLosses + 1 }) now
    ⟨v, s, 0⟩
  else
    let (sent, s) := s.linkedSend m now (v.pendingTuneReply.map .tuneReply)
    ⟨if sent then { v with pendingTuneReply := none } else v, s, s.linkedDelay now⟩

/-- Whether linking has taken too long. -/
def isLinkingOver (v : Server) (s : Station) (now : Nat) : Bool :=
  s.stage.isLinking && v.linkingStarted + s.settings.linkingTimeout.toMicros ≤ now

def tick (v : Server) (s : Station) (m : Moment) (now : Nat) : Turn Server :=
  let s := s.listen now
  if v.isLinkingOver s now then v.fail s now
  else match s.stage with
    | .awaiting => v.tickAwaiting s m now
    | .pairing => v.tickPairing s m now
    | .switchingToLinking => v.tickSwitchingToLinking s m now
    | .authenticating => v.tickAuthenticating s m now
    | .syncing => v.tickSyncing s m now
    | .switchingToLinked => v.tickSwitchingToLinked s m now
    | .linked => v.tickLinked s m now
    | .disabled | .booting => ⟨v, s, s.slotDelay now⟩

/-! ## Messages -/

/-- A client asks for the advertised session. -/
def onStartRequest (v : Server) (s : Station) (session : SessionId) (fragment : Fragment)
    (now : Nat) : Except Fault (Server × Station) :=
  if session ≠ s.session.id then .ok (v, s)
  else do
    let (identity, assembly) ← v.assembly.accept session fragment
    let v := { v with assembly }
    match identity with
    | none => return (v, s)
    | some identity =>
      match s.session.setPartner identity with
      | .ok session => return (v, { s with session }.setStage .pairing now)
      | .error _ => return ({ v with assembly := .empty }, s)

/-- The client answers the challenge and sends one of its own. -/
def onAuthReply (v : Server) (s : Station) (response challenge : UInt32) (now : Nat) :
    Server × Station :=
  match s.session.authResponse v.challenge Role.client.sendDirection,
      s.session.authResponse challenge Role.server.sendDirection with
  | .ok expected, .ok own =>
    if expected = response then
      let v := { v with pendingReply := some (.authAccepted own) }
      if s.stage = .authenticating then
        ({ v with judge := v.judge.reset }, s.setStage .syncing now)
      else (v, s)
    else (v, s.reject)
  | _, _ => (v, s)

/-- The client has its clock judged. -/
def onSyncRequest (v : Server) (phase : Phase) (sequence : UInt8) (estimate truth : LinkTime) :
    Server :=
  let (verdict, judge) := v.judge.judge phase estimate truth
  { v with
    judge
    pendingReply := some (.syncReply phase sequence verdict.error verdict.accepted) }

/-- The client announces the switch to linked, which counts once its clock is
    accepted. -/
def onSwitchToLinked (v : Server) (s : Station) (remaining : UInt32) (a : Arrival) (now : Nat) :
    Server × Station :=
  if v.judge.isSynced then
    ({ v with follower := .onRequest a.micros remaining }, s.setStage .switchingToLinked now)
  else (v, s)

/-- Takes a message, which counts in certain stages only. -/
def onMessage (v : Server) (s : Station) (message : Message) (a : Arrival) (now : Nat) :
    Except Fault (Server × Station) :=
  match s.stage, message with
  | .awaiting, .pairing (.startRequest session fragment) =>
    v.onStartRequest s session fragment now
  | .switchingToLinking, .handshake .switchToLinkingAck =>
    .ok ({ v with announcer := v.announcer.onAck }, s)
  | .authenticating, .handshake (.authReply response challenge)
  | .syncing, .handshake (.authReply response challenge) =>
    .ok (v.onAuthReply s response challenge now)
  | .syncing, .handshake (.syncRequest phase sequence estimate) =>
    .ok (v.onSyncRequest phase sequence estimate a.time, s)
  | .syncing, .handshake (.switchToLinked remaining)
  | .switchingToLinked, .handshake (.switchToLinked remaining) =>
    .ok (v.onSwitchToLinked s remaining a now)
  | .linked, .upkeep (.tuneRequest estimate) =>
    .ok ({ v with pendingTuneReply := some (estimate.errorTo a.time).toMicrosClamped }, s)
  | _, _ => .ok (v, s)

end Server
end AirLink
