import Cardwar.Codec
import Cardwar.Gateway.Reconnect
import Cardwar.Gateway.Routes
import Cardwar.Pkg.Pool

/-!
# Messages of clients

`ForwardRouter` wraps a client's bytes in an Envelope that names the connection
and the player it belongs to, and sends them to the backend the route table
has for the message id. `ResponseRouter` unwraps what a backend sends and hands
it to one client or to all of them. Tags in an answer become properties of the
client's connection, and the gateway then saves them in the session.
-/

namespace Cardwar.Gateway.Client

open Protocol Codec Reconnect
open Wire (Bytes)
open Strconv (parseInt formatInt formatUint)

/-- What a client sends. The length of a slice is an int. -/
structure Message where
  msgID : UInt32
  data : Bytes
  isInt : data.length < 2 ^ 63

structure ToClient where
  conn : UInt64
  msgID : UInt32
  data : Bytes
  deriving DecidableEq

def format : Property → String
  | .int64 n => formatInt n
  | .string s => s

def resolveRouteKey (c : UInt64) (conn : Conn) (route : BackendRouteInfo) : String :=
  let key := route.routeKey
  if key = "" ∨ key = "connId" then formatUint c
  else match conn.properties.load key with
    | some val => format val
    | none => formatUint c

def sendError (c : UInt64) (reqMsgID : UInt32) (now : Int64) : ToClient :=
  let errMsg := "service unavailable: backend offline"
  if reqMsgID = msgIdChatReq then
    ⟨c, msgIdChatResp,
      marshalChatResp { senderPlayerId := -1, content := errMsg, timestamp := now }⟩
  else if reqMsgID = msgIdMatchEnterReq then
    ⟨c, msgIdMatchEnterResp, Wire.fields [(1, .len (utf8 "error"))]⟩
  else if reqMsgID = msgIdMatchAllocateReq then
    ⟨c, msgIdMatchAllocateResp, Wire.fields [(3, .len (utf8 errMsg))]⟩
  else if reqMsgID = msgIdMatchQueryReq then ⟨c, msgIdMatchQueryResp, []⟩
  else if reqMsgID = msgIdRoomJoinReq then
    ⟨c, msgIdRoomJoinResp, Wire.fields [(4, .len (utf8 errMsg))]⟩
  else if reqMsgID = msgIdRoomLeaveReq then
    ⟨c, msgIdRoomLeaveResp, Wire.fields [(2, .len (utf8 errMsg))]⟩
  else ⟨c, reqMsgID + 1, []⟩

inductive Forwarded
  | dropped
  | failed (reply : ToClient)
  | sent (conn : Pkg.Conn) (msgID : UInt32) (data : Bytes)
  deriving DecidableEq

/-- The Envelope around a client's bytes. The player id is read as an int64; a
property of another type panics, which ends the handler. -/
def wrap (c : UInt64) (conn : Conn) (data : Bytes) : Option Bytes :=
  match conn.properties.load propPlayerID with
  | none => some (marshalEnvelope c data [])
  | some (.int64 pid) => some (marshalEnvelope c data [(tagPlayerID, formatInt pid)])
  | some (.string _) => none

/-- `ForwardRouter.Handle` -/
def forward (gw : GatewayServer) (reg : Pkg.Registry) (intn : Nat) (now : Int64) (c : UInt64)
    (conn : Conn) (msgID : UInt32) (data : Bytes) : Forwarded :=
  match routeFor gw msgID with
  | none => .dropped
  | some route =>
    let routeKey := resolveRouteKey c conn route
    if routeKey = "" then .dropped
    else match wrap c conn data with
    | none => .dropped
    | some envData => match reg.routeTo intn route.backend routeKey with
      | none => .failed (sendError c msgID now)
      | some backend => .sent backend msgID envData

theorem length_wrap (h : wrap c conn data = some envData) : envData.length ≤ 200 + data.length := by
  unfold wrap at h
  split at h <;> cases h
  next =>
    have hlen := length_marshalEnvelope c data []
    simp only [List.map_nil, List.sum_nil] at hlen
    omega
  next pid _ =>
    have hlen := length_marshalEnvelope c data [(tagPlayerID, formatInt pid)]
    have hentry := length_entry_formatInt tagPlayerID pid
    have hkey : (utf8 tagPlayerID).length = 9 := by decide +kernel
    simp only [List.map_cons, List.map_nil, List.sum_cons, List.sum_nil] at hlen
    omega

theorem forward_sent
    (h : forward gw reg intn now c conn msgID data = .sent backend msgID' envData) :
    msgID' = msgID ∧ wrap c conn data = some envData := by
  unfold forward at h
  split at h
  next => cases h
  next =>
    dsimp only at h
    split at h
    · cases h
    split at h
    next => cases h
    next hwrap =>
      split at h <;> cases h
      exact ⟨rfl, hwrap⟩

def toPlayerID : Property → Int64
  | .int64 n => n
  | .string s => parseInt s

def syncSessionTags (gw : String) (conn : Conn) (up : List String) : List Out :=
  match conn.properties.load propPlayerID with
  | none => []
  | some pidVal =>
    let player := toPlayerID pidVal
    let tags := collectTags conn
    if player = 0 ∨ tags = ∅ then []
    else sendSession up player msgIdSessionSave
      { playerId := player, gatewayId := gw, connTags := tags }

def applyConnTags (s : State) (c : UInt64) (conn : Conn) (tags : Tags) (up : List String) : State :=
  if tags = ∅ then { s with outbox := [] }
  else
    let conn := { conn with properties := conn.properties.storeAll (tags.mapVal .string) }
    { s with
      conns := s.conns.store c conn
      playerConns := match tags.load propPlayerID with
        | some pid => s.playerConns.store (parseInt pid) c
        | none => s.playerConns
      outbox := syncSessionTags s.id conn up }

def handleResponse (s : State) (msgID : UInt32) (env : Envelope) (up : List String) :
    State × Multiset ToClient :=
  let target := env.connTags.get tagTargetPlayerID
  if target ≠ "" then
    ({ s with outbox := [] }, match s.playerConns.load (parseInt target) with
      | none => 0
      | some c => if (s.conns.load c).isSome then {⟨c, msgID, env.data⟩} else 0)
  else if env.connId ≠ 0 then
    match s.conns.load env.connId with
    | none => ({ s with outbox := [] }, 0)
    | some conn =>
      (applyConnTags s env.connId conn env.connTags up, {⟨env.connId, msgID, env.data⟩})
  -- conn_id=0 means broadcast to all clients
  else ({ s with outbox := [] }, s.conns.keys.val.map fun c => ⟨c, msgID, env.data⟩)

/-- `ResponseRouter.Handle` -/
def responseRouter (s : State) (msgID : UInt32) (data : Bytes) (up : List String) :
    State × Multiset ToClient :=
  match decodeEnvelope data with
  | .error _ => ({ s with outbox := [] }, 0)
  | .ok env => handleResponse s msgID env up

inductive Event
  | conn (ev : Reconnect.Event)
  | response (msgID : UInt32) (data : Bytes) (up : List String)

def step (s : State) : Event → Option State
  | .conn ev => Reconnect.step s ev
  | .response msgID data up => some (responseRouter s msgID data up).1

end Cardwar.Gateway.Client
