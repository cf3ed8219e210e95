import Cardwar.Codec
import Cardwar.Conf

/-!
# ChatSvr's router

ChatRouter turns a player's ChatReq into a ChatResp for everybody or for one
player. The broadcaster does not know where a player is: it sends to every
connection that identified itself as a gateway's, and an Envelope says which
clients it is for. The connection id 0 means all of them, a tag one player, and
any other id one connection of the gateway asked.
-/

namespace Cardwar.ChatSvr

open Conf Protocol Codec
open Wire (Bytes)
open Strconv (parseInt formatInt)

abbrev Conns := SyncMap UInt64 Bytes

structure Push where
  conn : UInt64
  msgID : UInt32
  data : Bytes
  deriving DecidableEq

def gatewayConns (conns : Conns) : Finset UInt64 :=
  conns.keys.filter fun c => conns.load c = some (utf8 svcGateway)

def sendToAll (conns : Conns) (msgID : UInt32) (data : Bytes) : Multiset Push :=
  (gatewayConns conns).val.map fun c => ⟨c, msgID, data⟩

def toAll (conns : Conns) (msgID : UInt32) (payload : Bytes) : Multiset Push :=
  sendToAll conns msgID (marshalEnvelope 0 payload [])

def toPlayer (conns : Conns) (msgID : UInt32) (targetPlayerID : Int64) (payload : Bytes) :
    Multiset Push :=
  sendToAll conns msgID (marshalEnvelope 0 payload [(tagTargetPlayerID, formatInt targetPlayerID)])

def toConn (msgID : UInt32) (connID : UInt64) (payload : Bytes) (gatewayConn : UInt64) : Push :=
  ⟨gatewayConn, msgID, marshalEnvelope connID payload []⟩

@[simp] theorem mem_gatewayConns (conns : Conns) (c : UInt64) :
    c ∈ gatewayConns conns ↔ conns.load c = some (utf8 svcGateway) := by
  simp only [gatewayConns, Finset.mem_filter, SyncMap.mem_keys, and_iff_right_iff_imp]
  intro h
  simp [h]

theorem mem_sendToAll (h : push ∈ sendToAll conns msgID data) :
    push.msgID = msgID ∧ push.data = data := by
  obtain ⟨c, -, rfl⟩ := Multiset.mem_map.mp h
  exact ⟨rfl, rfl⟩

/-- `ChatRouter.Handle` once both messages are decoded. -/
def respond (conns : Conns) (now : Int64) (conn : UInt64) (env : Envelope) (chatReq : ChatReq) :
    Multiset Push :=
  let senderPID := parseInt (env.connTags.get tagPlayerID)
  let pushData := marshalChatResp
    { senderPlayerId := senderPID
      content := chatReq.content
      timestamp := now
      targetPlayerId := chatReq.targetPlayerId }
  if chatReq.targetPlayerId ≠ 0 then
    toConn msgIdChatResp env.connId pushData conn ::ₘ
      toPlayer conns msgIdChatResp chatReq.targetPlayerId pushData
  else toAll conns msgIdChatResp pushData

def handle (conns : Conns) (now : Int64) (conn : UInt64) (data : Bytes) : Multiset Push :=
  match decodeEnvelope data with
  | .error _ => 0
  | .ok env => match decodeChatReq env.data with
    | .error _ => 0
    | .ok chatReq => respond conns now conn env chatReq

theorem respond_data (h : push ∈ respond conns now conn env chatReq) :
    push.msgID = msgIdChatResp ∧ ∃ connId order, push.data = marshalEnvelope connId
      (marshalChatResp ⟨parseInt (env.connTags.get tagPlayerID), chatReq.content, now,
        chatReq.targetPlayerId⟩) order := by
  unfold respond at h
  dsimp only at h
  split at h
  · rcases Multiset.mem_cons.mp h with rfl | h
    · exact ⟨rfl, env.connId, [], rfl⟩
    · exact ⟨(mem_sendToAll h).1, 0, _, (mem_sendToAll h).2⟩
  · exact ⟨(mem_sendToAll h).1, 0, [], (mem_sendToAll h).2⟩

end Cardwar.ChatSvr
