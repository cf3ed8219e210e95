import Cardwar.Lib.SyncMap

/-!
# Messages

Message ids, the well-known property and tag keys, and the protobuf messages
the services exchange. A `map<string, string>` field is a finite map here; the
Go field it decodes into is nil when the map is empty (`goTags`).
-/

namespace Cardwar.Protocol

def msgIdPing : UInt32 := 1
def msgIdPong : UInt32 := 2
def msgIdChatReq : UInt32 := 5
def msgIdChatResp : UInt32 := 6
def msgIdMatchEnterReq : UInt32 := 11
def msgIdMatchEnterResp : UInt32 := 12
def msgIdMatchResultPush : UInt32 := 13
def msgIdRoomJoinReq : UInt32 := 14
def msgIdRoomJoinResp : UInt32 := 15
def msgIdRoomLeaveReq : UInt32 := 16
def msgIdRoomLeaveResp : UInt32 := 17
def msgIdMatchAllocateReq : UInt32 := 18
def msgIdMatchAllocateResp : UInt32 := 19
def msgIdMatchQueryReq : UInt32 := 20
def msgIdMatchQueryResp : UInt32 := 21
def msgIdRoomDestroyedPush : UInt32 := 22
def msgIdRoomEventPush : UInt32 := 23
def msgIdServiceIdentity : UInt32 := 1001
def msgIdSessionSave : UInt32 := 1002
def msgIdSessionGet : UInt32 := 1003
def msgIdSessionDisconnect : UInt32 := 1004
def msgIdSessionReconnect : UInt32 := 1005
def msgIdSessionForceLeave : UInt32 := 1006
def msgIdSessionForceLeaveQueue : UInt32 := 1007
def msgIdSessionReconnected : UInt32 := 1008
def msgIdServiceHello : UInt32 := 1009
def msgIdSessionInvalidate : UInt32 := 1010

def propPlayerID : String := "playerId"

def tagPlayerID : String := "player_id"
def tagTargetPlayerID : String := "target_player_id"
def tagRoomSvrID : String := "room_server_id"
def tagMatchID : String := "match_id"
def tagMatchType : String := "match_type"
def tagSenderID : String := "sender_id"

/-- The tags the gateway syncs to SessionSvr. -/
def syncTagKeys : List String := [tagRoomSvrID, tagMatchID, tagMatchType]

abbrev Tags := SyncMap String String

/-- Reading a missing key of a Go map gives the zero value. -/
def Tags.get (tags : Tags) (key : String) : String := (tags.load key).getD ""

/-- The Go map a decoded map field leaves in its message: nil when empty. -/
def goTags (tags : Tags) : Option Tags := if tags = ∅ then none else some tags

def tag (key value : String) : Tags := (∅ : Tags).store key value

structure SessionData where
  playerId : Int64
  gatewayId : String := ""
  connTags : Tags := ∅
  disconnectedAt : Int := 0
  deriving DecidableEq

structure ServiceHello where
  service : String
  msgIds : List UInt32
  sendMsgIds : List UInt32
  deriving DecidableEq

end Cardwar.Protocol
