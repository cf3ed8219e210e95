import Cardwar.Lib.SyncMap

/-!
# Configuration

The parts of `config.yml` the gateway and the pools read. A Go map that the
code ranges over is the list of its entries in the order the loop visits them;
the order is arbitrary, the keys are distinct.
-/

namespace Cardwar.Conf

def svcGateway : String := "gateway"
def svcChatSvr : String := "chatsvr"
def svcMatchSvr : String := "matchsvr"
def svcRoomSvr : String := "roomsvr"
def svcSessionSvr : String := "sessionsvr"

structure BackendRoute where
  forward : List UInt32 := []
  routeKey : String
  routeType : String
  deriving DecidableEq

structure GatewayConfig where
  routes : List (String × BackendRoute)
  distinct : (routes.map Prod.fst).Nodup

def GatewayConfig.backends (cfg : GatewayConfig) : List String := cfg.routes.map Prod.fst

structure ServerNode where
  id : String
  listen : String
  deriving DecidableEq

structure Config where
  services : SyncMap String (List ServerNode)
  gateway : GatewayConfig

/-- A service that is not configured has no servers. -/
def Config.servers (cfg : Config) (service : String) : List ServerNode :=
  (cfg.services.load service).getD []

/-- The `gateway.routes` section of the shipped `config.yml`. -/
def shippedGateway : GatewayConfig where
  routes := [
    (svcChatSvr, { routeKey := "playerId", routeType := "hash" }),
    (svcMatchSvr, { routeKey := "connId", routeType := "hash" }),
    (svcRoomSvr, { routeKey := "room_server_id", routeType := "direct" })]
  distinct := by decide

def shippedRoomSvrs : List ServerNode :=
  [⟨"roomsvr-1", "0.0.0.0:8005"⟩, ⟨"roomsvr-2", "0.0.0.0:8006"⟩]

end Cardwar.Conf
