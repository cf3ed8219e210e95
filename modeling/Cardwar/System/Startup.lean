import Cardwar.Gateway.Routes
import Cardwar.MatchSvr.Router
import Cardwar.Pkg.Routers
import Cardwar.RoomSvr.Router

/-!
# A gateway and its ChatSvrs

`Dial` starts a client for every ChatSvr of the configuration, and the Registry
has the pool once `Dial` returned. A ChatSvr answers the identity message of a
connection with a ServiceHello, which the gateway handles when it comes. If the
pool is not stored by then, or its entry does not hold the connection, the ids
ChatSvr sends get no router on the connection.
-/

namespace Cardwar.System.Startup

open Conf Protocol Gateway
open MatchSvr (matchHello)
open Pkg (dialing)
open Pkg.Routers (backendRouters addConnectionRouter)
open RoomSvr (roomHello)
open Run (run)

structure State (S : Type) where
  gw : GatewayServer
  entries : S → Pkg.Routers.State

inductive Event (S : Type)
  /-- `Registry.Dial` stores the pool of a service. -/
  | stored (service : String)
  | entry (s : S) (ev : Pkg.Event)
  /-- The hello of a ChatSvr comes in on the connection of an attempt. -/
  | chatHello (s : S) (k : Nat)
  | matchHello
  | roomHello

variable {S : Type}

/-- `New`, before it dials. -/
def init (cfg : GatewayConfig) (node : S → ServerNode) : State S where
  gw := { new cfg with backends := [] }
  entries s := Pkg.Routers.start (dialing (node s)) backendRouters

-- Nothing follows a panic of `AddRouter`.
def addConnectionRouters (e : Pkg.Routers.State) (k : Nat) (msgIDs : List UInt32) :
    Pkg.Routers.State :=
  msgIDs.foldl (fun e msgID => if e.locked then e else addConnectionRouter e k msgID) e

def step [DecidableEq S] (st : State S) : Event S → Option (State S)
  | .stored service => some { st with gw := { st.gw with backends := st.gw.backends ++ [service] } }
  | .entry s ev => (Pkg.Routers.step (st.entries s) (.entry ev)).map fun e =>
      { st with entries := Function.update st.entries s e }
  | .chatHello s k =>
    let (gw, msgIDs) := handleHello st.gw Gateway.chatHello
    some
      { gw
        entries := Function.update st.entries s (addConnectionRouters (st.entries s) k msgIDs) }
  | .matchHello => some { st with gw := (handleHello st.gw MatchSvr.matchHello).1 }
  | .roomHello => some { st with gw := (handleHello st.gw RoomSvr.roomHello).1 }

/-- What ResponseRouter is registered for on the current connection to a ChatSvr. -/
def State.responses (st : State S) (s : S) : List UInt32 :=
  match (st.entries s).entry.conn with
  | none => []
  | some k => ((st.entries s).addedTo k).filter (· ∉ backendRouters)

/-- A gateway that forwards ChatReq sends it to ChatSvr, as `cfg` says. -/
structure RoutesChat (cfg : BackendRouteCfg) (gw : GatewayServer) : Prop where
  config : gw.backendCfgs.load svcChatSvr = some cfg
  router : msgIdChatReq ∈ gw.routers ↔ registered gw msgIdChatReq = true
  routed : registered gw msgIdChatReq = true →
    routeFor gw msgIdChatReq = some ⟨svcChatSvr, cfg.routeKey, cfg.routeType⟩

theorem mem_routers_registerForward (gw : GatewayServer) (msgID : UInt32) :
    m ∈ (registerForward service cfg gw msgID).routers ↔
      m ∈ gw.routers ∨ registered gw msgID = false ∧ m = msgID := by
  unfold registerForward
  split
  next h => simp [h]
  next h => simp [h]

theorem backendCfgs_registerForward (gw : GatewayServer) (msgID : UInt32) :
    (registerForward service cfg gw msgID).backendCfgs = gw.backendCfgs := by
  unfold registerForward
  split <;> rfl

theorem routesChat_registerForward (h : RoutesChat cfg gw)
    (hown : msgID = msgIdChatReq → service = svcChatSvr ∧ own = cfg) :
    RoutesChat cfg (registerForward service own gw msgID) where
  config := (backendCfgs_registerForward gw msgID).symm ▸ h.config
  router := by
    rw [mem_routers_registerForward, registered_registerForward, h.router]
    by_cases hid : msgIdChatReq = msgID
    · subst hid
      cases registered gw msgIdChatReq <;> simp
    · simp [hid]
  routed := by
    rw [registered_registerForward, routes_registerForward]
    intro hreg
    split
    next hnew =>
      obtain ⟨rfl, rfl⟩ := hown hnew.2.symm
      rfl
    next hold =>
      refine h.routed ?_
      rcases Bool.or_eq_true_iff.mp hreg with hreg | hid
      · exact hreg
      · by_contra hnot
        exact hold ⟨Bool.eq_false_iff.mpr hnot, of_decide_eq_true hid⟩

theorem routesChat_hello (h : RoutesChat cfg gw) (hello : ServiceHello)
    (hown : msgIdChatReq ∈ hello.msgIds → hello.service = svcChatSvr) :
    RoutesChat cfg (handleHello gw hello).1 := by
  unfold handleHello
  split
  next => exact h
  next own hcfg =>
    refine List.foldlRecOn hello.msgIds _ h fun gw' h' msgID hmem => ?_
    refine routesChat_registerForward h' fun hid => ?_
    have hservice := hown (hid ▸ hmem)
    exact ⟨hservice, Option.some.inj (hcfg.symm.trans (hservice ▸ h.config))⟩

theorem registered_chatHello (h : RoutesChat cfg gw) :
    registered (handleHello gw Gateway.chatHello).1 msgIdChatReq = true := by
  simp [handleHello, Gateway.chatHello, h.config, registered_registerForward]

structure Inv (cfg : BackendRouteCfg) (st : State S) : Prop where
  routes : RoutesChat cfg st.gw
  entries : ∀ s, Pkg.Routers.Inv (st.entries s)
  /-- A ChatSvr whose ChatResps have a router has announced ChatReq too. -/
  announced : ∀ s, msgIdChatResp ∈ (st.entries s).routers → registered st.gw msgIdChatReq = true

theorem inv_addConnectionRouters (h : Pkg.Routers.Inv e) (k : Nat) (msgIDs : List UInt32) :
    Pkg.Routers.Inv (addConnectionRouters e k msgIDs) := by
  refine List.foldlRecOn msgIDs _ h fun e' h' msgID _ => ?_
  split
  next => exact h'
  next hlocked => exact Pkg.Routers.inv_addConnectionRouter h' (Bool.eq_false_iff.mpr hlocked) msgID

theorem inv_hello (h : Inv cfg st) (hello : ServiceHello) (hown : msgIdChatReq ∉ hello.msgIds) :
    Inv cfg { st with gw := (handleHello st.gw hello).1 } where
  routes := routesChat_hello h.routes hello fun hmem => absurd hmem hown
  entries := h.entries
  announced s hmem := ((handleHello_route st.gw hello msgIdChatReq).1 (h.announced s hmem)).1

theorem inv_step [DecidableEq S] {st st' : State S} (h : Inv cfg st) (hs : step st ev = some st') :
    Inv cfg st' := by
  cases ev with
  | stored service =>
    obtain rfl := Option.some.inj hs
    exact ⟨⟨h.routes.config, h.routes.router, h.routes.routed⟩, h.entries, h.announced⟩
  | entry s ev =>
    obtain ⟨e, he, rfl⟩ := Option.map_eq_some_iff.mp hs
    have hinv := Pkg.Routers.inv_step (h.entries s) he
    have hrouters : e.routers = (st.entries s).routers := by
      unfold Pkg.Routers.step at he
      split at he
      next => cases he
      next =>
        obtain ⟨entry, -, rfl⟩ := Option.map_eq_some_iff.mp he
        rfl
    refine ⟨h.routes, ?_, ?_⟩
    · exact (Function.forall_update_iff st.entries fun _ => Pkg.Routers.Inv).mpr
        ⟨hinv, fun s' _ => h.entries s'⟩
    · refine (Function.forall_update_iff st.entries fun _ e => msgIdChatResp ∈ e.routers →
        _).mpr ⟨?_, ?_⟩
      · exact hrouters ▸ h.announced s
      · exact fun s' _ => h.announced s'
  | chatHello s k =>
    obtain rfl := Option.some.inj hs
    refine ⟨routesChat_hello h.routes Gateway.chatHello fun _ => rfl, ?_,
      fun _ _ => registered_chatHello h.routes⟩
    refine (Function.forall_update_iff st.entries fun _ => Pkg.Routers.Inv).mpr
      ⟨?_, fun s' _ => h.entries s'⟩
    exact inv_addConnectionRouters (h.entries s) k _
  | matchHello =>
    obtain rfl := Option.some.inj hs
    exact inv_hello h matchHello (by decide)
  | roomHello =>
    obtain rfl := Option.some.inj hs
    exact inv_hello h roomHello (by decide)

theorem inv_init (hcfg : (buildRouteIndex cfg).2.load svcChatSvr = some own)
    (node : S → ServerNode) :
    Inv own (init cfg node) := by
  refine ⟨⟨hcfg, ?_, ?_⟩, fun s => Pkg.Routers.inv_start rfl backendRouters, fun s hmem => ?_⟩
  · exact iff_of_false (by decide : msgIdChatReq ∉ [msgIdPing]) (by simp [init, new, registered])
  · simp [init, new, registered]
  · exact absurd hmem (by decide : msgIdChatResp ∉ backendRouters)

theorem inv_run [DecidableEq S] {node : S → ServerNode}
    (hcfg : (buildRouteIndex cfg).2.load svcChatSvr = some own)
    (hr : run step (init cfg node) evs = some st) : Inv own st :=
  Run.invariant (fun _ _ _ h (_ : True) hs => inv_step h hs) (inv_init hcfg node)
    (Run.along_of_forall (fun _ _ _ => trivial) _) hr

theorem registered_of_responses (h : Inv cfg st) (hmem : msgIdChatResp ∈ st.responses s) :
    registered st.gw msgIdChatReq = true := by
  unfold State.responses at hmem
  split at hmem
  next => cases hmem
  next k hk => exact h.announced s ((h.entries s).listed k _ (List.mem_filter.mp hmem).1)

end Cardwar.System.Startup
