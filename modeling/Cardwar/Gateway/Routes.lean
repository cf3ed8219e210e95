import Cardwar.Conf
import Cardwar.Lib.Run
import Cardwar.Protocol

/-!
# The gateway's route table

Two handlers write the table: a `ServiceHello` adds the message ids a backend
announces, a configuration reload replaces the table by the one its `forward`
lists give. `fwdRegistered` remembers which ids were announced, and neither
handler forgets an id there. `routesLive_iff` says for which reloads an
announced id keeps its route.
-/

namespace Cardwar.Gateway

open Conf (GatewayConfig BackendRoute svcSessionSvr)
open Protocol (ServiceHello msgIdPing)
open Run (Along total)

structure BackendRouteInfo where
  backend : String
  routeKey : String
  routeType : String
  deriving DecidableEq

structure BackendRouteCfg where
  routeKey : String
  routeType : String
  deriving DecidableEq

structure GatewayServer where
  routes : SyncMap UInt32 BackendRouteInfo
  backendCfgs : SyncMap String BackendRouteCfg
  fwdRegistered : SyncMap UInt32 Bool
  /-- The names the embedded Registry holds a pool for. -/
  backends : List String
  /-- The message ids given to `Server.AddRouter`, in order. -/
  routers : List UInt32

abbrev RouteIndex := SyncMap UInt32 BackendRouteInfo

/-- One turn of the loop over a backend's `forward` list. -/
def indexForward (backend : String) (rc : BackendRoute) (routes : RouteIndex) (msgID : UInt32) :
    RouteIndex :=
  routes.store msgID ⟨backend, rc.routeKey, rc.routeType⟩

def buildRouteIndex (cfg : GatewayConfig) : RouteIndex × SyncMap String BackendRouteCfg :=
  (cfg.routes.foldl (fun routes p => p.2.forward.foldl (indexForward p.1 p.2) routes) ∅,
   cfg.routes.foldl (fun cfgs p => cfgs.store p.1 ⟨p.2.routeKey, p.2.routeType⟩) ∅)

def routeFor (gw : GatewayServer) (msgID : UInt32) : Option BackendRouteInfo := gw.routes.load msgID

def registered (gw : GatewayServer) (msgID : UInt32) : Bool :=
  (gw.fwdRegistered.load msgID).getD false

/-- What `New` leaves, up to the connections themselves: the pools it dialed and the
ping router of the client-facing server. A hello that comes before its pool is stored
is handled in `System.Startup`. -/
def new (cfg : GatewayConfig) : GatewayServer where
  routes := (buildRouteIndex cfg).1
  backendCfgs := (buildRouteIndex cfg).2
  fwdRegistered := ∅
  backends := cfg.backends ++ [svcSessionSvr]
  routers := [msgIdPing]

/-- The loop body of the hello handler. An id seen before is skipped, also
when its route is gone. -/
def registerForward (service : String) (cfg : BackendRouteCfg) (gw : GatewayServer)
    (msgID : UInt32) : GatewayServer :=
  if registered gw msgID then gw
  else { gw with
    fwdRegistered := gw.fwdRegistered.store msgID true
    routes := gw.routes.store msgID ⟨service, cfg.routeKey, cfg.routeType⟩
    routers := gw.routers ++ [msgID] }

/-- `ServiceHelloRouter.Handle`: the new state and the ids registered on the
backend's connection. -/
def handleHello (gw : GatewayServer) (hello : ServiceHello) : GatewayServer × List UInt32 :=
  match gw.backendCfgs.load hello.service with
  | none => (gw, [])
  | some cfg =>
    let gw := hello.msgIds.foldl (registerForward hello.service cfg) gw
    (gw, if hello.service ∈ gw.backends then hello.sendMsgIds else [])

/-- The hot-reload callback. `SyncBackend` changes existing pools only, so the
set of pools loses what `CleanupBackends` removes and gains nothing. -/
def hotReload (gw : GatewayServer) (cfg : GatewayConfig) : GatewayServer :=
  let (newIndex, backendCfgs) := buildRouteIndex cfg
  let keep := cfg.backends ++ [svcSessionSvr]
  { gw with backends := gw.backends.filter (· ∈ keep), backendCfgs, routes := newIndex }

/-- The `forward` lists give `m` to `b`: `b` lists it, and no backend the loop
visits after `b` does. -/
def ForwardsTo (routes : List (String × BackendRoute)) (m : UInt32) (b : String) : Prop :=
  ∃ pre rc post, routes = pre ++ (b, rc) :: post ∧ m ∈ rc.forward ∧ ∀ p ∈ post, m ∉ p.2.forward

theorem load_indexForward (ids : List UInt32) (routes : RouteIndex) :
    (ids.foldl (indexForward b rc) routes).load m =
      if m ∈ ids then some ⟨b, rc.routeKey, rc.routeType⟩ else routes.load m := by
  induction ids generalizing routes with
  | nil => simp
  | cons id ids ih =>
    rw [List.foldl_cons, ih]
    by_cases hm : m ∈ ids
    · simp [hm]
    · simp [hm, indexForward, SyncMap.load_store]

theorem forwardsTo_snoc : ForwardsTo (routes ++ [p]) m b ↔
    if m ∈ p.2.forward then p.1 = b else ForwardsTo routes m b := by
  constructor
  · rintro ⟨pre, rc, post, heq, hm, hpost⟩
    -- The listing backend is either the new last one or stands before it.
    rcases List.eq_nil_or_concat post with rfl | ⟨post, q, rfl⟩
    · obtain ⟨rfl, rfl⟩ := List.append_inj' heq rfl |>.imp id (List.singleton_inj.mp ·)
      simp [hm]
    · rw [List.concat_eq_append, ← List.cons_append, ← List.append_assoc] at heq
      obtain ⟨hinit, hlast⟩ := List.append_inj' heq rfl
      obtain rfl := List.singleton_inj.mp hlast
      have hq : m ∉ p.2.forward := hpost p (by simp)
      rw [if_neg hq]
      exact ⟨pre, rc, post, hinit, hm, fun x hx => hpost x (by simp [hx])⟩
  · intro h
    split at h
    next hm => exact ⟨routes, p.2, [], by simp [← h], hm, by simp⟩
    next hm =>
      obtain ⟨pre, rc, post, rfl, hrc, hpost⟩ := h
      refine ⟨pre, rc, post ++ [p], by simp, hrc, ?_⟩
      intro x hx
      rcases List.mem_append.mp hx with hx | hx
      · exact hpost x hx
      · exact List.mem_singleton.mp hx ▸ hm

theorem buildRouteIndex_backend (cfg : GatewayConfig) :
    (∃ r, (buildRouteIndex cfg).1.load m = some r ∧ r.backend = b) ↔ ForwardsTo cfg.routes m b := by
  simp only [buildRouteIndex]
  induction cfg.routes using List.reverseRecOn with
  | nil =>
    simp only [List.foldl_nil, SyncMap.load_empty, reduceCtorEq, false_and, exists_false, false_iff]
    rintro ⟨pre, rc, post, heq, -⟩
    simp at heq
  | append_singleton routes p ih =>
    rw [forwardsTo_snoc, List.foldl_append, List.foldl_cons, List.foldl_nil, load_indexForward]
    split
    · simp
    · exact ih

theorem registered_registerForward (gw : GatewayServer) (id : UInt32) :
    registered (registerForward service cfg gw id) m = (registered gw m || decide (m = id)) := by
  unfold registerForward
  split
  next h => by_cases hm : m = id <;> simp [hm, h]
  next h => by_cases hm : m = id <;> simp [registered, hm]

theorem routes_registerForward (gw : GatewayServer) (id : UInt32) :
    routeFor (registerForward service cfg gw id) m =
      if registered gw m = false ∧ m = id then some ⟨service, cfg.routeKey, cfg.routeType⟩
      else routeFor gw m := by
  unfold registerForward
  split
  next h => by_cases hm : m = id <;> simp [hm, h]
  next h => by_cases hm : m = id <;> simp [routeFor, hm, h]

theorem registerForward_foldl (service : String) (cfg : BackendRouteCfg) (m : UInt32)
    (ids : List UInt32) (gw : GatewayServer) :
    registered (ids.foldl (registerForward service cfg) gw) m =
        (registered gw m || decide (m ∈ ids)) ∧
      routeFor (ids.foldl (registerForward service cfg) gw) m =
        if registered gw m = false ∧ m ∈ ids then some ⟨service, cfg.routeKey, cfg.routeType⟩
        else routeFor gw m := by
  induction ids generalizing gw with
  | nil => simp
  | cons id ids ih =>
    obtain ⟨hreg, hroute⟩ := ih (registerForward service cfg gw id)
    simp only [List.foldl_cons, hreg, hroute, registered_registerForward, routes_registerForward]
    by_cases hm : m = id <;> cases registered gw m <;> simp [hm]

theorem handleHello_route (gw : GatewayServer) (hello : ServiceHello) (m : UInt32) :
    (registered gw m = true → registered (handleHello gw hello).1 m = true ∧
      routeFor (handleHello gw hello).1 m = routeFor gw m) ∧
    (registered gw m = false → registered (handleHello gw hello).1 m = true →
      ∃ r, routeFor (handleHello gw hello).1 m = some r ∧ r.backend = hello.service) := by
  unfold handleHello
  cases gw.backendCfgs.load hello.service with
  | none => exact ⟨fun h => ⟨h, rfl⟩, fun h h' => by simp [h] at h'⟩
  | some cfg =>
    obtain ⟨hreg, hroute⟩ := registerForward_foldl hello.service cfg m hello.msgIds gw
    refine ⟨fun h => ⟨by simp [hreg, h], by simp [hroute, h]⟩, fun h h' => ?_⟩
    have hm : m ∈ hello.msgIds := by simpa [hreg, h] using h'
    refine ⟨⟨hello.service, cfg.routeKey, cfg.routeType⟩, ?_, rfl⟩
    simp only [hroute, h, hm, and_self, ↓reduceIte]

inductive Event
  | hello (hello : ServiceHello)
  | reload (cfg : GatewayConfig)

/-- The server with what the run so far says about it: the configuration in
force, and for each message id the backend whose hello registered it. -/
structure History where
  gw : GatewayServer
  config : GatewayConfig
  owner : UInt32 → Option String

def start (cfg : GatewayConfig) : History := ⟨new cfg, cfg, fun _ => none⟩

def step (h : History) : Event → History
  | .hello hello =>
    let gw := (handleHello h.gw hello).1
    { h with
      gw
      owner := fun m => if registered gw m && !registered h.gw m then some hello.service
        else h.owner m }
  | .reload cfg => { h with gw := hotReload h.gw cfg, config := cfg }

/-- Every id a hello of a still configured backend registered is routed to
that backend. -/
def RoutesLive (h : History) : Prop :=
  ∀ m b, h.owner m = some b → b ∈ h.config.backends →
    ∃ r, routeFor h.gw m = some r ∧ r.backend = b

/-- A reload's `forward` lists give every id that a hello of a backend it keeps
registered to that backend. Hellos are free. -/
def ReloadLists (h : History) : Event → Prop
  | .hello _ => True
  | .reload cfg => ∀ m b, h.owner m = some b → b ∈ cfg.backends → ForwardsTo cfg.routes m b

theorem owner_registered_step (e : Event)
    (h : ∀ m b, s.owner m = some b → registered s.gw m = true) :
    ∀ m b, (step s e).owner m = some b → registered (step s e).gw m = true := by
  intro m b hb
  cases e with
  | hello hello =>
    simp only [step] at hb ⊢
    split at hb
    next hnew => simp_all
    next => exact ((handleHello_route s.gw hello m).1 (h m b hb)).1
  | reload cfg => exact h m b hb

theorem routesLive_hello (hello : ServiceHello)
    (hi : ∀ m b, s.owner m = some b → registered s.gw m = true) (h : RoutesLive s) :
    RoutesLive (step s (.hello hello)) := by
  intro m b hb hk
  simp only [step] at hb ⊢
  obtain ⟨hold, hnew⟩ := handleHello_route s.gw hello m
  split at hb
  next hreg =>
    simp only [Bool.and_eq_true, Bool.not_eq_eq_eq_not, Bool.not_true] at hreg
    exact Option.some.inj hb ▸ hnew hreg.2 hreg.1
  next => exact (hold (hi m b hb)).2 ▸ h m b hb hk

theorem routesLive_reload (cfg : GatewayConfig) :
    RoutesLive (step s (.reload cfg)) ↔ ReloadLists s (.reload cfg) := by
  refine forall_congr' fun m => forall_congr' fun b => ?_
  exact imp_congr_right fun _ => imp_congr_right fun _ => buildRouteIndex_backend cfg

/-- In a run every announced id keeps its route, in every state, exactly when
every reload lists the announced ids of the backends it keeps. -/
theorem routesLive_iff (cfg : GatewayConfig) (es : List Event) :
    (∀ pre, pre <+: es → RoutesLive (pre.foldl step (start cfg))) ↔
      Along (total step) ReloadLists (start cfg) es := by
  refine Run.prefixes_iff (I := fun s => ∀ m b, s.owner m = some b → registered s.gw m = true)
    (fun s e => owner_registered_step e) ?_ (by simp [start]) (by simp [RoutesLive, start])
  intro s e hi h
  cases e with
  | hello hello => exact ⟨fun _ => trivial, fun _ => routesLive_hello hello hi h⟩
  | reload cfg => exact routesLive_reload cfg

def chatHello : ServiceHello := ⟨Conf.svcChatSvr, [Protocol.msgIdChatReq], [Protocol.msgIdChatResp]⟩

def chatReload : History :=
  [.hello chatHello, .reload Conf.shippedGateway, .hello chatHello].foldl step
    (start Conf.shippedGateway)

/-- With the shipped configuration a reload takes the announced chat id off
the table, and the next hello does not bring it back. -/
theorem chatReload_drops_route :
    chatReload.owner Protocol.msgIdChatReq = some Conf.svcChatSvr ∧
      Conf.svcChatSvr ∈ chatReload.config.backends ∧
      registered chatReload.gw Protocol.msgIdChatReq = true ∧
      routeFor chatReload.gw Protocol.msgIdChatReq = none ∧ ¬ RoutesLive chatReload := by
  have hnone : routeFor chatReload.gw Protocol.msgIdChatReq = none := by decide
  refine ⟨by decide, by decide, by decide, hnone, fun h => ?_⟩
  obtain ⟨r, hr, -⟩ := h Protocol.msgIdChatReq Conf.svcChatSvr (by decide) (by decide)
  rw [hnone] at hr
  cases hr

end Cardwar.Gateway
