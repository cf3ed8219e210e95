import Cardwar.Gateway.Routes
import Cardwar.Pkg.Sync

/-!
# Hot reload

`New` dials a pool for every backend in `gateway.routes`. A reload synchronises
the pools of the backends in the new configuration and closes the others; but
`SyncBackend` returns when there is no pool, so a backend that was not there
before gets none. `poolsMatch_iff` says which reloads that concerns.

The pools `CleanupBackends` drops are closed; nothing refers to them after.
-/

namespace Cardwar.Gateway.Reload

open Conf
open Pkg (Registry SyncCall routeFuncFor)
open Run (Along total)

/-- `call` has the orders and outcomes of the pool's `Sync`. -/
def syncBackend (reg : Registry) (service : String) (servers : List ServerNode)
    (routeFn : Pkg.RouteFunc) (call : SyncCall) : Registry :=
  match reg.backends.load service with
  | none => reg
  | some pool =>
    { reg with
      backends := reg.backends.store service (Pkg.sync pool { call with servers, routeFn }) }

def cleanupBackends (reg : Registry) (keep : List String) : Registry :=
  { reg with backends := reg.backends.filterKeys (· ∈ keep) }

def Holds (reg : Registry) (service : String) : Prop := service ∈ reg.backends.keys

theorem holds_dial : Holds (reg.dial service servers routeFn) b ↔ b = service ∨ Holds reg b := by
  simp only [Holds, Registry.dial, SyncMap.mem_keys, SyncMap.load_store]
  split
  next h => simp [h]
  next h => simp [h]

theorem holds_syncBackend :
    Holds (syncBackend reg service servers routeFn call) b ↔ Holds reg b := by
  unfold syncBackend
  split
  next => rfl
  next pool hpool =>
    simp only [Holds, SyncMap.mem_keys, SyncMap.load_store]
    split
    next h => simp [h, hpool]
    next => rfl

theorem holds_cleanupBackends : Holds (cleanupBackends reg keep) b ↔ b ∈ keep ∧ Holds reg b := by
  simp only [Holds, cleanupBackends, SyncMap.mem_keys, SyncMap.load_filterKeys]
  split
  next h => simp [h]
  next h => simp [h]

structure State where
  gw : GatewayServer
  registry : Registry
  config : Config

structure Loaded where
  config : Config
  calls : String → SyncCall
  sessionCall : SyncCall

def dialRoute (cfg : Config) (reg : Registry) (route : String × BackendRoute) : Registry :=
  reg.dial route.1 (cfg.servers route.1) (routeFuncFor route.2.routeType)

def syncRoute (loaded : Loaded) (reg : Registry) (route : String × BackendRoute) : Registry :=
  syncBackend reg route.1 (loaded.config.servers route.1) (routeFuncFor route.2.routeType)
    (loaded.calls route.1)

def new (cfg : Config) : State :=
  let reg := cfg.gateway.routes.foldl (dialRoute cfg) { identity := svcGateway }
  { gw := Gateway.new cfg.gateway
    registry := reg.dial svcSessionSvr (cfg.servers svcSessionSvr) .hash
    config := cfg }

/-- The hot-reload callback. -/
def onReload (s : State) (loaded : Loaded) : State :=
  let cfg := loaded.config
  let reg := cfg.gateway.routes.foldl (syncRoute loaded) s.registry
  let reg := syncBackend reg svcSessionSvr (cfg.servers svcSessionSvr) .hash loaded.sessionCall
  { gw := hotReload s.gw cfg.gateway
    registry := cleanupBackends reg (cfg.gateway.backends ++ [svcSessionSvr])
    config := cfg }

/-- There is a pool for exactly the configured backends and SessionSvr, and no
route names a backend without one. -/
structure PoolsMatch (s : State) : Prop where
  pools : ∀ b, Holds s.registry b ↔ b ∈ s.config.gateway.backends ∨ b = svcSessionSvr
  routes : ∀ m r, routeFor s.gw m = some r → Holds s.registry r.backend

/-- The new configuration has no backend that the one before did not have. -/
def NoNewBackend (s : State) (loaded : Loaded) : Prop :=
  ∀ b ∈ loaded.config.gateway.backends, b ∈ s.config.gateway.backends ∨ b = svcSessionSvr

theorem holds_dialRoutes (cfg : Config) (routes : List (String × BackendRoute)) (reg : Registry) :
    Holds (routes.foldl (dialRoute cfg) reg) b ↔ b ∈ routes.map Prod.fst ∨ Holds reg b := by
  induction routes generalizing reg with
  | nil => simp
  | cons route routes ih =>
    rw [List.foldl_cons, ih, dialRoute, holds_dial, List.map_cons, List.mem_cons]
    tauto

theorem holds_syncRoutes (loaded : Loaded) (routes : List (String × BackendRoute))
    (reg : Registry) :
    Holds (routes.foldl (syncRoute loaded) reg) b ↔ Holds reg b := by
  induction routes generalizing reg with
  | nil => rfl
  | cons route routes ih => rw [List.foldl_cons, ih, syncRoute, holds_syncBackend]

theorem holds_new (cfg : Config) :
    Holds (new cfg).registry b ↔ b ∈ cfg.gateway.backends ∨ b = svcSessionSvr := by
  have hempty : ¬ Holds { identity := svcGateway } b := by simp [Holds]
  rw [new, holds_dial, holds_dialRoutes, or_iff_left hempty, or_comm]
  rfl

theorem holds_onReload (s : State) (loaded : Loaded) :
    Holds (onReload s loaded).registry b ↔
      (b ∈ loaded.config.gateway.backends ∨ b = svcSessionSvr) ∧ Holds s.registry b := by
  rw [onReload, holds_cleanupBackends, holds_syncBackend, holds_syncRoutes, List.mem_append,
    List.mem_singleton]

theorem backends_onReload (h : ∀ b, b ∈ s.gw.backends ↔ Holds s.registry b) (loaded : Loaded) :
    ∀ b, b ∈ (onReload s loaded).gw.backends ↔ Holds (onReload s loaded).registry b := by
  intro b
  rw [holds_onReload, ← h b, onReload, hotReload, List.mem_filter, and_comm]
  simp

theorem backends_reloads (cfg : Config) (reloads : List Loaded) (b : String) :
    b ∈ (reloads.foldl onReload (new cfg)).gw.backends ↔
      Holds (reloads.foldl onReload (new cfg)).registry b := by
  have h0 : ∀ b, b ∈ (new cfg).gw.backends ↔ Holds (new cfg).registry b := by
    intro b
    rw [holds_new]
    simp [new, Gateway.new]
  have hany : Along (total onReload) (fun _ _ => True) (new cfg) reloads :=
    Run.along_of_forall (fun _ _ _ => trivial) _
  exact Run.total_invariant (P := fun s => ∀ b, b ∈ s.gw.backends ↔ Holds s.registry b)
    (fun _ loaded h _ => backends_onReload h loaded) h0 hany b

theorem backend_of_route (h : (buildRouteIndex cfg).1.load m = some r) :
    r.backend ∈ cfg.backends := by
  obtain ⟨pre, rc, post, heq, -⟩ := (buildRouteIndex_backend cfg).mp ⟨r, h, rfl⟩
  rw [GatewayConfig.backends, heq]
  simp

def Indexed (s : State) : Prop := s.gw.routes = (buildRouteIndex s.config.gateway).1

theorem poolsMatch_of_pools (hi : Indexed s)
    (h : ∀ b, Holds s.registry b ↔ b ∈ s.config.gateway.backends ∨ b = svcSessionSvr) :
    PoolsMatch s := by
  refine ⟨h, fun m r hr => (h r.backend).mpr (.inl ?_)⟩
  rw [routeFor, hi] at hr
  exact backend_of_route hr

theorem poolsMatch_onReload (h : PoolsMatch s) :
    PoolsMatch (onReload s loaded) ↔ NoNewBackend s loaded := by
  constructor
  · intro h' b hb
    exact (h.pools b).mp ((holds_onReload s loaded).mp ((h'.pools b).mpr (.inl hb))).2
  · intro hno
    refine poolsMatch_of_pools rfl fun b => ?_
    rw [holds_onReload]
    refine and_iff_left_of_imp fun hb => (h.pools b).mpr ?_
    exact hb.elim (hno b) .inr

/-- After the start and after every reload there is a pool for exactly the
configured backends and SessionSvr, exactly if no reload adds a backend. -/
theorem poolsMatch_iff (cfg : Config) (reloads : List Loaded) :
    (∀ pre, pre <+: reloads → PoolsMatch (pre.foldl onReload (new cfg))) ↔
      Along (total onReload) NoNewBackend (new cfg) reloads := by
  have h0 : PoolsMatch (new cfg) := poolsMatch_of_pools rfl fun b => holds_new cfg
  exact Run.prefixes_iff (I := fun _ => True) (fun _ _ _ => trivial)
    (fun _ _ _ h => poolsMatch_onReload h)
    trivial h0

def chatOnly : Config where
  services :=
    ((∅ : SyncMap String (List ServerNode)).store svcChatSvr [⟨"cs-1", "0.0.0.0:8001"⟩]).store
    svcSessionSvr [⟨"sessionsvr-1", "0.0.0.0:8008"⟩]
  gateway :=
    { routes := [(svcChatSvr, { routeKey := "playerId", routeType := "hash" })]
      distinct := by decide }

def matchAdded : Config where
  services := chatOnly.services.store svcMatchSvr [⟨"matchsvr-1", "0.0.0.0:8004"⟩]
  gateway :=
    { routes := chatOnly.gateway.routes ++ [(svcMatchSvr,
        { forward := [Protocol.msgIdMatchEnterReq], routeKey := "connId", routeType := "hash" })]
      distinct := by decide }

def matchLoaded : Loaded where
  config := matchAdded
  calls service := Pkg.callFor ⟨[], .hash⟩ (matchAdded.servers service) .hash fun _ => .connects
  sessionCall := Pkg.callFor ⟨[], .hash⟩ (matchAdded.servers svcSessionSvr) .hash fun _ => .connects

/-- MatchSvr has a route and no pool. -/
theorem matchLoaded_no_pool :
    svcMatchSvr ∈ (onReload (new chatOnly) matchLoaded).config.gateway.backends ∧
      routeFor (onReload (new chatOnly) matchLoaded).gw Protocol.msgIdMatchEnterReq =
        some ⟨svcMatchSvr, "connId", "hash"⟩ ∧
      ¬ Holds (onReload (new chatOnly) matchLoaded).registry svcMatchSvr ∧
      ¬ PoolsMatch (onReload (new chatOnly) matchLoaded) := by
  have hroute : routeFor (onReload (new chatOnly) matchLoaded).gw Protocol.msgIdMatchEnterReq =
      some ⟨svcMatchSvr, "connId", "hash"⟩ := by decide
  have hnone : ¬ Holds (onReload (new chatOnly) matchLoaded).registry svcMatchSvr := by
    rw [holds_onReload, holds_new]
    decide
  exact ⟨by decide, hroute, hnone, fun h => hnone (h.routes _ _ hroute)⟩

end Cardwar.Gateway.Reload
