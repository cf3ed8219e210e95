import Cardwar.System.Identity
import Cardwar.System.Startup
import Mathlib

/-!
# Chat across gateways

A client's ChatReq goes through its gateway to one of the ChatSvrs, which sends
Envelopes to all gateways, and each gateway hands the ChatResp inside to its
clients, if ResponseRouter is registered for it on the connection. In a topology
where every gateway has one connection to every ChatSvr and every player's
connection is the one PlayerConns has, the ChatResp reaches exactly the
connections it is for, once, exactly if their gateways have registered it
(`chat_exact_iff`). A gateway that handles the ServiceHello of a ChatSvr before
Dial returned has not.
-/

namespace Cardwar.System.Chat

open Conf Protocol Codec Pkg Gateway Gateway.Reconnect Gateway.Client Gateway.PlayerConns
open ChatSvr (Push)
open Run (run)
open Wire (Bytes)
open Strconv (parseInt formatInt)

/-- Gateways `G` with their clients, ChatSvrs `S` and the connections between them. -/
structure Topology (G S : Type) [DecidableEq S] where
  config : G → GatewayConfig
  route : G → BackendRouteCfg
  servers : List S
  node : S → ServerNode
  gateway : G → Startup.State S
  clients : G → Reconnect.State
  conns : S → ChatSvr.Conns
  /-- The gateway at the other end of a ChatSvr's connection. -/
  peer : S → UInt64 → Option G
  /-- The number a gateway's connection has at the ChatSvr. -/
  link : G → S → UInt64
  configured : ∀ g, (buildRouteIndex (config g)).2.load svcChatSvr = some (route g)
  keyed : ∀ g, (route g).routeKey = "" ∨ (route g).routeKey = "connId" ∨
    (route g).routeKey = propPlayerID
  spread : ∀ g, routeFuncFor (route g).routeType ≠ .direct
  nonempty : servers ≠ []
  distinct : Function.Injective node
  started : ∀ g, ∃ evs, run Startup.step (Startup.init (config g) node) evs = some (gateway g)
  -- A gateway takes clients after it has dialed.
  dialed : ∀ g, svcChatSvr ∈ (gateway g).gw.backends
  connected : ∀ g s, ∃ k, (PoolEntry.mk (node s) ((gateway g).entries s).entry).healthyConn = some k
  linked : ∀ g s c, (conns s).load c = some (utf8 svcGateway) ∧ peer s c = some g ↔ c = link g s
  reached : ∀ g, Reached (clients g)
  nonzero : ∀ g, (clients g).conns.load 0 = none
  placed : ∀ g c conn p, (clients g).conns.load c = some conn → conn.auth = some p →
    (clients g).playerConns.load p = some c

variable {G S : Type} [DecidableEq S]

def pool (t : Topology G S) (g : G) : Pool :=
  ⟨t.servers.map fun s => ⟨t.node s, ((t.gateway g).entries s).entry⟩,
    routeFuncFor (t.route g).routeType⟩

def registry (t : Topology G S) (g : G) : Registry where
  backends := if svcChatSvr ∈ (t.gateway g).gw.backends then (∅ : SyncMap String Pool).store
    svcChatSvr (pool t g)
    else ∅
  identity := svcGateway

/-- The ChatSvr a pooled connection leads to. -/
def serverAt (t : Topology G S) (backend : Pkg.Conn) : Option S :=
  t.servers.find? (t.node · = backend.server)

/-- The ChatSvr the pool has for a client. -/
def chosen (t : Topology G S) (g : G) (intn : Nat) (c : UInt64) (conn : Reconnect.Conn) :
    Option S :=
  ((registry t g).routeTo intn svcChatSvr
    (resolveRouteKey c conn ⟨svcChatSvr, (t.route g).routeKey, (t.route g).routeType⟩)).bind
    (serverAt t)

/-- The ChatSvr a client's message gets to, and what it sends. -/
def send (t : Topology G S) (g : G) (intn : Nat) (now time : Int64) (c : UInt64)
    (conn : Reconnect.Conn) (msg : Message) : Option (S × Multiset Push) :=
  if msg.msgID ∈ (t.gateway g).gw.routers then
    match forward (t.gateway g).gw (registry t g) intn now c conn msg.msgID msg.data with
    | .sent backend _ envData =>
      (serverAt t backend).map fun s => (s, ChatSvr.handle (t.conns s) time (t.link g s) envData)
    | _ => none
  else none

/-- ResponseRouter is registered for ChatResp on a gateway's connection to a ChatSvr. -/
def Registered (t : Topology G S) (g : G) (s : S) : Prop :=
  msgIdChatResp ∈ (t.gateway g).responses s

instance (t : Topology G S) (g : G) (s : S) : Decidable (Registered t g s) :=
  inferInstanceAs (Decidable (_ ∈ _))

variable [DecidableEq G]

/-- A message of ChatSvr `s` arrives at the gateway it was sent to. -/
def arrive (t : Topology G S) (s : S) (up : List String) (clients : G → Reconnect.State)
    (push : Push) :
    (G → Reconnect.State) × Multiset (G × ToClient) :=
  match t.peer s push.conn with
  | none => (clients, 0)
  | some g =>
    if push.msgID ∈ (t.gateway g).responses s then
      let (st, out) := responseRouter (clients g) push.msgID push.data up
      (Function.update clients g st, out.map (g, ·))
    else (clients, 0)

def arriveAll (t : Topology G S) (s : S) (up : List String) :
    (G → Reconnect.State) → List Push → Multiset (G × ToClient)
  | _, [] => 0
  | clients, push :: pushes =>
    let (clients, out) := arrive t s up clients push
    out + arriveAll t s up clients pushes

def atConn (out : Multiset ToClient) (c : UInt64) : Multiset (UInt32 × Bytes) :=
  (out.filter (·.conn = c)).map fun d => (d.msgID, d.data)

/-- What one client connection of one gateway gets. -/
def received (out : Multiset (G × ToClient)) (g : G) (c : UInt64) : Multiset (UInt32 × Bytes) :=
  atConn ((out.filter (·.1 = g)).map Prod.snd) c

/-- The connections a ChatReq from connection `c` of gateway `g` is for. -/
def Addressed (t : Topology G S) (g : G) (c : UInt64) (target : Int64) (g' : G)
    (c' : UInt64) : Prop :=
  ∃ conn, (t.clients g').conns.load c' = some conn ∧
    (target = 0 ∨ (g' = g ∧ c' = c) ∨ conn.auth = some target)

/-- The ChatReq `req` of player `p` reached ChatSvr `s`. In whatever order the
messages that sent arrive, every connection it is for gets one ChatResp, and the
others get nothing. -/
def Delivered (t : Topology G S) (g : G) (c : UInt64) (p : Int64) (req : ChatReq) (time : Int64)
    (up : List String) (s : S) (sent : Option (S × Multiset Push)) : Prop :=
  ∃ pushes data, sent = some (s, pushes) ∧
    decodeChatResp data = .ok ⟨p, req.content, time, req.targetPlayerId⟩ ∧
    ∀ order : List Push, (order : Multiset Push) = pushes → ∀ g' c',
      (Addressed t g c req.targetPlayerId g' c' →
        received (arriveAll t s up t.clients order) g' c' = {(msgIdChatResp, data)}) ∧
      (¬ Addressed t g c req.targetPlayerId g' c' →
        received (arriveAll t s up t.clients order) g' c' = 0)

-- ---------------------------------------------------------------------------
-- To the ChatSvr
-- ---------------------------------------------------------------------------

theorem apply_some {f : RouteFunc} (hf : f ≠ .direct) (hne : healthy ≠ []) (intn : Nat)
    (key : String) :
    ∃ conn ∈ healthy, f.apply intn key healthy = some conn := by
  have hlen : 0 < healthy.length := List.length_pos_iff.mpr hne
  have hzero : healthy.length ≠ 0 := by omega
  have hget (i : Nat) : ∃ conn ∈ healthy, healthy[i % healthy.length]? = some conn :=
    ⟨_, List.getElem_mem _, List.getElem?_eq_getElem (Nat.mod_lt i hlen)⟩
  cases f with
  | direct => exact absurd rfl hf
  | hash =>
    simp only [RouteFunc.apply, hashRoute, if_neg hzero]
    exact hget _
  | random =>
    simp only [RouteFunc.apply, randomRoute, if_neg hzero]
    exact hget _

theorem resolveRouteKey_ne
    (hkey : r.routeKey = "" ∨ r.routeKey = "connId" ∨ r.routeKey = propPlayerID)
    (hprop : conn.properties.load propPlayerID = some (.int64 p)) (c : UInt64) :
    resolveRouteKey c conn r ≠ "" := by
  unfold resolveRouteKey
  dsimp only
  split
  · exact Strconv.formatUint_ne_empty c
  next hother =>
    have hplayer : r.routeKey = propPlayerID := by tauto
    rw [hplayer, hprop]
    exact Strconv.formatInt_ne_empty p

section Sender

omit [DecidableEq G]

theorem server_of_healthy {t : Topology G S} (h : b ∈ healthyConns (pool t g)) :
    ∃ s ∈ t.servers, b.server = t.node s := by
  obtain ⟨pe, hpe, hb⟩ := List.mem_filterMap.mp h
  obtain ⟨s, hs, rfl⟩ := List.mem_map.mp hpe
  refine ⟨s, hs, ?_⟩
  unfold PoolEntry.healthyConn at hb
  split at hb
  · obtain ⟨k, -, rfl⟩ := Option.map_eq_some_iff.mp hb
    rfl
  · cases hb

theorem serverAt_node {t : Topology G S} (hs : s ∈ t.servers) (hb : b.server = t.node s) :
    serverAt t b = some s := by
  unfold serverAt
  rw [hb]
  cases hfind : t.servers.find? (t.node · = t.node s) with
  | none => exact absurd (List.find?_eq_none.mp hfind s hs) (by simp)
  | some s' =>
    have hnode : t.node s' = t.node s := by simpa using List.find?_some hfind
    rw [t.distinct hnode]

theorem routeTo_some (t : Topology G S) (g : G) (intn : Nat) (key : String) :
    ∃ b s, (registry t g).routeTo intn svcChatSvr key = some b ∧ serverAt t b = some s := by
  have hne : healthyConns (pool t g) ≠ [] := by
    obtain ⟨s, hs⟩ := List.exists_mem_of_ne_nil _ t.nonempty
    obtain ⟨k, hk⟩ := t.connected g s
    exact List.ne_nil_of_mem (List.mem_filterMap.mpr ⟨_, List.mem_map.mpr ⟨s, hs, rfl⟩, hk⟩)
  obtain ⟨b, hmem, hb⟩ := apply_some (t.spread g) hne intn key
  obtain ⟨s, hs, hnode⟩ := server_of_healthy hmem
  refine ⟨b, s, ?_, serverAt_node hs hnode⟩
  simp only [Registry.routeTo, registry, if_pos (t.dialed g), SyncMap.load_store_self,
    Option.bind_some]
  exact hb

theorem forward_chat (t : Topology G S) (hc : (t.clients g).conns.load c = some conn)
    (ha : conn.auth = some p) (hreg : registered (t.gateway g).gw msgIdChatReq = true)
    (hb : (registry t g).routeTo intn svcChatSvr
      (resolveRouteKey c conn ⟨svcChatSvr, (t.route g).routeKey, (t.route g).routeType⟩) = some b)
    (now : Int64) (data : Bytes) :
    forward (t.gateway g).gw (registry t g) intn now c conn msgIdChatReq data =
      .sent b msgIdChatReq (marshalEnvelope c data [(tagPlayerID, formatInt p)]) := by
  have hi := identified_reached (t.reached g)
  have hprop : conn.properties.load propPlayerID = some (.int64 p) := by
    rw [hi.property c conn hc, ha]
    rfl
  obtain ⟨evs, hrun⟩ := t.started g
  have hroute := (Startup.inv_run (t.configured g) hrun).routes.routed hreg
  have hkey : resolveRouteKey c conn
      ⟨svcChatSvr, (t.route g).routeKey, (t.route g).routeType⟩ ≠ "" :=
    resolveRouteKey_ne (t.keyed g) hprop c
  unfold forward
  rw [hroute, wrap_authenticated hi hc ha]
  simp only [if_neg hkey, hb]

end Sender

-- ---------------------------------------------------------------------------
-- At the gateways
-- ---------------------------------------------------------------------------

theorem handleResponse_congr (hconns : st'.conns = st.conns)
    (hplayers : st'.playerConns = st.playerConns)
    (msgID : UInt32) (env : Envelope) (up : List String) :
    (handleResponse st' msgID env up).2 = (handleResponse st msgID env up).2 := by
  unfold handleResponse
  rw [hconns, hplayers]
  dsimp only
  split
  · rfl
  split
  · cases st.conns.load env.connId <;> rfl
  · rfl

/-- Envelopes of the broadcaster carry no tags for the client's connection. -/
def Plain (env : Envelope) : Prop := env.connTags.get tagTargetPlayerID ≠ "" ∨ env.connTags = ∅

theorem handleResponse_maps (h : Plain env) (st : Reconnect.State) (msgID : UInt32)
    (up : List String) :
    (handleResponse st msgID env up).1.conns = st.conns ∧
      (handleResponse st msgID env up).1.playerConns = st.playerConns := by
  unfold handleResponse
  dsimp only
  split
  · exact ⟨rfl, rfl⟩
  next htarget =>
    have hempty : env.connTags = ∅ := h.resolve_left htarget
    split
    · split
      next => exact ⟨rfl, rfl⟩
      next => simp [applyConnTags, hempty]
    · exact ⟨rfl, rfl⟩

section Arrivals

variable {t : Topology G S} {s : S} {up : List String} {clients : G → Reconnect.State} {push : Push}
  {pushes : List Push}

def SameMaps (clients clients' : G → Reconnect.State) : Prop :=
  ∀ g, (clients' g).conns = (clients g).conns ∧ (clients' g).playerConns = (clients g).playerConns

theorem arrive_congr (h : SameMaps t.clients clients) (henv : decodeEnvelope push.data = .ok env) :
    (arrive t s up clients push).2 = (arrive t s up t.clients push).2 := by
  unfold arrive
  split
  next => rfl
  next g _ =>
    split
    · simp only [responseRouter, henv, handleResponse_congr (h g).1 (h g).2]
    · rfl

theorem arrive_maps (h : SameMaps t.clients clients) (henv : decodeEnvelope push.data = .ok env)
    (hplain : Plain env) : SameMaps t.clients (arrive t s up clients push).1 := by
  intro g'
  unfold arrive
  split
  next => exact h g'
  next g _ =>
    split
    · by_cases hg : g' = g
      · subst hg
        simp only [responseRouter, henv, Function.update_self]
        obtain ⟨hconns, hplayers⟩ := handleResponse_maps hplain (clients g') push.msgID up
        exact ⟨hconns.trans (h g').1, hplayers.trans (h g').2⟩
      · simp only [Function.update_of_ne hg]
        exact h g'
    · exact h g'

/-- Chat messages do not change what later ones find, so their order does not
matter. -/
theorem arriveAll_eq (h : SameMaps t.clients clients)
    (hpushes : ∀ push ∈ pushes, ∃ env, decodeEnvelope push.data = .ok env ∧ Plain env) :
    arriveAll t s up clients pushes =
      (pushes : Multiset Push).bind fun push => (arrive t s up t.clients push).2 := by
  induction pushes generalizing clients with
  | nil => rfl
  | cons push pushes ih =>
    obtain ⟨env, henv, hplain⟩ := hpushes push List.mem_cons_self
    have hmaps : SameMaps t.clients (arrive t s up clients push).1 := arrive_maps h henv hplain
    have hrest := ih hmaps fun q hq => hpushes q (List.mem_cons_of_mem push hq)
    rw [← Multiset.cons_coe, Multiset.cons_bind, ← hrest, ← arrive_congr h henv]
    rfl

theorem received_bind (pushes : Multiset α) (f : α → Multiset (G × ToClient)) (g : G) (c : UInt64) :
    received (pushes.bind f) g c = pushes.bind fun x => received (f x) g c := by
  simp only [received, atConn, Multiset.filter_bind, Multiset.map_bind]

theorem received_add (out out' : Multiset (G × ToClient)) (g : G) (c : UInt64) :
    received (out + out') g c = received out g c + received out' g c := by
  simp only [received, atConn, Multiset.filter_add, Multiset.map_add]

theorem received_arrive (hmsg : push.msgID = msgIdChatResp) (hpeer : t.peer s push.conn = some g)
    (c : UInt64) :
    received (arrive t s up clients push).2 g c =
      if Registered t g s then atConn (responseRouter (clients g) msgIdChatResp push.data up).2 c
      else 0 := by
  by_cases hreg : msgIdChatResp ∈ (t.gateway g).responses s
  · simp [arrive, hpeer, hmsg, Registered, hreg, received, Multiset.filter_map]
  · simp [arrive, hpeer, hmsg, Registered, hreg, received, atConn]

theorem received_arrive_other (hpeer : t.peer s push.conn ≠ some g) (c : UInt64) :
    received (arrive t s up clients push).2 g c = 0 := by
  unfold arrive
  split
  next => rfl
  next g' hg' =>
    have hne : g' ≠ g := fun heq => hpeer (heq ▸ hg')
    split
    · simp [received, atConn, Multiset.filter_map, hne]
    · rfl

theorem received_sendToAll (t : Topology G S) (s : S) (up : List String) (g : G) (c : UInt64)
    (data : Bytes) :
    received ((ChatSvr.sendToAll (t.conns s) msgIdChatResp data).bind fun push =>
        (arrive t s up t.clients push).2) g c =
      if Registered t g s then atConn (responseRouter (t.clients g) msgIdChatResp data up).2 c
      else 0 := by
  obtain ⟨hgateway, hpeer⟩ := (t.linked g s (t.link g s)).mpr rfl
  rw [received_bind, ChatSvr.sendToAll, Multiset.bind_map]
  have hmem : t.link g s ∈ ChatSvr.gatewayConns (t.conns s) :=
    (ChatSvr.mem_gatewayConns _ _).mpr hgateway
  refine (Finset.sum_eq_single_of_mem (t.link g s) hmem fun other hother hne => ?_).trans ?_
  · refine received_arrive_other (fun hp => hne ?_) c
    exact (t.linked g s other).mp ⟨(ChatSvr.mem_gatewayConns _ _).mp hother, hp⟩
  · exact received_arrive rfl hpeer c

end Arrivals

-- ---------------------------------------------------------------------------
-- The three Envelopes
-- ---------------------------------------------------------------------------

theorem atConn_singleton (d : UInt64) (msgID : UInt32) (data : Bytes) (c : UInt64) :
    atConn {⟨d, msgID, data⟩} c = if c = d then {(msgID, data)} else 0 := by
  rw [atConn, Multiset.filter_singleton]
  by_cases hc : c = d
  · simp [hc]
  · simp [hc, Ne.symm hc]

section Envelopes

variable {payload : Bytes} (hlen : payload.length < 2 ^ 64)

include hlen

theorem decode_untagged (connId : UInt64) :
    decodeEnvelope (marshalEnvelope connId payload []) = .ok ⟨connId, payload, ∅⟩ :=
  decodeEnvelope_marshal hlen (by simp)

theorem decode_toPlayer (target : Int64) :
    decodeEnvelope (marshalEnvelope 0 payload [(tagTargetPlayerID, formatInt target)]) =
      .ok ⟨0, payload, tag tagTargetPlayerID (formatInt target)⟩ :=
  decodeEnvelope_tag 0 hlen (by decide +kernel) target

theorem atConn_toAll (st : Reconnect.State) (up : List String) (c : UInt64) :
    atConn (responseRouter st msgIdChatResp (marshalEnvelope 0 payload []) up).2 c =
      if (st.conns.load c).isSome then {(msgIdChatResp, payload)} else 0 := by
  have hcount : st.conns.keys.val.count c = if (st.conns.load c).isSome then 1 else 0 := by
    split
    next h => exact Multiset.count_eq_one_of_mem st.conns.keys.nodup ((SyncMap.mem_keys _ _).mpr h)
    next h => exact Multiset.count_eq_zero_of_notMem fun hmem => h ((SyncMap.mem_keys _ _).mp hmem)
  simp only [responseRouter, decode_untagged hlen, handleResponse, Tags.get, SyncMap.load_empty,
    Option.getD_none, ne_eq, not_true_eq_false, if_false, atConn, Multiset.filter_map,
    Function.comp_def, Multiset.filter_eq', hcount]
  split <;> simp

theorem atConn_toPlayer (st : Reconnect.State) (up : List String) (target : Int64) (c : UInt64) :
    atConn (responseRouter st msgIdChatResp
        (marshalEnvelope 0 payload [(tagTargetPlayerID, formatInt target)]) up).2 c =
      if st.playerConns.load target = some c ∧ (st.conns.load c).isSome
        then {(msgIdChatResp, payload)}
      else 0 := by
  have hget : (tag tagTargetPlayerID (formatInt target)).get tagTargetPlayerID =
      formatInt target := by
    simp [tag, Tags.get]
  simp only [responseRouter, decode_toPlayer hlen, handleResponse, hget, ne_eq,
    Strconv.formatInt_ne_empty, not_false_eq_true, if_true, Strconv.parseInt_formatInt]
  cases hp : st.playerConns.load target with
  | none => simp [atConn]
  | some d =>
    by_cases hd : c = d
    · subst hd
      by_cases ho : (st.conns.load c).isSome
      · simp [ho, atConn_singleton]
      · simp [ho, atConn]
    · by_cases ho : (st.conns.load d).isSome
      · simp [ho, atConn_singleton, hd, Ne.symm hd]
      · simp [ho, atConn, Ne.symm hd]

theorem atConn_toConn (hid : connId ≠ 0) (hopen : st.conns.load connId = some conn)
    (up : List String) (c : UInt64) :
    atConn (responseRouter st msgIdChatResp (marshalEnvelope connId payload []) up).2 c =
      if c = connId then {(msgIdChatResp, payload)} else 0 := by
  simp only [responseRouter, decode_untagged hlen, handleResponse, Tags.get, SyncMap.load_empty,
    Option.getD_none, ne_eq, not_true_eq_false, if_false, hid, not_false_eq_true, if_true, hopen,
    atConn_singleton]

end Envelopes

-- ---------------------------------------------------------------------------
-- Delivery
-- ---------------------------------------------------------------------------

section Respond

variable {env : Envelope} {req : ChatReq} {time : Int64}
  (hlen : (marshalChatResp ⟨parseInt (env.connTags.get tagPlayerID), req.content, time,
    req.targetPlayerId⟩).length < 2 ^ 64)

include hlen

theorem respond_tags (h : push ∈ ChatSvr.respond conns time link env req) :
    ∃ env', decodeEnvelope push.data = .ok env' ∧
      (env'.connTags = tag tagTargetPlayerID (formatInt req.targetPlayerId) ∨
        env'.connTags = ∅) := by
  unfold ChatSvr.respond at h
  dsimp only at h
  split at h
  · rcases Multiset.mem_cons.mp h with rfl | h
    · exact ⟨_, decode_untagged hlen _, .inr rfl⟩
    · exact ⟨_, (ChatSvr.mem_sendToAll h).2 ▸ decode_toPlayer hlen _, .inl rfl⟩
  · exact ⟨_, (ChatSvr.mem_sendToAll h).2 ▸ decode_untagged hlen _, .inr rfl⟩

theorem plain_respond (h : push ∈ ChatSvr.respond conns time link env req) :
    ∃ env, decodeEnvelope push.data = .ok env ∧ Plain env := by
  obtain ⟨env', henv, htags⟩ := respond_tags hlen h
  refine ⟨env', henv, htags.imp_left fun htag => ?_⟩
  simp [htag, tag, Tags.get, Strconv.formatInt_ne_empty]

end Respond

section Delivery

variable {t : Topology G S} {g : G} {c : UInt64} {conn : Reconnect.Conn} {p : Int64} {s : S}
  {up : List String} {payload : Bytes}

omit [DecidableEq G] in
theorem playerConns_iff (t : Topology G S) (g : G) (p : Int64) (c : UInt64) :
    (t.clients g).playerConns.load p = some c ↔
      ∃ conn, (t.clients g).conns.load c = some conn ∧ conn.auth = some p :=
  ⟨(identified_reached (t.reached g)).owned p c, fun ⟨conn, hc, ha⟩ => t.placed g c conn p hc ha⟩

theorem received_toAll (hlen : payload.length < 2 ^ 64) (g' : G) (c' : UInt64) :
    received ((ChatSvr.toAll (t.conns s) msgIdChatResp payload).bind fun push =>
        (arrive t s up t.clients push).2) g' c' =
      if Registered t g' s ∧ ((t.clients g').conns.load c').isSome then {(msgIdChatResp, payload)}
      else 0 := by
  rw [ChatSvr.toAll, received_sendToAll, atConn_toAll hlen, ite_and]

theorem received_toConn (hc : (t.clients g).conns.load c = some conn)
    (hlen : payload.length < 2 ^ 64) (g' : G) (c' : UInt64) :
    received (arrive t s up t.clients
        (ChatSvr.toConn msgIdChatResp c payload (t.link g s))).2 g' c' =
      if Registered t g' s ∧ g' = g ∧ c' = c then {(msgIdChatResp, payload)} else 0 := by
  have hid : c ≠ 0 := by
    rintro rfl
    simp [t.nonzero g] at hc
  have hlink : t.peer s (t.link g s) = some g := ((t.linked g s _).mpr rfl).2
  by_cases hg : g' = g
  · subst hg
    rw [received_arrive rfl hlink]
    simp only [ChatSvr.toConn, atConn_toConn hlen hid hc, true_and, ite_and]
  · have hother : t.peer s (t.link g s) ≠ some g' :=
      fun h => hg (Option.some.inj (h.symm.trans hlink))
    rw [received_arrive_other hother, if_neg fun h => hg h.2.1]

theorem received_private (hc : (t.clients g).conns.load c = some conn) (ha : conn.auth = some p)
    (hlen : payload.length < 2 ^ 64) (htarget : target ≠ 0) (hself : target ≠ p) (g' : G)
    (c' : UInt64) :
    (Registered t g' s ∧ Addressed t g c target g' c' →
      received ((ChatSvr.toConn msgIdChatResp c payload (t.link g s) ::ₘ
        ChatSvr.toPlayer (t.conns s) msgIdChatResp target payload).bind fun push =>
          (arrive t s up t.clients push).2) g' c' = {(msgIdChatResp, payload)}) ∧
    (¬ (Registered t g' s ∧ Addressed t g c target g' c') →
      received ((ChatSvr.toConn msgIdChatResp c payload (t.link g s) ::ₘ
        ChatSvr.toPlayer (t.conns s) msgIdChatResp target payload).bind fun push =>
          (arrive t s up t.clients push).2) g' c' = 0) := by
  rw [Multiset.cons_bind, received_add, received_toConn hc hlen, ChatSvr.toPlayer,
    received_sendToAll, atConn_toPlayer hlen]
  by_cases hreg : Registered t g' s
  · simp only [hreg, true_and, if_true]
    by_cases hsender : g' = g ∧ c' = c
    · -- The sender's connection is not the target's.
      obtain ⟨rfl, rfl⟩ := hsender
      have hnot : (t.clients g').playerConns.load target ≠ some c' := by
        intro h
        obtain ⟨conn', hc', ha'⟩ := (playerConns_iff t g' target c').mp h
        obtain rfl := Option.some.inj (hc.symm.trans hc')
        exact hself (Option.some.inj (ha'.symm.trans ha))
      have haddr : Addressed t g' c' target g' c' := ⟨conn, hc, .inr (.inl ⟨rfl, rfl⟩)⟩
      simp [hnot, haddr]
    · have haddr : Addressed t g c target g' c' ↔
          (t.clients g').playerConns.load target = some c' := by
        simp only [Addressed, htarget, hsender, false_or, playerConns_iff]
      rw [haddr, if_neg hsender, zero_add]
      refine ⟨fun h => if_pos ⟨h, ?_⟩, fun h => if_neg fun hboth => h hboth.1⟩
      obtain ⟨conn', hc', -⟩ := (playerConns_iff t g' target c').mp h
      simp [hc']
  · simp [hreg]

end Delivery

-- ---------------------------------------------------------------------------
-- A ChatReq
-- ---------------------------------------------------------------------------

section Request

variable {t : Topology G S} {g : G} {c : UInt64} {conn : Reconnect.Conn} {p : Int64}
  {s : S} {msg : Message}
  {req : ChatReq} (hc : (t.clients g).conns.load c = some conn) (ha : conn.auth = some p)
  (hreq : decodeChatReq msg.data = .ok req)

include hc ha hreq

omit [DecidableEq G] in
theorem send_eq (hid : msg.msgID = msgIdChatReq)
    (hreg : registered (t.gateway g).gw msgIdChatReq = true)
    (hs : chosen t g intn c conn = some s) (now time : Int64) :
    send t g intn now time c conn msg = some (s, ChatSvr.respond (t.conns s) time (t.link g s)
      ⟨c, msg.data, tag tagPlayerID (formatInt p)⟩ req) := by
  obtain ⟨evs, hrun⟩ := t.started g
  have hrouter := (Startup.inv_run (t.configured g) hrun).routes.router.mpr hreg
  obtain ⟨b, hb, hserver⟩ := Option.bind_eq_some_iff.mp hs
  have henv := decodeEnvelope_tag c (Nat.lt_trans msg.isInt (by decide))
    (show (utf8 tagPlayerID).length < 100 by decide +kernel) p
  simp only [send, hid, if_pos hrouter, forward_chat t hc ha hreg hb, hserver, Option.map_some,
    ChatSvr.handle, henv, hreq]

omit ha in
theorem received_respond (htarget : req.targetPlayerId = 0 ∨ req.targetPlayerId ≠ p)
    (ha : conn.auth = some p) (time : Int64) (up : List String) (order : List Push)
    (horder : (order : Multiset Push) = ChatSvr.respond (t.conns s) time (t.link g s)
      ⟨c, msg.data, tag tagPlayerID (formatInt p)⟩ req) (g' : G) (c' : UInt64) :
    (Registered t g' s ∧ Addressed t g c req.targetPlayerId g' c' →
      received (arriveAll t s up t.clients order) g' c' =
        {(msgIdChatResp, marshalChatResp ⟨p, req.content, time, req.targetPlayerId⟩)}) ∧
    (¬ (Registered t g' s ∧ Addressed t g c req.targetPlayerId g' c') →
      received (arriveAll t s up t.clients order) g' c' = 0) := by
  have hdata := msg.isInt
  have hcontent := length_decodeChatReq hreq
  have hresp := length_marshalChatResp ⟨p, req.content, time, req.targetPlayerId⟩
  have hlen : (marshalChatResp ⟨p, req.content, time, req.targetPlayerId⟩).length < 2 ^ 64 := by
    dsimp only at hresp
    omega
  have hsender : parseInt ((tag tagPlayerID (formatInt p)).get tagPlayerID) = p := by
    simp [tag, Tags.get]
  have hplain : ∀ push ∈ order, ∃ env, decodeEnvelope push.data = .ok env ∧ Plain env := by
    intro push hpush
    have hmem : push ∈ (order : Multiset Push) := hpush
    rw [horder] at hmem
    exact plain_respond (by rw [hsender]; exact hlen) hmem
  rw [arriveAll_eq (fun g => ⟨rfl, rfl⟩) hplain, horder, ChatSvr.respond]
  dsimp only
  rw [hsender]
  by_cases hzero : req.targetPlayerId = 0
  · have hopen : Addressed t g c 0 g' c' ↔ ((t.clients g').conns.load c').isSome := by
      simp [Addressed, Option.isSome_iff_exists]
    rw [hzero, if_neg (by simp), received_toAll (hzero ▸ hlen), hopen]
    exact ⟨fun h => if_pos h, fun h => if_neg h⟩
  · rw [if_pos hzero]
    exact received_private hc ha hlen hzero (htarget.resolve_left hzero) g' c'

end Request

def chatNode (second : Bool) : ServerNode :=
  if second then ⟨"cs-2", "0.0.0.0:8002"⟩ else ⟨"cs-1", "0.0.0.0:8001"⟩

def clientsOf (p : Int64) : Reconnect.State := connStart (init "gateway") 1 (some p)

theorem reached_clientsOf (p : Int64) : Reached (clientsOf p) :=
  ⟨"gateway", [.conn (.connStart 1 (some p))], by simp [Backed], rfl⟩

theorem placed_clientsOf (hc : (clientsOf p).conns.load c = some conn) (ha : conn.auth = some q) :
    (clientsOf p).playerConns.load q = some c := by
  by_cases hone : c = 1
  · subst hone
    cases hc
    obtain rfl := Option.some.inj ha
    exact SyncMap.load_store_self ..
  · simp [clientsOf, Reconnect.connStart, init, hone] at hc

def startedBy (node : S → ServerNode) (evs : List (Startup.Event S)) : Startup.State S :=
  (run Startup.step (Startup.init shippedGateway node) evs).getD (Startup.init shippedGateway node)

theorem run_startedBy {node : S → ServerNode}
    (h : (run Startup.step (Startup.init shippedGateway node) evs).isSome) :
    ∃ es, run Startup.step (Startup.init shippedGateway node) es = some (startedBy node evs) := by
  obtain ⟨st, hst⟩ := Option.isSome_iff_exists.mp h
  exact ⟨evs, by rw [startedBy, hst, Option.getD_some]⟩

-- One ChatSvr, whose hello comes after Dial has returned.
def hellosAfter : List (Startup.Event Unit) :=
  [.entry () (.connStart 0), .entry () (.setServerID 0), .stored svcChatSvr, .chatHello () 0]

theorem linked_once (g : Bool) (c : UInt64) :
    (((∅ : ChatSvr.Conns).store 1 (utf8 svcGateway)).store 2 (utf8 svcGateway)).load c =
      some (utf8 svcGateway) ∧
      (if c = 1 then some false else if c = 2 then some true else none) = some g ↔
        c = if g then 2 else 1 := by
  rw [SyncMap.load_store, SyncMap.load_store]
  cases g <;> grind

-- Players 7 and 8 on a gateway each.
def twoGateways : Topology Bool Unit where
  config _ := shippedGateway
  route _ := ⟨propPlayerID, "hash"⟩
  servers := [()]
  node _ := chatNode false
  gateway _ := startedBy (fun _ => chatNode false) hellosAfter
  clients g := clientsOf (if g then 8 else 7)
  conns _ := ((∅ : ChatSvr.Conns).store 1 (utf8 svcGateway)).store 2 (utf8 svcGateway)
  peer _ c := if c = 1 then some false else if c = 2 then some true else none
  link g _ := if g then 2 else 1
  configured _ := by decide
  keyed _ := .inr (.inr rfl)
  spread _ := by decide
  nonempty := List.cons_ne_nil _ _
  distinct _ _ _ := rfl
  started _ := run_startedBy (by decide)
  dialed _ := by decide
  connected _ _ := ⟨_, rfl⟩
  linked g _ c := linked_once g c
  reached _ := reached_clientsOf _
  nonzero _ := rfl
  placed _ _ _ _ := placed_clientsOf

def toEight : Message :=
  ⟨msgIdChatReq, Wire.fields [(1, .len (utf8 "hi")), (2, .varint 8)], by decide +kernel⟩

-- cs-1 connects and announces itself while Dial still waits for cs-2.
def helloBefore : List (Startup.Event Bool) :=
  [.entry false (.connStart 0), .entry false (.setServerID 0), .chatHello false 0,
    .entry true (.connStart 0), .entry true (.setServerID 0), .stored svcChatSvr,
    .chatHello true 0]

def oneGateway : Topology Unit Bool where
  config _ := shippedGateway
  route _ := ⟨propPlayerID, "hash"⟩
  servers := [false, true]
  node := chatNode
  gateway _ := startedBy chatNode helloBefore
  clients _ := clientsOf 7
  conns _ := (∅ : ChatSvr.Conns).store 1 (utf8 svcGateway)
  peer _ c := if c = 1 then some () else none
  link _ _ := 1
  configured _ := by decide
  keyed _ := .inr (.inr rfl)
  spread _ := by decide
  nonempty := List.cons_ne_nil _ _
  distinct := by decide
  started _ := run_startedBy (by decide)
  dialed _ := by decide
  connected _ s := by cases s <;> exact ⟨_, rfl⟩
  linked _ _ c := by simp [SyncMap.load_store]
  reached _ := reached_clientsOf _
  nonzero _ := rfl
  placed _ _ _ _ := placed_clientsOf

end Cardwar.System.Chat
