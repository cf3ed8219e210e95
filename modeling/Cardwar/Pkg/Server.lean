import Cardwar.Codec
import Cardwar.Pkg.Pool

/-!
# Servers

A server hands a message to the router registered for its id and drops a
message without one. `newServer` registers the routers every backend has; the
others are added by the service's `main`.
-/

namespace Cardwar.Pkg

open Protocol Wire Conf

/-- What a handler reads besides its message: the connections to other services,
the number `rand.Intn` draws from, the configured RoomSvr instances and the
clock in nanoseconds. -/
structure Env where
  reg : Registry
  intn : Nat := 0
  roomSvrs : List ServerNode := []
  now : Int := 0

structure Request where
  msgID : UInt32
  data : Bytes
  conn : UInt64
  env : Env

/-- The messages services send inside an Envelope. -/
inductive Body
  | roomJoinResp (success : Bool) (matchId error : String)
  | roomLeaveResp (success : Bool)
  | roomEventPush (matchId playerId event : String) (playerCount : Nat)
  | roomDestroyedPush (matchId : String)
  | matchEnterResp (status : String) (queueSize : Nat)
  | matchResultPush (matchId serverId : String) (players : List Int64) (matchType : String)
  | matchAllocateResp (matchId serverId error : String)
  | matchQueryResp (matchId serverId : String) (found : Bool)
  deriving DecidableEq

inductive Content
  | text (s : String)
  | hello (hello : ServiceHello)
  | envelope (connId : UInt64) (body : Body) (connTags : Tags)
  deriving DecidableEq

inductive Target
  | conn (id : UInt64)
  | backend (conn : Conn)
  deriving DecidableEq

structure Outgoing where
  target : Target
  msgID : UInt32
  content : Content
  deriving DecidableEq

/-- A server's state: the service's own, and what its connections said they are. -/
structure Running (σ : Type) where
  app : σ
  connType : SyncMap UInt64 Bytes := ∅

abbrev Router (σ : Type) := Running σ → Request → Running σ × List Outgoing

structure Server (σ : Type) where
  routers : List (UInt32 × Router σ)

variable {σ : Type}

def Server.addRouter (s : Server σ) (msgID : UInt32) (router : Router σ) : Server σ :=
  ⟨s.routers ++ [(msgID, router)]⟩

def Server.dispatch (s : Server σ) (st : Running σ) (request : Request) :
    Running σ × List Outgoing :=
  match s.routers.lookup request.msgID with
  | some router => router st request
  | none => (st, [])

def pingRouter : Router σ := fun st request =>
  (st, [⟨.conn request.conn, msgIdPong, .text "pong-server"⟩])

def serviceIdentityRouter (hello : ServiceHello) : Router σ := fun st request =>
  ({ st with connType := st.connType.store request.conn request.data },
    if hello.msgIds = [] ∧ hello.sendMsgIds = [] then []
    else [⟨.conn request.conn, msgIdServiceHello, .hello hello⟩])

def newServer (hello : ServiceHello) : Server σ :=
  ⟨[(msgIdPing, pingRouter), (msgIdServiceIdentity, serviceIdentityRouter hello)]⟩

def appRouter (handle : σ → Request → σ × List Outgoing) : Router σ := fun st request =>
  ({ st with app := (handle st.app request).1 }, (handle st.app request).2)

def Server.addRouters (s : Server σ) (msgIDs : List UInt32) (router : Router σ) : Server σ :=
  msgIDs.foldl (fun s msgID => s.addRouter msgID router) s

theorem Server.routers_addRouters (s : Server σ) (msgIDs : List UInt32) (router : Router σ) :
    (s.addRouters msgIDs router).routers = s.routers ++ msgIDs.map (·, router) := by
  induction msgIDs generalizing s with
  | nil => simp [addRouters]
  | cons msgID msgIDs ih =>
    rw [addRouters, List.foldl_cons]
    exact (ih _).trans (by simp [addRouter])

theorem Server.dispatch_addRouters (s : Server σ) (msgIDs : List UInt32) (router : Router σ)
    (hnone : s.routers.lookup request.msgID = none) (st : Running σ) :
    (s.addRouters msgIDs router).dispatch st request =
      if request.msgID ∈ msgIDs then router st request else (st, []) := by
  have hlookup : (msgIDs.map (·, router)).lookup request.msgID =
      if request.msgID ∈ msgIDs then some router else none := by
    induction msgIDs with
    | nil => rfl
    | cons msgID msgIDs ih =>
      rw [List.map_cons, List.lookup_cons]
      by_cases h : request.msgID = msgID
      · simp [h]
      · simp [h, ih, beq_eq_false_iff_ne.mpr h]
  rw [dispatch, routers_addRouters, List.lookup_append, hnone, Option.none_or, hlookup]
  by_cases hmem : request.msgID ∈ msgIDs
  · rw [if_pos hmem, if_pos hmem]
  · rw [if_neg hmem, if_neg hmem]

def Server.after (s : Server σ) (st : Running σ) (requests : List Request) : Running σ :=
  requests.foldl (fun st request => (s.dispatch st request).1) st

theorem mem_of_lookup {routers : List (UInt32 × Router σ)}
    (h : routers.lookup msgID = some router) :
    (msgID, router) ∈ routers := by
  obtain ⟨l₁, l₂, hl, -⟩ := List.lookup_eq_some_iff.mp h
  exact hl ▸ List.mem_append_cons_self

theorem Server.dispatch_keeps {s : Server σ} {P : σ → Prop}
    (keep : ∀ r ∈ s.routers, ∀ st request, P st.app → P (r.2 st request).1.app)
    (h : P st.app) (request : Request) : P (s.dispatch st request).1.app := by
  unfold dispatch
  split
  next router hr => exact keep _ (mem_of_lookup hr) st request h
  next => exact h

theorem Server.after_keeps {s : Server σ} {P : σ → Prop}
    (keep : ∀ r ∈ s.routers, ∀ st request, P st.app → P (r.2 st request).1.app)
    (h0 : P st.app) (requests : List Request) : P (s.after st requests).app := by
  induction requests generalizing st with
  | nil => exact h0
  | cons request requests ih => exact ih (dispatch_keeps keep h0 request)

theorem Server.dispatch_sends {s : Server σ} {P : Outgoing → Prop}
    (all : ∀ r ∈ s.routers, ∀ st request, ∀ out ∈ (r.2 st request).2, P out)
    (h : out ∈ (s.dispatch st request).2) : P out := by
  unfold dispatch at h
  split at h
  next router hr => exact all _ (mem_of_lookup hr) st request out h
  next => cases h

/-- A router of every backend: it leaves the service's state alone and answers
on the connection it was asked on. -/
def Router.Answers (r : Router σ) : Prop :=
  ∀ st request, (r st request).1.app = st.app ∧ ∀ out ∈ (r st request).2, ∃ c, out.target = .conn c

theorem answers_newServer (hello : ServiceHello) :
    ∀ r ∈ (newServer hello : Server σ).routers, r.2.Answers := by
  intro r hr st request
  simp only [newServer, List.mem_cons, List.not_mem_nil, or_false] at hr
  rcases hr with rfl | rfl
  · refine ⟨rfl, fun out hout => ?_⟩
    obtain rfl := List.mem_singleton.mp hout
    exact ⟨_, rfl⟩
  · refine ⟨rfl, fun out hout => ?_⟩
    simp only [serviceIdentityRouter] at hout
    split at hout
    · cases hout
    · obtain rfl := List.mem_singleton.mp hout
      exact ⟨_, rfl⟩

/-- What is sent carries no tag of this name. -/
def Outgoing.Omits (key : String) (out : Outgoing) : Prop :=
  ∀ connId body tags, out.content = .envelope connId body tags → tags.load key = none

theorem omits_newServer (key : String) (hello : ServiceHello) :
    ∀ r ∈ (newServer hello : Server σ).routers, ∀ st request, ∀ out ∈ (r.2 st request).2,
      out.Omits key := by
  intro r hr st request out hout
  simp only [newServer, List.mem_cons, List.not_mem_nil, or_false] at hr
  rcases hr with rfl | rfl
  · obtain rfl := List.mem_singleton.mp hout
    rintro _ _ _ ⟨⟩
  · simp only [serviceIdentityRouter] at hout
    split at hout
    · cases hout
    · obtain rfl := List.mem_singleton.mp hout
      rintro _ _ _ ⟨⟩

theorem Server.dispatch_addRouters_cases (hello : ServiceHello) (msgIDs : List UInt32)
    (router : Router σ) (st : Running σ) (request : Request) :
    (request.msgID ∈ msgIDs ∧
      ((newServer hello).addRouters msgIDs router).dispatch st request = router st request) ∨
    ((((newServer hello).addRouters msgIDs router).dispatch st request).1.app = st.app ∧
      ∀ out ∈ (((newServer hello).addRouters msgIDs router).dispatch st request).2,
        ∃ c, out.target = .conn c) := by
  cases hold : (newServer hello : Server σ).routers.lookup request.msgID with
  | none =>
    rw [dispatch_addRouters _ _ _ hold]
    split
    next hmem => exact .inl ⟨hmem, rfl⟩
    next => exact .inr ⟨rfl, fun out hout => absurd hout List.not_mem_nil⟩
  | some r =>
    refine .inr ?_
    rw [dispatch, routers_addRouters, List.lookup_append, hold, Option.some_or]
    exact answers_newServer hello _ (mem_of_lookup hold) st request

end Cardwar.Pkg
