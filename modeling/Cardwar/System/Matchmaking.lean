import Cardwar.Gateway.Client
import Cardwar.MatchSvr.Router
import Cardwar.RoomSvr.Concurrent

/-!
# MatchSvr, the RoomSvrs and their clients

Clients reach MatchSvr and the RoomSvrs through a gateway, which forwards the
message ids the services announced. A RoomSvr tells MatchSvr when a room became
empty, and MatchSvr then takes the match off its directory. Messages are delayed
and overtake each other; each handler is one step.

MatchSvr announces the id of that notice too, so clients can send it. Only
RoomSvrs end matches exactly if no client sends a notice for an active match
(`destroyed_by_rooms_iff`).
-/

namespace Cardwar.System.Matchmaking

open Conf Protocol Codec Pkg Gateway
open Gateway.Client (Message wrap length_wrap)
open MatchSvr (Matches Directed directed matchHello)
open RoomSvr (Rooms roomHello)
open RoomSvr.Concurrent (members)
open Run (run Along)
open Wire (Bytes)

theorem hellos_announced (ms : Running Matches) (rooms : Running Rooms) (c : UInt64) (env : Env) :
    (MatchSvr.server.dispatch ms ⟨msgIdServiceIdentity, utf8 svcGateway, c, env⟩).2 =
        [⟨.conn c, msgIdServiceHello, .hello matchHello⟩] ∧
      (RoomSvr.server.dispatch rooms ⟨msgIdServiceIdentity, utf8 svcGateway, c, env⟩).2 =
        [⟨.conn c, msgIdServiceHello, .hello roomHello⟩] :=
  ⟨rfl, rfl⟩

def announced : GatewayServer :=
  [chatHello, matchHello, roomHello].foldl (fun gw hello => (handleHello gw hello).1)
    (new shippedGateway)

-- ---------------------------------------------------------------------------
-- The system
-- ---------------------------------------------------------------------------

/-- A client, by its gateway's connection to the services and its own to the gateway. -/
structure Client where
  gateway : UInt64
  connId : UInt64
  deriving DecidableEq

/-- Who sent a message. For a RoomSvr, also its rooms that had become empty by then. -/
inductive Origin
  | client
  | roomSvr (i : Nat) (emptied : Finset String)
  deriving DecidableEq

inductive Dest
  | matchSvr
  | roomSvr (i : Nat)
  deriving DecidableEq

structure Packet where
  origin : Origin
  dest : Dest
  msgID : UInt32
  data : Bytes
  conn : UInt64
  deriving DecidableEq

structure RoomServer where
  id : String
  st : Running Rooms := { app := ∅ }
  /-- The rooms that became empty so far; no code reads it. -/
  emptied : Finset String := ∅

structure State where
  matchSvr : Running Matches := { app := {} }
  roomSvrs : List RoomServer
  net : List Packet := []
  /-- MatchSvr's answers under way. -/
  answers : List (Client × Body) := []
  /-- The server in the latest answer a client got for a match. -/
  known : SyncMap (Client × String) String := ∅

inductive Event
  /-- A client sends any message; `i` is the RoomSvr it is routed to, if it goes to one. -/
  | send (client : Client) (conn : Reconnect.Conn) (msg : Message) (i : Nat)
  | deliver (k : Nat) (env : Env)
  | answer (k : Nat)

/-- The rooms a step of a RoomSvr left empty. -/
def becameEmpty (rooms rooms' : Rooms) : Finset String :=
  rooms.keys.filter fun m => members rooms m ≠ [] ∧ members rooms' m = []

def pushOf (out : Outgoing) : Option (UInt32 × String) :=
  match out.target, out.content with
  | .backend _, .envelope _ (.roomDestroyedPush m) _ => some (out.msgID, m)
  | _, _ => none

-- `notifyMatchSvr` puts the push in an Envelope without a connection.
def packetOf (i : Nat) (emptied : Finset String) (push : UInt32 × String) : Packet :=
  ⟨.roomSvr i emptied, .matchSvr, push.1, marshalEnvelope 0 (marshalMatchId push.2) [], 0⟩

def answerOf (out : Outgoing) : Option (Client × Body) :=
  match out.target, out.content with
  | .conn c, .envelope connId body _ => some (⟨c, connId⟩, body)
  | _, _ => none

def learned : Body → Option (String × String)
  | .matchAllocateResp m serverID error => if error = "" then some (m, serverID) else none
  | .matchQueryResp m serverID found => if found then some (m, serverID) else none
  | .matchResultPush m serverID _ _ => some (m, serverID)
  | _ => none

def send (s : State) (client : Client) (conn : Reconnect.Conn) (msg : Message) (i : Nat) :
    Option State :=
  match routeFor announced msg.msgID, wrap client.connId conn msg.data with
  | some route, some data =>
    if route.backend = svcMatchSvr then
      some { s with net := s.net ++ [⟨.client, .matchSvr, msg.msgID, data, client.gateway⟩] }
    else if route.backend = svcRoomSvr then
      some { s with net := s.net ++ [⟨.client, .roomSvr i, msg.msgID, data, client.gateway⟩] }
    else some s
  | _, _ => none

def deliver (s : State) (p : Packet) (env : Env) : Option State :=
  let request : Request := ⟨p.msgID, p.data, p.conn, env⟩
  match p.dest with
  | .matchSvr =>
    let (matchSvr, outs) := MatchSvr.server.dispatch s.matchSvr request
    some { s with matchSvr, answers := s.answers ++ outs.filterMap answerOf }
  | .roomSvr i => (s.roomSvrs[i]?).map fun srv =>
    let (st, outs) := RoomSvr.server.dispatch srv.st request
    let emptied := srv.emptied ∪ becameEmpty srv.st.app st.app
    { s with
      roomSvrs := s.roomSvrs.set i { srv with st, emptied }
      net := s.net ++ (outs.filterMap pushOf).map (packetOf i emptied) }

def step (s : State) : Event → Option State
  | .send client conn msg i => send s client conn msg i
  | .deliver k env => (s.net[k]?).bind fun p => deliver { s with net := s.net.eraseIdx k } p env
  | .answer k => (s.answers[k]?).map fun (client, body) =>
    { s with
      answers := s.answers.eraseIdx k
      known := match learned body with
        | some (m, serverID) => s.known.store (client, m) serverID
        | none => s.known }

/-- The match a RoomDestroyedPush to MatchSvr names. -/
def Packet.destroys (p : Packet) : Option String :=
  if p.dest = .matchSvr ∧ p.msgID = msgIdRoomDestroyedPush then namedMatch p.data else none

-- ---------------------------------------------------------------------------
-- What a message does to a RoomSvr
-- ---------------------------------------------------------------------------

inductive RoomChange (rooms : Rooms) (request : Request) (rooms' : Rooms)
    (outs : List Outgoing) : Prop
  | kept (hm : ∀ n, members rooms' n = members rooms n) (ho : outs.filterMap pushOf = [])
  | joined (hid : request.msgID = msgIdRoomJoinReq) (hname : namedMatch request.data = some m)
      (hother : ∀ n ≠ m, members rooms' n = members rooms n) (ho : outs.filterMap pushOf = [])
  | left (hold : members rooms m ≠ []) (hm : members rooms' m ≠ [])
      (hother : ∀ n ≠ m, members rooms' n = members rooms n) (ho : outs.filterMap pushOf = [])
  | emptied (hname : namedMatch request.data = some m) (hold : members rooms m ≠ [])
      (hm : members rooms' m = []) (hother : ∀ n ≠ m, members rooms' n = members rooms n)
      (ho : outs.filterMap pushOf = [] ∨ outs.filterMap pushOf = [(msgIdRoomDestroyedPush, m)])

theorem pushOf_conn {outs : List Outgoing} (h : ∀ out ∈ outs, ∃ c, out.target = .conn c) :
    outs.filterMap pushOf = [] := by
  refine List.filterMap_eq_nil_iff.mpr fun out hout => ?_
  obtain ⟨c, hc⟩ := h out hout
  simp [pushOf, hc]

theorem pushOf_broadcast (m : String) (players : List RoomSvr.RoomPlayer) (playerID event : String)
    (n : Nat) :
    (RoomSvr.broadcastRoomEvent m players playerID event n).filterMap pushOf = [] := by
  refine pushOf_conn fun out hout => ?_
  obtain ⟨p, -, rfl⟩ := List.mem_map.mp hout
  exact ⟨p.conn, rfl⟩

theorem pushOf_notify (env : Env) (m : String) :
    (RoomSvr.notifyMatchSvr env m).filterMap pushOf = [] ∨
      (RoomSvr.notifyMatchSvr env m).filterMap pushOf = [(msgIdRoomDestroyedPush, m)] := by
  unfold RoomSvr.notifyMatchSvr
  split
  · exact .inl rfl
  · exact .inr rfl

theorem members_store (rooms : Rooms) (m : String) (players : List RoomSvr.RoomPlayer) :
    members (rooms.store m players) m = players ∧
    ∀ n ≠ m, members (rooms.store m players) n = members rooms n :=
  ⟨by simp [members], fun n hn => by simp [members, hn]⟩

theorem roomChange_join (hid : request.msgID = msgIdRoomJoinReq)
    (henv : decodeEnvelope request.data = .ok env) (rooms : Rooms) :
    RoomChange rooms request (RoomSvr.handleJoin rooms env request.conn).1
      (RoomSvr.handleJoin rooms env request.conn).2 := by
  unfold RoomSvr.handleJoin
  split
  next => exact .kept (fun _ => rfl) rfl
  next m hm =>
    have hload : ∀ n, members (rooms.loadOrStore m []).2 n = members rooms n :=
      RoomSvr.Concurrent.members_begin rooms .join m ⟨"", 0, 0⟩
    dsimp only
    split
    next => exact .kept hload rfl
    next =>
      refine .joined hid (namedMatch_eq henv hm) (fun n hn => ?_) ?_
      · exact ((members_store _ _ _).2 n hn).trans (hload n)
      · rw [List.filterMap_cons_none (by rfl)]
        split
        · exact pushOf_broadcast ..
        · rfl

theorem roomChange_leave (henv : decodeEnvelope request.data = .ok env) (rooms : Rooms) :
    RoomChange rooms request (RoomSvr.handleLeave rooms env request).1
      (RoomSvr.handleLeave rooms env request).2 := by
  unfold RoomSvr.handleLeave
  split
  next => exact .kept (fun _ => rfl) rfl
  next m hm =>
    unfold RoomSvr.removePlayer
    split
    next => exact .kept (fun _ => rfl) rfl
    next players hload =>
      split
      next => exact .kept (fun _ => rfl) rfl
      next leftPlayer hfind =>
        have hold : members rooms m ≠ [] := by
          rw [members, hload]
          exact List.ne_nil_of_mem (List.mem_of_find?_eq_some hfind)
        dsimp only
        split
        next hempty =>
          refine .emptied (namedMatch_eq henv hm) hold (by simp [members])
            (fun n hn => by simp [members, hn]) ?_
          rw [List.filterMap_append]
          rcases pushOf_notify request.env m with hn | hn <;> simp [hn, pushOf]
        next hne =>
          obtain ⟨hself, hother⟩ := members_store rooms m
            (players.eraseP (·.playerID = env.connTags.get tagPlayerID))
          refine .left hold (fun hnil => hne (hself.symm.trans hnil)) hother ?_
          rw [List.filterMap_append, pushOf_broadcast]
          rfl

theorem roomChange (st : Running Rooms) (request : Request) :
    RoomChange st.app request (RoomSvr.server.dispatch st request).1.app
      (RoomSvr.server.dispatch st request).2 := by
  rcases Server.dispatch_addRouters_cases roomHello [msgIdRoomJoinReq, msgIdRoomLeaveReq]
      (appRouter RoomSvr.handle) st request with ⟨hid, heq⟩ | ⟨happ, houts⟩
  · rw [show RoomSvr.server.dispatch st request = appRouter RoomSvr.handle st request from heq]
    simp only [appRouter, RoomSvr.handle]
    split
    next => exact .kept (fun _ => rfl) rfl
    next env henv =>
      simp only [List.mem_cons, List.not_mem_nil, or_false] at hid
      rcases hid with hid | hid
      · rw [if_pos hid]
        exact roomChange_join hid henv _
      · rw [if_neg (by rw [hid]; decide), if_pos hid]
        exact roomChange_leave henv _
  · exact .kept (fun n => congrArg (members · n) happ) (pushOf_conn houts)

-- ---------------------------------------------------------------------------
-- The end of a match
-- ---------------------------------------------------------------------------

def State.directory (s : State) : SyncMap String MatchSvr.MatchDir := s.matchSvr.app.activeMatches

def count (loadCounts : SyncMap String Int) (serverID : String) : Int :=
  (loadCounts.load serverID).getD 0

def Removed (s s' : State) (m : String) : Prop :=
  (s.directory.load m).isSome ∧ s'.directory.load m = none

/-- The step takes matches off the directory, and off their servers' loads, only
for a notice a RoomSvr sent after its room had become empty. -/
structure Legit (s : State) (e : Event) (s' : State) : Prop where
  removed : ∀ m, Removed s s' m → ∃ k env p i emptied, e = .deliver k env ∧ s.net[k]? = some p ∧
    p.destroys = some m ∧ p.origin = .roomSvr i emptied ∧ m ∈ emptied
  load : ∀ serverID, count s'.matchSvr.app.loadCounts serverID <
    count s.matchSvr.app.loadCounts serverID →
    ∃ m dir, s.directory.load m = some dir ∧ dir.serverID = serverID ∧ Removed s s' m

/-- A client's RoomDestroyedPush names no active match when MatchSvr gets it. -/
def Harmless (s : State) : Event → Prop
  | .deliver k _ =>
    ∀ p ∈ s.net[k]?, p.origin = .client → ∀ m ∈ p.destroys, s.directory.load m = none
  | _ => True

instance (s : State) (e : Event) : Decidable (Harmless s e) := by
  cases e <;> unfold Harmless <;> infer_instance

theorem matchChange (st : Running Matches) (request : Request) :
    Directed st.app request (MatchSvr.server.dispatch st request).1.app := by
  rcases Server.dispatch_addRouters_cases matchHello MatchSvr.routedMsgIDs
    (appRouter MatchSvr.handle)
      st request with ⟨-, heq⟩ | ⟨happ, -⟩
  · rw [show MatchSvr.server.dispatch st request = appRouter MatchSvr.handle st request from heq]
    exact directed st.app request
  · rw [show (MatchSvr.server.dispatch st request).1.app = st.app from happ]
    exact .kept rfl rfl

theorem count_incLoad (loadCounts : SyncMap String Int) (serverID other : String) :
    count loadCounts other ≤ count (MatchSvr.incLoad loadCounts serverID) other := by
  simp only [MatchSvr.incLoad, count, SyncMap.store_loadOrStore, SyncMap.loadOrStore_fst,
    SyncMap.load_store]
  split
  next h =>
    subst h
    simp
  next => exact Int.le_refl _

theorem count_decLoad (hne : other ≠ serverID) (loadCounts : SyncMap String Int) :
    count (MatchSvr.decLoad loadCounts serverID) other = count loadCounts other := by
  unfold MatchSvr.decLoad
  split
  next => rfl
  next =>
    dsimp only
    split <;> simp [count, hne]

theorem dispatch_routed (hid : Request.msgID request ∈ MatchSvr.routedMsgIDs)
    (st : Running Matches) :
    MatchSvr.server.dispatch st request = appRouter MatchSvr.handle st request := by
  have hnone : (newServer matchHello : Server Matches).routers.lookup request.msgID = none := by
    simp only [MatchSvr.routedMsgIDs, List.mem_cons, List.not_mem_nil, or_false] at hid
    rcases hid with hid | hid | hid | hid <;> rw [hid] <;> rfl
  exact (Server.dispatch_addRouters _ _ _ hnone st).trans (if_pos hid)

theorem removed_destroys {p : Packet} (h : p.destroys = some m) (st : Running Matches) (env : Env) :
    (MatchSvr.server.dispatch st ⟨p.msgID, p.data, p.conn, env⟩).1.app.activeMatches.load m =
      none := by
  unfold Packet.destroys at h
  split at h
  next hp =>
    have hrouted : p.msgID ∈ MatchSvr.routedMsgIDs := by
      rw [hp.2]
      decide
    rw [dispatch_routed hrouted]
    exact MatchSvr.handle_destroyed hp.2 h st.app
  · cases h

theorem legit_matchSvr (hnet : s.net[k]? = some p) (hdest : p.dest = .matchSvr)
    (horigin : ∀ m, p.destroys = some m → (s.directory.load m).isSome →
      ∃ i emptied, p.origin = .roomSvr i emptied ∧ m ∈ emptied)
    (hs' : s'.matchSvr = (MatchSvr.server.dispatch s.matchSvr ⟨p.msgID, p.data, p.conn, env⟩).1) :
    Legit s (.deliver k env) s' := by
  have hchange := matchChange s.matchSvr ⟨p.msgID, p.data, p.conn, env⟩
  rw [← hs'] at hchange
  have hstored {m dir} (hm : s'.matchSvr.app.activeMatches = s.directory.store m dir)
      (hl : s'.matchSvr.app.loadCounts = MatchSvr.incLoad s.matchSvr.app.loadCounts dir.serverID) :
      Legit s (.deliver k env) s' := by
    refine ⟨fun n hn => ?_, fun serverID hlt => ?_⟩
    · have hnone := hn.2
      rw [State.directory, hm, SyncMap.load_store] at hnone
      split at hnone
      · cases hnone
      · exact absurd hn.1 (by simp [hnone])
    · have hle := count_incLoad s.matchSvr.app.loadCounts dir.serverID serverID
      rw [← hl] at hle
      omega
  cases hchange with
  | kept hm hl =>
    refine ⟨fun n hn => ?_, fun serverID hlt => ?_⟩
    · have hnone := hn.2
      rw [State.directory, hm] at hnone
      exact absurd hn.1 (by simp [State.directory, hnone])
    · rw [hl] at hlt
      omega
  | allocated hnew hm hl => exact hstored hm hl
  | formed hid henv hreq hfull hm hl => exact hstored hm hl
  | @destroyed m dir hid hname hdir hm hl =>
    have hdestroys : p.destroys = some m := by
      rw [Packet.destroys, if_pos ⟨hdest, hid⟩]
      exact hname
    have hremoved : Removed s s' m := by
      refine ⟨by simp [State.directory, hdir], ?_⟩
      rw [State.directory, hm, SyncMap.load_delete_self]
    refine ⟨fun n hn => ?_, fun serverID hlt => ?_⟩
    · have hnm : n = m := by
        by_contra hne
        have hnone := hn.2
        rw [State.directory, hm, SyncMap.load_delete_ne _ hne] at hnone
        exact absurd hn.1 (by simp [State.directory, hnone])
      subst hnm
      obtain ⟨i, emptied, ho, hmem⟩ := horigin n hdestroys hn.1
      exact ⟨k, env, p, i, emptied, rfl, hnet, hdestroys, ho, hmem⟩
    · by_cases hserver : serverID = dir.serverID
      · exact ⟨m, dir, hdir, hserver.symm, hremoved⟩
      · rw [hl, count_decLoad hserver] at hlt
        omega

theorem legit_kept (h : s'.matchSvr = s.matchSvr) (e : Event) : Legit s e s' := by
  refine ⟨fun m hm => ?_, fun serverID hlt => ?_⟩
  · have hnone := hm.2
    rw [State.directory, h] at hnone
    exact absurd hm.1 (by simp [State.directory, hnone])
  · rw [h] at hlt
    omega

-- ---------------------------------------------------------------------------
-- Messages under way
-- ---------------------------------------------------------------------------

inductive Stepped (s : State) : Event → State → Prop
  | sent (horigin : p.origin = .client) (hid : p.msgID = msg.msgID)
      (hlen : p.data.length < 2 ^ 63 + 200) :
      Stepped s (.send client conn msg i) { s with net := s.net ++ [p] }
  | ignored : Stepped s (.send client conn msg i) s
  | matchSvr (env : Env) (hp : s.net[k]? = some p) (hdest : p.dest = .matchSvr)
      (hm : matchSvr = (MatchSvr.server.dispatch s.matchSvr ⟨p.msgID, p.data, p.conn, env⟩).1) :
      Stepped s (.deliver k env) { s with matchSvr, net := s.net.eraseIdx k, answers }
  | roomSvr (env : Env) (hp : s.net[k]? = some p) (hdest : p.dest = .roomSvr i)
      (hi : s.roomSvrs[i]? = some srv)
      (hd : RoomSvr.server.dispatch srv.st ⟨p.msgID, p.data, p.conn, env⟩ = d)
      (he : emptied = srv.emptied ∪ becameEmpty srv.st.app d.1.app) :
      Stepped s (.deliver k env) { s with
        roomSvrs := s.roomSvrs.set i { srv with st := d.1, emptied }
        net := s.net.eraseIdx k ++ (d.2.filterMap pushOf).map (packetOf i emptied) }
  | answered : Stepped s (.answer k) { s with answers, known }

theorem stepped_send (hs : send s client conn msg i = some s') :
    Stepped s (.send client conn msg i) s' := by
  unfold send at hs
  split at hs
  next route data _ hwrap =>
    have hlen : data.length < 2 ^ 63 + 200 := by
      have hdata := length_wrap hwrap
      have hint := msg.isInt
      omega
    split at hs
    · cases hs
      exact .sent rfl rfl hlen
    split at hs
    · cases hs
      exact .sent rfl rfl hlen
    · cases hs
      exact .ignored
  next => cases hs

theorem stepped (hs : step s e = some s') : Stepped s e s' := by
  cases e with
  | send client conn msg i => exact stepped_send hs
  | deliver k env =>
    obtain ⟨p, hp, hs⟩ := Option.bind_eq_some_iff.mp hs
    cases hdest : p.dest with
    | matchSvr =>
      simp only [deliver, hdest] at hs
      exact Option.some.inj hs ▸ .matchSvr env hp hdest rfl
    | roomSvr i =>
      simp only [deliver, hdest] at hs
      obtain ⟨srv, hi, rfl⟩ := Option.map_eq_some_iff.mp hs
      exact .roomSvr env hp hdest hi rfl rfl
  | answer k =>
    obtain ⟨answer, -, rfl⟩ := Option.map_eq_some_iff.mp hs
    exact .answered

structure Sent (p : Packet) : Prop where
  short : ∀ i, p.dest = .roomSvr i → p.data.length < 2 ^ 63 + 200
  notice : ∀ i emptied, p.origin = .roomSvr i emptied → ∀ m, p.destroys = some m → m ∈ emptied

theorem sent_client (horigin : p.origin = .client) (hlen : p.data.length < 2 ^ 63 + 200) :
    Sent p := by
  refine ⟨fun _ _ => hlen, fun i emptied hroom => ?_⟩
  rw [horigin] at hroom
  cases hroom

theorem destroys_packetOf (hlen : (utf8 m).length < 2 ^ 63 + 200) (i : Nat)
    (emptied : Finset String) :
    (packetOf i emptied (msgIdRoomDestroyedPush, m)).destroys = some m := by
  have hbody := length_marshalMatchId m
  have henv : decodeEnvelope (marshalEnvelope 0 (marshalMatchId m) []) =
      .ok ⟨0, marshalMatchId m, ∅⟩ :=
    decodeEnvelope_marshal (by omega) (by simp)
  simp only [Packet.destroys, packetOf, and_self, if_true]
  exact namedMatch_eq henv (decodeMatchId_marshal (by omega))

theorem sent_roomSvr {p : Packet} (hp : p.data.length < 2 ^ 63 + 200) {srv : RoomServer} {env : Env}
    (hd : RoomSvr.server.dispatch srv.st ⟨p.msgID, p.data, p.conn, env⟩ = d)
    (he : emptied = srv.emptied ∪ becameEmpty srv.st.app d.1.app)
    (hq : q ∈ (d.2.filterMap pushOf).map (packetOf i emptied)) : Sent q := by
  subst hd he
  obtain ⟨push, hpush, rfl⟩ := List.mem_map.mp hq
  refine ⟨fun j hj => (nomatch hj), fun j emptied hj m hm => ?_⟩
  cases hj
  cases roomChange srv.st ⟨p.msgID, p.data, p.conn, env⟩ with
  | kept hkept ho => simp [ho] at hpush
  | joined hid hname hother ho => simp [ho] at hpush
  | left hold hnew hother ho => simp [ho] at hpush
  | @emptied n hname hold hnew hother ho =>
    rcases ho with ho | ho
    · simp [ho] at hpush
    · rw [ho] at hpush
      obtain rfl := List.mem_singleton.mp hpush
      have hlen := length_namedMatch hname
      rw [destroys_packetOf (by dsimp only at hlen; omega)] at hm
      obtain rfl := Option.some.inj hm
      -- The room of the notice is one that this very step emptied.
      refine Finset.mem_union_right _ (Finset.mem_filter.mpr ⟨?_, hold, hnew⟩)
      rw [SyncMap.mem_keys]
      by_contra hnone
      exact hold (by simp [members, Option.not_isSome_iff_eq_none.mp hnone])

theorem sent_step (h : ∀ p ∈ s.net, Sent p) (hs : step s e = some s') : ∀ p ∈ s'.net, Sent p := by
  cases stepped hs with
  | sent horigin hid hlen =>
    intro q hq
    rcases List.mem_append.mp hq with hq | hq
    · exact h q hq
    · exact List.mem_singleton.mp hq ▸ sent_client horigin hlen
  | ignored => exact h
  | matchSvr => exact fun q hq => h q (List.mem_of_mem_eraseIdx hq)
  | roomSvr env hp hdest hi hd he =>
    intro q hq
    rcases List.mem_append.mp hq with hq | hq
    · exact h q (List.mem_of_mem_eraseIdx hq)
    · exact sent_roomSvr ((h _ (List.mem_of_getElem? hp)).short _ hdest) hd he hq
  | answered => exact h

/-- Only RoomSvrs end matches exactly if clients send no notice for one. -/
theorem destroyed_by_rooms_iff (h0 : s.net = []) :
    Along step (fun s e => ∀ s' ∈ step s e, Legit s e s') s es ↔ Along step Harmless s es := by
  refine Run.along_iff (I := fun s => ∀ p ∈ s.net, Sent p) (fun _ _ _ h _ hs => sent_step h hs) ?_
    (by simp [h0])
  intro s e hsent
  constructor
  · intro hlegit
    cases e with
    | send => trivial
    | answer => trivial
    | deliver k env =>
      intro p hp horigin m hdestroys
      by_contra hactive
      rw [Option.mem_def] at hp hdestroys
      have hdest : p.dest = .matchSvr := by
        unfold Packet.destroys at hdestroys
        split at hdestroys
        next h => exact h.1
        · cases hdestroys
      have hstep : ∃ s' ∈ step s (.deliver k env), s'.directory.load m = none := by
        refine ⟨_, by simp only [step, hp, Option.bind_some, deliver, hdest]; rfl, ?_⟩
        exact removed_destroys hdestroys s.matchSvr env
      obtain ⟨s', hs', hnone⟩ := hstep
      have hremoved : Removed s s' m := ⟨Option.isSome_iff_ne_none.mpr hactive, hnone⟩
      obtain ⟨k', env', q, i, emptied, heq, hq, -, hroom, -⟩ := (hlegit s' hs').removed m hremoved
      cases heq
      obtain rfl := Option.some.inj (hp.symm.trans hq)
      cases horigin.symm.trans hroom
  · intro hok s' hs
    cases stepped hs with
    | sent => exact legit_kept (by rfl) _
    | ignored => exact legit_kept (by rfl) _
    | roomSvr => exact legit_kept (by rfl) _
    | answered => exact legit_kept (by rfl) _
    | @matchSvr k p _ _ env hp hdest hm =>
      refine legit_matchSvr hp hdest (fun m hm hactive => ?_) hm
      cases horigin : p.origin with
      | client => simp [hok p hp horigin m hm] at hactive
      | roomSvr i emptied =>
        exact ⟨i, emptied, rfl, (hsent p (List.mem_of_getElem? hp)).notice i emptied horigin m hm⟩

-- The services of the shipped configuration, MatchSvr connected to both RoomSvrs.
def matchSvr1 : ServerNode := ⟨"matchsvr-1", "0.0.0.0:8004"⟩

def services : Env where
  reg := {
    backends := (∅ : SyncMap String Pool).store svcMatchSvr
      ⟨[⟨matchSvr1, (run Pkg.step (dialing matchSvr1) [.connStart 0, .setServerID 0]).getD
        (dialing matchSvr1)⟩], .hash⟩
    identity := svcRoomSvr }
  roomSvrs := shippedRoomSvrs

def fresh (serverIDs : List String) : State where
  roomSvrs := serverIDs.map fun serverID => { id := serverID }

def shipped : State := fresh (shippedRoomSvrs.map (·.id))

def aboutM (msgID : UInt32) : Message := ⟨msgID, marshalMatchId "m", by decide +kernel⟩

def clientSends (connId : UInt64) (msg : Message) (i : Nat) : Event :=
  .send ⟨1, connId⟩
    ⟨(∅ : SyncMap String Reconnect.Property).store propPlayerID (.int64 connId.toInt64),
    some connId.toInt64⟩ msg i

-- A client allocates match "m", joins its room and leaves it; MatchSvr gets the notice.
def usedMatch : List Event :=
  [clientSends 1 (aboutM msgIdMatchAllocateReq) 0, .deliver 0 services,
   clientSends 1 (aboutM msgIdRoomJoinReq) 0, .deliver 0 services,
   clientSends 1 (aboutM msgIdRoomLeaveReq) 0, .deliver 0 services, .deliver 0 services]

theorem usedMatch_legit :
    (run step shipped usedMatch).map (fun s => s.directory.load "m") = some none ∧
      Along step (fun s e => ∀ s' ∈ step s e, Legit s e s') shipped usedMatch :=
  ⟨by decide +kernel, (destroyed_by_rooms_iff rfl).mpr (by decide +kernel)⟩

-- A client allocates match "m"; another one sends the notice.
def forged : List Event :=
  [clientSends 1 (aboutM msgIdMatchAllocateReq) 0, .deliver 0 services,
   clientSends 2 (aboutM msgIdRoomDestroyedPush) 0]

/-- The match is gone and its server's load with it, though no room was ever used. -/
theorem forged_removed :
    ∃ s s', run step shipped forged = some s ∧ step s (.deliver 0 services) = some s' ∧
      Removed s s' "m" ∧ ¬ Legit s (.deliver 0 services) s' ∧
      count s.matchSvr.app.loadCounts "roomsvr-1" = 1 ∧
      count s'.matchSvr.app.loadCounts "roomsvr-1" = 0 ∧
      s.roomSvrs.map (·.emptied) = [∅, ∅] := by
  have hsome : ((run step shipped forged).bind (step · (.deliver 0 services))).isSome := by
    decide +kernel
  have hfacts : ∀ s ∈ run step shipped forged, ∀ s' ∈ step s (.deliver 0 services),
      ((s.directory.load "m").isSome ∧ s'.directory.load "m" = none) ∧
      (∀ p ∈ s.net[0]?, p.origin = .client) ∧
      count s.matchSvr.app.loadCounts "roomsvr-1" = 1 ∧
      count s'.matchSvr.app.loadCounts "roomsvr-1" = 0 ∧
      s.roomSvrs.map (·.emptied) = [∅, ∅] := by decide +kernel
  obtain ⟨s', h⟩ := Option.isSome_iff_exists.mp hsome
  obtain ⟨s, hs, hs'⟩ := Option.bind_eq_some_iff.mp h
  obtain ⟨hremoved, hclient, hrest⟩ := hfacts s hs s' hs'
  refine ⟨s, s', hs, hs', hremoved, fun hlegit => ?_, hrest⟩
  obtain ⟨k, env, p, i, emptied, heq, hp, -, horigin, -⟩ := hlegit.removed "m" hremoved
  cases heq
  cases (hclient p hp).symm.trans horigin

end Cardwar.System.Matchmaking
