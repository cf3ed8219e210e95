import Cardwar.Lib.Strconv
import Cardwar.MatchSvr.Queue
import Cardwar.Pkg.Server

/-!
# MatchSvr's router

The directory of active matches, the queues of waiting players and the number
of matches on each RoomSvr, with the messages that change them. Every handler is
one step here; `Queue` has the steps of the queue handlers that interleave.
-/

namespace Cardwar.MatchSvr

open Protocol Codec Pkg Conf

structure MatchDir where
  serverID : String
  matchType : String
  deriving DecidableEq

structure Matches where
  -- By match id, by match type and by server id.
  activeMatches : SyncMap String MatchDir := ∅
  queues : SyncMap String (List QueuedPlayer) := ∅
  loadCounts : SyncMap String Int := ∅

def maxInt : Int := 2 ^ 63 - 1

/-- The first server with the fewest matches; no server gives the empty id. -/
def pickLeastLoaded (servers : List ServerNode) (loadCounts : SyncMap String Int) : String :=
  (servers.foldl (fun (best, minCount) srv =>
    let count := (loadCounts.load srv.id).getD 0
    if count < minCount then (srv.id, count) else (best, minCount)) ("", maxInt)).1

def incLoad (loadCounts : SyncMap String Int) (serverID : String) : SyncMap String Int :=
  let (count, loadCounts) := loadCounts.loadOrStore serverID 0
  loadCounts.store serverID (count + 1)

def decLoad (loadCounts : SyncMap String Int) (serverID : String) : SyncMap String Int :=
  match loadCounts.load serverID with
  | none => loadCounts
  | some n =>
    let count := n - 1
    if count ≤ 0 then loadCounts.delete serverID else loadCounts.store serverID count

def Matches.place (st : Matches) (matchID : String) (dir : MatchDir) : Matches :=
  { st with
    activeMatches := st.activeMatches.store matchID dir
    loadCounts := incLoad st.loadCounts dir.serverID }

def playerIDs (pool : List QueuedPlayer) : List Int64 := pool.map (·.playerID)

def formedID (matchType : String) (now : Int) : String :=
  "match-" ++ matchType ++ "-" ++ toString now

def matchPool (env : Env) (st : Matches) (matchType : String) (pool : List QueuedPlayer) :
    Matches × List Outgoing :=
  let serverID := pickLeastLoaded env.roomSvrs st.loadCounts
  let matchID := formedID matchType env.now
  (st.place matchID ⟨serverID, matchType⟩, pool.map fun p =>
    ⟨.conn p.conn, msgIdMatchResultPush,
      .envelope p.senderID (.matchResultPush matchID serverID (playerIDs pool) matchType)
        ((tag tagRoomSvrID serverID).store tagMatchID matchID)⟩)

def handleEnter (st : Matches) (envelope : Envelope) (request : Request) :
    Matches × List Outgoing :=
  match decodeMatchEnterReq envelope.data with
  | .error _ => (st, [])
  | .ok req =>
    let senderPID := Strconv.parseInt (envelope.connTags.get tagPlayerID)
    let player : QueuedPlayer := ⟨senderPID, req.elo, request.conn, envelope.connId⟩
    let (queues, formed) := enterQueue st.queues req.matchType player
    match formed with
    | some pool => matchPool request.env { st with queues } req.matchType pool
    | none => ({ st with queues },
        [⟨.conn request.conn, msgIdMatchEnterResp, .envelope envelope.connId
          (.matchEnterResp "waiting" ((queues.load req.matchType).getD []).length) ∅⟩])

def sendAllocateResp (conn senderID : UInt64) (matchID serverID errMsg : String) : Outgoing :=
  let tags := if serverID = "" then ∅ else tag tagRoomSvrID serverID
  let tags := if matchID = "" then tags else tags.store tagMatchID matchID
  ⟨.conn conn, msgIdMatchAllocateResp,
    .envelope senderID (.matchAllocateResp matchID serverID errMsg) tags⟩

def handleAllocate (st : Matches) (envelope : Envelope) (request : Request) :
    Matches × List Outgoing :=
  match decodeMatchId envelope.data with
  | .error _ => (st, [])
  | .ok matchId =>
    let resp := sendAllocateResp request.conn envelope.connId matchId
    if (st.activeMatches.load matchId).isSome then (st, [resp "" "already exists"])
    else
      let serverID := pickLeastLoaded request.env.roomSvrs st.loadCounts
      if serverID = "" then (st, [resp "" "no roomsvr available"])
      else (st.place matchId ⟨serverID, "allocated"⟩, [resp serverID ""])

def handleQuery (st : Matches) (envelope : Envelope) (request : Request) :
    Matches × List Outgoing :=
  match decodeMatchId envelope.data with
  | .error _ => (st, [])
  | .ok matchId =>
    let (body, tags) := match st.activeMatches.load matchId with
      | some dir => (Body.matchQueryResp matchId dir.serverID true,
          (tag tagRoomSvrID dir.serverID).store tagMatchID matchId)
      | none => (.matchQueryResp matchId "" false, ∅)
    (st, [⟨.conn request.conn, msgIdMatchQueryResp, .envelope envelope.connId body tags⟩])

def handleDestroyed (st : Matches) (envelope : Envelope) : Matches × List Outgoing :=
  match decodeMatchId envelope.data with
  | .error _ => (st, [])
  | .ok matchId => match st.activeMatches.loadAndDelete matchId with
    | (none, _) => (st, [])
    | (some dir, activeMatches) =>
      ({ st with activeMatches, loadCounts := decLoad st.loadCounts dir.serverID }, [])

def Matches.leaveQueue (st : Matches) (matchType : String) (player : Int64) : Matches :=
  match st.queues.load matchType with
  | none => st
  | some pool =>
    if pool.any (·.playerID = player) then
      { st with queues := st.queues.store matchType (pool.eraseP (·.playerID = player)) }
    else st

def handleForceLeaveQueue (st : Matches) (request : Request) : Matches × List Outgoing :=
  match decodeSessionData request.data with
  | .error _ => (st, [])
  | .ok data => (st.leaveQueue (data.connTags.get tagMatchType) data.playerId, [])

/-- `MatchRouter.Handle`. SessionForceLeaveQueue is raw SessionData, the others
are in an Envelope. -/
def handle (st : Matches) (request : Request) : Matches × List Outgoing :=
  if request.msgID = msgIdSessionForceLeaveQueue then handleForceLeaveQueue st request
  else match decodeEnvelope request.data with
  | .error _ => (st, [])
  | .ok envelope =>
    if request.msgID = msgIdMatchEnterReq then handleEnter st envelope request
    else if request.msgID = msgIdMatchAllocateReq then handleAllocate st envelope request
    else if request.msgID = msgIdMatchQueryReq then handleQuery st envelope request
    else if request.msgID = msgIdRoomDestroyedPush then handleDestroyed st envelope
    else (st, [])

def routedMsgIDs : List UInt32 :=
  [msgIdMatchEnterReq, msgIdMatchAllocateReq, msgIdMatchQueryReq, msgIdRoomDestroyedPush]

def matchHello : ServiceHello where
  service := svcMatchSvr
  msgIds := routedMsgIDs
  sendMsgIds :=
    [msgIdMatchEnterResp, msgIdMatchResultPush, msgIdMatchAllocateResp, msgIdMatchQueryResp]

def server : Server Matches := (newServer matchHello).addRouters routedMsgIDs (appRouter handle)

def serverWith (extra : List UInt32) : Server Matches := server.addRouters extra (appRouter handle)

def Matches.waiting (st : Matches) (matchType : String) : List QueuedPlayer :=
  (st.queues.load matchType).getD []

def Matches.timesQueued (st : Matches) (matchType : String) (player : Int64) : Nat :=
  (st.waiting matchType).countP (·.playerID = player)

def forceLeaveQueue (player : Int64) (matchType : String) : SessionData :=
  { playerId := player, connTags := tag tagMatchType matchType }

theorem countP_eraseP_self (p : α → Bool) (l : List α) :
    (l.eraseP p).countP p = l.countP p - 1 := by
  induction l with
  | nil => rfl
  | cons a l ih =>
    by_cases ha : p a
    · rw [List.eraseP_cons_of_pos ha, List.countP_cons_of_pos ha, Nat.add_sub_cancel]
    · rw [List.eraseP_cons_of_neg ha, List.countP_cons_of_neg ha, List.countP_cons_of_neg ha, ih]

theorem timesQueued_leaveQueue (st : Matches) (matchType : String) (player : Int64) :
    (st.leaveQueue matchType player).timesQueued matchType player =
      st.timesQueued matchType player - 1 := by
  unfold Matches.leaveQueue
  split
  next hq => simp [Matches.timesQueued, Matches.waiting, hq]
  next pool hq =>
    split
    next => simp [Matches.timesQueued, Matches.waiting, hq, countP_eraseP_self]
    next hany =>
      have hzero : pool.countP (·.playerID = player) = 0 := by
        rw [List.countP_eq_zero]
        intro x hx hpx
        exact hany (List.any_eq_true.mpr ⟨x, hx, hpx⟩)
      simp [Matches.timesQueued, Matches.waiting, hq, hzero]

theorem handle_forceLeaveQueue (hid : request.msgID = msgIdSessionForceLeaveQueue)
    (hb : Marshals (forceLeaveQueue player matchType) request.data) (st : Matches) :
    (handle st request).1.timesQueued matchType player = st.timesQueued matchType player - 1 := by
  have ht : (forceLeaveQueue player matchType).connTags.get tagMatchType = matchType := by
    simp [forceLeaveQueue, tag, Tags.get]
  simp only [handle, if_pos hid, handleForceLeaveQueue, decodeSessionData_marshal hb, ht]
  exact timesQueued_leaveQueue st matchType player

inductive Directed (st : Matches) (request : Request) (st' : Matches) : Prop
  | kept (hm : st'.activeMatches = st.activeMatches) (hl : st'.loadCounts = st.loadCounts)
  | allocated (hnew : st.activeMatches.load m = none)
      (hm : st'.activeMatches = st.activeMatches.store m dir)
      (hl : st'.loadCounts = incLoad st.loadCounts dir.serverID)
  | formed (hid : request.msgID = msgIdMatchEnterReq) (henv : decodeEnvelope request.data = .ok env)
      (hreq : decodeMatchEnterReq env.data = .ok req)
      (hfull : requiredPlayers req.matchType ≤ (st.waiting req.matchType).length + 1)
      (hm : st'.activeMatches = st.activeMatches.store (formedID req.matchType request.env.now) dir)
      (hl : st'.loadCounts = incLoad st.loadCounts dir.serverID)
  | destroyed (hid : request.msgID = msgIdRoomDestroyedPush)
      (hname : namedMatch request.data = some m)
      (hdir : st.activeMatches.load m = some dir)
      (hm : st'.activeMatches = st.activeMatches.delete m)
      (hl : st'.loadCounts = decLoad st.loadCounts dir.serverID)

theorem directed_leaveQueue (st : Matches) (request : Request) (matchType : String)
    (player : Int64) :
    Directed st request (st.leaveQueue matchType player) := by
  unfold Matches.leaveQueue
  split
  next => exact .kept rfl rfl
  next => split <;> exact .kept rfl rfl

theorem enterQueue_formed (h : (enterQueue queues matchType player).2 = some pool) :
    requiredPlayers matchType ≤ ((queues.load matchType).getD []).length + 1 := by
  simp only [enterQueue] at h
  split at h
  next hfull => simpa using hfull
  next => cases h

theorem directed (st : Matches) (request : Request) :
    Directed st request (handle st request).1 := by
  unfold handle
  split
  · unfold handleForceLeaveQueue
    split
    next => exact .kept rfl rfl
    next => exact directed_leaveQueue ..
  split
  next => exact .kept rfl rfl
  next env henv =>
    split
    next hid =>
      unfold handleEnter
      split
      next => exact .kept rfl rfl
      next req hreq =>
        dsimp only
        split
        next pool hpool => exact .formed hid henv hreq (enterQueue_formed hpool) rfl rfl
        next => exact .kept rfl rfl
    split
    next hid =>
      unfold handleAllocate
      split
      next => exact .kept rfl rfl
      next m hm =>
        dsimp only
        split
        next => exact .kept rfl rfl
        next hnew =>
          split
          next => exact .kept rfl rfl
          next => exact .allocated (Option.not_isSome_iff_eq_none.mp hnew) rfl rfl
    split
    next hid =>
      unfold handleQuery
      split <;> exact .kept rfl rfl
    split
    next hid =>
      unfold handleDestroyed
      split
      next => exact .kept rfl rfl
      next m hm =>
        simp only [SyncMap.loadAndDelete]
        cases hdir : st.activeMatches.load m with
        | none => exact .kept rfl rfl
        | some dir => exact .destroyed hid (namedMatch_eq henv hm) hdir rfl rfl
    · exact .kept rfl rfl

theorem handle_destroyed (hid : request.msgID = msgIdRoomDestroyedPush)
    (hname : namedMatch request.data = some m) (st : Matches) :
    (handle st request).1.activeMatches.load m = none := by
  unfold namedMatch at hname
  split at hname
  next => cases hname
  next env henv =>
    split at hname <;> cases hname
    next hm =>
      have hids : msgIdRoomDestroyedPush ≠ msgIdSessionForceLeaveQueue ∧
          msgIdRoomDestroyedPush ≠ msgIdMatchEnterReq ∧
          msgIdRoomDestroyedPush ≠ msgIdMatchAllocateReq ∧
          msgIdRoomDestroyedPush ≠ msgIdMatchQueryReq := by decide
      simp only [handle, hid, hids, if_false, henv, if_true, handleDestroyed, hm,
        SyncMap.loadAndDelete]
      cases hdir : st.activeMatches.load m with
      | none => exact hdir
      | some dir => exact SyncMap.load_delete_self ..

section Tags

variable {key : String} (hroom : key ≠ tagRoomSvrID) (hmatch : key ≠ tagMatchID)

include hroom hmatch

theorem load_placed (serverID matchID : String) :
    ((tag tagRoomSvrID serverID).store tagMatchID matchID).load key = none := by
  simp [tag, hroom, hmatch]

theorem omits_allocateResp (conn senderID : UInt64) (matchID serverID errMsg : String) :
    (sendAllocateResp conn senderID matchID serverID errMsg).Omits key := by
  rintro _ _ _ ⟨⟩
  split
  · split <;> simp [tag, hroom]
  · split <;> simp [tag, hroom, hmatch]

theorem omits_handle (h : out ∈ (handle st request).2) : out.Omits key := by
  unfold handle at h
  split at h
  · unfold handleForceLeaveQueue at h
    split at h <;> cases h
  split at h
  · cases h
  split at h
  · unfold handleEnter at h
    split at h
    next => cases h
    next req hreq =>
      dsimp only at h
      split at h
      next pool hpool =>
        obtain ⟨p, -, rfl⟩ := List.mem_map.mp h
        rintro _ _ _ ⟨⟩
        exact load_placed hroom hmatch _ _
      next =>
        obtain rfl := List.mem_singleton.mp h
        rintro _ _ _ ⟨⟩
        exact SyncMap.load_empty key
  split at h
  · unfold handleAllocate at h
    split at h
    next => cases h
    next m hm =>
      dsimp only at h
      split at h
      · obtain rfl := List.mem_singleton.mp h
        exact omits_allocateResp hroom hmatch _ _ _ _ _
      split at h <;>
      · obtain rfl := List.mem_singleton.mp h
        exact omits_allocateResp hroom hmatch _ _ _ _ _
  split at h
  · unfold handleQuery at h
    split at h
    next => cases h
    next m hm =>
      obtain rfl := List.mem_singleton.mp h
      rintro _ _ _ ⟨⟩
      split
      next => exact load_placed hroom hmatch _ _
      next => exact SyncMap.load_empty key
  split at h
  · unfold handleDestroyed at h
    split at h
    next => cases h
    next => split at h <;> cases h
  · cases h

theorem omits_server (h : out ∈ (server.dispatch st request).2) : out.Omits key := by
  refine Server.dispatch_sends (fun r hr st request out hout => ?_) h
  rw [server, Server.routers_addRouters] at hr
  rcases List.mem_append.mp hr with hr | hr
  · exact omits_newServer key _ r hr st request out hout
  · obtain ⟨msgID, -, rfl⟩ := List.mem_map.mp hr
    exact omits_handle hroom hmatch hout

end Tags

end Cardwar.MatchSvr
