import Cardwar.MatchSvr.Fifo
import Cardwar.MatchSvr.Load

/-!
# Where matches are placed

`handleAllocate` and `matchPool` both ask `pickLeastLoaded` for a server. It
gives the first server with the fewest matches, and the empty id if there is no
server with fewer than `maxInt`. `handleAllocate` takes that for an error;
`matchPool` places the match on the server with the empty id (`real_iff`). While
there is room, every match goes to the first server with the fewest matches
(`least_loaded`).
-/

namespace Cardwar.MatchSvr

open Protocol Codec Pkg Conf
open Run (Along total)

-- ---------------------------------------------------------------------------
-- The choice of a server
-- ---------------------------------------------------------------------------

def loadOf (loadCounts : SyncMap String Int) (srv : ServerNode) : Int :=
  (loadCounts.load srv.id).getD 0

theorem pickLeastLoaded_argmin (servers : List ServerNode) (loadCounts : SyncMap String Int) :
    pickLeastLoaded servers loadCounts = (servers.argmin (loadOf loadCounts)).elim ""
      fun srv => if loadOf loadCounts srv < maxInt then srv.id else "" := by
  -- The accumulator holds the best server so far with its count.
  have hfst : pickLeastLoaded servers loadCounts =
      ((servers.argmin (loadOf loadCounts)).elim ("", maxInt)
      fun srv => if loadOf loadCounts srv < maxInt then (srv.id, loadOf loadCounts srv)
        else ("", maxInt)).1 := by
    refine congrArg Prod.fst ?_
    induction servers using List.reverseRecOn with
    | nil => rfl
    | append_singleton servers srv ih =>
      rw [List.foldl_append, ih, List.argmin_concat]
      cases servers.argmin (loadOf loadCounts) with
      | none => rfl
      | some best =>
        simp only [List.foldl_cons, List.foldl_nil, Option.elim_some]
        rw [show (loadCounts.load srv.id).getD 0 = loadOf loadCounts srv from rfl]
        by_cases hbest : loadOf loadCounts best < maxInt
        · rw [if_pos hbest]
          by_cases hlt : loadOf loadCounts srv < loadOf loadCounts best
          · simp only [if_pos hlt, if_pos (hlt.trans hbest), Option.elim_some]
          · simp only [if_neg hlt, if_pos hbest, Option.elim_some]
        · rw [if_neg hbest]
          by_cases hlt : loadOf loadCounts srv < loadOf loadCounts best
          · simp only [if_pos hlt, Option.elim_some]
          · simp only [if_neg hlt, if_neg hbest, Option.elim_some]
            rw [if_neg (by omega)]
  rw [hfst]
  cases servers.argmin (loadOf loadCounts) with
  | none => rfl
  | some srv =>
    dsimp only [Option.elim_some]
    split <;> rfl

/-- The first server with the fewest matches has room and a name. -/
def Available (servers : List ServerNode) (loadCounts : SyncMap String Int) : Prop :=
  ∃ srv ∈ servers.argmin (loadOf loadCounts), loadOf loadCounts srv < maxInt ∧ srv.id ≠ ""

theorem pickLeastLoaded_ne (servers : List ServerNode) (loadCounts : SyncMap String Int) :
    pickLeastLoaded servers loadCounts ≠ "" ↔ Available servers loadCounts := by
  rw [pickLeastLoaded_argmin, Available]
  cases servers.argmin (loadOf loadCounts) with
  | none => simp
  | some srv =>
    simp only [Option.elim_some, Option.mem_some_iff, exists_eq_left']
    split
    next h => simp [h]
    next h => simp [h]

theorem pickLeastLoaded_eq_id (hsrv : srv ∈ servers.argmin (loadOf loadCounts))
    (hroom : loadOf loadCounts srv < maxInt) : pickLeastLoaded servers loadCounts = srv.id := by
  rw [pickLeastLoaded_argmin, Option.mem_def.mp hsrv]
  exact if_pos hroom

theorem pickLeastLoaded_mem (h : pickLeastLoaded servers loadCounts ≠ "") :
    pickLeastLoaded servers loadCounts ∈ servers.map (·.id) := by
  obtain ⟨srv, hsrv, hroom, -⟩ := (pickLeastLoaded_ne servers loadCounts).mp h
  rw [pickLeastLoaded_eq_id hsrv hroom]
  exact List.mem_map_of_mem (List.argmin_mem hsrv)

-- ---------------------------------------------------------------------------
-- What is announced
-- ---------------------------------------------------------------------------

/-- A match that a MatchResultPush or a MatchAllocateResp without error tells of. -/
inductive Announcement
  | formed (matchID serverID : String)
  | allocated (matchID serverID : String)
  deriving DecidableEq

def Announcement.matchID : Announcement → String
  | .formed matchID _ => matchID
  | .allocated matchID _ => matchID

def Announcement.serverID : Announcement → String
  | .formed _ serverID => serverID
  | .allocated _ serverID => serverID

def announcement (out : Outgoing) : Option Announcement :=
  match out.content with
  | .envelope _ (.matchResultPush matchID serverID _ _) _ => some (.formed matchID serverID)
  | .envelope _ (.matchAllocateResp matchID serverID error) _ =>
    if error = "" then some (.allocated matchID serverID) else none
  | _ => none

def announced (outs : List Outgoing) : List Announcement := outs.filterMap announcement

def destroyedID (request : Request) : Option String :=
  if request.msgID = msgIdRoomDestroyedPush then namedMatch request.data else none

/-- What a message does to the directory and the counters, and what is announced. -/
inductive Placement (st : Matches) (request : Request) (st' : Matches) : List Announcement → Prop
  | kept (hgen : generatedID st request = none)
      (hgone : ∀ m ∈ destroyedID request, st.activeMatches.load m = none)
      (hm : st'.activeMatches = st.activeMatches) (hl : st'.loadCounts = st.loadCounts) :
      Placement st request st' []
  | allocated (hgen : generatedID st request = none) (hgone : destroyedID request = none)
      (hnew : st.activeMatches.load m = none)
      (hserver : serverID = pickLeastLoaded request.env.roomSvrs st.loadCounts)
      (hne : serverID ≠ "")
      (hm : st'.activeMatches = st.activeMatches.store m ⟨serverID, "allocated"⟩)
      (hl : st'.loadCounts = incLoad st.loadCounts serverID) :
      Placement st request st' [.allocated m serverID]
  | formed (hgen : generatedID st request = some m) (hgone : destroyedID request = none)
      (hserver : serverID = pickLeastLoaded request.env.roomSvrs st.loadCounts) (n : Nat)
      (hm : st'.activeMatches = st.activeMatches.store m ⟨serverID, matchType⟩)
      (hl : st'.loadCounts = incLoad st.loadCounts serverID) :
      Placement st request st' (List.replicate (n + 1) (.formed m serverID))
  | destroyed (hgen : generatedID st request = none) (hgone : destroyedID request = some m)
      (hdir : st.activeMatches.load m = some dir)
      (hm : st'.activeMatches = st.activeMatches.delete m)
      (hl : st'.loadCounts = decLoad st.loadCounts dir.serverID) : Placement st request st' []

theorem generatedID_other (hid : request.msgID ≠ msgIdMatchEnterReq) (st : Matches) :
    generatedID st request = none := if_neg hid

theorem destroyedID_other (hid : request.msgID ≠ msgIdRoomDestroyedPush) :
    destroyedID request = none := if_neg hid

theorem announced_matchPool (env : Env) (st : Matches) (matchType : String)
    (pool : List QueuedPlayer) :
    announced (matchPool env st matchType pool).2 = List.replicate pool.length
      (.formed (formedID matchType env.now) (pickLeastLoaded env.roomSvrs st.loadCounts)) := by
  rw [announced, matchPool, List.filterMap_map, ← List.map_const']
  exact congrFun List.filterMap_eq_map pool

theorem placement_enter (hid : request.msgID = msgIdMatchEnterReq)
    (henv : decodeEnvelope request.data = .ok env) (st : Matches) :
    Placement st request (handleEnter st env request).1
      (announced (handleEnter st env request).2) := by
  have hgone : destroyedID request = none := destroyedID_other (by rw [hid]; decide)
  unfold handleEnter
  split
  next hreq =>
    exact .kept (by simp only [generatedID, if_pos hid, henv, hreq]) (by simp [hgone]) rfl rfl
  next req hreq =>
    dsimp only
    generalize QueuedPlayer.mk _ _ _ _ = player
    by_cases hfull : requiredPlayers req.matchType ≤ (st.waiting req.matchType ++ [player]).length
    · have hgen : generatedID st request = some (formedID req.matchType request.env.now) :=
        generatedID_formed hid henv hreq (by simpa using hfull)
      have hlen : ((st.waiting req.matchType ++ [player]).take
          (requiredPlayers req.matchType)).length =
          requiredPlayers req.matchType - 1 + 1 := by
        have hpos := Fifo.requiredPlayers_pos req.matchType
        rw [List.length_take]
        omega
      rw [Fifo.enterQueue_full hfull rfl]
      dsimp only
      rw [announced_matchPool, hlen]
      exact .formed hgen hgone rfl _ rfl rfl
    · rw [Fifo.enterQueue_short (not_le.mp hfull) rfl]
      refine .kept ?_ (by simp [hgone]) rfl rfl
      simp only [generatedID, if_pos hid, henv, hreq]
      exact if_neg (by simpa using hfull)

theorem placement_allocate (hid : request.msgID = msgIdMatchAllocateReq) (env : Envelope)
    (st : Matches) :
    Placement st request (handleAllocate st env request).1
      (announced (handleAllocate st env request).2) := by
  have hgen : generatedID st request = none := generatedID_other (by rw [hid]; decide) st
  have hgone : destroyedID request = none := destroyedID_other (by rw [hid]; decide)
  have hkept : ∀ m ∈ destroyedID request, st.activeMatches.load m = none := by simp [hgone]
  unfold handleAllocate
  split
  next => exact .kept hgen hkept rfl rfl
  next m hm =>
    dsimp only
    split
    next => exact .kept hgen hkept rfl rfl
    next hnew =>
      split
      next => exact .kept hgen hkept rfl rfl
      next hne =>
        exact .allocated hgen hgone (Option.not_isSome_iff_eq_none.mp hnew) rfl hne rfl rfl

theorem placement_destroyed (hid : request.msgID = msgIdRoomDestroyedPush)
    (henv : decodeEnvelope request.data = .ok env) (st : Matches) :
    Placement st request (handleDestroyed st env).1 (announced (handleDestroyed st env).2) := by
  have hgen : generatedID st request = none := generatedID_other (by rw [hid]; decide) st
  have hgone : destroyedID request = namedMatch request.data := if_pos hid
  unfold handleDestroyed
  split
  next hm =>
    refine .kept hgen ?_ rfl rfl
    simp [hgone, namedMatch, henv, hm]
  next m hm =>
    have hname := hgone.trans (namedMatch_eq henv hm)
    simp only [SyncMap.loadAndDelete]
    cases hdir : st.activeMatches.load m with
    | none => exact .kept hgen (by simp [hname, hdir]) rfl rfl
    | some dir => exact .destroyed hgen hname hdir rfl rfl

theorem leaveQueue_directory (st : Matches) (matchType : String) (player : Int64) :
    (st.leaveQueue matchType player).activeMatches = st.activeMatches ∧
      (st.leaveQueue matchType player).loadCounts = st.loadCounts := by
  unfold Matches.leaveQueue
  split
  next => exact ⟨rfl, rfl⟩
  next => split <;> exact ⟨rfl, rfl⟩

theorem placement (st : Matches) (request : Request) :
    Placement st request (handle st request).1 (announced (handle st request).2) := by
  unfold handle
  split
  next hid =>
    have hgen : generatedID st request = none := generatedID_other (by rw [hid]; decide) st
    have hgone : destroyedID request = none := destroyedID_other (by rw [hid]; decide)
    unfold handleForceLeaveQueue
    split
    next => exact .kept hgen (by simp [hgone]) rfl rfl
    next data hdata =>
      obtain ⟨hm, hl⟩ := leaveQueue_directory st (data.connTags.get tagMatchType) data.playerId
      exact .kept hgen (by simp [hgone]) hm hl
  split
  next henv =>
    refine .kept ?_ ?_ rfl rfl
    · simp [generatedID, henv]
    · simp [destroyedID, namedMatch, henv]
  next env henv =>
    split
    next hid => exact placement_enter hid henv st
    next henter =>
      have hgen : generatedID st request = none := generatedID_other henter st
      split
      next hid => exact placement_allocate hid env st
      split
      next hid =>
        have hgone : destroyedID request = none := destroyedID_other (by rw [hid]; decide)
        unfold handleQuery
        split
        next => exact .kept hgen (by simp [hgone]) rfl rfl
        next m hm =>
          cases st.activeMatches.load m with
          | none => exact .kept hgen (by simp [hgone]) rfl rfl
          | some dir => exact .kept hgen (by simp [hgone]) rfl rfl
      split
      next hid => exact placement_destroyed hid henv st
      next hid =>
        have hgone : destroyedID request = none := destroyedID_other hid
        exact .kept hgen (by simp [hgone]) rfl rfl

-- ---------------------------------------------------------------------------
-- Real servers
-- ---------------------------------------------------------------------------

/-- The router with the servers of the configuration in force, and those that
were in force when a match was stored and when it was announced. -/
structure Placing where
  st : Matches := {}
  roomSvrs : List ServerNode
  origin : SyncMap String (List ServerNode) := ∅
  sent : List (Announcement × List ServerNode) := []

inductive Event
  | message (request : Request)
  | reload (roomSvrs : List ServerNode)

def underConfig (roomSvrs : List ServerNode) (request : Request) : Request :=
  { request with env := { request.env with roomSvrs } }

def place (s : Placing) : Event → Placing
  | .reload roomSvrs => { s with roomSvrs }
  | .message request =>
    let (st, outs) := handle s.st (underConfig s.roomSvrs request)
    { s with
      st
      origin := (announced outs).foldl (fun origin a => origin.store a.matchID s.roomSvrs) s.origin
      sent := s.sent ++ (announced outs).map (·, s.roomSvrs) }

def Real (servers : List ServerNode) (serverID : String) : Prop :=
  serverID ≠ "" ∧ serverID ∈ servers.map (·.id)

/-- Every match is on a server that was configured when the match was stored, and
so is every match that was announced. -/
structure AllReal (s : Placing) : Prop where
  entries : ∀ m dir, s.st.activeMatches.load m = some dir →
    ∃ servers, s.origin.load m = some servers ∧ Real servers dir.serverID
  sent : ∀ a servers, (a, servers) ∈ s.sent → Real servers a.serverID

/-- When a MatchEnterReq completes a pool, the configuration has a server for it. -/
def Stocked (s : Placing) : Event → Prop
  | .message request => generatedID s.st request ≠ none → Available s.roomSvrs s.st.loadCounts
  | .reload _ => True

theorem load_origin (as : List Announcement) (servers : List ServerNode)
    (origin : SyncMap String (List ServerNode))
    (m : String) : (as.foldl (fun origin a => origin.store a.matchID servers) origin).load m =
      if m ∈ as.map (·.matchID) then some servers else origin.load m := by
  induction as generalizing origin with
  | nil => rfl
  | cons a as ih =>
    rw [List.foldl_cons, ih, SyncMap.load_store]
    by_cases has : m ∈ as.map (·.matchID)
    · simp [has]
    · simp [has]

theorem real_pick (h : pickLeastLoaded servers loadCounts ≠ "") :
    Real servers (pickLeastLoaded servers loadCounts) :=
  ⟨h, pickLeastLoaded_mem h⟩

theorem AllReal.placed (h : AllReal s) (hreal : Real servers dir.serverID)
    (has : ∀ a ∈ as, a.matchID = m ∧ a.serverID = dir.serverID) (hne : as ≠ [])
    (hm : st'.activeMatches = s.st.activeMatches.store m dir) :
    AllReal ⟨st', servers', as.foldl (fun origin a => origin.store a.matchID servers) s.origin,
      s.sent ++ as.map (·, servers)⟩ := by
  have hmem : ∀ j, j ∈ as.map (·.matchID) ↔ j = m := by
    intro j
    constructor
    · intro hj
      obtain ⟨a, ha, rfl⟩ := List.mem_map.mp hj
      exact (has a ha).1
    · rintro rfl
      obtain ⟨a, ha⟩ := List.exists_mem_of_ne_nil as hne
      exact List.mem_map.mpr ⟨a, ha, (has a ha).1⟩
  refine ⟨fun j d hd => ?_, fun a srvs ha => ?_⟩
  · have hload := load_origin as servers s.origin j
    rw [hm, SyncMap.load_store] at hd
    split at hd
    next hj =>
      obtain rfl := Option.some.inj hd
      exact ⟨servers, hload.trans (if_pos ((hmem j).mpr hj)), hreal⟩
    next hj =>
      obtain ⟨srvs, hsrvs, hr⟩ := h.entries j d hd
      exact ⟨srvs, (hload.trans (if_neg fun hin => hj ((hmem j).mp hin))).trans hsrvs, hr⟩
  · rcases List.mem_append.mp ha with hold | hnew
    · exact h.sent a srvs hold
    · obtain ⟨_, hb, ⟨⟩⟩ := List.mem_map.mp hnew
      rwa [(has a hb).2]

theorem allReal_place (h : AllReal s) (e : Event) : AllReal (place s e) ↔ Stocked s e := by
  cases e with
  | reload roomSvrs => exact iff_of_true ⟨h.entries, h.sent⟩ trivial
  | message request =>
    have hplace := placement s.st (underConfig s.roomSvrs request)
    have hstep :
        place s (.message request) = ⟨(handle s.st (underConfig s.roomSvrs request)).1, s.roomSvrs,
        (announced (handle s.st (underConfig s.roomSvrs request)).2).foldl
          (fun origin a => origin.store a.matchID s.roomSvrs) s.origin,
        s.sent ++ (announced (handle s.st (underConfig s.roomSvrs request)).2).map
          (·, s.roomSvrs)⟩ := rfl
    have hgenerated : generatedID s.st (underConfig s.roomSvrs request) =
        generatedID s.st request := rfl
    rw [hstep]
    generalize (handle s.st (underConfig s.roomSvrs request)).1 = st' at hplace
    generalize announced (handle s.st (underConfig s.roomSvrs request)).2 = as at hplace
    rw [Stocked, ← hgenerated, ← pickLeastLoaded_ne]
    cases hplace with
    | kept hgen hgone hm hl =>
      refine iff_of_true ⟨fun m dir hdir => h.entries m dir (hm ▸ hdir), ?_⟩ (absurd hgen)
      simpa using h.sent
    | destroyed hgen hgone hdir hm hl =>
      refine iff_of_true ⟨fun m dir hdir => ?_, ?_⟩ (absurd hgen)
      · dsimp only at hdir
        rw [hm] at hdir
        exact h.entries m dir (SyncMap.of_load_delete hdir).2
      · simpa using h.sent
    | allocated hgen hgone hnew hserver hne hm hl =>
      refine iff_of_true (h.placed ?_ ?_ (by simp) hm) (absurd hgen)
      · subst hserver
        exact real_pick hne
      · simp [Announcement.matchID, Announcement.serverID]
    | @formed m serverID matchType hgen hgone hserver n hm hl =>
      subst hserver
      constructor
      · intro hall _
        have hmem : Announcement.formed m (pickLeastLoaded s.roomSvrs s.st.loadCounts) ∈
            List.replicate (n + 1)
            (.formed m (pickLeastLoaded s.roomSvrs s.st.loadCounts)) :=
          List.mem_replicate.mpr ⟨Nat.succ_ne_zero n, rfl⟩
        exact (hall.sent _ s.roomSvrs (List.mem_append_right _ (List.mem_map_of_mem hmem))).1
      · intro hne
        have hreal := real_pick (hne (by simp [hgen]))
        refine h.placed hreal ?_ (by simp) hm
        intro a ha
        rw [List.eq_of_mem_replicate ha]
        exact ⟨rfl, rfl⟩

/-- From the empty state, through any messages and reloads. -/
theorem real_iff (roomSvrs : List ServerNode) (events : List Event) :
    (∀ pre, pre <+: events → AllReal (pre.foldl place { roomSvrs })) ↔
      Along (total place) Stocked { roomSvrs } events := by
  have hempty : AllReal { roomSvrs } := ⟨by simp, by simp⟩
  exact Run.prefixes_iff (I := fun _ => True) (fun _ _ _ => trivial)
    (fun s e _ h => allReal_place h e) trivial hempty

-- The configuration loses its servers before two players are matched.
def emptied : List Event :=
  [.reload [], .message (entering 7 1 3 10), .message (entering 8 1 4 20)]

theorem placed_nowhere :
    (emptied.foldl place { roomSvrs := shippedRoomSvrs }).st.activeMatches.load "match-1v1-20" =
      some ⟨"", "1v1"⟩ ∧
      (Announcement.formed "match-1v1-20" "", []) ∈
        (emptied.foldl place { roomSvrs := shippedRoomSvrs }).sent ∧
      ¬ AllReal (emptied.foldl place { roomSvrs := shippedRoomSvrs }) := by
  have hsent : (Announcement.formed "match-1v1-20" "", []) ∈
      (emptied.foldl place { roomSvrs := shippedRoomSvrs }).sent := by decide +kernel
  exact ⟨by decide +kernel, hsent, fun h => (h.sent _ _ hsent).1 rfl⟩

-- ---------------------------------------------------------------------------
-- The fewest matches
-- ---------------------------------------------------------------------------

def HasRoom (st : Matches) (request : Request) : Prop :=
  generatedID st request ≠ none → ∃ srv ∈ request.env.roomSvrs, (st.placed srv.id : Int) < maxInt

instance (st : Matches) (request : Request) : Decidable (HasRoom st request) :=
  inferInstanceAs (Decidable (generatedID st request ≠ none → _))

/-- A match that was not in the directory is put on the first of the servers with
the fewest matches. -/
def Least (servers : List ServerNode) (st : Matches) (request : Request) : Prop :=
  ∀ m dir, st.activeMatches.load m = none → (handle st request).1.activeMatches.load m = some dir →
    ∃ srv ∈ servers, srv.id = dir.serverID ∧ (∀ x ∈ servers, st.placed srv.id ≤ st.placed x.id) ∧
      ∀ x ∈ servers, st.placed x.id ≤ st.placed srv.id → servers.idxOf srv ≤ servers.idxOf x

def Even (servers : List ServerNode) (st : Matches) : Prop :=
  ∀ a ∈ servers, ∀ b ∈ servers, st.placed a.id ≤ st.placed b.id + 1

theorem Balanced.loadOf (h : Balanced st) (srv : ServerNode) :
    loadOf st.loadCounts srv = st.placed srv.id :=
  h.count srv.id

theorem placed_least (h : Balanced st)
    (hne : serverID ≠ "" ∨ ∃ srv ∈ servers, (st.placed srv.id : Int) < maxInt)
    (hserver : serverID = pickLeastLoaded servers st.loadCounts) :
    ∃ srv ∈ servers.argmin (loadOf st.loadCounts), srv.id = serverID := by
  rcases hne with hne | ⟨x, hx, hroom⟩
  · obtain ⟨srv, hsrv, hroom, -⟩ := (pickLeastLoaded_ne servers st.loadCounts).mp (hserver ▸ hne)
    exact ⟨srv, hsrv, ((pickLeastLoaded_eq_id hsrv hroom).symm.trans hserver.symm)⟩
  · cases hsrv : servers.argmin (MatchSvr.loadOf st.loadCounts) with
    | none =>
      rw [List.argmin_eq_none.mp hsrv] at hx
      cases hx
    | some srv =>
      have hle := List.le_of_mem_argmin hx (Option.mem_def.mpr hsrv)
      rw [← h.loadOf] at hroom
      exact ⟨srv, rfl, (pickLeastLoaded_eq_id hsrv (hle.trans_lt hroom)).symm.trans hserver.symm⟩

theorem placed_cases (h : Balanced st) (hnew : NewID st request) (hroom : HasRoom st request) :
    (∃ m dir, ∃ srv ∈ request.env.roomSvrs.argmin (loadOf st.loadCounts), srv.id = dir.serverID ∧
      st.activeMatches.load m = none ∧ (handle st request).1.activeMatches =
        st.activeMatches.store m dir) ∨
    (∀ m dir, (handle st request).1.activeMatches.load m = some dir →
      st.activeMatches.load m = some dir) ∧
      (destroyedID request = none → (handle st request).1.activeMatches = st.activeMatches) := by
  obtain ⟨as, hplace⟩ : ∃ as, Placement st request (handle st request).1 as :=
    ⟨_, placement st request⟩
  cases hplace with
  | kept hgen hgone hm hl => exact .inr ⟨fun m dir hdir => hm ▸ hdir, fun _ => hm⟩
  | destroyed hgen hgone hdir hm hl =>
    refine .inr ⟨fun m dir hload => ?_, fun hnone => ?_⟩
    · rw [hm] at hload
      exact (SyncMap.of_load_delete hload).2
    · cases hgone.symm.trans hnone
  | allocated hgen hgone hnone hserver hne hm hl =>
    obtain ⟨srv, hsrv, hid⟩ := placed_least h (.inl hne) hserver
    exact .inl ⟨_, _, srv, hsrv, hid, hnone, hm⟩
  | formed hgen hgone hserver n hm hl =>
    obtain ⟨srv, hsrv, hid⟩ := placed_least h (.inr (hroom (by simp [hgen]))) hserver
    exact .inl ⟨_, _, srv, hsrv, hid, hnew _ hgen, hm⟩

theorem least_handle (h : Balanced st) (hnew : NewID st request) (hroom : HasRoom st request) :
    Least request.env.roomSvrs st request := by
  intro j dir hj hdir
  rcases placed_cases h hnew hroom with ⟨m, dir', srv, hsrv, hid, hnone, hm⟩ | ⟨hold, -⟩
  · rw [hm, SyncMap.load_store] at hdir
    split at hdir
    next =>
      obtain rfl := Option.some.inj hdir
      obtain ⟨hmem, hmin, hfirst⟩ := List.mem_argmin_iff.mp hsrv
      simp only [h.loadOf, Int.ofNat_le] at hmin hfirst
      exact ⟨srv, hmem, hid, hmin, hfirst⟩
    next => cases hj.symm.trans hdir
  · cases hj.symm.trans (hold j dir hdir)

theorem even_handle (h : Balanced st) (hnew : NewID st request) (hroom : HasRoom st request)
    (hid : request.msgID ≠ msgIdRoomDestroyedPush) (heven : Even request.env.roomSvrs st) :
    Even request.env.roomSvrs (handle st request).1 := by
  intro a ha b hb
  have hab := heven a ha b hb
  rcases placed_cases h hnew hroom with ⟨m, dir, srv, hsrv, hserver, hnone, hm⟩ | ⟨-, hsame⟩
  · have hplaced : ∀ serverID, (handle st request).1.placed serverID =
        st.placed serverID + if dir.serverID = serverID then 1 else 0 := by
      intro serverID
      rw [Matches.placed, hm, SyncMap.countVal_store _ _ _ hnone]
      rfl
    have hle := List.le_of_mem_argmin hb hsrv
    rw [h.loadOf, h.loadOf, Int.ofNat_le] at hle
    rw [hplaced, hplaced, ← hserver]
    by_cases heq : srv.id = a.id
    · rw [if_pos heq, ← heq]
      omega
    · rw [if_neg heq]
      omega
  · rw [Matches.placed, Matches.placed, hsame (destroyedID_other hid)]
    exact hab

/-- From the empty state, with a fixed list of servers. -/
theorem least_loaded (servers : List ServerNode) (hconf : ∀ r ∈ requests, r.env.roomSvrs = servers)
    (hnew : Along (total fun st r => (handle st r).1) NewID {} requests)
    (hroom : Along (total fun st r => (handle st r).1) HasRoom {} requests) :
    Along (total fun st r => (handle st r).1) (Least servers) {} requests ∧
      ((∀ r ∈ requests, r.msgID ≠ msgIdRoomDestroyedPush) →
        Even servers (requests.foldl (fun st r => (handle st r).1) {})) := by
  have hempty : Balanced {} := ⟨fun _ => by simp [Matches.placed], by simp⟩
  have hservers :
      Along (total fun st r => (handle st r).1) (fun _ r => r.env.roomSvrs = servers) {} requests :=
    Run.along_of_forall (fun r hr _ => hconf r hr) _
  have hall := (hnew.and hroom).and hservers
  constructor
  · refine hall.imp (I := Balanced) ?_ ?_ hempty
    · rintro st r _ h ⟨⟨hn, -⟩, -⟩ ⟨⟩
      exact balanced_handle h hn
    · rintro st r h ⟨⟨hn, hr⟩, rfl⟩
      exact least_handle h hn hr
  · intro hkept
    have hids : Along (total fun st r => (handle st r).1)
        (fun _ r => r.msgID ≠ msgIdRoomDestroyedPush) {} requests :=
      Run.along_of_forall (fun r hr _ => hkept r hr) _
    refine (Run.total_invariant (P := fun st => Balanced st ∧ Even servers st) ?_ ⟨hempty, ?_⟩
      (hall.and hids)).2
    · rintro st r ⟨h, heven⟩ ⟨⟨⟨hn, hr⟩, rfl⟩, hid⟩
      exact ⟨balanced_handle h hn, even_handle h hn hr hid heven⟩
    · simp [Even, Matches.placed]

-- Two allocations, and two players matched between them.
def growing : List Request :=
  [placing msgIdMatchAllocateReq (marshalMatchId "m") 1, entering 7 1 3 10, entering 8 1 4 20,
   placing msgIdMatchAllocateReq (marshalMatchId "n") 30]

theorem growing_least :
    Along (total fun st r => (handle st r).1) (Least shippedRoomSvrs) {} growing ∧
      Even shippedRoomSvrs (growing.foldl (fun st r => (handle st r).1) {}) := by
  have hconf : ∀ r ∈ growing, r.env.roomSvrs = shippedRoomSvrs := by decide +kernel
  obtain ⟨hleast, heven⟩ :=
    least_loaded shippedRoomSvrs hconf (by decide +kernel) (by decide +kernel)
  exact ⟨hleast, heven (by decide +kernel)⟩

end Cardwar.MatchSvr
