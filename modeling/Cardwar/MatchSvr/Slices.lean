import Cardwar.Lib.GoSlice
import Cardwar.MatchSvr.Fifo

/-!
# Queues as slices

MatchSvr's handlers step by step: the queues are slices, of which `handleEnter`
cuts the players of a match and the rest, both in the same array, and `loadCounts`
is read and written server by server. Requests that need the same queue or the
directory at the same time may disturb each other; as long as they do not overlap,
every interleaving does what `MatchSvr.handle` does to lists with one request after
the other (`matches_serialized`). When they overlap, one player can be matched
twice and another one never (`overlap_loses`).
-/

namespace Cardwar.MatchSvr.Slices

open Protocol Codec Conf Goroutine GoSlice
open Pkg (Env Outgoing Request Body)
open Run (run Along)

instance inhabitedQueuedPlayer : Inhabited QueuedPlayer := ⟨⟨0, 0, 0, 0⟩⟩

structure Directory where
  activeMatches : SyncMap String MatchDir := ∅
  loadCounts : SyncMap String Int := ∅

structure Memory where
  queues : Mem String QueuedPlayer := {}
  directory : Directory := {}

inductive Region
  | queue (matchType : String)
  | directory
  deriving DecidableEq

def Same : Region → Memory → Memory → Prop
  | .queue matchType, s, s' => GoSlice.Same matchType s.queues s'.queues
  | .directory, s, s' => s'.directory = s.directory

abbrev whole : Frame Memory Region where
  Inv s := Owned s.queues
  Same := Same
  refl
    | .queue matchType, s => frame.refl matchType s.queues
    | .directory, _ => rfl
  trans
    | .queue matchType, _, _, _, h, h' => frame.trans matchType _ _ _ h h'
    | .directory, _, _, _, h, h' => Eq.trans h' h

def queues : Part whole (frame : Frame (Mem String QueuedPlayer) String) where
  get := Memory.queues
  set q s := { s with queues := q }
  region := .queue
  get_set _ _ := rfl
  inv _ h := h
  inv_set _ _ _ h := h
  same _ _ _ h := h
  same_set _ _ _ h := h
  other
    | .queue matchType, _, _, h => absurd rfl (h matchType)
    | .directory, _, _, _ => rfl

abbrev Code (α : Type) := Prog Memory Outgoing α

def onDirectory (f : Directory → α × Directory) : Code α :=
  modifyGet fun s => ((f s.directory).1, { s with directory := (f s.directory).2 })

-- ---------------------------------------------------------------------------
-- The handlers
-- ---------------------------------------------------------------------------

def pickFrom : List ServerNode → String → Int → Code String
  | [], best, _ => pure best
  | srv :: servers, best, minCount => do
    let count ← onDirectory fun d => ((d.loadCounts.load srv.id).getD 0, d)
    if count < minCount then pickFrom servers srv.id count else pickFrom servers best minCount

def pickLeastLoaded (servers : List ServerNode) : Code String := pickFrom servers "" maxInt

def storeMatch (matchID : String) (dir : MatchDir) : Code Unit :=
  onDirectory fun d => ((), { d with activeMatches := d.activeMatches.store matchID dir })

def storeCount (serverID : String) (count : Int) : Code Unit :=
  onDirectory fun d => ((), { d with loadCounts := d.loadCounts.store serverID count })

def incLoad (serverID : String) : Code Unit := do
  let count ← onDirectory fun d =>
    let (count, loadCounts) := d.loadCounts.loadOrStore serverID 0
    (count, { d with loadCounts })
  storeCount serverID (count + 1)

def decLoad (serverID : String) : Code Unit := do
  match ← onDirectory fun d => (d.loadCounts.load serverID, d) with
  | none => pure ()
  | some n =>
    let count := n - 1
    if count ≤ 0 then onDirectory fun d =>
      ((), { d with loadCounts := d.loadCounts.delete serverID })
    else storeCount serverID count

def matchPool (env : Env) (matchType : String) (pool : Slice) : Code Unit := do
  let serverID ← pickLeastLoaded env.roomSvrs
  let matchID := formedID matchType env.now
  let players ← queues.code (mapEach pool (·.playerID))
  storeMatch matchID ⟨serverID, matchType⟩
  incLoad serverID
  queues.code (sendEach pool fun p =>
    ⟨.conn p.conn, msgIdMatchResultPush,
      .envelope p.senderID (.matchResultPush matchID serverID players matchType)
        ((tag tagRoomSvrID serverID).store tagMatchID matchID)⟩)

def handleEnter (grow : Nat → Nat → Nat) (envelope : Envelope) (request : Request) : Code Unit :=
  match decodeMatchEnterReq envelope.data with
  | .error _ => pure ()
  | .ok req => do
    let senderPID := Strconv.parseInt (envelope.connTags.get tagPlayerID)
    let player : QueuedPlayer := ⟨senderPID, req.elo, request.conn, envelope.connId⟩
    let pool ← queues.code (loadOrStore req.matchType)
    let pool ← queues.code (append grow req.matchType pool [player])
    queues.code (store req.matchType pool)
    let needed := requiredPlayers req.matchType
    if needed ≤ pool.len then
      matchPool request.env req.matchType (pool.cut 0 needed)
      queues.code (store req.matchType (pool.cut needed pool.len))
    else
      send ⟨.conn request.conn, msgIdMatchEnterResp,
        .envelope envelope.connId (.matchEnterResp "waiting" pool.len) ∅⟩

def handleAllocate (envelope : Envelope) (request : Request) : Code Unit :=
  match decodeMatchId envelope.data with
  | .error _ => pure ()
  | .ok matchId => do
    let resp := sendAllocateResp request.conn envelope.connId matchId
    match ← onDirectory fun d => (d.activeMatches.load matchId, d) with
    | some _ => send (resp "" "already exists")
    | none =>
      let serverID ← pickLeastLoaded request.env.roomSvrs
      if serverID = "" then send (resp "" "no roomsvr available")
      else
        storeMatch matchId ⟨serverID, "allocated"⟩
        incLoad serverID
        send (resp serverID "")

def handleQuery (envelope : Envelope) (request : Request) : Code Unit :=
  match decodeMatchId envelope.data with
  | .error _ => pure ()
  | .ok matchId => do
    let (body, tags) := match ← onDirectory fun d => (d.activeMatches.load matchId, d) with
      | some dir => (Body.matchQueryResp matchId dir.serverID true,
          (tag tagRoomSvrID dir.serverID).store tagMatchID matchId)
      | none => (.matchQueryResp matchId "" false, ∅)
    send ⟨.conn request.conn, msgIdMatchQueryResp, .envelope envelope.connId body tags⟩

def handleDestroyed (envelope : Envelope) : Code Unit :=
  match decodeMatchId envelope.data with
  | .error _ => pure ()
  | .ok matchId => do
    match ← onDirectory fun d =>
        let (dir, activeMatches) := d.activeMatches.loadAndDelete matchId
        (dir, { d with activeMatches }) with
    | none => pure ()
    | some dir => decLoad dir.serverID

def handleForceLeaveQueue (grow : Nat → Nat → Nat) (request : Request) : Code Unit :=
  match decodeSessionData request.data with
  | .error _ => pure ()
  | .ok data => do
    let matchType := data.connTags.get tagMatchType
    match ← queues.code (load matchType) with
    | none => pure ()
    | some pool =>
      match ← queues.code (findIdx pool (·.playerID = data.playerId)) with
      | none => pure ()
      | some i =>
        let pool ← queues.code (removeAt grow matchType pool i)
        queues.code (store matchType pool)

/-- `MatchRouter.Handle` -/
def handle (grow : Nat → Nat → Nat) (request : Request) : Code Unit :=
  if request.msgID = msgIdSessionForceLeaveQueue then handleForceLeaveQueue grow request
  else match decodeEnvelope request.data with
  | .error _ => pure ()
  | .ok envelope =>
    if request.msgID = msgIdMatchEnterReq then handleEnter grow envelope request
    else if request.msgID = msgIdMatchAllocateReq then handleAllocate envelope request
    else if request.msgID = msgIdMatchQueryReq then handleQuery envelope request
    else if request.msgID = msgIdRoomDestroyedPush then handleDestroyed envelope
    else pure ()

def Completes (st : Matches) (matchType : String) : Prop :=
  requiredPlayers matchType ≤ ((st.queues.load matchType).getD []).length + 1

instance (st : Matches) (matchType : String) : Decidable (Completes st matchType) :=
  inferInstanceAs (Decidable (_ ≤ _))

/-- What the request may read and write when it comes after those that led to `st`. -/
def regions (st : Matches) (request : Request) : List Region :=
  if request.msgID = msgIdSessionForceLeaveQueue then
    (decodeSessionData request.data).toOption.toList.map fun data =>
      .queue (data.connTags.get tagMatchType)
  else match decodeEnvelope request.data with
  | .error _ => []
  | .ok envelope =>
    if request.msgID = msgIdMatchEnterReq then match decodeMatchEnterReq envelope.data with
      | .error _ => []
      | .ok req => .queue req.matchType :: if Completes st req.matchType then [.directory] else []
    else [.directory]

-- ---------------------------------------------------------------------------
-- The directory, while others work on queues
-- ---------------------------------------------------------------------------

section

variable {R : Region → Prop} {s u : Memory} {sent : List Outgoing}

def Kept (R : Region → Prop) (s u : Memory) : Prop :=
  ∀ t, R (.queue t) → GoSlice.Same t s.queues u.queues

theorem Kept.trans (h : Kept R s t) (h' : Kept R t u) : Kept R s u :=
  fun q hq => frame.trans q _ _ _ (h q hq) (h' q hq)

theorem kept_of_rely (h : whole.Rely R s u) : Kept R s u := fun t ht => h.same (.queue t) ht

theorem rely_of (hu : Owned u.queues) (hdir : u.directory = s.directory) (hkept : Kept R s u) :
    whole.Rely R s u := by
  refine ⟨hu, fun k hk => ?_⟩
  cases k with
  | queue t => exact hkept t hk
  | directory => exact hdir

theorem wp_onDirectory {Q : α → List Outgoing → Memory → Prop} (hk : R .directory)
    (h : ∀ u, Owned u.queues → u.directory = (f s.directory).2 → Kept R s u →
      Q (f s.directory).1 sent u) :
    wp whole R (onDirectory f) Q sent s := by
  refine wp_modifyGet fun t ht => ?_
  have hdir : t.directory = s.directory := ht.same .directory hk
  refine ⟨⟨ht.inv, fun k hk' => ?_⟩, fun v hv => ?_⟩
  · cases k with
    | queue q => exact frame.refl q _
    | directory => exact absurd hk hk'
  · rw [hdir]
    refine h v hv.inv ?_ fun q hq => frame.trans q _ _ _ (kept_of_rely ht q hq)
      (kept_of_rely hv q hq)
    have hsame : v.directory = (f t.directory).2 := hv.same .directory hk
    rw [hsame, hdir]

def pickList (loadCounts : SyncMap String Int) : List ServerNode → String → Int → String
  | [], best, _ => best
  | srv :: servers, best, minCount =>
    let count := (loadCounts.load srv.id).getD 0
    if count < minCount then pickList loadCounts servers srv.id count
    else pickList loadCounts servers best minCount

theorem pickLeastLoaded_eq (servers : List ServerNode) (loadCounts : SyncMap String Int) :
    MatchSvr.pickLeastLoaded servers loadCounts = pickList loadCounts servers "" maxInt := by
  unfold MatchSvr.pickLeastLoaded
  generalize "" = best
  generalize maxInt = minCount
  induction servers generalizing best minCount with
  | nil => rfl
  | cons srv servers ih =>
    rw [List.foldl_cons, pickList]
    dsimp only
    split
    · exact ih ..
    · exact ih ..

theorem wp_pickFrom {Q : String → List Outgoing → Memory → Prop} (hs : Owned s.queues)
    (hk : R .directory) (servers : List ServerNode) (best : String) (minCount : Int)
    (h : ∀ u, whole.Rely R s u → Q (pickList s.directory.loadCounts servers best minCount) sent u) :
    wp whole R (pickFrom servers best minCount) Q sent s := by
  induction servers generalizing s best minCount with
  | nil => exact h
  | cons srv servers ih =>
    refine wp_bind hs (wp_onDirectory hk fun u hu hdir hkept => ?_)
    have hrely := rely_of hu hdir hkept
    rw [pickList] at h
    by_cases hlt : (s.directory.loadCounts.load srv.id).getD 0 < minCount
    · rw [if_pos hlt] at h ⊢
      refine ih hu srv.id _ fun v hv => ?_
      rw [hdir]
      exact h v (hrely.trans hv)
    · rw [if_neg hlt] at h ⊢
      refine ih hu best minCount fun v hv => ?_
      rw [hdir]
      exact h v (hrely.trans hv)

theorem wp_pickLeastLoaded {Q : String → List Outgoing → Memory → Prop} (hs : Owned s.queues)
    (hk : R .directory) (servers : List ServerNode)
    (h : ∀ u, whole.Rely R s u →
      Q (MatchSvr.pickLeastLoaded servers s.directory.loadCounts) sent u) :
    wp whole R (pickLeastLoaded servers) Q sent s := by
  refine wp_pickFrom hs hk servers "" maxInt fun u hu => ?_
  rw [← pickLeastLoaded_eq]
  exact h u hu

def Directory.place (d : Directory) (matchID : String) (dir : MatchDir) : Directory :=
  ⟨d.activeMatches.store matchID dir, MatchSvr.incLoad d.loadCounts dir.serverID⟩

theorem wp_place {Q : α → List Outgoing → Memory → Prop} {rest : Code α} (hs : Owned s.queues)
    (hk : R .directory) (matchID : String) (dir : MatchDir)
    (h : ∀ u, Owned u.queues → u.directory = s.directory.place matchID dir → Kept R s u →
      wp whole R rest Q sent u) :
    wp whole R (do storeMatch matchID dir; incLoad dir.serverID; rest) Q sent s := by
  refine wp_bind hs (wp_onDirectory hk fun u₁ h₁ hd₁ hk₁ => ?_)
  refine wp_bind h₁ (wp_bind h₁ (wp_onDirectory hk fun u₂ h₂ hd₂ hk₂ => ?_))
  refine wp_onDirectory hk fun u₃ h₃ hd₃ hk₃ => h u₃ h₃ ?_ ((hk₁.trans hk₂).trans hk₃)
  rw [hd₃, hd₂, hd₁]
  rfl

theorem wp_decLoad {Q : Unit → List Outgoing → Memory → Prop} (hs : Owned s.queues)
    (hk : R .directory) (serverID : String)
    (h : ∀ u, u.directory =
      { s.directory with loadCounts := MatchSvr.decLoad s.directory.loadCounts serverID } →
      Q () sent u) : wp whole R (decLoad serverID) Q sent s := by
  refine wp_bind hs (wp_onDirectory hk fun u₁ h₁ hd₁ hk₁ => ?_)
  unfold MatchSvr.decLoad at h
  cases hload : s.directory.loadCounts.load serverID with
  | none =>
    rw [hload] at h
    refine fun v hv => h v ?_
    have hsame : v.directory = u₁.directory := hv.same .directory hk
    rw [hsame, hd₁]
  | some n =>
    rw [hload] at h
    dsimp only at h ⊢
    by_cases hle : n - 1 ≤ 0
    · rw [if_pos hle] at h ⊢
      refine wp_onDirectory hk fun v _ hd _ => h v ?_
      rw [hd, hd₁]
    · rw [if_neg hle] at h ⊢
      refine wp_onDirectory hk fun v _ hd _ => h v ?_
      rw [hd, hd₁]

theorem outside_directory (h : queues.Outside R s u) (hk : R .directory) :
    u.directory = s.directory :=
  h .directory hk fun _ => Region.noConfusion

theorem wp_matchPool {Q : Unit → List Outgoing → Memory → Prop} (hs : Owned s.queues)
    (hd : R .directory)
    (hq : R (.queue t)) (hpool : Holds t s.queues pool xs) (env : Env) (st : Matches)
    (hcounts : st.loadCounts = s.directory.loadCounts)
    (h : ∀ u, Owned u.queues → u.directory = s.directory.place (formedID t env.now)
        ⟨MatchSvr.pickLeastLoaded env.roomSvrs st.loadCounts, t⟩ → Kept R s u →
      Q () (sent ++ (MatchSvr.matchPool env st t xs).2) u) : wp whole R (matchPool env t pool)
      Q sent s := by
  rw [hcounts] at h
  unfold MatchSvr.matchPool at h
  rw [hcounts] at h
  refine wp_bind hs (wp_pickLeastLoaded hs hd env.roomSvrs fun u₁ h₁ => ?_)
  have hpool₁ := hpool.same (kept_of_rely h₁ t hq)
  have hdir₁ : u₁.directory = s.directory := h₁.same .directory hd
  refine wp_bind h₁.inv
    (queues.wp_part (wp_mapEach h₁.inv hq hpool₁ _ fun q hrely u₂ h₂ hget hout => ?_))
  subst hget
  have hkept₂ : Kept R s u₂ := (kept_of_rely h₁).trans fun j hj => hrely.same j hj
  have hdir₂ : u₂.directory = s.directory := (outside_directory hout hd).trans hdir₁
  refine wp_place h₂ hd _ ⟨_, t⟩ fun u₃ h₃ hdir₃ hkept₃ => ?_
  have hkept := hkept₂.trans hkept₃
  refine queues.wp_part
    (wp_sendEach h₃ hq (hpool.same (hkept t hq)) _ fun q hrely u₄ h₄ hget hout => ?_)
  subst hget
  refine h u₄ h₄ ?_ (hkept.trans fun j hj => hrely.same j hj)
  rw [outside_directory hout hd, hdir₃, hdir₂]

theorem load_leaveQueue (st : Matches) (t : String) (p : Int64) :
    (st.leaveQueue t p).queues.load t =
      (st.queues.load t).map (·.eraseP (·.playerID = p)) := by
  unfold Matches.leaveQueue
  split
  next hnone =>
    rw [hnone]
    rfl
  next pool hsome =>
    split
    next => rw [SyncMap.load_store_self, hsome, Option.map_some]
    next hany =>
      rw [hsome, Option.map_some, List.eraseP_of_forall_not]
      simpa using hany

theorem wp_handleForceLeaveQueue {Q : Unit → List Outgoing → Memory → Prop}
    (hs : Owned s.queues) (hd : decodeSessionData request.data = .ok data)
    (hk : R (.queue (data.connTags.get tagMatchType)))
    (hold : s.queues.view (data.connTags.get tagMatchType) = old) (grow : Nat → Nat → Nat)
    (h : ∀ u, u.queues.view (data.connTags.get tagMatchType) =
      old.map (·.eraseP (·.playerID = data.playerId)) → Q () sent u) :
    wp whole R (handleForceLeaveQueue grow request) Q sent s := by
  rw [handleForceLeaveQueue, hd]
  dsimp only
  generalize data.connTags.get tagMatchType = t at hk hold h ⊢
  have hpart : (fun j => R (queues.region j)) t := hk
  refine wp_bind hs (queues.wp_part (wp_load hs hpart (fun hnone q hq hload u₁ h₁ hget _ => ?_)
    fun q pool xs hsome hq hhas u₁ h₁ hget _ => ?_))
  · subst hget
    obtain rfl : old = none := hold.symm.trans hnone
    refine fun v hv => h v ?_
    exact view_none ((hv.same (.queue t) hk).entry.trans hload)
  · subst hget
    obtain rfl : old = some xs := hold.symm.trans hsome
    rw [Option.map_some, List.eraseP_eq_eraseIdx] at h
    refine wp_bind h₁
      (queues.wp_part (wp_findIdx h₁ hpart hhas.slice _ fun q hrely u₂ h₂ hget _ => ?_))
    subst hget
    have hhas₂ := hhas.rely hpart hrely
    cases hidx : xs.findIdx? (·.playerID = data.playerId) with
    | none =>
      rw [hidx] at h
      exact fun v hv => h v (hhas₂.rely hpart (queues.rely hv)).view
    | some i =>
      rw [hidx] at h
      obtain ⟨hi, -⟩ := List.findIdx?_eq_some_iff_getElem.mp hidx
      have hlt : i < pool.len := by rwa [← hhas₂.slice.length]
      refine wp_bind h₂ (queues.wp_part (wp_removeAt (k := t) hpart hhas₂ hlt grow
        fun q rest hq₃ hhas₃ u₃ h₃ hget _ => ?_))
      subst hget
      refine queues.wp_part (wp_store hpart hhas₃.slice fun q hq₄ hhas₄ u₄ h₄ hget _ => ?_)
      subst hget
      exact h u₄ hhas₄.view

/-- The first `n` players are matched, and the others stored. -/
theorem wp_formed {Q : Unit → List Outgoing → Memory → Prop} (hs : Owned s.queues)
    (hd : R .directory) (hq : R (.queue t)) (hpool : Holds t s.queues pool xs)
    (hfull : n ≤ xs.length) (env : Env) (st : Matches)
    (hdir : s.directory = ⟨st.activeMatches, st.loadCounts⟩)
    (h : ∀ u, u.queues.view t = some (xs.drop n) →
      u.directory = ⟨(MatchSvr.matchPool env st t (xs.take n)).1.activeMatches,
        (MatchSvr.matchPool env st t (xs.take n)).1.loadCounts⟩ →
      Q () (sent ++ (MatchSvr.matchPool env st t (xs.take n)).2) u) :
    wp whole R (do
      matchPool env t (pool.cut 0 n)
      queues.code (store t (pool.cut n pool.len))) Q sent s := by
  have hpart : (fun j => R (queues.region j)) t := hq
  have hlen := hpool.length
  have hmatched : Holds t s.queues (pool.cut 0 n) (xs.take n) := by
    simpa using hpool.cut (Nat.zero_le _) (hlen ▸ hfull)
  refine wp_bind hs (wp_matchPool hs hd hq hmatched env st (by rw [hdir])
    fun u hu hplaced hkept => ?_)
  have hrest := (hpool.same (hkept t hq)).cut hfull hlen.le
  rw [List.take_of_length_le (List.length_drop ..).le, hlen] at hrest
  refine queues.wp_part (wp_store hpart hrest fun _ _ hhas v hv hget hout => ?_)
  subst hget
  refine h v hhas.view ?_
  rw [outside_directory hout hd, hplaced, hdir]
  rfl

end

-- ---------------------------------------------------------------------------
-- One handler, while others work on other regions
-- ---------------------------------------------------------------------------

def view : Region → Memory → Option (List QueuedPlayer) ⊕ Directory
  | .queue matchType, s => .inl (s.queues.view matchType)
  | .directory, s => .inr s.directory

def value : Region → Matches → Option (List QueuedPlayer) ⊕ Directory
  | .queue matchType, st => .inl (st.queues.load matchType)
  | .directory, st => .inr ⟨st.activeMatches, st.loadCounts⟩

def Uses (st : Matches) (request : Request) (k : Region) : Prop := k ∈ regions st request

/-- The code handles the request as the list model does, with this result. -/
def Meets (st : Matches) (request : Request) (code : Code Unit) (result : Matches × List Outgoing)
    (s : Memory) : Prop :=
  wp whole (Uses st request) code
    (fun _ sent s' => sent = result.2 ∧ ∀ k, Uses st request k → view k s' = value k result.1) [] s

section

variable {request : Request} {st : Matches} {s : Memory}

theorem meets_nothing (h : regions st request = []) : Meets st request (pure ()) (st, []) s := by
  refine fun u _ => ⟨rfl, fun k hk => ?_⟩
  rw [Uses, h] at hk
  cases hk

theorem directory_eq (hview : ∀ k, Uses st request k → view k s = value k st)
    (hk : Uses st request .directory) :
    s.directory = ⟨st.activeMatches, st.loadCounts⟩ :=
  Sum.inr.inj (hview .directory hk)

theorem queue_eq (hview : ∀ k, Uses st request k → view k s = value k st)
    (hk : Uses st request (.queue t)) :
    s.queues.view t = st.queues.load t :=
  Sum.inl.inj (hview (.queue t) hk)

theorem meets_directory (h : regions st request = [.directory])
    (hwp : wp whole (Uses st request) code
      (fun _ sent s' => sent = result.2 ∧
        s'.directory = ⟨result.1.activeMatches, result.1.loadCounts⟩) [] s) :
    Meets st request code result s := by
  refine wp_mono hwp fun _ sent u _ hans => ⟨hans.1, fun k hk => ?_⟩
  rw [Uses, h, List.mem_singleton] at hk
  subst hk
  exact congrArg Sum.inr hans.2

variable (hs : Owned s.queues) (hview : ∀ k, Uses st request k → view k s = value k st)

include hs hview

theorem meets_handleForceLeaveQueue (hid : request.msgID = msgIdSessionForceLeaveQueue)
    (grow : Nat → Nat → Nat) :
    Meets st request (handleForceLeaveQueue grow request)
      (MatchSvr.handleForceLeaveQueue st request) s := by
  have hregions : regions st request = (decodeSessionData request.data).toOption.toList.map
      fun data => .queue (data.connTags.get tagMatchType) := by rw [regions, if_pos hid]
  rw [MatchSvr.handleForceLeaveQueue]
  cases hd : decodeSessionData request.data with
  | error =>
    rw [hd] at hregions
    rw [handleForceLeaveQueue, hd]
    exact meets_nothing hregions
  | ok data =>
    rw [hd] at hregions
    have honly : ∀ k, Uses st request k ↔ k = .queue (data.connTags.get tagMatchType) := by
      intro k
      rw [Uses, hregions]
      exact List.mem_singleton
    have hk := (honly _).mpr rfl
    refine wp_handleForceLeaveQueue hs hd hk (queue_eq hview hk) grow fun u hu =>
      ⟨rfl, fun k hk' => ?_⟩
    rw [(honly k).mp hk']
    exact congrArg Sum.inl (hu.trans (load_leaveQueue ..).symm)

theorem meets_handleEnter (hother : request.msgID ≠ msgIdSessionForceLeaveQueue)
    (henv : decodeEnvelope request.data = .ok envelope) (hid : request.msgID = msgIdMatchEnterReq)
    (grow : Nat → Nat → Nat) :
    Meets st request (handleEnter grow envelope request)
    (MatchSvr.handleEnter st envelope request) s := by
  have hregions : regions st request = match decodeMatchEnterReq envelope.data with
      | .error _ => []
      | .ok req =>
        .queue req.matchType :: if Completes st req.matchType then [.directory] else [] := by
    rw [regions, if_neg hother, henv]
    exact if_pos hid
  rw [handleEnter, MatchSvr.handleEnter]
  cases hreq : decodeMatchEnterReq envelope.data with
  | error =>
    rw [hreq] at hregions
    exact meets_nothing hregions
  | ok req =>
    rw [hreq] at hregions
    dsimp only at hregions ⊢
    have hk : Uses st request (.queue req.matchType) := by simp [Uses, hregions]
    have hdk : Completes st req.matchType → Uses st request .directory := fun hc => by
      simp [Uses, hregions, hc]
    have hpart : (fun j => Uses st request (queues.region j)) req.matchType := hk
    have hold := queue_eq hview hk
    generalize req.matchType = t at hregions hk hdk hpart hold ⊢
    generalize QueuedPlayer.mk (Strconv.parseInt (envelope.connTags.get tagPlayerID))
      req.elo request.conn
      envelope.connId = player
    generalize hq : (s.queues.view t).getD [] = q
    have hlist : (st.queues.load t).getD [] = q := by rw [← hold, hq]
    have hcomplete : Completes st t ↔ requiredPlayers t ≤ (q ++ [player]).length := by
      rw [Completes, hlist, List.length_append, List.length_singleton]
    -- The queue and, if a match is made, the directory are all there is to compare.
    have hpost : ∀ (u : Memory) (st' : Matches), u.queues.view t = st'.queues.load t →
        (Completes st t → u.directory = ⟨st'.activeMatches, st'.loadCounts⟩) →
        ∀ k, Uses st request k → view k u = value k st' := by
      intro u st' hqueue hdir k hk'
      rw [Uses, hregions] at hk'
      rcases List.mem_cons.mp hk' with rfl | hk'
      · exact congrArg Sum.inl hqueue
      · split at hk'
        next hc =>
          rw [List.mem_singleton.mp hk']
          exact congrArg Sum.inr (hdir hc)
        next => cases hk'
    refine wp_bind hs
      (queues.wp_part (wp_loadOrStore hs hpart fun _ s₁ _ hhas₁ u₁ h₁ hget hout₁ => ?_))
    subst hget
    refine wp_bind h₁ (queues.wp_part (wp_append (k := t) hpart hhas₁ grow [player]
      fun _ s₂ _ hhas₂ u₂ h₂ hget hout₂ => ?_))
    subst hget
    refine wp_bind h₂
      (queues.wp_part (wp_store hpart hhas₂.slice fun _ _ hhas₃ u₃ h₃ hget hout₃ => ?_))
    subst hget
    have hholds : Holds t u₃.queues s₂ (q ++ [player]) := hq ▸ hhas₃.slice
    rw [← hholds.length]
    by_cases hfull : requiredPlayers t ≤ (q ++ [player]).length
    · have hdk := hdk (hcomplete.mpr hfull)
      have hdir₃ : u₃.directory = ⟨st.activeMatches, st.loadCounts⟩ := by
        rw [outside_directory hout₃ hdk, outside_directory hout₂ hdk, outside_directory hout₁ hdk,
          directory_eq hview hdk]
      rw [if_pos hfull, Fifo.enterQueue_full hfull hlist]
      dsimp only
      rw [hholds.length]
      refine wp_formed h₃ hdk hk hholds hfull request.env _ hdir₃ fun u hqueue hdir => ?_
      refine ⟨rfl, hpost u _ ?_ fun _ => hdir⟩
      exact hqueue.trans (SyncMap.load_store_self ..).symm
    · rw [if_neg hfull, Fifo.enterQueue_short (not_le.mp hfull) hlist]
      dsimp only
      rw [SyncMap.load_store_self, Option.getD_some]
      refine wp_sendAll [_] fun u₄ h₄ =>
        ⟨rfl, hpost u₄ _ ?_ fun hc => absurd (hcomplete.mp hc) hfull⟩
      refine (hhas₃.rely hpart (queues.rely h₄)).view.trans ?_
      rw [SyncMap.load_store_self]
      exact congrArg (some <| · ++ [player]) hq

end

theorem wp_sent {Q : Unit → List Outgoing → Memory → Prop} (hk : R .directory) (out : Outgoing)
    (h : ∀ u, u.directory = s.directory → Q () (sent ++ [out]) u) :
    wp whole R (send out) Q sent s :=
  wp_sendAll [out] fun u hu => h u (hu.same .directory hk)

section

variable {request : Request} {st : Matches} {s : Memory} (hs : Owned s.queues)
  (hview : ∀ k, Uses st request k → view k s = value k st)
    (hregions : regions st request = [.directory])

include hs hview hregions

theorem meets_handleAllocate :
    Meets st request (handleAllocate envelope request)
    (MatchSvr.handleAllocate st envelope request) s := by
  have hk : Uses st request .directory := by simp [Uses, hregions]
  have hdir := directory_eq hview hk
  refine meets_directory hregions ?_
  rw [handleAllocate, MatchSvr.handleAllocate]
  cases decodeMatchId envelope.data with
  | error => exact fun u hu => ⟨rfl, (hu.same .directory hk).trans hdir⟩
  | ok m =>
    dsimp only
    refine wp_bind hs (wp_onDirectory hk fun u₁ h₁ hd₁ hk₁ => ?_)
    replace hd₁ := hd₁.trans hdir
    rw [hdir]
    cases hload : st.activeMatches.load m with
    | some dir => exact wp_sent hk _ fun u hu => ⟨rfl, hu.trans hd₁⟩
    | none =>
      refine wp_bind h₁ (wp_pickLeastLoaded h₁ hk _ fun u₂ h₂ => ?_)
      have hd₂ : u₂.directory = _ := (h₂.same .directory hk).trans hd₁
      rw [hd₁]
      dsimp only
      generalize MatchSvr.pickLeastLoaded request.env.roomSvrs st.loadCounts = serverID
      by_cases hempty : serverID = ""
      · rw [if_pos hempty, if_pos hempty]
        exact wp_sent hk _ fun u hu => ⟨rfl, hu.trans hd₂⟩
      · rw [if_neg hempty, if_neg hempty]
        refine wp_place h₂.inv hk m ⟨serverID, "allocated"⟩ fun u₃ h₃ hd₃ hk₃ => ?_
        rw [hd₂] at hd₃
        exact wp_sent hk _ fun u hu => ⟨rfl, hu.trans hd₃⟩

theorem meets_handleQuery :
    Meets st request (handleQuery envelope request)
      (MatchSvr.handleQuery st envelope request) s := by
  have hk : Uses st request .directory := by simp [Uses, hregions]
  have hdir := directory_eq hview hk
  refine meets_directory hregions ?_
  rw [handleQuery, MatchSvr.handleQuery]
  cases decodeMatchId envelope.data with
  | error => exact fun u hu => ⟨rfl, (hu.same .directory hk).trans hdir⟩
  | ok m =>
    dsimp only
    refine wp_bind hs (wp_onDirectory hk fun u₁ h₁ hd₁ hk₁ => ?_)
    rw [hdir]
    exact wp_sent hk _ fun u hu => ⟨rfl, (hu.trans hd₁).trans hdir⟩

theorem meets_handleDestroyed :
    Meets st request (handleDestroyed envelope) (MatchSvr.handleDestroyed st envelope) s := by
  have hk : Uses st request .directory := by simp [Uses, hregions]
  have hdir := directory_eq hview hk
  refine meets_directory hregions ?_
  rw [handleDestroyed, MatchSvr.handleDestroyed]
  cases decodeMatchId envelope.data with
  | error => exact fun u hu => ⟨rfl, (hu.same .directory hk).trans hdir⟩
  | ok m =>
    dsimp only
    refine wp_bind hs (wp_onDirectory hk fun u₁ h₁ hd₁ hk₁ => ?_)
    rw [hdir] at hd₁ ⊢
    dsimp only [SyncMap.loadAndDelete] at hd₁ ⊢
    cases hload : st.activeMatches.load m with
    | none =>
      rw [SyncMap.delete_of_load_none _ hload] at hd₁
      exact fun u hu => ⟨rfl, (hu.same .directory hk).trans hd₁⟩
    | some dir =>
      refine wp_decLoad h₁ hk _ fun u hu => ⟨rfl, ?_⟩
      rw [hu, hd₁]

end

theorem meets_handle (grow : Nat → Nat → Nat) (hs : Owned s.queues)
    (hview : ∀ k, Uses st request k → view k s = value k st) :
    Meets st request (handle grow request) (MatchSvr.handle st request) s := by
  rw [handle, MatchSvr.handle]
  by_cases hleave : request.msgID = msgIdSessionForceLeaveQueue
  · rw [if_pos hleave, if_pos hleave]
    exact meets_handleForceLeaveQueue hs hview hleave grow
  rw [if_neg hleave, if_neg hleave]
  cases henv : decodeEnvelope request.data with
  | error => exact meets_nothing (by rw [regions, if_neg hleave, henv])
  | ok envelope =>
    dsimp only
    by_cases henter : request.msgID = msgIdMatchEnterReq
    · rw [if_pos henter, if_pos henter]
      exact meets_handleEnter hs hview hleave henv henter grow
    rw [if_neg henter, if_neg henter]
    have hregions : regions st request = [.directory] := by
      rw [regions, if_neg hleave, henv]
      exact if_neg henter
    by_cases halloc : request.msgID = msgIdMatchAllocateReq
    · rw [if_pos halloc, if_pos halloc]
      exact meets_handleAllocate hs hview hregions
    rw [if_neg halloc, if_neg halloc]
    by_cases hquery : request.msgID = msgIdMatchQueryReq
    · rw [if_pos hquery, if_pos hquery]
      exact meets_handleQuery hs hview hregions
    rw [if_neg hquery, if_neg hquery]
    by_cases hdestroyed : request.msgID = msgIdRoomDestroyedPush
    · rw [if_pos hdestroyed, if_pos hdestroyed]
      exact meets_handleDestroyed hs hview hregions
    rw [if_neg hdestroyed, if_neg hdestroyed]
    have hk : Uses st request .directory := by simp [Uses, hregions]
    exact meets_directory hregions fun u hu =>
      ⟨rfl, (hu.same .directory hk).trans (directory_eq hview hk)⟩

-- ---------------------------------------------------------------------------
-- Every interleaving
-- ---------------------------------------------------------------------------

theorem value_leaveQueue (st : Matches) (p : Int64) (h : k ≠ .queue t) :
    value k (st.leaveQueue t p) = value k st := by
  unfold Matches.leaveQueue
  split
  next => rfl
  next =>
    split
    next =>
      cases k with
      | directory => rfl
      | queue j => exact congrArg Sum.inl (SyncMap.load_store_ne _ _ fun hj => h (hj ▸ rfl))
    next => rfl

theorem load_enterQueue_ne (queues : SyncMap String (List QueuedPlayer)) (player : QueuedPlayer)
    (h : j ≠ t) :
    (enterQueue queues t player).1.load j = queues.load j := by
  by_cases hfull : requiredPlayers t ≤ ((queues.load t).getD [] ++ [player]).length
  · rw [Fifo.enterQueue_full hfull rfl, SyncMap.load_store_ne _ _ h, SyncMap.load_store_ne _ _ h]
  · rw [Fifo.enterQueue_short (not_le.mp hfull) rfl, SyncMap.load_store_ne _ _ h]

theorem load_handleEnter_ne (hreq : decodeMatchEnterReq envelope.data = .ok req)
    (h : j ≠ req.matchType) :
    (MatchSvr.handleEnter st envelope request).1.queues.load j = st.queues.load j := by
  rw [MatchSvr.handleEnter, hreq]
  dsimp only
  split
  next => exact load_enterQueue_ne st.queues _ h
  next => exact load_enterQueue_ne st.queues _ h

theorem directory_handleEnter (hreq : decodeMatchEnterReq envelope.data = .ok req)
    (h : ¬ Completes st req.matchType) :
    value .directory (MatchSvr.handleEnter st envelope request).1 = value .directory st := by
  rw [MatchSvr.handleEnter, hreq]
  dsimp only
  rw [Fifo.enterQueue_short (Nat.not_le.mp fun hle => h ?_) rfl]
  · rfl
  · rwa [List.length_append, List.length_singleton] at hle

theorem value_handle_other (st : Matches) (h : ¬ Uses st request k) :
    value k (MatchSvr.handle st request).1 = value k st := by
  rw [Uses, regions] at h
  rw [MatchSvr.handle]
  by_cases hleave : request.msgID = msgIdSessionForceLeaveQueue
  · rw [if_pos hleave] at h ⊢
    rw [MatchSvr.handleForceLeaveQueue]
    cases hd : decodeSessionData request.data with
    | error => rfl
    | ok data =>
      rw [hd] at h
      exact value_leaveQueue st _ fun hk => h (List.mem_singleton.mpr hk)
  rw [if_neg hleave] at h ⊢
  cases henv : decodeEnvelope request.data with
  | error => rfl
  | ok envelope =>
    rw [henv] at h
    dsimp only at h ⊢
    by_cases henter : request.msgID = msgIdMatchEnterReq
    · rw [if_pos henter] at h ⊢
      cases hreq : decodeMatchEnterReq envelope.data with
      | error => rw [MatchSvr.handleEnter, hreq]
      | ok req =>
        rw [hreq] at h
        cases k with
        | directory =>
          refine directory_handleEnter hreq fun hc => h ?_
          dsimp only
          rw [if_pos hc]
          exact List.mem_cons_of_mem _ (List.mem_singleton_self _)
        | queue j =>
          refine congrArg Sum.inl (load_handleEnter_ne hreq fun hj => h ?_)
          rw [hj]
          exact List.mem_cons_self
    rw [if_neg henter] at h
    cases k with
    | directory => exact absurd (List.mem_singleton_self _) h
    | queue j =>
      have hnone : Fifo.message request = none := by rw [Fifo.message, if_neg hleave, if_neg henter]
      have hqueues := (Fifo.handle_none hnone st).1
      rw [MatchSvr.handle, if_neg hleave, henv] at hqueues
      exact congrArg (fun q => Sum.inl (q.load j)) hqueues

def sequential (request : Request) (st : Matches) : Matches × List Outgoing :=
  MatchSvr.handle st request

theorem implements (grow : Nat → Nat → Nat) :
    Implements whole Uses (handle grow) sequential view value where
  same
    | .queue _, _, _, hs, hsame => congrArg Sum.inl (view_same hs hsame)
    | .directory, _, _, _, hsame => congrArg Sum.inr hsame
  other _ st _ h := value_handle_other st h
  code _ _ _ hs hview := meets_handle grow hs hview

def after (requests : List Request) : Matches := Goroutine.after sequential {} requests

theorem apart_start (s : Goroutine.State Request Memory Outgoing) (request : Request) :
    (∀ i < s.threads.length, ∀ t ∈ s.threads[i]?, t.prog.finished = false →
      ∀ k ∈ regions (after s.requests) request, k ∉ regions (after (s.requests.take i)) t.request) ↔
      Apart Uses sequential {} s (.start request) := by
  rw [apart_start_iff]
  rfl

instance (s : Goroutine.State Request Memory Outgoing) : DecidablePred (Apart Uses sequential {} s)
  | .start request => decidable_of_iff _ (apart_start s request)
  | .run _ => inferInstanceAs (Decidable True)

/-- Every handler that has returned has sent what it would have sent had the requests
come one after the other, in the order they started in. A queue or directory that nobody
works on is as it would be then. A handler that is left alone returns. -/
theorem matches_serialized (grow : Nat → Nat → Nat)
    (ha : Along (step (handle grow)) (Apart Uses sequential {}) { mem := {} } es)
    (hr : run (step (handle grow)) { mem := {} } es = some s) :
    (∀ (i : Nat) (t : Thread Request Memory Outgoing), s.threads[i]? = some t →
      t.prog.finished = true →
      t.sent = (MatchSvr.handle (after (s.requests.take i)) t.request).2) ∧
    (∀ k, (∀ (i : Nat) (t : Thread Request Memory Outgoing), s.threads[i]? = some t →
        t.prog.finished = false → k ∉ regions (after (s.requests.take i)) t.request) →
      view k s.mem = value k (after s.requests)) ∧
    ∀ i t, s.threads[i]? = some t →
      ∃ n s' t', run (step (handle grow)) s (List.replicate n (.run i)) = some s' ∧
      s'.threads[i]? = some t' ∧ t'.prog.finished = true := by
  have hempty : whole.Inv {} := by simp [Owned]
  have hview : ∀ k, view k {} = value k {} := by
    intro k
    cases k with
    | queue t => simp [view, value, Mem.view]
    | directory => rfl
  have h := serializable (implements grow) hempty hview ha hr
  exact ⟨h.done, h.idle, fun i t hi => exists_finished (handle grow) s hi⟩

def enterOf (matchType : String) (player : Int64) (connId : UInt64) (now : Int) :
    Goroutine.Event Request :=
  .start ⟨msgIdMatchEnterReq, marshalEnvelope connId (Wire.fields [(1, .len (utf8 matchType))])
    [(tagPlayerID, Strconv.formatInt player)], 1,
    { reg := { identity := svcMatchSvr }, roomSvrs := shippedRoomSvrs, now }⟩

def leaveOf (matchType : String) (player : Int64) : Goroutine.Event Request :=
  .start ⟨msgIdSessionForceLeaveQueue,
    Wire.fields (sessionFields (forceLeaveQueue player matchType) [(tagMatchType, matchType)]), 2,
    { reg := { identity := svcMatchSvr } }⟩

-- Players 5 and 7 enter two queues at the same time. Player 8 then makes a match in the one
-- while player 5 leaves the other, and player 6 enters it.
def twoQueues : List (Goroutine.Event Request) :=
  [enterOf "2v2" 5 3 10, enterOf "1v1" 7 4 20] ++ (List.replicate 4 [.run 0, .run 1]).flatten ++
  [enterOf "1v1" 8 5 30, leaveOf "2v2" 5] ++ (List.replicate 4 [.run 2, .run 3]).flatten ++
  [enterOf "2v2" 6 6 40] ++ (List.replicate 4 [.run 4, .run 2]).flatten ++ List.replicate 7 (.run 2)

theorem twoQueues_serialized :
    ∃ s, run (step (handle double)) { mem := {} } twoQueues = some s ∧
      s.threads.map (·.prog.finished) = List.replicate 5 true ∧
      view (.queue "2v2") s.mem = value (.queue "2v2") (after s.requests) := by
  have hrun : ∃ s ∈ run (step (handle double)) { mem := {} } twoQueues,
      s.threads.map (·.prog.finished) = List.replicate 5 true ∧
        ∀ t ∈ s.threads, t.prog.finished = true := by
    decide +kernel
  obtain ⟨s, hs, hfin, hall⟩ := hrun
  refine ⟨s, hs, hfin, (matches_serialized double (by decide +kernel) hs).2.1 _
    fun i t hi hrunning => ?_⟩
  rw [hall t (List.mem_of_getElem? hi)] at hrunning
  cases hrunning

-- Players 7, 8 and 9 wait in an array that has room for one more. Then 10 and 11 enter.
def overlap : List (Goroutine.Event Request) :=
  [enterOf "2v2" 7 3 10] ++ List.replicate 4 (.run 0) ++ [enterOf "2v2" 8 4 20] ++
    List.replicate 4 (.run 1) ++
  [enterOf "2v2" 9 5 30] ++ List.replicate 4 (.run 2) ++
  [enterOf "2v2" 10 6 40, enterOf "2v2" 11 7 50, .run 3, .run 4, .run 3, .run 4] ++
  List.replicate 19 (.run 3) ++ List.replicate 19 (.run 4)

def pushed (out : Outgoing) : Option (UInt64 × List Int64) :=
  match out.content with
  | .envelope senderID (.matchResultPush _ _ players _) _ => some (senderID, players)
  | _ => none

/-- The client of player 10 is told of no match, and the four others of two. -/
theorem overlap_loses :
    ∃ s ∈ run (step (handle double)) { mem := {} } overlap,
      s.threads.map (·.prog.finished) = List.replicate 5 true ∧
      s.mem.queues.view "2v2" = some [] ∧
      s.threads.map (·.sent.filterMap pushed) = List.replicate 3 [] ++
        List.replicate 2 [(3, [7, 8, 9, 11]), (4, [7, 8, 9, 11]), (5, [7, 8, 9, 11]),
          (7, [7, 8, 9, 11])] := by
  decide +kernel

end Cardwar.MatchSvr.Slices
