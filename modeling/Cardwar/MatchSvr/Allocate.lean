import Cardwar.Lib.Run
import Cardwar.MatchSvr.Router

/-!
# Concurrent allocation

`handleAllocate` looks a match up, picks a server, stores the match and counts
it in separate operations on two maps. Here each map operation is one step, and
the steps of the handlers interleave. `handleDestroyed` runs between them. A
handler that runs alone is the one in `Router` (`allocate_alone`,
`destroyed_alone`).
-/

namespace Cardwar.MatchSvr.Allocate

open Protocol Codec Pkg Conf
open Run (run Along)

/-- The next operation of a handler, with its local variables. -/
inductive Pc
  /-- `loadCounts.Load` of the first server left; without one the choice is made. -/
  | pick (servers : List ServerNode) (best : String) (minCount : Int)
  | store (serverID : String)
  /-- `incLoad`: `LoadOrStore`, then `Store`. -/
  | incLoad (serverID : String)
  | incStore (serverID : String) (count : Int)
  | answer (serverID errMsg : String)
  /-- `decLoad`: `Load`, then `Delete` or `Store`. -/
  | decLoad (serverID : String)
  | decStore (serverID : String) (count : Int)
  | done
  deriving DecidableEq

structure Handler where
  conn : UInt64
  senderID : UInt64
  matchID : String
  pc : Pc
  deriving DecidableEq

inductive Logged
  | answered (conn senderID : UInt64) (matchID serverID errMsg : String)
  | removed (matchID : String)
  deriving DecidableEq

structure State where
  activeMatches : SyncMap String MatchDir := ∅
  loadCounts : SyncMap String Int := ∅
  handlers : List Handler := []
  log : List Logged := []

inductive Event
  /-- A MatchAllocateReq: `activeMatches.Load`. The servers are those it will read. -/
  | allocate (conn senderID : UInt64) (matchID : String) (servers : List ServerNode)
  /-- A RoomDestroyedPush: `LoadAndDelete`. -/
  | destroyed (conn senderID : UInt64) (matchID : String)
  | next (i : Nat)

def State.move (s : State) (i : Nat) (h : Handler) (pc : Pc) : State :=
  { s with handlers := s.handlers.set i { h with pc } }

def State.start (s : State) (h : Handler) : State := { s with handlers := s.handlers ++ [h] }

def State.next (s : State) (i : Nat) (h : Handler) : Option State :=
  match h.pc with
  | .pick (srv :: servers) best minCount =>
    let count := (s.loadCounts.load srv.id).getD 0
    some (s.move i h (if count < minCount then .pick servers srv.id count
      else .pick servers best minCount))
  | .pick [] best _ =>
    some (s.move i h (if best = "" then .answer "" "no roomsvr available" else .store best))
  | .store serverID =>
    some { s.move i h (.incLoad serverID) with
      activeMatches := s.activeMatches.store h.matchID ⟨serverID, "allocated"⟩ }
  | .incLoad serverID =>
    let (count, loadCounts) := s.loadCounts.loadOrStore serverID 0
    some { s.move i h (.incStore serverID count) with loadCounts }
  | .incStore serverID count =>
    some { s.move i h (.answer serverID "") with
      loadCounts := s.loadCounts.store serverID (count + 1) }
  | .answer serverID errMsg =>
    some { s.move i h .done with
      log := s.log ++ [Logged.answered h.conn h.senderID h.matchID serverID errMsg] }
  | .decLoad serverID => match s.loadCounts.load serverID with
    | none => some (s.move i h .done)
    | some n => some (s.move i h (.decStore serverID (n - 1)))
  | .decStore serverID count =>
    some { s.move i h .done with
      loadCounts := if count ≤ 0 then s.loadCounts.delete serverID
        else s.loadCounts.store serverID count }
  | .done => none

def step (s : State) : Event → Option State
  | .allocate conn senderID matchID servers =>
    some (s.start ⟨conn, senderID, matchID,
      if (s.activeMatches.load matchID).isSome then .answer "" "already exists"
      else .pick servers "" maxInt⟩)
  | .destroyed conn senderID matchID => match s.activeMatches.loadAndDelete matchID with
    | (none, _) => some (s.start ⟨conn, senderID, matchID, .done⟩)
    | (some dir, activeMatches) =>
      some { s.start ⟨conn, senderID, matchID, .decLoad dir.serverID⟩ with
        activeMatches, log := s.log ++ [Logged.removed matchID] }
  | .next i => s.handlers[i]?.bind (s.next i)

-- ---------------------------------------------------------------------------
-- A handler alone
-- ---------------------------------------------------------------------------

def Logged.sent : Logged → Option Outgoing
  | .answered conn senderID matchID serverID errMsg =>
    some (sendAllocateResp conn senderID matchID serverID errMsg)
  | .removed _ => none

theorem step_start (s : State) (h : Handler) :
    step (s.start h) (.next s.handlers.length) = (s.start h).next s.handlers.length h := by
  simp [step, State.start]

theorem move_start (s : State) (h : Handler) (pc : Pc) :
    (s.start h).move s.handlers.length h pc = s.start { h with pc } := by
  simp [State.move, State.start]

theorem run_next (s : State) (h : Handler) (n : Nat) :
    run step (s.start h) (List.replicate (n + 1) (.next s.handlers.length)) =
      ((s.start h).next s.handlers.length h).bind
        (run step · (List.replicate n (.next s.handlers.length))) := by
  rw [List.replicate_succ, run, step_start]

/-- One round of the loop in `pickLeastLoaded`. -/
def consider (loadCounts : SyncMap String Int) (best : String × Int) (srv : ServerNode) :
    String × Int :=
  let count := (loadCounts.load srv.id).getD 0
  if count < best.2 then (srv.id, count) else best

theorem pickLeastLoaded_eq (servers : List ServerNode) (loadCounts : SyncMap String Int) :
    pickLeastLoaded servers loadCounts = (servers.foldl (consider loadCounts) ("", maxInt)).1 := rfl

theorem run_pick (s : State) (h : Handler) (servers : List ServerNode) (best : String × Int)
    (n : Nat) :
    run step (s.start { h with pc := .pick servers best.1 best.2 })
        (List.replicate (servers.length + n) (.next s.handlers.length)) =
      let chosen := servers.foldl (consider s.loadCounts) best
      run step (s.start { h with pc := .pick [] chosen.1 chosen.2 })
        (List.replicate n (.next s.handlers.length)) := by
  induction servers generalizing best with
  | nil => simp
  | cons srv servers ih =>
    have hnext : (s.start { h with pc := .pick (srv :: servers) best.1 best.2 }).next
        s.handlers.length
          { h with pc := .pick (srv :: servers) best.1 best.2 } =
        some (s.start { h with
          pc := .pick servers (consider s.loadCounts best srv).1
            (consider s.loadCounts best srv).2 }) := by
      have hpc : (if (s.loadCounts.load srv.id).getD 0 < best.2 then
            Pc.pick servers srv.id ((s.loadCounts.load srv.id).getD 0)
              else .pick servers best.1 best.2) =
          .pick servers (consider s.loadCounts best srv).1 (consider s.loadCounts best srv).2 := by
        simp only [consider]
        split <;> rfl
      rw [← hpc]
      exact congrArg some (move_start s { h with pc := .pick (srv :: servers) best.1 best.2 } _)
    rw [List.length_cons, Nat.add_right_comm, run_next, hnext, Option.bind_some, ih]
    rfl

theorem run_chosen (s : State) (h : Handler) (best : String) (minCount : Int) (hbest : best ≠ "") :
    run step (s.start { h with pc := .pick [] best minCount })
    (List.replicate 5 (.next s.handlers.length)) =
      some ⟨s.activeMatches.store h.matchID ⟨best, "allocated"⟩, MatchSvr.incLoad s.loadCounts best,
        s.handlers ++ [{ h with pc := .done }],
        s.log ++ [Logged.answered h.conn h.senderID h.matchID best ""]⟩ := by
  simp [run, step, State.next, State.move, State.start, hbest, MatchSvr.incLoad]

theorem allocate_alone (hdec : decodeMatchId envelope.data = .ok m) (s : State)
    (queues : SyncMap String (List QueuedPlayer)) (request : Request) :
    ∃ n activeMatches loadCounts sent,
      run step s (.allocate request.conn envelope.connId m request.env.roomSvrs ::
          List.replicate n (.next s.handlers.length)) =
        some ⟨activeMatches, loadCounts, s.handlers ++ [⟨request.conn, envelope.connId, m, .done⟩],
          s.log ++ sent⟩ ∧
      handleAllocate ⟨s.activeMatches, queues, s.loadCounts⟩ envelope request =
        (⟨activeMatches, queues, loadCounts⟩, sent.filterMap Logged.sent) := by
  have hdone (errMsg : String) :
      run step (s.start ⟨request.conn, envelope.connId, m, .answer "" errMsg⟩)
      [.next s.handlers.length] = some ⟨s.activeMatches, s.loadCounts,
        s.handlers ++ [⟨request.conn, envelope.connId, m, .done⟩],
        s.log ++ [Logged.answered request.conn envelope.connId m "" errMsg]⟩ := by
    simp [run, step, State.next, State.move, State.start]
  simp only [handleAllocate, hdec, run, step, Option.bind_some]
  by_cases hsome : (s.activeMatches.load m).isSome
  · refine ⟨1, s.activeMatches, s.loadCounts,
      [.answered request.conn envelope.connId m "" "already exists"], ?_, ?_⟩
    · rw [if_pos hsome]
      exact hdone _
    · rw [if_pos hsome]
      rfl
  let h : Handler := ⟨request.conn, envelope.connId, m, .done⟩
  have hpick (n : Nat) := run_pick s h request.env.roomSvrs ("", maxInt) n
  simp only [← pickLeastLoaded_eq] at hpick
  rw [if_neg hsome]
  by_cases hbest : pickLeastLoaded request.env.roomSvrs s.loadCounts = ""
  · refine ⟨request.env.roomSvrs.length + 2, s.activeMatches, s.loadCounts,
      [.answered request.conn envelope.connId m "" "no roomsvr available"], ?_, ?_⟩
    · rw [hpick, run_next]
      simp only [State.next, hbest, if_true, move_start, Option.bind_some]
      exact hdone _
    · rw [if_neg hsome, if_pos hbest]
      rfl
  · refine ⟨_, _, _, _, (hpick 5).trans (run_chosen s h _ _ hbest), ?_⟩
    rw [if_neg hsome, if_neg hbest]
    rfl

theorem destroyed_alone (hdec : decodeMatchId envelope.data = .ok m) (s : State)
    (queues : SyncMap String (List QueuedPlayer)) (request : Request) :
    ∃ n activeMatches loadCounts sent,
      run step s (.destroyed request.conn envelope.connId m :: List.replicate n
        (.next s.handlers.length)) =
        some ⟨activeMatches, loadCounts, s.handlers ++ [⟨request.conn, envelope.connId, m, .done⟩],
          s.log ++ sent⟩ ∧
      handleDestroyed ⟨s.activeMatches, queues, s.loadCounts⟩ envelope =
        (⟨activeMatches, queues, loadCounts⟩, sent.filterMap Logged.sent) := by
  simp only [handleDestroyed, hdec, run, step, SyncMap.loadAndDelete]
  cases hdir : s.activeMatches.load m with
  | none => exact ⟨0, s.activeMatches, s.loadCounts, [], by simp [run, State.start], rfl⟩
  | some dir =>
    cases hload : s.loadCounts.load dir.serverID with
    | none =>
      refine ⟨1, s.activeMatches.delete m, s.loadCounts, [.removed m], ?_, ?_⟩
      · simp [run, step, State.next, State.move, State.start, hload]
      · simp [decLoad, hload, Logged.sent]
    | some n =>
      refine ⟨2, s.activeMatches.delete m, decLoad s.loadCounts dir.serverID, [.removed m], ?_, rfl⟩
      simp [run, step, State.next, State.move, State.start, hload, decLoad]

-- ---------------------------------------------------------------------------
-- Exclusive allocation
-- ---------------------------------------------------------------------------

/-- The servers named by the success answers for a match since it was last
removed. -/
def since (m : String) (log : List Logged) : List String :=
  log.foldl (fun servers entry => match entry with
    | .answered _ _ matchID serverID errMsg =>
      if matchID = m ∧ errMsg = "" then servers ++ [serverID] else servers
    | .removed matchID => if matchID = m then [] else servers) []

def State.Holds (s : State) (m serverID : String) : Prop :=
  ∃ dir, s.activeMatches.load m = some dir ∧ dir.serverID = serverID

/-- Never two success answers for a match without a removal between them, and
the directory has what the last one said. -/
structure Allocated (s : State) : Prop where
  once : ∀ m log, log <+: s.log → (since m log).length ≤ 1
  named : ∀ m, ∀ serverID ∈ since m s.log, s.Holds m serverID

def Pc.placed : Pc → Option String
  | .incLoad serverID => some serverID
  | .incStore serverID _ => some serverID
  | .answer serverID errMsg => if errMsg = "" then some serverID else none
  | _ => none

def Pc.Stores : Pc → Bool
  | .store _ => true
  | _ => false

/-- A match is stored only while it is not in the directory, and removed only
when the allocation that stored it has been answered. -/
def Undisturbed (s : State) : Event → Prop
  | .allocate .. => True
  | .destroyed _ _ matchID => ∀ h ∈ s.handlers, h.matchID = matchID → h.pc.placed = none
  | .next i => ∀ h ∈ s.handlers[i]?, h.pc.Stores → s.activeMatches.load h.matchID = none

instance (s : State) : ∀ e, Decidable (Undisturbed s e)
  | .allocate .. => inferInstanceAs (Decidable True)
  | .destroyed _ _ matchID =>
    inferInstanceAs (Decidable (∀ h ∈ s.handlers, h.matchID = matchID → h.pc.placed = none))
  | .next i =>
    inferInstanceAs
      (Decidable (∀ h ∈ s.handlers[i]?, h.pc.Stores → s.activeMatches.load h.matchID = none))

theorem since_removed (m m' : String) (log : List Logged) :
    since m (log ++ [Logged.removed m']) = if m' = m then [] else since m log := by
  simp [since]

theorem since_answered (m m' serverID errMsg : String) (conn senderID : UInt64)
    (log : List Logged) :
    since m (log ++ [Logged.answered conn senderID m' serverID errMsg]) =
      if m' = m ∧ errMsg = "" then since m log ++ [serverID] else since m log := by
  simp [since]

def State.Placing (s : State) (i : Nat) (m serverID : String) : Prop :=
  ∃ h, s.handlers[i]? = some h ∧ h.matchID = m ∧ h.pc.placed = some serverID

structure Inv (s : State) : Prop extends Allocated s where
  placing : ∀ i m serverID, s.Placing i m serverID → s.Holds m serverID ∧ since m s.log = []
  alone : ∀ i j m a b, s.Placing i m a → s.Placing j m b → i = j

inductive Effect (s : State) (e : Event) (s' : State) : Prop
  | quiet (hm : s'.activeMatches = s.activeMatches) (hl : s'.log = s.log)
      (hp : ∀ j m v, s'.Placing j m v → s.Placing j m v)
  | refused (hm : s'.activeMatches = s.activeMatches)
      (hl : s'.log = s.log ++ [Logged.answered conn senderID m serverID errMsg])
      (herr : errMsg ≠ "") (hp : ∀ j m v, s'.Placing j m v → s.Placing j m v)
  | stored (hev : Undisturbed s e → s.activeMatches.load m = none)
      (hm : s'.activeMatches = s.activeMatches.store m ⟨serverID, "allocated"⟩)
      (hl : s'.log = s.log)
      (hp : ∀ j m' v, s'.Placing j m' v → s.Placing j m' v ∨ j = i ∧ m' = m ∧ v = serverID)
  | answered (hm : s'.activeMatches = s.activeMatches) (hi : s.Placing i m serverID)
      (hl : s'.log = s.log ++ [Logged.answered conn senderID m serverID ""])
      (hp : ∀ j m' v, s'.Placing j m' v → s.Placing j m' v ∧ j ≠ i)
  | removed (hev : Undisturbed s e → ∀ j v, ¬s.Placing j m v)
      (hm : s'.activeMatches = s.activeMatches.delete m) (hl : s'.log = s.log ++ [Logged.removed m])
      (hp : ∀ j m v, s'.Placing j m v → s.Placing j m v)

theorem placing_move (hs' : s'.handlers = (State.move s i h pc).handlers)
    (hp : State.Placing s' j m v) :
    s.Placing j m v ∧ j ≠ i ∨ j = i ∧ m = h.matchID ∧ pc.placed = some v := by
  obtain ⟨g, hg, hm, hv⟩ := hp
  rw [hs', State.move, List.getElem?_set] at hg
  split at hg
  next hij =>
    split at hg <;> cases hg
    exact .inr ⟨hij.symm, hm.symm, hv⟩
  next hij => exact .inl ⟨⟨g, hg, hm, hv⟩, Ne.symm hij⟩

theorem placing_kept (hh : s.handlers[i]? = some h)
    (hs' : s'.handlers = (State.move s i h pc).handlers)
    (hpc : ∀ v, pc.placed = some v → h.pc.placed = some v) (j : Nat) (m v : String)
    (hp : State.Placing s' j m v) : s.Placing j m v := by
  rcases placing_move hs' hp with ⟨hold, -⟩ | ⟨rfl, rfl, hv⟩
  · exact hold
  · exact ⟨h, hh, rfl, hpc v hv⟩

theorem placing_over (hs' : s'.handlers = (State.move s i h pc).handlers)
    (hpc : pc.placed = none) (j : Nat)
    (m v : String) (hp : State.Placing s' j m v) : s.Placing j m v := by
  rcases placing_move hs' hp with ⟨hold, -⟩ | ⟨-, -, hv⟩
  · exact hold
  · rw [hpc] at hv
    cases hv

theorem placing_start (hs' : s'.handlers = (State.start s h).handlers) (hh : h.pc.placed = none)
    (j : Nat) (m v : String) (hp : State.Placing s' j m v) : s.Placing j m v := by
  obtain ⟨g, hg, hm, hv⟩ := hp
  rw [hs', State.start] at hg
  rcases lt_trichotomy j s.handlers.length with hlt | rfl | hgt
  · rw [List.getElem?_append_left hlt] at hg
    exact ⟨g, hg, hm, hv⟩
  · rw [List.getElem?_concat_length] at hg
    rw [← Option.some.inj hg, hh] at hv
    cases hv
  · rw [List.getElem?_eq_none (by simpa using hgt)] at hg
    cases hg

theorem effect_next (hh : s.handlers[i]? = some h) (hs : State.next s i h = some s') :
    Effect s (.next i) s' := by
  obtain ⟨conn, senderID, matchID, pc⟩ := h
  cases pc with
  | pick servers best minCount =>
    cases servers with
    | nil =>
      cases hs
      refine .quiet rfl rfl (placing_over rfl ?_)
      split <;> rfl
    | cons srv servers =>
      cases hs
      refine .quiet rfl rfl (placing_over rfl ?_)
      split <;> rfl
  | store serverID =>
    cases hs
    refine .stored (i := i) (fun hok => hok _ hh rfl) rfl rfl fun j m v hp => ?_
    rcases placing_move rfl hp with ⟨hold, -⟩ | ⟨rfl, rfl, hv⟩
    · exact .inl hold
    · exact .inr ⟨rfl, rfl, (Option.some.inj hv).symm⟩
  | incLoad serverID =>
    cases hs
    exact .quiet rfl rfl (placing_kept hh rfl fun v hv => hv)
  | incStore serverID count =>
    cases hs
    exact .quiet rfl rfl (placing_kept hh rfl fun v hv => hv)
  | answer serverID errMsg =>
    cases hs
    by_cases herr : errMsg = ""
    · subst herr
      refine .answered rfl ⟨_, hh, rfl, rfl⟩ rfl fun j m v hp => ?_
      rcases placing_move rfl hp with hold | ⟨-, -, hv⟩
      · exact hold
      · cases hv
    · exact .refused rfl rfl herr (placing_over rfl rfl)
  | decLoad serverID =>
    unfold State.next at hs
    dsimp only at hs
    split at hs <;> cases hs
    · exact .quiet rfl rfl (placing_over rfl rfl)
    · exact .quiet rfl rfl (placing_over rfl rfl)
  | decStore serverID count =>
    cases hs
    exact .quiet rfl rfl (placing_over rfl rfl)
  | done => cases hs

theorem effect (hs : step s e = some s') : Effect s e s' := by
  cases e with
  | allocate conn senderID matchID servers =>
    cases hs
    refine .quiet rfl rfl (placing_start rfl ?_)
    dsimp only
    split <;> rfl
  | destroyed conn senderID matchID =>
    simp only [step, SyncMap.loadAndDelete] at hs
    cases hload : s.activeMatches.load matchID with
    | none =>
      rw [hload] at hs
      cases hs
      exact .quiet rfl rfl (placing_start rfl rfl)
    | some dir =>
      rw [hload] at hs
      cases hs
      refine .removed (fun hok j v => ?_) rfl rfl (placing_start rfl rfl)
      rintro ⟨h, hh, hm, hv⟩
      rw [hok h (List.mem_of_getElem? hh) hm] at hv
      cases hv
  | next i =>
    obtain ⟨h, hh, hs⟩ := Option.bind_eq_some_iff.mp hs
    exact effect_next hh hs

theorem holds_of_eq (hm : s'.activeMatches = s.activeMatches) (h : State.Holds s m v) :
    State.Holds s' m v := by
  unfold State.Holds
  rwa [hm]

theorem once_concat (h : ∀ m log, log <+: l → (since m log).length ≤ 1)
    (hx : ∀ m, (since m (l ++ [x])).length ≤ 1) (m : String) (log : List Logged)
    (hp : log <+: l ++ [x]) :
    (since m log).length ≤ 1 := by
  rcases List.prefix_concat_iff.mp hp with rfl | hold
  · exact hx m
  · exact h m log hold

theorem Inv.kept (h : Inv s) (hm : s'.activeMatches = s.activeMatches)
    (hp : ∀ j m v, State.Placing s' j m v → s.Placing j m v)
    (hl : s'.log = s.log ∨ ∃ x, s'.log = s.log ++ [x])
    (hsince : ∀ m, since m s'.log = since m s.log) : Inv s' where
  once m log hpre := by
    rcases hl with hl | ⟨x, hl⟩
    · exact h.once m log (hl ▸ hpre)
    · rw [hl] at hpre
      refine once_concat h.once (fun m => ?_) m log hpre
      rw [← hl, hsince]
      exact h.once m s.log List.prefix_rfl
  named m v hv := holds_of_eq hm (h.named m v (hsince m ▸ hv))
  placing j m v hj := by
    obtain ⟨hholds, hnone⟩ := h.placing j m v (hp j m v hj)
    exact ⟨holds_of_eq hm hholds, (hsince m).trans hnone⟩
  alone i j m a b hi hj := h.alone i j m a b (hp i m a hi) (hp j m b hj)

theorem Inv.stored (h : Inv s) (hnew : s.activeMatches.load m = none)
    (hm : s'.activeMatches = s.activeMatches.store m ⟨serverID, "allocated"⟩) (hl : s'.log = s.log)
    (hp : ∀ j m' v, State.Placing s' j m' v → s.Placing j m' v ∨ j = i ∧ m' = m ∧ v = serverID) :
    Inv s' := by
  have hne : ∀ m' v, s.Holds m' v → m' ≠ m := by
    rintro m' v ⟨dir, hdir, -⟩ rfl
    rw [hnew] at hdir
    cases hdir
  have hkeep : ∀ m' v, s.Holds m' v → s'.Holds m' v := by
    intro m' v hv
    obtain ⟨dir, hdir, rfl⟩ := hv
    refine ⟨dir, ?_, rfl⟩
    rw [hm, SyncMap.load_store_ne _ _ (hne m' _ ⟨dir, hdir, rfl⟩), hdir]
  have hnone : since m s.log = [] :=
    List.eq_nil_iff_forall_not_mem.mpr fun v hv => hne m v (h.named m v hv) rfl
  have hfree : ∀ j v, ¬s.Placing j m v := fun j v hj => hne m v (h.placing j m v hj).1 rfl
  refine ⟨⟨hl ▸ h.once, fun m' v hv => hkeep m' v (h.named m' v (hl ▸ hv))⟩,
    fun j m' v hj => ?_, ?_⟩
  · rw [hl]
    rcases hp j m' v hj with hold | ⟨-, rfl, rfl⟩
    · obtain ⟨hholds, hnone⟩ := h.placing j m' v hold
      exact ⟨hkeep m' v hholds, hnone⟩
    · exact ⟨⟨_, by rw [hm, SyncMap.load_store_self], rfl⟩, hnone⟩
  · intro j k m' a b hj hk
    rcases hp j m' a hj with hj | ⟨rfl, rfl, -⟩ <;> rcases hp k m' b hk with hk | ⟨rfl, hkm, -⟩
    · exact h.alone j k m' a b hj hk
    · exact absurd (hkm ▸ hj) (hfree j a)
    · exact absurd hk (hfree k b)
    · rfl

theorem Inv.answered (h : Inv s) (hm : s'.activeMatches = s.activeMatches)
    (hi : s.Placing i m serverID)
    (hl : s'.log = s.log ++ [Logged.answered conn senderID m serverID ""])
    (hp : ∀ j m' v, State.Placing s' j m' v → s.Placing j m' v ∧ j ≠ i) : Inv s' := by
  obtain ⟨hholds, hnone⟩ := h.placing i m serverID hi
  have hsince : ∀ m', since m' s'.log = if m' = m then [serverID] else since m' s.log := by
    intro m'
    rw [hl, since_answered]
    by_cases hm' : m' = m
    · rw [if_pos ⟨hm'.symm, rfl⟩, if_pos hm', hm', hnone, List.nil_append]
    · rw [if_neg fun hc => hm' hc.1.symm, if_neg hm']
  refine ⟨⟨?_, fun m' v hv => ?_⟩, fun j m' v hj => ?_, fun j k m' a b hj hk => ?_⟩
  · rw [hl]
    refine once_concat h.once fun m' => ?_
    rw [← hl, hsince]
    split
    · exact le_rfl
    · exact h.once m' s.log List.prefix_rfl
  · rw [hsince] at hv
    split at hv
    next heq =>
      rw [heq, List.mem_singleton.mp hv]
      exact holds_of_eq hm hholds
    next => exact holds_of_eq hm (h.named m' v hv)
  · obtain ⟨hold, hji⟩ := hp j m' v hj
    obtain ⟨hholds', hnone'⟩ := h.placing j m' v hold
    have hne : m' ≠ m := fun heq => hji (h.alone j i m v serverID (heq ▸ hold) hi)
    exact ⟨holds_of_eq hm hholds', by rw [hsince, if_neg hne, hnone']⟩
  · exact h.alone j k m' a b (hp j m' a hj).1 (hp k m' b hk).1

theorem Inv.removed (h : Inv s) (hfree : ∀ j v, ¬s.Placing j m v)
    (hm : s'.activeMatches = s.activeMatches.delete m) (hl : s'.log = s.log ++ [Logged.removed m])
    (hp : ∀ j m v, State.Placing s' j m v → s.Placing j m v) : Inv s' := by
  have hkeep : ∀ m' v, m' ≠ m → s.Holds m' v → s'.Holds m' v := by
    rintro m' v hne ⟨dir, hdir, hv⟩
    exact ⟨dir, by rw [hm, SyncMap.load_delete_ne _ hne, hdir], hv⟩
  have hsince : ∀ m', since m' s'.log = if m' = m then [] else since m' s.log := by
    intro m'
    rw [hl, since_removed]
    by_cases hm' : m' = m
    · rw [if_pos hm'.symm, if_pos hm']
    · rw [if_neg (Ne.symm hm'), if_neg hm']
  refine ⟨⟨?_, fun m' v hv => ?_⟩, fun j m' v hj => ?_, fun j k m' a b hj hk => ?_⟩
  · rw [hl]
    refine once_concat h.once fun m' => ?_
    rw [← hl, hsince]
    split
    · exact Nat.zero_le _
    · exact h.once m' s.log List.prefix_rfl
  · rw [hsince] at hv
    split at hv
    next => cases hv
    next hne => exact hkeep m' v hne (h.named m' v hv)
  · obtain ⟨hholds, hnone⟩ := h.placing j m' v (hp j m' v hj)
    have hne : m' ≠ m := fun heq => hfree j v (heq ▸ hp j m' v hj)
    exact ⟨hkeep m' v hne hholds, by rw [hsince, if_neg hne, hnone]⟩
  · exact h.alone j k m' a b (hp j m' a hj) (hp k m' b hk)

theorem inv_step (h : Inv s) (hok : Undisturbed s e) (hs : step s e = some s') : Inv s' := by
  cases effect hs with
  | quiet hm hl hp => exact h.kept hm hp (.inl hl) fun m => by rw [hl]
  | refused hm hl herr hp =>
    refine h.kept hm hp (.inr ⟨_, hl⟩) fun m => ?_
    rw [hl, since_answered, if_neg fun hc => herr hc.2]
  | stored hev hm hl hp => exact h.stored (hev hok) hm hl hp
  | answered hm hi hl hp => exact h.answered hm hi hl hp
  | removed hev hm hl hp => exact h.removed (hev hok) hm hl hp

/-- Allocation is exclusive when no store and no removal disturbs another
allocation of the match, whatever the directory and the counters start with. -/
theorem allocation_exclusive (activeMatches : SyncMap String MatchDir)
    (loadCounts : SyncMap String Int) (ha : Along step Undisturbed { activeMatches, loadCounts } es)
    (hr : run step { activeMatches, loadCounts } es = some s) : Allocated s := by
  have h0 : Inv { activeMatches, loadCounts } := by
    have hnone : ∀ i m v, ¬State.Placing { activeMatches, loadCounts } i m v := by
      rintro i m v ⟨h, hh, -⟩
      cases hh
    refine ⟨⟨fun m log hp => ?_, fun m v hv => absurd hv List.not_mem_nil⟩,
      fun i m v hi => absurd hi (hnone i m v), ?_⟩
    · rw [List.prefix_nil.mp hp]
      exact Nat.zero_le _
    · intro i j m a b hi
      exact absurd hi (hnone i m a)
  exact (Run.invariant (fun _ _ _ h hok hs => inv_step h hok hs) h0 ha hr).toAllocated

-- ---------------------------------------------------------------------------
-- Two requests for one match
-- ---------------------------------------------------------------------------

def twoServers : List ServerNode := [⟨"room-1", "127.0.0.1:9101"⟩, ⟨"room-2", "127.0.0.1:9102"⟩]

def stateAfter (es : List Event) : State := (run step {} es).getD {}

-- A match is allocated, refused to a second request, destroyed and allocated again.
def inTurn : List Event :=
  .flatten [[.allocate 1 7 "m" twoServers], .replicate 7 (.next 0),
    [.allocate 2 8 "m" twoServers, .next 1], [.destroyed 3 0 "m", .next 2, .next 2],
    [.allocate 2 8 "m" twoServers], .replicate 7 (.next 3)]

theorem inTurn_exclusive :
    (stateAfter inTurn).log =
      ([.answered 1 7 "m" "room-1" "", .answered 2 8 "m" "" "already exists",
      .removed "m", .answered 2 8 "m" "room-1" ""] : List Logged) ∧
      Allocated (stateAfter inTurn) := by
  refine ⟨by decide +kernel, ?_⟩
  have ha : Along step Undisturbed {} inTurn := by decide +kernel
  exact allocation_exclusive ∅ ∅ ha rfl

-- Both requests find no match. The second one picks when the first has counted.
def bothFree : List Event :=
  .flatten [[.allocate 1 7 "m" twoServers, .allocate 2 8 "m" twoServers], .replicate 7 (.next 0),
    .replicate 7 (.next 1)]

theorem bothFree_two_servers :
    (∀ h ∈ (stateAfter bothFree).handlers, h.pc = .done) ∧
      since "m" (stateAfter bothFree).log = ["room-1", "room-2"] ∧
      ¬(stateAfter bothFree).Holds "m" "room-1" ∧
      ¬Allocated (stateAfter bothFree) := by
  have hsince : since "m" (stateAfter bothFree).log = ["room-1", "room-2"] := by decide +kernel
  have hload : (stateAfter bothFree).activeMatches.load "m" = some ⟨"room-2", "allocated"⟩ := by
    decide +kernel
  have hnot : ¬(stateAfter bothFree).Holds "m" "room-1" := by
    rintro ⟨dir, hdir, hserver⟩
    rw [hload] at hdir
    rw [← Option.some.inj hdir] at hserver
    exact absurd hserver (by decide)
  refine ⟨by decide +kernel, hsince, hnot, fun h => ?_⟩
  have honce := h.once "m" _ List.prefix_rfl
  rw [hsince] at honce
  exact absurd honce (by decide)

-- The match is removed before its allocation is answered, and allocated again.
def removedEarly : List Event :=
  .flatten [[.allocate 1 7 "m" twoServers], .replicate 6 (.next 0), [.destroyed 3 0 "m"],
    [.allocate 2 8 "m" twoServers], .replicate 7 (.next 2), [.next 0]]

example : since "m" (stateAfter removedEarly).log = ["room-2", "room-1"] := by decide +kernel

end Cardwar.MatchSvr.Allocate
