import Cardwar.SessionSvr.Replay

/-!
# The life of a session

Messages, expiry scans and snapshots, one at a time. A session is disconnected
exactly while the last event accepted for its player is a disconnect, and a scan
deletes it when that disconnect is old enough (`lifecycle`). The scan writes
nothing down: until the next snapshot the session it deleted is in the snapshot
file or the journal, and a restart brings it back (`expired_recovered_iff`).
-/

namespace Cardwar.SessionSvr.Lifecycle

open Protocol Pkg
open Expiry (Expired notifyExpired Sent)
open Run (run Along)

-- ---------------------------------------------------------------------------
-- The scan
-- ---------------------------------------------------------------------------

structure Scanned where
  sessions : Sessions
  /-- The deleted entries, for which the backends are notified. -/
  expired : List (Int64 × Session) := []

def visit (now : Int) (scanned : Scanned) (player : Int64) : Scanned :=
  match scanned.sessions.load player with
  | none => scanned
  | some s =>
    if Expired s now then ⟨scanned.sessions.delete player, scanned.expired ++ [(player, s)]⟩
    else scanned

/-- A tick of `StartExpiryScanner`, `Range` taking the players in this order. -/
def scan (sessions : Sessions) (now : Int) (order : List Int64) : Scanned :=
  order.foldl (visit now) { sessions }

def Ranges (order : List Int64) (sessions : Sessions) : Prop :=
  order.Nodup ∧ order.toFinset = sessions.keys

instance (order : List Int64) (sessions : Sessions) : Decidable (Ranges order sessions) :=
  inferInstanceAs (Decidable (_ ∧ _))

theorem load_visit (now : Int) (scanned : Scanned) (player p : Int64) :
    (visit now scanned player).sessions.load p =
      if player = p then (scanned.sessions.load p).filter (¬ Expired · now)
      else scanned.sessions.load p := by
  unfold visit
  by_cases hp : player = p
  · subst hp
    rw [if_pos rfl]
    cases hload : scanned.sessions.load player with
    | none => exact hload
    | some s =>
      by_cases hexp : Expired s now
      · simp [hexp, Option.filter_some]
      · simp [hexp, hload, Option.filter_some]
  · rw [if_neg hp]
    split
    · rfl
    · split
      · exact SyncMap.load_delete_ne _ (Ne.symm hp)
      · rfl

theorem load_visits (now : Int) (scanned : Scanned) (order : List Int64) (p : Int64) :
    (order.foldl (visit now) scanned).sessions.load p =
      if p ∈ order then (scanned.sessions.load p).filter (¬ Expired · now)
      else scanned.sessions.load p := by
  induction order generalizing scanned with
  | nil => simp
  | cons player order ih =>
    rw [List.foldl_cons, ih, load_visit]
    by_cases hp : player = p
    · subst hp
      cases scanned.sessions.load player <;> simp [Option.filter_filter]
    · simp [hp, Ne.symm hp]

theorem load_scan (h : Ranges order sessions) (now : Int) (p : Int64) :
    (scan sessions now order).sessions.load p = (sessions.load p).filter (¬ Expired · now) := by
  rw [scan, load_visits]
  split
  next => rfl
  next hp =>
    have hnone : sessions.load p = none := by
      rw [← List.mem_toFinset, h.2, SyncMap.mem_keys] at hp
      simpa using hp
    rw [hnone]
    rfl

theorem mem_expired_visit {q : Int64} {s : Session} (now : Int) (scanned : Scanned)
    (player : Int64) :
    (q, s) ∈ (visit now scanned player).expired ↔
      (q, s) ∈ scanned.expired ∨ player = q ∧ scanned.sessions.load q = some s ∧ Expired s now := by
  unfold visit
  cases hload : scanned.sessions.load player with
  | none =>
    refine ⟨.inl, ?_⟩
    rintro (h | ⟨rfl, h, -⟩)
    · exact h
    · rw [hload] at h
      cases h
  | some t =>
    dsimp only
    split
    next hexp =>
      simp only [List.mem_append, List.mem_singleton, Prod.mk.injEq]
      refine or_congr_right ⟨?_, ?_⟩
      · rintro ⟨rfl, rfl⟩
        exact ⟨rfl, hload, hexp⟩
      · rintro ⟨rfl, h, -⟩
        exact ⟨rfl, Option.some.inj (h.symm.trans hload)⟩
    next hexp =>
      refine ⟨.inl, ?_⟩
      rintro (h | ⟨rfl, h, hs⟩)
      · exact h
      · exact absurd (Option.some.inj (h.symm.trans hload) ▸ hs) hexp

theorem mem_expired_visits {q : Int64} {s : Session} (now : Int) (scanned : Scanned)
    (order : List Int64) :
    (q, s) ∈ (order.foldl (visit now) scanned).expired ↔
      (q, s) ∈ scanned.expired ∨ q ∈ order ∧ scanned.sessions.load q = some s ∧ Expired s now := by
  induction order generalizing scanned with
  | nil => simp
  | cons player order ih =>
    rw [List.foldl_cons, ih, mem_expired_visit, load_visit]
    by_cases hq : player = q
    · -- Visited now: an expired session is not there for a later visit.
      subst hq
      simp only [↓reduceIte, true_and, List.mem_cons, true_or, Option.filter_eq_some_iff,
        decide_eq_true_eq]
      tauto
    · simp [hq, Ne.symm hq]

theorem mem_expired_scan {q : Int64} {s : Session} (h : Ranges order sessions) (now : Int) :
    (q, s) ∈ (scan sessions now order).expired ↔ sessions.load q = some s ∧ Expired s now := by
  rw [scan, mem_expired_visits]
  have horder : sessions.load q = some s → q ∈ order := by
    intro hload
    rw [← List.mem_toFinset, h.2, SyncMap.mem_keys, hload]
    rfl
  simp only [List.not_mem_nil, false_or]
  exact ⟨And.right, fun hexp => ⟨horder hexp.1, hexp⟩⟩

-- ---------------------------------------------------------------------------
-- Accepted events
-- ---------------------------------------------------------------------------

inductive Accepted
  | save (gatewayID : String)
  | reconnect (gatewayID : String)
  | disconnect (gatewayID : String) (now : Int)
  deriving DecidableEq

inductive Logged
  | accepted (player : Int64) (a : Accepted)
  | deleted (player : Int64)
  deriving DecidableEq

/-- What the message is to its player's session: a disconnect from a gateway that
has lost the player, and a reconnect to no session, are not accepted. -/
def accepted (sessions : Sessions) (request : Request) : Option Logged :=
  match request.data with
  | none => none
  | some data =>
    if request.msgID = msgIdSessionSave then some (.accepted data.playerId (.save data.gatewayId))
    else if request.msgID = msgIdSessionDisconnect then
      if (sessions.session data.playerId).Stale data.gatewayId then none
      else some (.accepted data.playerId (.disconnect data.gatewayId request.now))
    else if request.msgID = msgIdSessionReconnect then
      (sessions.load data.playerId).map fun _ => .accepted data.playerId (.reconnect data.gatewayId)
    else none

/-- The last event accepted for the player since their session was created. The
log has the newest first. -/
def latest (p : Int64) : List Logged → Option Accepted
  | [] => none
  | .accepted q a :: log => if q = p then some a else latest p log
  | .deleted q :: log => if q = p then none else latest p log

structure State where
  server : Server := {}
  /-- Not part of the program. -/
  log : List Logged := []

inductive Event
  | request (request : Request)
  | scan (now : Int) (order : List Int64)
  | snapshot
  deriving DecidableEq

def scanned (st : State) (s : Scanned) : State where
  server := { st.server with sessions := s.sessions }
  log := s.expired.map (fun e => .deleted e.1) ++ st.log

def step (st : State) : Event → Option State
  | .request request => some
    { server := SessionSvr.step st.server (.request request)
      log := (accepted st.server.sessions request).toList ++ st.log }
  | .scan now order =>
    if Ranges order st.server.sessions then some (scanned st (scan st.server.sessions now order))
    else none
  | .snapshot => some { st with server := SessionSvr.step st.server .snapshot }

def Positive (_ : State) : Event → Prop
  | .request request => 0 < request.now
  | .scan now _ => 0 < now
  | .snapshot => True

instance (st : State) : (ev : Event) → Decidable (Positive st ev)
  | .request request => inferInstanceAs (Decidable (0 < request.now))
  | .scan now _ => inferInstanceAs (Decidable (0 < now))
  | .snapshot => inferInstanceAs (Decidable True)

-- ---------------------------------------------------------------------------
-- Sessions and the log
-- ---------------------------------------------------------------------------

/-- The session is as the event leaves it. -/
def Shows (s : Session) : Accepted → Prop
  | .save gatewayID | .reconnect gatewayID => s.disconnectedAt = 0 ∧ s.gatewayID = gatewayID
  | .disconnect gatewayID now => 0 < now ∧ s.disconnectedAt = now ∧ s.gatewayID = gatewayID

def Agrees : Option Session → Option Accepted → Prop
  | some s, some a => Shows s a
  | none, none => True
  | _, _ => False

/-- What a message does to the sessions, and what it is logged as. -/
inductive Moved (sessions : Sessions) (now : Int) (sessions' : Sessions)
    (logged : Option Logged) : Prop
  | ignored (hs : sessions' = sessions) (hl : logged = none)
  | accepted (hs : sessions' = sessions.store p s) (hl : logged = some (.accepted p a))
      (h : 0 < now → Shows s a)

theorem shows_disconnect (hnow : 0 < now) (hfresh : ¬ Session.Stale s data.gatewayId) :
    Shows (s.disconnect data now) (.disconnect data.gatewayId now) := by
  refine ⟨hnow, rfl, ?_⟩
  unfold Session.Stale at hfresh
  simp only [Session.disconnect]
  split
  · rfl
  · tauto

theorem moved (sessions : Sessions) (request : Request) :
    Moved sessions request.now (handle sessions request).sessions (accepted sessions request) := by
  obtain ⟨msgID, data, now, ts⟩ := request
  cases data with
  | none => exact .ignored rfl rfl
  | some data =>
    cases served sessions msgID data now ts with
    | saved hid hs _ =>
      subst hid
      exact .accepted hs rfl fun _ => ⟨rfl, rfl⟩
    | got hid hs _ =>
      subst hid
      exact .ignored hs rfl
    | stale hid hload hstale hs _ =>
      subst hid
      refine .ignored hs (if_pos ?_)
      simpa [Sessions.session, hload] using hstale
    | disconnected hid hfresh hs _ =>
      subst hid
      exact .accepted hs (if_neg hfresh) fun hnow => shows_disconnect hnow hfresh
    | unknown hid hload hs _ =>
      subst hid
      exact .ignored hs (congrArg (Option.map _) hload)
    | reconnected hid hload hs _ =>
      subst hid
      exact .accepted hs (congrArg (Option.map _) hload) fun _ => ⟨rfl, rfl⟩
    | dropped hs _ hid =>
      simp only [List.mem_cons, List.not_mem_nil, or_false, not_or] at hid
      refine .ignored hs ?_
      simp [accepted, hid]

def Inv (st : State) : Prop := ∀ p, Agrees (st.server.sessions.load p) (latest p st.log)

theorem inv_moved (h : ∀ p, Agrees (SyncMap.load sessions p) (latest p log)) (hnow : 0 < now)
    (hm : Moved sessions now sessions' logged) (p : Int64) :
    Agrees (sessions'.load p) (latest p (logged.toList ++ log)) := by
  cases hm with
  | ignored hs hl =>
    subst hs hl
    exact h p
  | @accepted q s a hs hl hshows =>
    subst hs hl
    simp only [Option.toList_some, List.singleton_append, latest]
    by_cases hq : q = p
    · subst hq
      rw [SyncMap.load_store_self, if_pos rfl]
      exact hshows hnow
    · rw [SyncMap.load_store_ne _ _ (Ne.symm hq), if_neg hq]
      exact h p

theorem latest_deleted (p : Int64) (expired : List (Int64 × Session)) (log : List Logged) :
    latest p (expired.map (fun e => .deleted e.1) ++ log) =
      if p ∈ expired.map Prod.fst then none else latest p log := by
  induction expired with
  | nil => rfl
  | cons e expired ih =>
    simp only [List.map_cons, List.cons_append, latest, ih, List.mem_cons]
    by_cases hq : e.1 = p
    · simp [hq]
    · have hq' : p ≠ e.1 := Ne.symm hq
      simp only [hq, hq', ↓reduceIte, false_or]

theorem inv_scan (h : Inv st) (hr : Ranges order st.server.sessions) (now : Int) :
    Inv (scanned st (scan st.server.sessions now order)) := by
  intro p
  have hp := h p
  have hdeleted : p ∈ (scan st.server.sessions now order).expired.map Prod.fst ↔
      ∃ s, st.server.sessions.load p = some s ∧ Expired s now := by
    simp [mem_expired_scan hr]
  simp only [scanned, load_scan hr, latest_deleted, hdeleted]
  cases hload : st.server.sessions.load p with
  | none =>
    rw [hload] at hp
    simpa using hp
  | some s =>
    rw [hload] at hp
    by_cases hexp : Expired s now
    · simp [hexp, Option.filter_some, Agrees]
    · simpa [hexp, Option.filter_some] using hp

theorem inv_step (h : Inv st) (hpos : Positive st ev) (hs : step st ev = some st') : Inv st' := by
  cases ev with
  | request request =>
    cases hs
    exact inv_moved h hpos (moved _ request)
  | scan now order =>
    simp only [step] at hs
    split at hs
    next hr => exact Option.some.inj hs ▸ inv_scan h hr now
    next => cases hs
  | snapshot =>
    cases hs
    exact h

theorem Agrees.disconnected (h : Agrees (some s) a) :
    s.disconnectedAt ≠ 0 ↔ ∃ gatewayID now, a = some (.disconnect gatewayID now) := by
  cases a with
  | none => cases h
  | some a =>
    cases a with
    | save gw => simp [h.1]
    | reconnect gw => simp [h.1]
    | disconnect gw now =>
      have hpos : 0 < now := h.1
      simp [h.2.1, hpos.ne']

theorem Agrees.expired (h : Agrees (some s) a) (now : Int) :
    Expired s now ↔ ∃ gatewayID since, a = some (.disconnect gatewayID since) ∧
      now - since ≥ 120 := by
  unfold Expired
  rw [h.disconnected]
  constructor
  · rintro ⟨⟨gw, since, rfl⟩, hold⟩
    exact ⟨gw, since, rfl, h.2.1 ▸ hold⟩
  · rintro ⟨gw, since, rfl, hold⟩
    exact ⟨⟨gw, since, rfl⟩, h.2.1.symm ▸ hold⟩

/-- In every state of a run: whether, since when and on which gateway a session is
disconnected is what the last accepted event of its player says; a disconnect from
another gateway than the session's changes nothing; a scan deletes exactly the
sessions whose last accepted event is a disconnect at least 120 seconds ago. -/
theorem lifecycle (ha : Along step Positive {} es) (hr : run step {} es = some st) :
    (∀ p s, st.server.sessions.load p = some s →
      (s.disconnectedAt ≠ 0 ↔ ∃ gatewayID now, latest p st.log = some (.disconnect gatewayID now)) ∧
      (∀ gatewayID now, latest p st.log = some (.disconnect gatewayID now) →
        s.disconnectedAt = now ∧ s.gatewayID = gatewayID) ∧
      (∀ data now, data.playerId = p → s.gatewayID ≠ "" → data.gatewayId ≠ s.gatewayID →
        (handleDisconnect st.server.sessions data now).sessions = st.server.sessions)) ∧
    ∀ now order, Ranges order st.server.sessions → ∀ p s,
      (scan st.server.sessions now order).sessions.load p = some s ↔
        st.server.sessions.load p = some s ∧
          ¬ ∃ gatewayID since, latest p st.log = some (.disconnect gatewayID since) ∧
            now - since ≥ 120 := by
  have h : Inv st := Run.invariant (fun _ _ _ h hok hs => inv_step h hok hs)
    (fun p => by simp [latest, Agrees]) ha hr
  constructor
  · intro p s hload
    have hp := h p
    rw [hload] at hp
    refine ⟨hp.disconnected, ?_, ?_⟩
    · intro gw now hlatest
      rw [hlatest] at hp
      exact hp.2
    · rintro data now rfl hgw hne
      have hstale : s.Stale data.gatewayId := ⟨hgw, hne.symm⟩
      simp [handleDisconnect, SyncMap.loadOrStore, hload, hstale]
  · intro now order hranges p s
    rw [load_scan hranges, Option.filter_eq_some_iff, decide_eq_true_eq]
    refine and_congr_right fun hload => not_congr ?_
    have hp := h p
    rw [hload] at hp
    exact hp.expired now

def msg (msgID : UInt32) (now : Int) (gatewayId : String) (connTags : Tags) : Event :=
  .request { msgID, data := some { playerId := 7, gatewayId, connTags }, now }

def gone : List Event :=
  [msg msgIdSessionSave 900 "gateway-1" ((tag tagMatchID "match-1").store tagRoomSvrID "roomsvr-1"),
   msg msgIdSessionDisconnect 1000 "gateway-1" ∅,
   .scan 1200 [7]]

theorem gone_lifecycle :
    ∃ st, run step {} (gone.take 2) = some st ∧
      (∀ p s, st.server.sessions.load p = some s →
        ∀ gatewayID now, latest p st.log = some (.disconnect gatewayID now) →
          s.disconnectedAt = now ∧ s.gatewayID = gatewayID) ∧
      latest 7 st.log = some (.disconnect "gateway-1" 1000) ∧
      ∃ s, st.server.sessions.load 7 = some s ∧ s.disconnectedAt = 1000 ∧
        s.gatewayID = "gateway-1" := by
  have ha : Along step Positive {} (gone.take 2) := by decide
  refine ⟨_, rfl, fun p s hload => ((lifecycle ha rfl).1 p s hload).2.1, by decide, _, rfl, ?_⟩
  exact ((lifecycle ha rfl).1 7 _ rfl).2.1 "gateway-1" 1000 (by decide)

-- ---------------------------------------------------------------------------
-- After a restart
-- ---------------------------------------------------------------------------

def base (s : Server) : Sessions :=
  match s.snapshot with
  | none => ∅
  | some state => loadSnapshot state

theorem recovered_eq (s : Server) : recovered s = replayAll (base s) s.journal := rfl

theorem load_recovered (s : Server) (p : Int64) :
    (recovered s).load p = placeAll ((base s).load p) (entriesOf p s.journal) := by
  rw [recovered_eq, load_replayAll]

theorem recovered_eq_none_iff (s : Server) (p : Int64) :
    (recovered s).load p = none ↔
      (base s).load p = none ∧ ∀ line ∈ s.journal, line.playerID = p → line.op ≠ .save := by
  rw [load_recovered]
  cases hbase : (base s).load p with
  | some t => simp [placeAll_some]
  | none =>
    simp only [placeAll_none, entriesOf, List.forall_mem_map, List.mem_filter, decide_eq_true_eq,
      and_imp, true_and]
    rfl

theorem journal_handle {e : JournalEntry} (he : e ∈ (handle sessions request).journal) :
    ∃ a, accepted sessions request = some (.accepted e.playerID a) := by
  obtain ⟨msgID, data, now, ts⟩ := request
  cases data with
  | none => cases he
  | some data =>
    simp only [handle] at he
    split at he
    next hid =>
      subst hid
      obtain rfl := List.mem_singleton.mp he
      exact ⟨_, rfl⟩
    next hsave =>
      split at he
      next => cases he
      next =>
        split at he
        next hid =>
          subst hid
          simp only [handleDisconnect, SyncMap.loadOrStore_fst] at he
          split at he
          next => cases he
          next hfresh =>
            obtain rfl := List.mem_singleton.mp he
            exact ⟨_, if_neg hfresh⟩
        next =>
          split at he
          next hid =>
            subst hid
            simp only [handleReconnect] at he
            split at he
            next => cases he
            next s hload =>
              obtain rfl := List.mem_singleton.mp he
              exact ⟨_, congrArg (Option.map _) hload⟩
          next => cases he

def Concerns (p : Int64) : Event → Prop
  | .request request => ∃ data, request.data = some data ∧ data.playerId = p ∧
    (request.msgID = msgIdSessionSave ∨ request.msgID = msgIdSessionDisconnect)
  | _ => False

theorem not_accepted (h : SyncMap.load sessions p = none) (hq : ¬ Concerns p (.request request))
    (a : Accepted) :
    accepted sessions request ≠ some (.accepted p a) := by
  obtain ⟨msgID, data, now, ts⟩ := request
  cases data with
  | none => simp [accepted]
  | some data =>
    intro hacc
    simp only [accepted] at hacc
    split at hacc
    next hid =>
      obtain ⟨hp, -⟩ := Logged.accepted.inj (Option.some.inj hacc)
      exact hq ⟨data, rfl, hp, .inl hid⟩
    next =>
      split at hacc
      next hid =>
        split at hacc
        next => cases hacc
        next =>
          obtain ⟨hp, -⟩ := Logged.accepted.inj (Option.some.inj hacc)
          exact hq ⟨data, rfl, hp, .inr hid⟩
      next =>
        split at hacc
        next =>
          obtain ⟨s, hload, hl⟩ := Option.map_eq_some_iff.mp hacc
          obtain ⟨hp, -⟩ := Logged.accepted.inj hl
          rw [hp, h] at hload
          cases hload
        next => cases hacc

theorem load_moved (hm : Moved sessions now sessions' logged)
    (hl : ∀ a, logged ≠ some (.accepted p a)) :
    sessions'.load p = sessions.load p := by
  cases hm with
  | ignored hs _ => rw [hs]
  | @accepted q s a hs hlog _ =>
    rw [hs]
    refine SyncMap.load_store_ne _ _ ?_
    rintro rfl
    exact hl a hlog

theorem entriesOf_append (p : Int64) (journal journal' : List JournalLine) :
    entriesOf p (journal ++ journal') = entriesOf p journal ++ entriesOf p journal' := by
  simp [entriesOf]

/-- With no session, and no save or disconnect, the player's part of what a
restart recovers changes only by a snapshot, which does not have it. -/
theorem recovered_step (h : st.server.sessions.load p = none) (hq : ¬ Concerns p ev)
    (hs : step st ev = some st') :
    st'.server.sessions.load p = none ∧
      (recovered st'.server).load p = if ev = .snapshot then none
        else (recovered st.server).load p := by
  cases ev with
  | request request =>
    cases hs
    have hacc := not_accepted h hq
    have hlines : entriesOf p ((handle st.server.sessions request).journal.map
        (journalAppend request.ts)) = [] := by
      rw [entriesOf, List.map_eq_nil_iff, List.filter_eq_nil_iff]
      intro line hl
      obtain ⟨e, he, rfl⟩ := List.mem_map.mp hl
      obtain ⟨a, ha⟩ := journal_handle he
      intro hp
      obtain rfl : e.playerID = p := of_decide_eq_true hp
      exact hacc a ha
    refine ⟨(load_moved (moved _ request) hacc).trans h, ?_⟩
    have hne : Event.request request ≠ .snapshot := by simp
    rw [if_neg hne, load_recovered, load_recovered]
    change placeAll ((base st.server).load p) (entriesOf p (st.server.journal ++ _)) = _
    rw [entriesOf_append, hlines, List.append_nil]
  | scan now order =>
    simp only [step] at hs
    split at hs
    next hr =>
      cases hs
      refine ⟨?_, rfl⟩
      simp [scanned, load_scan hr, h]
    next => cases hs
  | snapshot =>
    cases hs
    refine ⟨h, ?_⟩
    change (loadSnapshot (snapshotSessions st.server.sessions)).load p = none
    simp [loadSnapshot, snapshotSessions, h]

theorem recovered_run (h : st.server.sessions.load p = none) (hq : ∀ ev ∈ es, ¬ Concerns p ev)
    (hr : run step st es = some st') :
    (recovered st'.server).load p = if .snapshot ∈ es then none
      else (recovered st.server).load p := by
  induction es generalizing st with
  | nil =>
    cases hr
    rfl
  | cons ev es ih =>
    obtain ⟨hev, hq⟩ := List.forall_mem_cons.mp hq
    obtain ⟨m, hm, hr⟩ := Run.run_cons hr
    obtain ⟨hnone, hrec⟩ := recovered_step h hev hm
    rw [ih hnone hq hr, hrec]
    by_cases hmem : .snapshot ∈ es
    · simp [hmem]
    · simp [hmem, eq_comm]

structure Keyed (s : Server) : Prop where
  sessions : WellFormed s.sessions
  base : ∀ q t, (base s).load q = some t → t.playerID = q

theorem keyed_step (h : Keyed st.server) (hs : step st ev = some st') : Keyed st'.server := by
  cases ev with
  | request request =>
    cases hs
    exact ⟨wellFormed_handle h.sessions request, h.base⟩
  | scan now order =>
    simp only [step] at hs
    split at hs
    next hr =>
      cases hs
      refine ⟨fun q t hq => ?_, h.base⟩
      change (scan st.server.sessions now order).sessions.load q = some t at hq
      rw [load_scan hr] at hq
      exact h.sessions q t (Option.filter_eq_some_iff.mp hq).1
    next => cases hs
  | snapshot =>
    cases hs
    refine ⟨h.sessions, fun q t hq => ?_⟩
    change (loadSnapshot (snapshotSessions st.server.sessions)).load q = some t at hq
    rw [load_snapshot h.sessions] at hq
    exact (h.sessions q t hq).1

theorem keyed_run (h : Keyed st.server) (hr : run step st es = some st') : Keyed st'.server := by
  induction es generalizing st with
  | nil => exact Option.some.inj hr ▸ h
  | cons ev es ih =>
    obtain ⟨m, hm, hr⟩ := Run.run_cons hr
    exact ih (keyed_step h hm) hr

theorem Keyed.recovered (h : Keyed s) (hq : (SessionSvr.recovered s).load q = some t) :
    t.playerID = q := by
  rw [load_recovered] at hq
  exact playerID_placeAll (fun t ht => h.base q t ht) (fun e he => playerID_entriesOf he) t hq

theorem sent_playerId (h : sent ∈ notifyExpired reg intn s) : sent.data.playerId = s.playerID := by
  simp only [notifyExpired, List.mem_append] at h
  rcases h with h | h
  · split at h
    · obtain ⟨conn, -, rfl⟩ := Option.map_eq_some_iff.mp (Option.mem_toList.mp h)
      rfl
    · cases h
  · split at h
    · obtain ⟨conn, -, rfl⟩ := Option.map_eq_some_iff.mp (Option.mem_toList.mp h)
      rfl
    · cases h

/-- A scan deletes the player's session, and no save or disconnect of the player
follows before the crash. The restart finds no session of the player, and no scan
after it forces the player out again, exactly if a snapshot was taken after the scan
or the session was neither in the snapshot file nor saved in the journal. -/
theorem expired_recovered_iff (hr₁ : run step {} es₁ = some st₁)
    (hload : st₁.server.sessions.load p = some s)
    (hexp : Expired s now) (hscan : step st₁ (.scan now order) = some st₂)
    (hq : ∀ ev ∈ es₂, ¬ Concerns p ev) (hr₂ : run step st₂ es₂ = some st₃) :
    ((recovered st₃.server).load p = none ∧
      ∀ now order, Ranges order (recovered st₃.server) →
        ∀ e ∈ (scan (recovered st₃.server) now order).expired,
          ∀ reg intn, ∀ sent ∈ notifyExpired reg intn e.2, sent.data.playerId ≠ p) ↔
      .snapshot ∈ es₂ ∨
        (base st₁.server).load p = none ∧ ∀ line ∈ st₁.server.journal, line.playerID = p →
          line.op ≠ .save := by
  have hkeyed : Keyed st₃.server := by
    have h0 : Keyed ({} : State).server :=
      ⟨fun p s hp => by simp at hp, fun q t hq => by simp [base] at hq⟩
    exact keyed_run (keyed_step (keyed_run h0 hr₁) hscan) hr₂
  simp only [step] at hscan
  split at hscan
  next hranges =>
    cases hscan
    have hnone : (scanned st₁ (scan st₁.server.sessions now order)).server.sessions.load p =
        none := by
      simp [scanned, load_scan hranges, hload, hexp, Option.filter_some]
    -- The scan has touched neither the snapshot file nor the journal.
    have hscanned := recovered_run hnone hq hr₂
    have hrec : (recovered st₃.server).load p =
        if .snapshot ∈ es₂ then none else (recovered st₁.server).load p := hscanned
    have hiff : (recovered st₃.server).load p = none ↔
        .snapshot ∈ es₂ ∨ (base st₁.server).load p = none ∧
          ∀ line ∈ st₁.server.journal, line.playerID = p → line.op ≠ .save := by
      rw [hrec, ← recovered_eq_none_iff]
      split <;> simp [*]
    rw [← hiff]
    refine ⟨And.left, fun h => ⟨h, ?_⟩⟩
    rintro now order hr ⟨q, t⟩ he reg intn sent hsent hp
    obtain ⟨ht, -⟩ := (mem_expired_scan hr now).mp he
    have hplayer : t.playerID = p := (sent_playerId hsent).symm.trans hp
    obtain rfl : q = p := (hkeyed.recovered ht).symm.trans hplayer
    rw [h] at ht
    cases ht
  next => cases hscan

def session7 : Session :=
  { playerID := 7, gatewayID := "gateway-1",
    connTags := some ((tag tagMatchID "match-1").store tagRoomSvrID "roomsvr-1"),
    disconnectedAt := 1000 }

def offline7 : State := (run step {} (gone.take 2)).getD {}

theorem gone_snapshotted :
    ∃ st, run step {} (gone ++ [.snapshot]) = some st ∧ (recovered st.server).load 7 = none := by
  have hr₁ : run step {} (gone.take 2) = some offline7 := rfl
  have hscan : step offline7 (.scan 1200 [7]) = some _ := rfl
  have hexp : Expired session7 1200 := by decide
  have hq : ∀ ev ∈ [Event.snapshot], ¬ Concerns 7 ev := by simp [Concerns]
  have hgone := expired_recovered_iff hr₁ rfl hexp hscan hq rfl
  exact ⟨_, rfl, (hgone.mpr (.inl List.mem_cons_self)).1⟩

/-- The RoomSvr that hears of the player's end after a scan of these sessions. -/
def forcedOut (sessions : Sessions) (now : Int) : Option (List (UInt32 × Int64)) :=
  (run poolStep (dialPool (Conf.shippedRoomSvrs.take 1) .hash)
      ([.connStart 0, .setServerID 0].map (.entry 0))).map fun pool =>
    (scan sessions now [7]).expired.flatMap fun e =>
      (notifyExpired (Expiry.withRooms (Expiry.registry (Conf.shippedRoomSvrs.take 1) []) pool)
        0 e.2).map fun sent =>
        (sent.msgID, sent.data.playerId)

/-- The session is deleted and the player forced out of the room; a restart brings
the session back, and the next scan forces the player out again. -/
theorem gone_comes_back :
    (run step {} gone).map (fun st => (st.server.sessions.load 7, (recovered st.server).load 7)) =
        some (none, some session7) ∧
      (run step {} (gone.take 2)).bind (fun st => forcedOut st.server.sessions 1200) =
        some [(msgIdSessionForceLeave, 7)] ∧
      (run step {} gone).bind (fun st => forcedOut (recovered st.server) 1201) =
        some [(msgIdSessionForceLeave, 7)] := by
  refine ⟨by decide, ?_, ?_⟩
  · decide +kernel
  · decide +kernel

end Cardwar.SessionSvr.Lifecycle
