import Cardwar.Lib.Run
import Cardwar.SessionSvr.Router

/-!
# SessionSvr's journal and snapshots

What `journalAppend` and `snapshotSessions` write, and what `replaySession` and
`loadSnapshot` make of it. JSON drops an `omitempty` field that is empty and
reads a dropped field as empty. Every handler has a second version in
`replaySession` with other guards; `recovered_eq_live_iff` says for which
messages the two agree.
-/

namespace Cardwar.SessionSvr

open Protocol
open Run (Along total)

-- One line of `journal.log`. `none` is a field that is not there.
structure JournalLine where
  op : Op
  playerID : Int64
  gatewayID : Option String
  connTags : Option Tags
  disconnectedAt : Option Int
  ts : Int
  deriving DecidableEq

def omitEmpty [DecidableEq α] (empty value : α) : Option α :=
  if value = empty then none else some value

def JournalEntry.marshal (e : JournalEntry) : JournalLine where
  op := e.op
  playerID := e.playerID
  gatewayID := omitEmpty "" e.gatewayID
  connTags := e.connTags.bind (omitEmpty ∅)
  disconnectedAt := omitEmpty 0 e.disconnectedAt
  ts := e.ts

def JournalLine.unmarshal (l : JournalLine) : JournalEntry where
  op := l.op
  playerID := l.playerID
  gatewayID := l.gatewayID.getD ""
  connTags := l.connTags
  disconnectedAt := l.disconnectedAt.getD 0
  ts := l.ts

-- One value of the object in `snapshot.json`.
structure SessionPersist where
  playerID : Int64
  gatewayID : String
  connTags : Option Tags
  disconnectedAt : Int
  deriving DecidableEq

abbrev SnapshotFile := SyncMap Int64 SessionPersist

def journalAppend (ts : Int) (e : JournalEntry) : JournalLine := { e with ts }.marshal

/-- Ranges over the sessions; each is stored under its own player id
(`WellFormed`), so the keys of the written object are those of the map. -/
def snapshotSessions (sessions : Sessions) : SnapshotFile :=
  sessions.mapVal fun s =>
    ⟨s.playerID, s.gatewayID, s.connTags.bind (omitEmpty ∅), s.disconnectedAt⟩

def loadSnapshot (state : SnapshotFile) : Sessions :=
  state.mapVal fun sp => ⟨sp.playerID, sp.gatewayID, sp.connTags, sp.disconnectedAt⟩

def Session.replaySave (s : Session) (e : JournalEntry) : Session :=
  { s with
    gatewayID := e.gatewayID
    connTags := if e.connTags ≠ none then e.connTags else s.connTags
    disconnectedAt := 0 }

def Session.replayDisconnect (s : Session) (e : JournalEntry) : Session :=
  { s with
    gatewayID := if s.gatewayID = "" then e.gatewayID else s.gatewayID
    connTags := if s.connTags = none then e.connTags else s.connTags
    disconnectedAt := if e.disconnectedAt ≠ 0 then e.disconnectedAt else s.disconnectedAt }

def Session.replayReconnect (s : Session) (e : JournalEntry) : Session :=
  { s with
    disconnectedAt := 0
    gatewayID := e.gatewayID
    connTags := if e.connTags ≠ none then e.connTags else s.connTags }

def replayEntry (sessions : Sessions) (e : JournalEntry) : Sessions :=
  match e.op with
  | .save =>
    let (s, sessions) := sessions.loadOrStore e.playerID { playerID := e.playerID }
    sessions.store e.playerID (s.replaySave e)
  | .disconnect =>
    match sessions.load e.playerID with
    | none => sessions
    | some s =>
      if s.Stale e.gatewayID then sessions else sessions.store e.playerID (s.replayDisconnect e)
  | .reconnect =>
    match sessions.load e.playerID with
    | none => sessions
    | some s => sessions.store e.playerID (s.replayReconnect e)

def replaySession (sessions : Sessions) (line : JournalLine) : Sessions :=
  replayEntry sessions line.unmarshal

theorem getD_omitEmpty [DecidableEq α] (empty value : α) :
    (omitEmpty empty value).getD empty = value := by
  unfold omitEmpty
  split <;> simp [*]

theorem bind_omitEmpty (h : tags ≠ some (∅ : Tags)) : tags.bind (omitEmpty ∅) = tags := by
  cases tags with
  | none => rfl
  | some t =>
    have ht : t ≠ ∅ := fun heq => h (heq ▸ rfl)
    simp [omitEmpty, ht]

theorem unmarshal_marshal {e : JournalEntry} (h : e.connTags ≠ some ∅) :
    e.marshal.unmarshal = e := by
  simp only [JournalEntry.marshal, JournalLine.unmarshal, getD_omitEmpty, bind_omitEmpty h]

theorem load_snapshot (h : WellFormed sessions) :
    loadSnapshot (snapshotSessions sessions) = sessions := by
  refine SyncMap.ext fun p => ?_
  simp only [loadSnapshot, snapshotSessions, SyncMap.load_mapVal, Option.map_map]
  cases hp : sessions.load p with
  | none => rfl
  | some s => simp [Function.comp_def, bind_omitEmpty (h p s hp).2]

/-- The live handler and the replay of what it journaled agree on this message. -/
def ReplaysAlike (sessions : Sessions) (request : Request) : Prop :=
  ∀ data, request.data = some data →
    -- Empty tags clear the session's tags, and are not written to the journal.
    (request.msgID = msgIdSessionSave →
      data.connTags ≠ ∅ ∨ ∀ s, sessions.load data.playerId = some s → s.connTags = none) ∧
    -- A disconnect creates the session it does not find; its replay does not.
    (request.msgID = msgIdSessionDisconnect →
      ∃ s, sessions.load data.playerId = some s ∧
        (s.Stale data.gatewayId ∨ request.now ≠ 0 ∨ s.disconnectedAt = 0))

def replayed (sessions : Sessions) (ts : Int) (journal : List JournalEntry) : Sessions :=
  (journal.map (journalAppend ts)).foldl replaySession sessions

theorem replayed_singleton (sessions : Sessions) (op : Op) (p : Int64) (gw : String) (tags : Tags)
    (time : Int) :
    replayed sessions ts [⟨op, p, gw, goTags tags, time, 0⟩] =
      replayEntry sessions ⟨op, p, gw, goTags tags, time, ts⟩ := by
  have hjson : (JournalEntry.mk op p gw (goTags tags) time ts).marshal.unmarshal =
      ⟨op, p, gw, goTags tags, time, ts⟩ := unmarshal_marshal (goTags_ne tags)
  exact congrArg (replayEntry sessions) hjson

theorem goTags_eq_none (tags : Tags) : goTags tags = none ↔ tags = ∅ := by
  unfold goTags
  split <;> simp [*]

theorem replayed_save (sessions : Sessions) (data : SessionData) :
    replayed sessions ts (handleSave sessions data).journal = (handleSave sessions data).sessions ↔
      data.connTags ≠ ∅ ∨ ∀ s, sessions.load data.playerId = some s → s.connTags = none := by
  simp only [handleSave, replayed_singleton, replayEntry, SyncMap.store_loadOrStore,
    SyncMap.loadOrStore_fst, SyncMap.store_inj]
  by_cases ht : data.connTags = ∅
  · have hnil : goTags ∅ = none := (goTags_eq_none ∅).mpr rfl
    cases hp : sessions.load data.playerId <;>
      simp [Session.replaySave, Session.save, ht, hnil]
  · simp [Session.replaySave, Session.save, ht, goTags_eq_none]

theorem replayed_disconnect (sessions : Sessions) (data : SessionData) (now : Int) :
    replayed sessions ts (handleDisconnect sessions data now).journal =
        (handleDisconnect sessions data now).sessions ↔
      ∃ s, sessions.load data.playerId = some s ∧
        (s.Stale data.gatewayId ∨ now ≠ 0 ∨ s.disconnectedAt = 0) := by
  simp only [handleDisconnect, SyncMap.loadOrStore_fst]
  cases hp : sessions.load data.playerId with
  | none =>
    have hnew : ¬ Session.Stale { playerID := data.playerId } data.gatewayId := by
      simp [Session.Stale]
    simp only [Option.getD_none, hnew, ↓reduceIte, replayed_singleton, replayEntry, hp,
      SyncMap.store_loadOrStore, reduceCtorEq, false_and, exists_false, iff_false]
    intro heq
    have hload := SyncMap.load_store_self sessions data.playerId
      (Session.disconnect { playerID := data.playerId } data now)
    rw [← heq, hp] at hload
    cases hload
  | some s =>
    simp only [Option.getD_some, Option.some.injEq, exists_eq_left']
    split
    next hstale => simp [replayed, SyncMap.loadOrStore, hp, hstale]
    next hstale =>
      simp only [replayed_singleton, replayEntry, hp, hstale, ↓reduceIte,
        SyncMap.store_loadOrStore, SyncMap.store_inj, false_or]
      by_cases hnow : now = 0
      · simp [Session.replayDisconnect, Session.disconnect, hnow]
      · simp [Session.replayDisconnect, Session.disconnect, hnow]

theorem replayed_reconnect (sessions : Sessions) (data : SessionData) :
    replayed sessions ts (handleReconnect sessions data).journal =
      (handleReconnect sessions data).sessions := by
  unfold handleReconnect
  cases hp : sessions.load data.playerId with
  | none => rfl
  | some s =>
    simp only [replayed_singleton, replayEntry, hp, SyncMap.store_inj]
    by_cases ht : data.connTags = ∅
    · have hnil : goTags ∅ = none := (goTags_eq_none ∅).mpr rfl
      simp [Session.replayReconnect, Session.reconnect, ht, hnil]
    · simp [Session.replayReconnect, Session.reconnect, ht, goTags_eq_none]

theorem replayed_handle (sessions : Sessions) (request : Request) :
    replayed sessions request.ts (handle sessions request).journal =
      (handle sessions request).sessions ↔
      ReplaysAlike sessions request := by
  obtain ⟨msgID, data, now, ts⟩ := request
  cases data with
  | none => simp [handle, replayed, ReplaysAlike]
  | some data =>
    simp only [handle, ReplaysAlike, Option.some.injEq, forall_eq']
    split
    next h =>
      subst h
      simp [replayed_save, msgIdSessionSave, msgIdSessionDisconnect]
    next hsave =>
      split
      next h =>
        subst h
        simp [handleGet, replayed, msgIdSessionSave, msgIdSessionGet, msgIdSessionDisconnect]
      next =>
        split
        next h =>
          subst h
          simp [replayed_disconnect, msgIdSessionSave, msgIdSessionDisconnect]
        next hdisconnect =>
          split
          next => simp [replayed_reconnect, hsave, hdisconnect]
          next => simp [replayed, hsave, hdisconnect]

structure Server where
  sessions : Sessions := ∅
  snapshot : Option SnapshotFile := none
  journal : List JournalLine := []

inductive Event
  | request (request : Request)
  | snapshot

def step (s : Server) : Event → Server
  | .request request =>
    let handled := handle s.sessions request
    { s with
      sessions := handled.sessions
      journal := s.journal ++ handled.journal.map (journalAppend request.ts) }
  | .snapshot => { s with snapshot := some (snapshotSessions s.sessions), journal := [] }

def recovered (s : Server) : Sessions :=
  s.journal.foldl replaySession
    (match s.snapshot with | none => ∅ | some state => loadSnapshot state)

def EventReplaysAlike (s : Server) : Event → Prop
  | .request request => ReplaysAlike s.sessions request
  | .snapshot => True

theorem recovered_step (hw : WellFormed s.sessions) (h : recovered s = s.sessions) (e : Event) :
    recovered (step s e) = (step s e).sessions ↔ EventReplaysAlike s e := by
  cases e with
  | request request =>
    have hrec : recovered (step s (.request request)) =
        replayed s.sessions request.ts (handle s.sessions request).journal := by
      have happend : recovered (step s (.request request)) =
          replayed (recovered s) request.ts (handle s.sessions request).journal := List.foldl_append
      rw [happend, h]
    rw [hrec]
    exact replayed_handle s.sessions request
  | snapshot =>
    refine ⟨fun _ => trivial, fun _ => ?_⟩
    exact load_snapshot hw

/-- From no sessions, with snapshots anywhere: recovery gives the live map in
every state of a run exactly when every message replays alike. -/
theorem recovered_eq_live_iff (es : List Event) :
    (∀ pre, pre <+: es → recovered (pre.foldl step {}) = (pre.foldl step {}).sessions) ↔
      Along (total step) EventReplaysAlike {} es := by
  refine Run.prefixes_iff (P := fun s => recovered s = s.sessions)
    (I := fun s => WellFormed s.sessions)
    ?_ (fun s e hw h => recovered_step hw h e) (fun p s hp => by simp at hp) rfl
  intro s e hw
  cases e with
  | request request => exact wellFormed_handle hw request
  | snapshot => exact hw

def unlikeReplay : List Event :=
  [.request { msgID := msgIdSessionSave,
              data := some
                { playerId := 7, gatewayId := "gateway-1", connTags := tag tagMatchID "m" } },
   .request { msgID := msgIdSessionSave, data := some { playerId := 7, gatewayId := "gateway-1" } },
   .request { msgID := msgIdSessionDisconnect, now := 100,
              data := some { playerId := 8, gatewayId := "gateway-1" } }]

/-- Recovery brings the cleared tags of one player back and loses the other
player's session. -/
theorem unlikeReplay_differs :
    let s := unlikeReplay.foldl step {}
    (s.sessions.load 7).map Session.connTags = some none ∧
      ((recovered s).load 7).map Session.connTags = some (some (tag tagMatchID "m")) ∧
      s.sessions.load 8 = some { playerID := 8, gatewayID := "gateway-1", disconnectedAt := 100 } ∧
      (recovered s).load 8 = none ∧ recovered s ≠ s.sessions := by
  decide

end Cardwar.SessionSvr
