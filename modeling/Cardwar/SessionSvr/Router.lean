import Cardwar.Protocol

/-!
# SessionSvr's handlers

Each handler looks the player's session up, changes it under its lock, appends
a journal entry and answers. The sections under the lock are functions of one
session; the handlers run them on the sessions map one message at a time.
-/

namespace Cardwar.SessionSvr

open Protocol

structure Session where
  playerID : Int64
  gatewayID : String := ""
  /-- `none` is the nil map. -/
  connTags : Option Tags := none
  /-- Unix seconds, 0 while connected. -/
  disconnectedAt : Int := 0
  deriving DecidableEq

abbrev Sessions := SyncMap Int64 Session

inductive Op
  | save
  | disconnect
  | reconnect
  deriving DecidableEq

structure JournalEntry where
  op : Op
  playerID : Int64
  gatewayID : String := ""
  connTags : Option Tags := none
  disconnectedAt : Int := 0
  ts : Int := 0
  deriving DecidableEq

def Session.save (s : Session) (data : SessionData) : Session :=
  { s with gatewayID := data.gatewayId, connTags := goTags data.connTags, disconnectedAt := 0 }

/-- The player is on another gateway than the one reporting. -/
def Session.Stale (s : Session) (gatewayID : String) : Prop :=
  s.gatewayID ≠ "" ∧ s.gatewayID ≠ gatewayID

instance (s : Session) (gatewayID : String) : Decidable (s.Stale gatewayID) :=
  inferInstanceAs (Decidable (_ ∧ _))

/-- A disconnect that is not stale, at clock reading `now`. -/
def Session.disconnect (s : Session) (data : SessionData) (now : Int) : Session :=
  { s with
    gatewayID := if s.gatewayID = "" then data.gatewayId else s.gatewayID
    connTags := if s.connTags = none then goTags data.connTags else s.connTags
    disconnectedAt := now }

def Session.reconnect (s : Session) (data : SessionData) : Session :=
  { s with
    disconnectedAt := 0
    gatewayID := data.gatewayId
    connTags := if data.connTags = ∅ then s.connTags else goTags data.connTags }

/-- The session as a message. A nil map is sent as no entries. -/
def Session.toData (s : Session) : SessionData :=
  ⟨s.playerID, s.gatewayID, s.connTags.getD ∅, s.disconnectedAt⟩

/-- What a handler sends: on the connection the request came from, or to every
connected gateway. -/
inductive Send
  | reply (msgID : UInt32) (data : SessionData)
  | broadcast (msgID : UInt32) (data : SessionData)
  deriving DecidableEq

structure Handled where
  sessions : Sessions
  /-- The entries passed to `journalAppend`, before it sets their time. -/
  journal : List JournalEntry := []
  sent : List Send := []

def handleSave (sessions : Sessions) (data : SessionData) : Handled :=
  let (s, sessions) := sessions.loadOrStore data.playerId { playerID := data.playerId }
  { sessions := sessions.store data.playerId (s.save data)
    journal := [{ op := .save, playerID := data.playerId, gatewayID := data.gatewayId,
                  connTags := goTags data.connTags }] }

def handleGet (sessions : Sessions) (data : SessionData) : Handled where
  sessions := sessions
  sent := [.reply msgIdSessionGet (match sessions.load data.playerId with
    | some s => { s.toData with playerId := data.playerId }
    | none => { playerId := data.playerId })]

def handleDisconnect (sessions : Sessions) (data : SessionData) (now : Int) : Handled :=
  let (s, sessions) := sessions.loadOrStore data.playerId { playerID := data.playerId }
  if s.Stale data.gatewayId then { sessions }
  else
    { sessions := sessions.store data.playerId (s.disconnect data now)
      journal := [{ op := .disconnect, playerID := data.playerId, gatewayID := data.gatewayId,
                    connTags := goTags data.connTags, disconnectedAt := now }] }

def handleReconnect (sessions : Sessions) (data : SessionData) : Handled :=
  match sessions.load data.playerId with
  | none => { sessions }
  | some s =>
    { sessions := sessions.store data.playerId (s.reconnect data)
      journal := [{ op := .reconnect, playerID := data.playerId, gatewayID := data.gatewayId,
                    connTags := goTags data.connTags }]
      sent := .reply msgIdSessionReconnect (s.reconnect data).toData ::
        -- The player switched gateways: tell all of them, so the old one can clean up.
        if s.Stale data.gatewayId then
          [.broadcast msgIdSessionInvalidate
            { playerId := data.playerId, gatewayId := s.gatewayID }]
        else [] }

structure Request where
  msgID : UInt32
  /-- The decoded payload, `none` when `proto.Unmarshal` fails. -/
  data : Option SessionData
  /-- The clock in seconds, and in milliseconds, while the request is handled. -/
  now : Int := 0
  ts : Int := 0
  deriving DecidableEq

def handle (sessions : Sessions) (request : Request) : Handled :=
  match request.data with
  | none => { sessions }
  | some data =>
    if request.msgID = msgIdSessionSave then handleSave sessions data
    else if request.msgID = msgIdSessionGet then handleGet sessions data
    else if request.msgID = msgIdSessionDisconnect then handleDisconnect sessions data request.now
    else if request.msgID = msgIdSessionReconnect then handleReconnect sessions data
    else { sessions }

def Sessions.session (sessions : Sessions) (p : Int64) : Session :=
  (sessions.load p).getD { playerID := p }

/-- What a message does to the sessions, and what is sent for it. -/
inductive Served (sessions : Sessions) (msgID : UInt32) (data : SessionData) (now : Int)
    (sessions' : Sessions) (sent : List Send) : Prop
  | saved (hid : msgID = msgIdSessionSave)
      (hs : sessions' = sessions.store data.playerId ((sessions.session data.playerId).save data))
      (ho : sent = [])
  | got (hid : msgID = msgIdSessionGet) (hs : sessions' = sessions)
      (ho : sent = [.reply msgIdSessionGet { (sessions.session data.playerId).toData with
        playerId := data.playerId }])
  | stale (hid : msgID = msgIdSessionDisconnect) (hload : sessions.load data.playerId = some s)
      (hstale : s.Stale data.gatewayId) (hs : sessions' = sessions) (ho : sent = [])
  | disconnected (hid : msgID = msgIdSessionDisconnect)
      (hfresh : ¬ (sessions.session data.playerId).Stale data.gatewayId)
      (hs : sessions' = sessions.store data.playerId
        ((sessions.session data.playerId).disconnect data now))
      (ho : sent = [])
  | unknown (hid : msgID = msgIdSessionReconnect) (hload : sessions.load data.playerId = none)
      (hs : sessions' = sessions) (ho : sent = [])
  | reconnected (hid : msgID = msgIdSessionReconnect) (hload : sessions.load data.playerId = some s)
      (hs : sessions' = sessions.store data.playerId (s.reconnect data))
      (ho : sent = .reply msgIdSessionReconnect (s.reconnect data).toData ::
        if s.Stale data.gatewayId then
          [.broadcast msgIdSessionInvalidate
            { playerId := data.playerId, gatewayId := s.gatewayID }]
        else [])
  | dropped (hs : sessions' = sessions) (ho : sent = [])
      (hid : msgID ∉ [msgIdSessionSave, msgIdSessionGet, msgIdSessionDisconnect,
        msgIdSessionReconnect])

theorem served_disconnect (hid : msgID = msgIdSessionDisconnect) (sessions : Sessions)
    (data : SessionData) (now : Int) :
    Served sessions msgID data now (handleDisconnect sessions data now).sessions
      (handleDisconnect sessions data now).sent := by
  unfold handleDisconnect
  simp only [SyncMap.loadOrStore_fst, SyncMap.store_loadOrStore]
  split
  next hstale =>
    -- A stale disconnect found a session: a new one has no gateway to be stale for.
    cases hp : sessions.load data.playerId with
    | none => simp [hp, Session.Stale] at hstale
    | some s =>
      rw [hp, Option.getD_some] at hstale
      exact .stale hid hp hstale (by simp [SyncMap.loadOrStore, hp]) rfl
  next hfresh => exact .disconnected hid hfresh rfl rfl

theorem served (sessions : Sessions) (msgID : UInt32) (data : SessionData) (now ts : Int) :
    Served sessions msgID data now (handle sessions ⟨msgID, some data, now, ts⟩).sessions
      (handle sessions ⟨msgID, some data, now, ts⟩).sent := by
  unfold handle
  dsimp only
  split
  next hid =>
    refine .saved hid ?_ rfl
    simp only [handleSave, SyncMap.loadOrStore_fst, SyncMap.store_loadOrStore]
    rfl
  next hsave =>
    split
    next hid =>
      refine .got hid rfl ?_
      simp only [handleGet, Sessions.session]
      cases sessions.load data.playerId <;> rfl
    next hget =>
      split
      next hid => exact served_disconnect hid sessions data now
      next hdisc =>
        split
        next hid =>
          unfold handleReconnect
          split
          next hload => exact .unknown hid hload rfl rfl
          next s hload => exact .reconnected hid hload rfl rfl
        next hrec => exact .dropped rfl rfl (by simp [hsave, hget, hdisc, hrec])

/-- What every session in the map has: it is stored under its own player id,
and its tags are the nil map or have an entry. -/
def WellFormed (sessions : Sessions) : Prop :=
  ∀ p s, sessions.load p = some s → s.playerID = p ∧ s.connTags ≠ some ∅

theorem goTags_ne (tags : Tags) : goTags tags ≠ some ∅ := by
  unfold goTags
  split <;> simp [*]

theorem wellFormed_store (h : WellFormed sessions) (hp : s.playerID = p)
    (ht : s.connTags ≠ some ∅) :
    WellFormed (sessions.store p s) := by
  intro q t hq
  rw [SyncMap.load_store] at hq
  split at hq
  next heq => exact Option.some.inj hq ▸ ⟨heq ▸ hp, ht⟩
  next => exact h q t hq

theorem wellFormed_session (h : WellFormed sessions) (p : Int64) :
    (sessions.session p).playerID = p ∧ (sessions.session p).connTags ≠ some ∅ := by
  unfold Sessions.session
  cases hp : sessions.load p with
  | none => exact ⟨rfl, by simp⟩
  | some s => exact h p s hp

theorem wellFormed_served (h : WellFormed sessions)
    (hs : Served sessions msgID data now sessions' sent) :
    WellFormed sessions' := by
  obtain ⟨hplayer, htags⟩ := wellFormed_session h data.playerId
  cases hs with
  | saved _ hs _ => exact hs ▸ wellFormed_store h hplayer (goTags_ne _)
  | got _ hs _ => exact hs ▸ h
  | stale _ _ _ hs _ => exact hs ▸ h
  | disconnected _ _ hs _ =>
    subst hs
    refine wellFormed_store h hplayer ?_
    simp only [Session.disconnect]
    split
    · exact goTags_ne _
    · exact htags
  | unknown _ _ hs _ => exact hs ▸ h
  | reconnected _ hload hs _ =>
    subst hs
    refine wellFormed_store h (h _ _ hload).1 ?_
    simp only [Session.reconnect]
    split
    · exact (h _ _ hload).2
    · exact goTags_ne _
  | dropped hs _ _ => exact hs ▸ h

theorem wellFormed_handle (h : WellFormed sessions) (request : Request) :
    WellFormed (handle sessions request).sessions := by
  obtain ⟨msgID, data, now, ts⟩ := request
  cases data with
  | none => exact h
  | some data => exact wellFormed_served h (served sessions msgID data now ts)

end Cardwar.SessionSvr
