import Cardwar.Conf
import Cardwar.Lib.Run
import Cardwar.Lib.Strconv
import Cardwar.Protocol

/-!
# Connections of one gateway

The connection callbacks of the client-facing server, the exchange with
SessionSvr when a player connects, and the retry of disconnects that could not
be reported. OnConnStart runs in three steps: it registers the connection,
`CheckReconnect` sends SessionGet and waits, and the wait ends by the answer or
by the timeout. `up` in an event names the backends with a routable connection
at that moment.
-/

namespace Cardwar.Gateway.Reconnect

open Conf Protocol
open Run (run Along)
open Strconv (formatInt formatUint)

-- A connection property is an `interface{}`; these two types are stored.
inductive Property
  | int64 (n : Int64)
  | string (s : String)
  deriving DecidableEq

structure Conn where
  properties : SyncMap String Property := ∅
  /-- The player whose token opened the connection; no code reads it. -/
  auth : Option Int64
  deriving DecidableEq

/-- A running OnConnStart of an authenticated connection, with its channel once
it waits. -/
structure Callback where
  player : Int64
  ch : Option Nat
  deriving DecidableEq

structure Out where
  backend : String
  key : String
  msgID : UInt32
  data : SessionData
  deriving DecidableEq

structure State where
  id : String
  conns : SyncMap UInt64 Conn := ∅
  playerConns : SyncMap Int64 UInt64 := ∅
  pendingSessionGets : SyncMap Int64 Nat := ∅
  pendingDisconnects : SyncMap Int64 Unit := ∅
  callbacks : SyncMap UInt64 Callback := ∅
  /-- The channels made so far, and those of them that are closed. -/
  chans : Nat := 0
  closed : List Nat := []
  outbox : List Out := []

inductive Event
  | connStart (c : UInt64) (auth : Option Int64)
  | checkReconnect (c : UInt64) (up : List String)
  | wake (c : UInt64)
  | timeout (c : UInt64)
  | connStop (c : UInt64) (up : List String)
  | sessionGet (data : SessionData) (up : List String)
  | invalidate (data : SessionData)
  | retry (player : Int64) (up : List String)

/-- `RouteTo` and, when it finds a connection, `SendMsg`. -/
def send (up : List String) (backend key : String) (msgID : UInt32) (data : SessionData) :
    List Out :=
  if backend ∈ up then [⟨backend, key, msgID, data⟩] else []

def sendSession (up : List String) (player : Int64) (msgID : UInt32) (data : SessionData) :
    List Out :=
  send up svcSessionSvr (formatInt player) msgID data

def collectTags (conn : Conn) : Tags :=
  syncTagKeys.foldl (fun tags key => match conn.properties.load key with
    | some (.string s) => if s = "" then tags else tags.store key s
    | _ => tags) ∅

def notifyRoomReconnected (up : List String) (player : Int64) (matchID serverID : String)
    (c : UInt64) :
    List Out :=
  send up svcRoomSvr (if serverID = "" then matchID else serverID) msgIdSessionReconnected
    { playerId := player
      connTags := ((tag tagPlayerID (formatInt player)).store tagMatchID matchID).store tagSenderID
        (formatUint c) }

-- ---------------------------------------------------------------------------
-- The callbacks
-- ---------------------------------------------------------------------------

/-- OnConnStart up to `CheckReconnect`. Without an authentication the
connection is stopped; it stays open until OnConnStop. -/
def connStart (s : State) (c : UInt64) : Option Int64 → State
  | none => { s with conns := s.conns.store c { auth := none }, outbox := [] }
  | some p => { s with
      conns := s.conns.store c
        { auth := some p,
          properties := (∅ : SyncMap String Property).store propPlayerID (.int64 p) }
      playerConns := s.playerConns.store p c
      callbacks := s.callbacks.store c ⟨p, none⟩
      outbox := [] }

def checkReconnect (s : State) (c : UInt64) (p : Int64) (up : List String) : State :=
  if svcSessionSvr ∈ up then
    { s with
      chans := s.chans + 1
      pendingSessionGets := s.pendingSessionGets.store p s.chans
      callbacks := s.callbacks.store c ⟨p, some s.chans⟩
      outbox := sendSession up p msgIdSessionGet { playerId := p } }
  else { s with callbacks := s.callbacks.delete c, outbox := [] }

/-- The two ends of the wait. Both run the deferred delete. -/
def endWait (s : State) (c : UInt64) (p : Int64) : State :=
  { s with
    pendingSessionGets := s.pendingSessionGets.delete p
    callbacks := s.callbacks.delete c
    outbox := [] }

def markDisconnected (s : State) (p : Int64) (up : List String) : State :=
  if svcSessionSvr ∈ up then
    { s with
      outbox := sendSession up p msgIdSessionDisconnect { playerId := p, gatewayId := s.id } }
  else { s with pendingDisconnects := s.pendingDisconnects.store p () }

def connStop (s : State) (c : UInt64) (conn : Conn) (up : List String) : State :=
  let s := { s with conns := s.conns.delete c, outbox := [] }
  match conn.properties.load propPlayerID with
  | some (.int64 p) => markDisconnected { s with playerConns := s.playerConns.delete p } p up
  | _ => s

/-- `HandleSessionGet`, for the answers to SessionGet and to SessionReconnect. -/
def handleSessionGet (s : State) (data : SessionData) (up : List String) : State :=
  let p := data.playerId
  let (ch, pendingSessionGets) := s.pendingSessionGets.loadAndDelete p
  let s := { s with pendingSessionGets, closed := ch.toList ++ s.closed, outbox := [] }
  match s.playerConns.load p with
  | none => s
  | some c => match s.conns.load c with
    | none => s
    | some conn =>
      if data.disconnectedAt ≠ 0 then
        let conn :=
          { conn with properties := conn.properties.storeAll (data.connTags.mapVal .string) }
        let matchID := data.connTags.get tagMatchID
        { s with
          conns := s.conns.store c conn
          outbox :=
            (if matchID ≠ "" then
              notifyRoomReconnected up p matchID (data.connTags.get tagRoomSvrID) c else []) ++
            sendSession up p msgIdSessionReconnect { playerId := p, gatewayId := s.id } }
      else { s with
        outbox := sendSession up p msgIdSessionSave
          { playerId := p, gatewayId := s.id, connTags := collectTags conn } }

/-- The connection it stops stays open until its OnConnStop. -/
def handleSessionInvalidate (s : State) (data : SessionData) : State :=
  if data.gatewayId ≠ s.id ∨ data.playerId = 0 then { s with outbox := [] }
  else { s with playerConns := s.playerConns.delete data.playerId, outbox := [] }

/-- One entry visited by `retryPendingDisconnects`. -/
def retryDisconnect (s : State) (p : Int64) (up : List String) : State :=
  if svcSessionSvr ∈ up then
    { s with
      pendingDisconnects := s.pendingDisconnects.delete p
      outbox := sendSession up p msgIdSessionDisconnect { playerId := p, gatewayId := s.id } }
  else { s with outbox := [] }

def step (s : State) : Event → Option State
  | .connStart c auth =>
    if s.conns.load c = none ∧ s.callbacks.load c = none then some (connStart s c auth) else none
  | .checkReconnect c up => match s.callbacks.load c with
    | some ⟨p, none⟩ => some (checkReconnect s c p up)
    | _ => none
  | .wake c => match s.callbacks.load c with
    | some ⟨p, some ch⟩ =>
      if ch ∈ s.closed then
        some { endWait s c p with pendingDisconnects := s.pendingDisconnects.delete p }
      else none
    | _ => none
  | .timeout c => match s.callbacks.load c with
    | some ⟨p, some _⟩ => some (endWait s c p)
    | _ => none
  | .connStop c up => (s.conns.load c).map fun conn => connStop s c conn up
  | .sessionGet data up => some (handleSessionGet s data up)
  | .invalidate data => some (handleSessionInvalidate s data)
  | .retry p up => (s.pendingDisconnects.load p).map fun _ => retryDisconnect s p up

def signal (s : State) (p : Int64) : State :=
  { s with
    pendingSessionGets := s.pendingSessionGets.delete p
    closed := (s.pendingSessionGets.load p).toList ++ s.closed
    outbox := [] }

def Conn.restore (conn : Conn) (tags : Tags) : Conn :=
  { conn with properties := conn.properties.storeAll (tags.mapVal .string) }

inductive Answered (s : State) (data : SessionData) (up : List String) : State → Prop
  | unknown (hnone : s.playerConns.load data.playerId = none) :
      Answered s data up (signal s data.playerId)
  | gone (hp : s.playerConns.load data.playerId = some c) (hc : s.conns.load c = none) :
      Answered s data up (signal s data.playerId)
  | restored (hp : s.playerConns.load data.playerId = some c) (hc : s.conns.load c = some conn)
      (hd : data.disconnectedAt ≠ 0) :
      Answered s data up { signal s data.playerId with
        conns := s.conns.store c (conn.restore data.connTags)
        outbox :=
          (if data.connTags.get tagMatchID ≠ "" then
            notifyRoomReconnected up data.playerId (data.connTags.get tagMatchID)
              (data.connTags.get tagRoomSvrID) c else []) ++
          sendSession up data.playerId msgIdSessionReconnect
            { playerId := data.playerId, gatewayId := s.id } }
  | saved (hp : s.playerConns.load data.playerId = some c) (hc : s.conns.load c = some conn)
      (hd : data.disconnectedAt = 0) :
      Answered s data up { signal s data.playerId with
        outbox := sendSession up data.playerId msgIdSessionSave
          { playerId := data.playerId, gatewayId := s.id, connTags := collectTags conn } }

theorem answered (s : State) (data : SessionData) (up : List String) :
    Answered s data up (handleSessionGet s data up) := by
  unfold handleSessionGet
  dsimp only
  split
  next hnone => exact .unknown hnone
  next c hp =>
    split
    next hc => exact .gone hp hc
    next conn hc =>
      split
      next hd => exact .restored hp hc hd
      next hd => exact .saved hp hc (not_not.mp hd)

inductive Stepped (s : State) : Event → State → Prop
  | connStart (auth : Option Int64) (hc : s.conns.load c = none) (hcb : s.callbacks.load c = none) :
      Stepped s (.connStart c auth) (connStart s c auth)
  | checkReconnect (up : List String) (hcb : s.callbacks.load c = some ⟨p, none⟩) :
      Stepped s (.checkReconnect c up) (checkReconnect s c p up)
  | wake (hcb : s.callbacks.load c = some ⟨p, some ch⟩) :
      Stepped s (.wake c) { endWait s c p with pendingDisconnects := s.pendingDisconnects.delete p }
  | timeout (hcb : s.callbacks.load c = some ⟨p, some ch⟩) : Stepped s (.timeout c) (endWait s c p)
  | connStop (up : List String) (hc : s.conns.load c = some conn) :
      Stepped s (.connStop c up) (connStop s c conn up)
  | sessionGet (ha : Answered s data up s') : Stepped s (.sessionGet data up) s'
  | invalidate (data : SessionData) : Stepped s (.invalidate data) (handleSessionInvalidate s data)
  | retry (up : List String) (hq : s.pendingDisconnects.load p = some ()) :
      Stepped s (.retry p up) (retryDisconnect s p up)

theorem stepped (hs : step s e = some s') : Stepped s e s' := by
  cases e <;> simp only [step] at hs
  case connStart c auth =>
    split at hs <;> cases hs
    next hfresh => exact .connStart auth hfresh.1 hfresh.2
  case checkReconnect c up =>
    split at hs <;> cases hs
    next p hcb => exact .checkReconnect up hcb
  case wake c =>
    split at hs
    next p ch hcb =>
      split at hs <;> cases hs
      exact .wake hcb
    next => cases hs
  case timeout c =>
    split at hs <;> cases hs
    next p ch hcb => exact .timeout hcb
  case connStop c up =>
    obtain ⟨conn, hc, rfl⟩ := Option.map_eq_some_iff.mp hs
    exact .connStop up hc
  case sessionGet data up => exact .sessionGet (Option.some.inj hs ▸ answered s data up)
  case invalidate data => exact Option.some.inj hs ▸ .invalidate data
  case retry p up =>
    obtain ⟨⟨⟩, hq, rfl⟩ := Option.map_eq_some_iff.mp hs
    exact .retry up hq

-- ---------------------------------------------------------------------------
-- Who is online, and what was reported
-- ---------------------------------------------------------------------------

def Online (conns : SyncMap UInt64 Conn) (p : Int64) : Prop :=
  ∃ c conn, conns.load c = some conn ∧ conn.auth = some p

def Starting (callbacks : SyncMap UInt64 Callback) (p : Int64) : Prop :=
  ∃ c cb, callbacks.load c = some cb ∧ cb.player = p

def Queued (s : State) (p : Int64) : Prop := s.pendingDisconnects.load p = some ()

def DisconnectSent (outbox : List Out) (p : Int64) : Prop :=
  ∃ out ∈ outbox, out.msgID = msgIdSessionDisconnect ∧ out.data.playerId = p

/-- A player has one connection at a time, and one with a queued disconnect
comes back only while SessionSvr is reachable, gets its answer in time, and is
not visited by a retry that gets through before that. -/
def Orderly (s : State) : Event → Prop
  | .connStop c _ => ∀ p c' conn conn', s.conns.load c = some conn → conn.auth = some p →
      s.conns.load c' = some conn' → conn'.auth = some p → c' = c
  | .checkReconnect c up =>
    svcSessionSvr ∉ up → ∀ cb, s.callbacks.load c = some cb → ¬ Queued s cb.player
  | .timeout c => ∀ cb, s.callbacks.load c = some cb → ¬ Queued s cb.player
  | .retry p up => svcSessionSvr ∈ up → ¬ Starting s.callbacks p
  | _ => True

theorem not_sent_nil (p : Int64) : ¬ DisconnectSent [] p := by
  rintro ⟨out, hout, -⟩
  cases hout

theorem mem_send (h : out ∈ send up backend key msgID data) :
    out.msgID = msgID ∧ out.data = data := by
  unfold send at h
  split at h
  · obtain rfl := List.mem_singleton.mp h
    exact ⟨rfl, rfl⟩
  · cases h

theorem mem_restored (h : out ∈ (if m ≠ "" then notifyRoomReconnected up q m server c else []) ++
      sendSession up q msgIdSessionReconnect data) :
    (out.backend = svcRoomSvr ∧ out.msgID = msgIdSessionReconnected ∧ out.data.playerId = q) ∨
      (out.msgID = msgIdSessionReconnect ∧ out.data = data) := by
  rcases List.mem_append.mp h with hroom | hsession
  · split at hroom
    · unfold notifyRoomReconnected send at hroom
      split at hroom
      · obtain rfl := List.mem_singleton.mp hroom
        exact .inl ⟨rfl, rfl, rfl⟩
      · cases hroom
    · cases hroom
  · exact .inr (mem_send hsession)

theorem not_sent_other (hm : msgID ≠ msgIdSessionDisconnect) :
    ¬ DisconnectSent (sendSession up q msgID data) p := by
  rintro ⟨out, hout, hmsg, -⟩
  exact hm ((mem_send hout).1 ▸ hmsg)

theorem sent_disconnect (h : DisconnectSent (sendSession up q msgID data) p) :
    data.playerId = p := by
  obtain ⟨out, hout, -, hp⟩ := h
  exact (mem_send hout).2 ▸ hp

theorem Online.of_delete (h : Online (conns.delete c) p) : Online conns p := by
  obtain ⟨c', conn, hload, hauth⟩ := h
  obtain ⟨-, hload⟩ := SyncMap.of_load_delete hload
  exact ⟨c', conn, hload, hauth⟩

theorem Online.of_store (h : Online (conns.store c conn) p) :
    conn.auth = some p ∨ Online conns p := by
  obtain ⟨c', conn', hload, hauth⟩ := h
  rw [SyncMap.load_store] at hload
  split at hload
  · cases hload
    exact .inl hauth
  · exact .inr ⟨c', conn', hload, hauth⟩

theorem Starting.store (h : Starting callbacks p)
    (hc : ∀ old, callbacks.load c = some old → old.player = cb.player) :
    Starting (callbacks.store c cb) p := by
  obtain ⟨c', old, hload, hp⟩ := h
  by_cases hcc : c' = c
  · subst hcc
    exact ⟨c', cb, SyncMap.load_store_self .., hc old hload ▸ hp⟩
  · exact ⟨c', old, by rw [SyncMap.load_store_ne _ _ hcc, hload], hp⟩

theorem Starting.delete (h : Starting callbacks p) (hc : callbacks.load c = some cb)
    (hp : cb.player ≠ p) : Starting (callbacks.delete c) p := by
  obtain ⟨c', old, hload, hplayer⟩ := h
  have hcc : c' ≠ c := by
    rintro rfl
    rw [hc] at hload
    cases hload
    exact hp hplayer
  exact ⟨c', old, by rw [SyncMap.load_delete_ne _ hcc, hload], hplayer⟩

-- ---------------------------------------------------------------------------
-- The invariant
-- ---------------------------------------------------------------------------

/-- `queued` is the heart: a player can be online with a disconnect still
queued only while OnConnStart has not finished with the player. -/
structure Inv (s : State) : Prop where
  auth : ∀ c conn p, s.conns.load c = some conn →
    conn.properties.load propPlayerID = some (.int64 p) →
    conn.auth = some p
  queued : ∀ p, Queued s p → Online s.conns p → Starting s.callbacks p
  sent : ∀ p, DisconnectSent s.outbox p → ¬ Online s.conns p

def init (gw : String) : State := { id := gw }

theorem inv_init (gw : String) : Inv (init gw) where
  auth := fun c conn p h => by simp [init] at h
  queued := fun p h => by simp [Queued, init] at h
  sent := fun p h => absurd h (not_sent_nil p)

theorem inv_connStart (h : Inv s) (hc : s.callbacks.load c = none) (auth : Option Int64) :
    Inv (connStart s c auth) := by
  cases auth with
  | none =>
    refine ⟨?_, ?_, fun p hp => absurd hp (not_sent_nil p)⟩
    · intro c' conn p hload hprop
      simp only [connStart, SyncMap.load_store] at hload
      split at hload
      · cases hload
        simp at hprop
      · exact h.auth c' conn p hload hprop
    · intro p hq ho
      rcases ho.of_store with hauth | ho
      · cases hauth
      · exact h.queued p hq ho
  | some player =>
    refine ⟨?_, ?_, fun p hp => absurd hp (not_sent_nil p)⟩
    · intro c' conn p hload hprop
      simp only [connStart, SyncMap.load_store] at hload
      split at hload
      · cases hload
        simpa using hprop
      · exact h.auth c' conn p hload hprop
    · intro p hq ho
      rcases ho.of_store with hauth | ho
      · cases hauth
        exact ⟨c, _, SyncMap.load_store_self .., rfl⟩
      · exact (h.queued p hq ho).store fun old hold => by simp [hc] at hold

theorem inv_checkReconnect (h : Inv s) (hc : s.callbacks.load c = some ⟨p, none⟩)
    (hok : Orderly s (.checkReconnect c up)) : Inv (checkReconnect s c p up) := by
  unfold checkReconnect
  split
  next hup =>
    refine ⟨h.auth, ?_, fun q hq => absurd hq (not_sent_other (by decide))⟩
    intro q hq ho
    refine (h.queued q hq ho).store fun old hold => ?_
    rw [hc] at hold
    cases hold
    rfl
  next hup =>
    refine ⟨h.auth, ?_, fun q hq => absurd hq (not_sent_nil q)⟩
    intro q hq ho
    have hpq : p ≠ q := fun heq => hok hup _ hc (heq ▸ hq)
    exact (h.queued q hq ho).delete hc hpq

theorem inv_endWait (h : Inv s) (hc : s.callbacks.load c = some ⟨p, ch⟩)
    (hsub : ∀ q, pending.load q = some () → Queued s q ∧ q ≠ p) :
    Inv { endWait s c p with pendingDisconnects := pending } := by
  refine ⟨h.auth, ?_, fun q hq => absurd hq (not_sent_nil q)⟩
  intro q hq ho
  obtain ⟨hold, hne⟩ := hsub q hq
  exact (h.queued q hold ho).delete hc hne.symm

theorem inv_connStop (h : Inv s) (hc : s.conns.load c = some conn)
    (hok : Orderly s (.connStop c up)) : Inv (connStop s c conn up) := by
  have hauth : ∀ c' conn' p, (s.conns.delete c).load c' = some conn' →
      conn'.properties.load propPlayerID = some (.int64 p) → conn'.auth = some p := by
    intro c' conn' p hload
    obtain ⟨-, hload⟩ := SyncMap.of_load_delete hload
    exact h.auth c' conn' p hload
  -- The stopped connection was the last one of its player.
  have hlast : ∀ p, conn.auth = some p → ¬ Online (s.conns.delete c) p := by
    rintro p hp ⟨c', conn', hload, hp'⟩
    obtain ⟨hne, hload⟩ := SyncMap.of_load_delete hload
    exact absurd (hok p c' conn conn' hc hp hload hp') hne
  unfold connStop
  dsimp only
  split
  next p hprop =>
    have hp : ¬ Online (s.conns.delete c) p := hlast p (h.auth c conn p hc hprop)
    unfold markDisconnected
    split
    · refine ⟨hauth, fun q hq ho => h.queued q hq ho.of_delete, fun q hq => ?_⟩
      exact sent_disconnect hq ▸ hp
    · refine ⟨hauth, fun q hq ho => ?_, fun q hq => absurd hq (not_sent_nil q)⟩
      have hne : q ≠ p := fun heq => hp (heq ▸ ho)
      exact h.queued q ((SyncMap.load_store_ne _ _ hne).symm.trans hq) ho.of_delete
  next =>
    exact ⟨hauth, fun q hq ho => h.queued q hq ho.of_delete, fun q hq => absurd hq (not_sent_nil q)⟩

theorem load_storeAll_int64 (properties : SyncMap String Property) (tags : Tags)
    (h : (properties.storeAll (tags.mapVal .string)).load key = some (.int64 p)) :
    properties.load key = some (.int64 p) := by
  rw [SyncMap.load_storeAll, SyncMap.load_mapVal] at h
  cases ht : tags.load key with
  | none => simpa [ht] using h
  | some v => simp [ht] at h

theorem inv_signal (h : Inv s) (p : Int64) : Inv (signal s p) :=
  ⟨h.auth, h.queued, fun q hq => absurd hq (not_sent_nil q)⟩

theorem not_sent_restored :
    ¬ DisconnectSent ((if m ≠ "" then notifyRoomReconnected up q m server c else []) ++
      sendSession up q msgIdSessionReconnect data) p := by
  rintro ⟨out, hout, hmsg, -⟩
  rcases mem_restored hout with ⟨-, hid, -⟩ | ⟨hid, -⟩
  · exact absurd (hid.symm.trans hmsg) (by decide)
  · exact absurd (hid.symm.trans hmsg) (by decide)

theorem inv_answered (h : Inv s) (ha : Answered s data up s') : Inv s' := by
  cases ha with
  | unknown hnone => exact inv_signal h _
  | gone hp hc => exact inv_signal h _
  | @restored c conn hp hconn hd =>
    have honline : ∀ p, Online (s.conns.store c (conn.restore data.connTags)) p →
        Online s.conns p := by
      intro p ho
      rcases ho.of_store with hp | ho
      · exact ⟨c, conn, hconn, hp⟩
      · exact ho
    refine ⟨?_, fun p hq ho => h.queued p hq (honline p ho),
      fun p hp => absurd hp not_sent_restored⟩
    intro c' conn' p hload hprop
    rw [SyncMap.load_store] at hload
    split at hload
    · cases hload
      exact h.auth c conn p hconn (load_storeAll_int64 _ _ hprop)
    · exact h.auth c' conn' p hload hprop
  | saved hp hconn hd =>
    exact { inv_signal h data.playerId with
      sent := fun p hp => absurd hp (not_sent_other (by decide)) }

theorem inv_retryDisconnect (h : Inv s) (hq : Queued s p) (hok : Orderly s (.retry p up)) :
    Inv (retryDisconnect s p up) := by
  unfold retryDisconnect
  split
  next hup =>
    refine ⟨h.auth, fun q hq' ho => ?_, fun q hsent ho => ?_⟩
    · simp only [Queued, SyncMap.load_delete] at hq'
      split at hq'
      · cases hq'
      · exact h.queued q hq' ho
    · obtain rfl := sent_disconnect hsent
      exact hok hup (h.queued _ hq ho)
  next => exact { h with sent := fun q hq => absurd hq (not_sent_nil q) }

theorem inv_step (h : Inv s) (hok : Orderly s e) (hs : step s e = some s') : Inv s' := by
  cases stepped hs with
  | connStart auth hc hcb => exact inv_connStart h hcb auth
  | checkReconnect up hcb => exact inv_checkReconnect h hcb hok
  | wake hcb =>
    refine inv_endWait h hcb fun q hq => ?_
    obtain ⟨hne, hq⟩ := SyncMap.of_load_delete hq
    exact ⟨hq, hne⟩
  | timeout hcb => exact inv_endWait h hcb fun q hq => ⟨hq, fun heq => hok _ hcb (heq ▸ hq)⟩
  | connStop up hc => exact inv_connStop h hc hok
  | sessionGet ha => exact inv_answered h ha
  | invalidate data =>
    unfold handleSessionInvalidate
    split
    · exact { h with sent := fun p hp => absurd hp (not_sent_nil p) }
    · exact { h with sent := fun p hp => absurd hp (not_sent_nil p) }
  | retry up hq => exact inv_retryDisconnect h hq hok

/-- In every orderly run a disconnect is reported only for a player without an
open connection. -/
theorem disconnect_only_offline (ha : Along step Orderly (init gw) es)
    (hr : run step (init gw) es = some s) : ∀ p, DisconnectSent s.outbox p → ¬ Online s.conns p :=
  (Run.invariant (P := Inv) (fun _ _ _ => inv_step) (inv_init gw) ha hr).sent

-- Player 7 connects and leaves while SessionSvr is away; the retry reports it.
def retried : List Event :=
  [.connStart 1 (some 7), .checkReconnect 1 [], .connStop 1 [], .retry 7 [svcSessionSvr]]

theorem retried_offline :
    ∃ s, run step (init "gateway-1") retried = some s ∧ DisconnectSent s.outbox 7 ∧
      ¬ Online s.conns 7 := by
  have ha : Along step Orderly (init "gateway-1") retried := by
    refine ⟨trivial, ?_⟩
    rintro _ ⟨⟩
    refine ⟨fun _ cb hcb => ?_, ?_⟩
    · simp [Queued, connStart, init]
    rintro _ ⟨⟩
    refine ⟨?_, ?_⟩
    · intro p c' conn conn' _ _ hload _
      by_contra hne
      simp [checkReconnect, connStart, init, hne] at hload
    rintro _ ⟨⟩
    refine ⟨?_, fun _ _ => trivial⟩
    rintro - ⟨c, cb, hload, -⟩
    by_cases hc : c = 1
    · subst hc
      cases hload
    · simp [checkReconnect, connStart, connStop, markDisconnected, init, hc] at hload
  refine ⟨_, rfl, ?_, disconnect_only_offline ha rfl 7 ?_⟩
  · exact ⟨_, List.mem_singleton_self _, rfl, rfl⟩
  · exact ⟨_, List.mem_singleton_self _, rfl, rfl⟩

-- A second connection of player 7 is open when the first one stops.
def twoConns : List Event :=
  [.connStart 1 (some 7), .checkReconnect 1 [], .connStart 2 (some 7), .checkReconnect 2 [],
   .connStop 1 [svcSessionSvr]]

-- Player 7 leaves and comes back while SessionSvr is away; then the retry gets through.
def backDuringOutage : List Event :=
  [.connStart 1 (some 7), .checkReconnect 1 [], .connStop 1 [], .connStart 2 (some 7),
   .checkReconnect 2 [], .retry 7 [svcSessionSvr]]

/-- Both report an online player as disconnected. -/
theorem online_reported :
    (∃ s, run step (init "gateway-1") twoConns = some s ∧ DisconnectSent s.outbox 7 ∧
      Online s.conns 7) ∧
    ∃ s, run step (init "gateway-1") backDuringOutage = some s ∧ DisconnectSent s.outbox 7 ∧
      Online s.conns 7 := by
  refine ⟨⟨_, rfl, ?_, 2, ?_⟩, ⟨_, rfl, ?_, 2, ?_⟩⟩
  · exact ⟨_, List.mem_singleton_self _, rfl, rfl⟩
  · exact ⟨_, rfl, rfl⟩
  · exact ⟨_, List.mem_singleton_self _, rfl, rfl⟩
  · exact ⟨_, rfl, rfl⟩

end Cardwar.Gateway.Reconnect
