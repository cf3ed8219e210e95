import Cardwar.Gateway.Player
import Cardwar.SessionSvr.Expiry

/-!
# Gateways and SessionSvr

Any number of gateways with one SessionSvr. A message is under way until it is
delivered; messages overtake each other. A gateway takes its own steps (clients
connect and leave, backends answer), SessionSvr's answers make it send more.
-/

namespace Cardwar.System.Sessions

open Conf Protocol Codec Gateway Reconnect
open Gateway.PlayerConns (Backed Identified identified_step identified_init id_step)
open Gateway.Player (Kept Passive Turn turn)
open SessionSvr (Served served WellFormed)
open SessionSvr.Expiry (Expired)
open Run (run)

inductive Way
  | up
  | down
  deriving DecidableEq

/-- A message on gateway `gw`'s connection to SessionSvr. -/
structure Packet where
  gw : Nat
  way : Way
  msgID : UInt32
  data : SessionData
  /-- The step that sent it; no code reads it. -/
  sentAt : Nat
  deriving DecidableEq

/-- A connection `HandleSessionInvalidate` stopped, until its OnConnStop runs. -/
structure Stopped where
  gw : Nat
  conn : UInt64
  player : Int64
  deriving DecidableEq

structure State where
  gws : List Reconnect.State
  sessions : SessionSvr.Sessions := ∅
  net : List Packet := []
  stopping : List Stopped := []
  /-- The steps taken, the step that opened each connection, and all that was
  sent so far; no code reads them. -/
  clock : Nat := 0
  opened : SyncMap (Nat × UInt64) Nat := ∅
  sent : List SessionData := []

/-- The clock of SessionSvr, the backends its receiver can reach, and the
gateways connected to SessionSvr, when a message is handled. -/
structure Env where
  now : Int
  up : List String
  linked : List Nat

inductive Event
  | gateway (g : Nat) (ev : Client.Event)
  | deliver (k : Nat) (env : Env)
  | expire (player : Int64) (now : Int)

-- ---------------------------------------------------------------------------
-- Steps
-- ---------------------------------------------------------------------------

/-- What a gateway puts on its connection to SessionSvr. -/
def uplink (g clock : Nat) (outbox : List Out) : List Packet :=
  (outbox.filter (·.backend = svcSessionSvr)).map fun out => ⟨g, .up, out.msgID, out.data, clock⟩

/-- What SessionSvr sends for a message of gateway `g`, of `n` gateways. -/
def downlink (n g clock : Nat) (linked : List Nat) : SessionSvr.Send → List Packet
  | .reply msgID data => [⟨g, .down, msgID, data, clock⟩]
  | .broadcast msgID data =>
    ((List.range n).filter (· ∈ linked)).map fun h => ⟨h, .down, msgID, data, clock⟩

def invalidated (gw : Reconnect.State) (data : SessionData) : Option UInt64 :=
  if data.gatewayId ≠ gw.id ∨ data.playerId = 0 then none
  else (gw.playerConns.load data.playerId).filter fun c => (gw.conns.load c).isSome

def stoppingAfter (stopping : List Stopped) (g : Nat) (gw : Reconnect.State) :
    Client.Event → List Stopped
  | .conn (.connStop c _) => stopping.filter fun st => ¬ (st.gw = g ∧ st.conn = c)
  | .conn (.invalidate data) =>
    stopping ++ (invalidated gw data).toList.map fun c => ⟨g, c, data.playerId⟩
  | _ => stopping

def openedAfter (opened : SyncMap (Nat × UInt64) Nat) (g clock : Nat) :
    Client.Event → SyncMap (Nat × UInt64) Nat
  | .conn (.connStart c _) => opened.store (g, c) clock
  | _ => opened

def acted (s : State) (g : Nat) (ev : Client.Event) (gw gw' : Reconnect.State) : State :=
  { s with
    gws := s.gws.set g gw'
    net := s.net ++ uplink g s.clock gw'.outbox
    stopping := stoppingAfter s.stopping g gw ev
    opened := openedAfter s.opened g s.clock ev
    sent := s.sent ++ gw'.outbox.map (·.data) }

def act (s : State) (g : Nat) (ev : Client.Event) : Option State :=
  (s.gws[g]?).bind fun gw => (Client.step gw ev).map (acted s g ev gw)

def serve (s : State) (pkt : Packet) (env : Env) : State :=
  let handled := SessionSvr.handle s.sessions ⟨pkt.msgID, some pkt.data, env.now, 0⟩
  let pkts := handled.sent.flatMap (downlink s.gws.length pkt.gw s.clock env.linked)
  { s with sessions := handled.sessions, net := s.net ++ pkts, sent := s.sent ++ pkts.map (·.data) }

/-- `SessionResponseRouter.Handle`. Other messages have no router. -/
def arrival (pkt : Packet) (up : List String) : Option Client.Event :=
  if pkt.msgID = msgIdSessionGet ∨ pkt.msgID = msgIdSessionReconnect
    then some (.conn (.sessionGet pkt.data up))
  else if pkt.msgID = msgIdSessionInvalidate then some (.conn (.invalidate pkt.data))
  else none

def deliver (s : State) (pkt : Packet) (env : Env) : Option State :=
  match pkt.way with
  | .up => some (serve s pkt env)
  | .down => match arrival pkt env.up with
    | some ev => act s pkt.gw ev
    | none => some s

def Local : Client.Event → Prop
  | .conn (.sessionGet _ _) => False
  | .conn (.invalidate _) => False
  | _ => True

instance : DecidablePred Local := fun ev => by
  unfold Local
  split <;> infer_instance

def next (s : State) : Event → Option State
  | .gateway g ev => if Local ev then act s g ev else none
  | .deliver k env => (s.net[k]?).bind fun pkt => deliver { s with net := s.net.eraseIdx k } pkt env
  | .expire player now => (s.sessions.load player).bind fun sess =>
    if Expired sess now then some { s with sessions := s.sessions.delete player } else none

def step (s : State) (e : Event) : Option State :=
  (next s e).map fun s' => { s' with clock := s.clock + 1 }

def fresh (ids : List String) : State where
  gws := ids.map init

-- ---------------------------------------------------------------------------
-- What every state has
-- ---------------------------------------------------------------------------

/-- Backends send no tag of the name OnConnStart keeps the player id under. -/
def Event.Backed : Event → Prop
  | .gateway _ ev => PlayerConns.Backed ev
  | _ => True

/-- Such a tag is in no session and no message either, so connections keep their
identity. -/
structure Sound (s : State) : Prop where
  identified : ∀ gw ∈ s.gws, Identified gw
  wellFormed : WellFormed s.sessions
  sessions : ∀ p sess, s.sessions.load p = some sess → sess.toData.connTags.load propPlayerID = none
  net : ∀ pkt ∈ s.net, pkt.data.connTags.load propPlayerID = none

theorem sound_fresh (ids : List String) : Sound (fresh ids) := by
  refine ⟨?_, fun p sess h => by simp [fresh] at h, fun p sess h => by simp [fresh]
    at h, by simp [fresh]⟩
  intro gw hgw
  obtain ⟨gwID, -, rfl⟩ := List.mem_map.mp hgw
  exact identified_init gwID

theorem getD_goTags (tags : Tags) : (goTags tags).getD ∅ = tags := by
  unfold goTags
  split
  next h => exact h.symm
  next => rfl

theorem mem_uplink (h : pkt ∈ uplink g clock outbox) :
    ∃ out ∈ outbox, out.backend = svcSessionSvr ∧ pkt = ⟨g, .up, out.msgID, out.data, clock⟩ := by
  obtain ⟨out, hout, rfl⟩ := List.mem_map.mp h
  obtain ⟨hmem, hb⟩ := List.mem_filter.mp hout
  exact ⟨out, hmem, of_decide_eq_true hb, rfl⟩

theorem sent_uplink (hup : svcSessionSvr ∈ up) (hsub : sendSession up p msgID data ⊆ outbox)
    (g clock : Nat) :
    ⟨g, .up, msgID, data, clock⟩ ∈ uplink g clock outbox := by
  have hmem : ⟨svcSessionSvr, Strconv.formatInt p, msgID, data⟩ ∈ outbox :=
    hsub (by simp [sendSession, send, hup])
  exact List.mem_map.mpr ⟨_, List.mem_filter.mpr ⟨hmem, decide_eq_true rfl⟩, rfl⟩

theorem invalidated_eq (h : invalidated gw data = some c) :
    data.gatewayId = gw.id ∧ gw.playerConns.load data.playerId = some c := by
  unfold invalidated at h
  split at h
  next => cases h
  next hcond =>
    simp only [not_or, not_not] at hcond
    exact ⟨hcond.1, (Option.filter_eq_some_iff.mp h).1⟩

theorem act_eq (h : act s g ev = some s') :
    ∃ gw gw', s.gws[g]? = some gw ∧ Client.step gw ev = some gw' ∧ s' = acted s g ev gw gw' := by
  obtain ⟨gw, hg, h⟩ := Option.bind_eq_some_iff.mp h
  obtain ⟨gw', hs, rfl⟩ := Option.map_eq_some_iff.mp h
  exact ⟨gw, gw', hg, hs, rfl⟩

inductive Transition (s : State) : Event → State → Prop
  | acted (hl : Local ev) (ha : act s g ev = some s') : Transition s (.gateway g ev) s'
  | served (env : Env) (hk : s.net[k]? = some pkt) (hw : pkt.way = .up) :
      Transition s (.deliver k env) (serve { s with net := s.net.eraseIdx k } pkt env)
  | arrived (env : Env) (hk : s.net[k]? = some pkt) (hw : pkt.way = .down)
      (hev : arrival pkt env.up = some ev)
      (ha : act { s with net := s.net.eraseIdx k } pkt.gw ev = some s') :
      Transition s (.deliver k env) s'
  | ignored (env : Env) (hk : s.net[k]? = some pkt) (hw : pkt.way = .down)
      (hev : arrival pkt env.up = none) :
      Transition s (.deliver k env) { s with net := s.net.eraseIdx k }
  | expired (hload : s.sessions.load p = some sess) (hexp : Expired sess now) :
      Transition s (.expire p now) { s with sessions := s.sessions.delete p }

theorem transition (h : next s e = some s') : Transition s e s' := by
  cases e with
  | gateway g ev =>
    simp only [next] at h
    split at h
    next hl => exact .acted hl h
    next => cases h
  | deliver k env =>
    obtain ⟨pkt, hk, hd⟩ := Option.bind_eq_some_iff.mp h
    unfold deliver at hd
    split at hd
    next hw => exact Option.some.inj hd ▸ .served env hk hw
    next hw =>
      split at hd
      next hev => exact .arrived env hk hw hev hd
      next hev => exact Option.some.inj hd ▸ .ignored env hk hw hev
  | expire p now =>
    obtain ⟨sess, hload, hd⟩ := Option.bind_eq_some_iff.mp h
    split at hd
    next hexp => exact Option.some.inj hd ▸ .expired hload hexp
    next => cases hd

theorem sound_act (h : Sound s) (hb : PlayerConns.Backed ev) (hs : act s g ev = some s') :
    Sound s' := by
  obtain ⟨gw, gw', hg, hstep, rfl⟩ := act_eq hs
  have hi := h.identified gw (List.mem_of_getElem? hg)
  refine ⟨fun x hx => ?_, h.wellFormed, h.sessions, fun pkt hpkt => ?_⟩
  · rcases List.mem_or_eq_of_mem_set hx with hx | rfl
    · exact h.identified x hx
    · exact identified_step hi hb hstep
  · rcases List.mem_append.mp hpkt with hpkt | hpkt
    · exact h.net pkt hpkt
    · obtain ⟨out, hout, hsvr, rfl⟩ := mem_uplink hpkt
      exact Player.outbox_tags hi hb hstep hout hsvr (by decide)

inductive Answers (sessions : SessionSvr.Sessions) (msgID : UInt32) (data : SessionData)
    (n g clock : Nat) (linked : List Nat) : Packet → Prop
  | got (hid : msgID = msgIdSessionGet) : Answers sessions msgID data n g clock linked
      ⟨g, .down, msgIdSessionGet,
        { (sessions.session data.playerId).toData with playerId := data.playerId }, clock⟩
  | reconnected (hid : msgID = msgIdSessionReconnect)
      (hload : sessions.load data.playerId = some sess) :
      Answers sessions msgID data n g clock linked
        ⟨g, .down, msgIdSessionReconnect, (sess.reconnect data).toData, clock⟩
  | invalidated (hid : msgID = msgIdSessionReconnect)
      (hload : sessions.load data.playerId = some sess)
      (hstale : sess.Stale data.gatewayId) (hh : h < n) (hlinked : h ∈ linked) :
      Answers sessions msgID data n g clock linked
        ⟨h, .down, msgIdSessionInvalidate,
          { playerId := data.playerId, gatewayId := sess.gatewayID }, clock⟩

theorem answers (hs : Served sessions msgID data now sessions' sent)
    (hpkt : pkt ∈ sent.flatMap (downlink n g clock linked)) :
    Answers sessions msgID data n g clock linked pkt := by
  obtain ⟨out, hout, hmem⟩ := List.mem_flatMap.mp hpkt
  cases hs with
  | got hid hs ho =>
    subst ho
    obtain rfl := List.mem_singleton.mp hout
    obtain rfl := List.mem_singleton.mp hmem
    exact .got hid
  | reconnected hid hload hs ho =>
    subst ho
    rcases List.mem_cons.mp hout with rfl | hout
    · obtain rfl := List.mem_singleton.mp hmem
      exact .reconnected hid hload
    · split at hout
      next hstale =>
        obtain rfl := List.mem_singleton.mp hout
        obtain ⟨h, hh, rfl⟩ := List.mem_map.mp hmem
        obtain ⟨hrange, hlinked⟩ := List.mem_filter.mp hh
        exact .invalidated hid hload hstale (List.mem_range.mp hrange) (of_decide_eq_true hlinked)
      next => cases hout
  | saved hid hs ho => simp [ho] at hout
  | disconnected hid hfresh hs ho => simp [ho] at hout
  | stale hid hload hstale hs ho => simp [ho] at hout
  | unknown hid hload hs ho => simp [ho] at hout
  | dropped hs ho hid => simp [ho] at hout

section Tags

-- What the tags of a player are known to have, also when there are none.
variable {P : Int64 → Tags → Prop} {sessions : SessionSvr.Sessions}

theorem session_tags (hempty : ∀ p, P p ∅)
    (h : ∀ p sess, sessions.load p = some sess → P p sess.toData.connTags) (p : Int64) :
    P p (sessions.session p).toData.connTags := by
  unfold SessionSvr.Sessions.session
  cases hp : sessions.load p with
  | none => exact hempty p
  | some sess => exact h p sess hp

theorem disconnect_tags {sess : SessionSvr.Session} (h : P p sess.toData.connTags)
    (hdata : P p data.connTags) (now : Int) : P p (sess.disconnect data now).toData.connTags := by
  simp only [SessionSvr.Session.disconnect, SessionSvr.Session.toData]
  split
  · rwa [getD_goTags]
  · exact h

theorem reconnect_tags {sess : SessionSvr.Session} (h : P p sess.toData.connTags)
    (hdata : P p data.connTags) :
    P p (sess.reconnect data).toData.connTags := by
  simp only [SessionSvr.Session.reconnect, SessionSvr.Session.toData]
  split
  · exact h
  · rwa [getD_goTags]

theorem served_sessions (hempty : ∀ p, P p ∅)
    (h : ∀ p sess, sessions.load p = some sess → P p sess.toData.connTags)
    (hdata : P data.playerId data.connTags) (hs : Served sessions msgID data now sessions' sent) :
    ∀ p sess, sessions'.load p = some sess → P p sess.toData.connTags := by
  have hstore {sess' : SessionSvr.Session} (hnew : P data.playerId sess'.toData.connTags) :
      ∀ p sess, (sessions.store data.playerId sess').load p = some sess →
        P p sess.toData.connTags := by
    intro p sess hp
    rw [SyncMap.load_store] at hp
    split at hp
    next heq => exact heq ▸ Option.some.inj hp ▸ hnew
    next => exact h p sess hp
  have hsession := session_tags hempty h data.playerId
  cases hs with
  | saved hid hs ho =>
    subst hs
    refine hstore ?_
    simp only [SessionSvr.Session.save, SessionSvr.Session.toData]
    rwa [getD_goTags]
  | disconnected hid hfresh hs ho => exact hs ▸ hstore (disconnect_tags hsession hdata now)
  | reconnected hid hload hs ho => exact hs ▸ hstore (reconnect_tags (h _ _ hload) hdata)
  | got hid hs ho => exact hs ▸ h
  | stale hid hload hstale hs ho => exact hs ▸ h
  | unknown hid hload hs ho => exact hs ▸ h
  | dropped hs ho hid => exact hs ▸ h

theorem answers_tags (hempty : ∀ p, P p ∅)
    (h : ∀ p sess, sessions.load p = some sess → P p sess.toData.connTags)
    (hdata : P data.playerId data.connTags)
    (ha : Answers sessions msgID data n g clock linked pkt) :
    P data.playerId pkt.data.connTags := by
  cases ha with
  | got => exact session_tags hempty h data.playerId
  | reconnected hid hload => exact reconnect_tags (h _ _ hload) hdata
  | invalidated => exact hempty data.playerId

end Tags

theorem sound_serve (h : Sound s) (hpkt : pkt.data.connTags.load propPlayerID = none) (env : Env) :
    Sound (serve s pkt env) := by
  have hs := served s.sessions pkt.msgID pkt.data env.now 0
  let P : Int64 → Tags → Prop := fun _ tags => tags.load propPlayerID = none
  have hempty : ∀ p, P p ∅ := fun _ => SyncMap.load_empty propPlayerID
  refine ⟨h.identified, SessionSvr.wellFormed_served h.wellFormed hs,
    served_sessions hempty h.sessions hpkt hs, ?_⟩
  intro q hq
  rcases List.mem_append.mp hq with hq | hq
  · exact h.net q hq
  · exact answers_tags hempty h.sessions hpkt (answers hs hq)

theorem arrival_eq (h : arrival pkt up = some ev) :
    (ev = .conn (.sessionGet pkt.data up) ∧
      (pkt.msgID = msgIdSessionGet ∨ pkt.msgID = msgIdSessionReconnect)) ∨
      (ev = .conn (.invalidate pkt.data) ∧ pkt.msgID = msgIdSessionInvalidate) := by
  unfold arrival at h
  split at h
  next hid => exact .inl ⟨(Option.some.inj h).symm, hid⟩
  next =>
    split at h
    next hid => exact .inr ⟨(Option.some.inj h).symm, hid⟩
    next => cases h

theorem Sound.received (h : Sound s) (k : Nat) : Sound { s with net := s.net.eraseIdx k } :=
  ⟨h.identified, h.wellFormed, h.sessions, fun q hq => h.net q (List.mem_of_mem_eraseIdx hq)⟩

theorem backed_arrival {k : Nat} (h : Sound s) (hk : s.net[k]? = some pkt)
    (hev : arrival pkt up = some ev) :
    PlayerConns.Backed ev := by
  rcases arrival_eq hev with ⟨rfl, -⟩ | ⟨rfl, -⟩
  · exact h.net pkt (List.mem_of_getElem? hk)
  · trivial

theorem sound_step (h : Sound s) (hb : e.Backed) (hs : step s e = some s') : Sound s' := by
  obtain ⟨s₁, hnext, rfl⟩ := Option.map_eq_some_iff.mp hs
  -- The clock is not part of it.
  suffices hsound :
      Sound s₁ from ⟨hsound.identified, hsound.wellFormed, hsound.sessions, hsound.net⟩
  cases transition hnext with
  | acted hl ha => exact sound_act h hb ha
  | served env hk hw => exact sound_serve (h.received _) (h.net _ (List.mem_of_getElem? hk)) env
  | arrived env hk hw hev ha => exact sound_act (h.received _) (backed_arrival h hk hev) ha
  | ignored env hk hw hev => exact h.received _
  | expired hload hexp =>
    exact ⟨h.identified, fun q t hq => h.wellFormed q t (SyncMap.of_load_delete hq).2,
      fun q t hq => h.sessions q t (SyncMap.of_load_delete hq).2, h.net⟩

theorem sound_run (hes : ∀ e ∈ es, e.Backed) (hr : run step (fresh ids) es = some s) : Sound s :=
  Run.invariant (fun _ _ _ => sound_step) (sound_fresh ids)
    (Run.along_of_forall (fun e he _ => hes e he) _) hr

-- ---------------------------------------------------------------------------
-- The messages SessionSvr handles
-- ---------------------------------------------------------------------------

section Serve

variable {pkt : Packet}

def post (s : State) (pkts : List Packet) : State :=
  { s with net := s.net ++ pkts, sent := s.sent ++ pkts.map (·.data) }

theorem serve_eq
    (hs : SessionSvr.handle s.sessions ⟨pkt.msgID, some pkt.data, env.now, 0⟩ = handled) :
    serve s pkt env = post { s with sessions := handled.sessions }
      (handled.sent.flatMap (downlink s.gws.length pkt.gw s.clock env.linked)) :=
  hs ▸ rfl

theorem serve_save (hid : pkt.msgID = msgIdSessionSave) (s : State) (env : Env) :
    serve s pkt env = { s with
      sessions := s.sessions.store pkt.data.playerId
        ((s.sessions.session pkt.data.playerId).save pkt.data) } := by
  have hs : SessionSvr.handle s.sessions ⟨pkt.msgID, some pkt.data, env.now, 0⟩ =
      SessionSvr.handleSave s.sessions pkt.data := by
    rw [hid]
    rfl
  rw [serve_eq hs]
  simp [SessionSvr.handleSave, post, SessionSvr.Sessions.session]

theorem serve_get (hid : pkt.msgID = msgIdSessionGet) (s : State) (env : Env) :
    serve s pkt env = post s [⟨pkt.gw, .down, msgIdSessionGet,
      { (s.sessions.session pkt.data.playerId).toData with playerId := pkt.data.playerId },
      s.clock⟩] := by
  have hs : SessionSvr.handle s.sessions ⟨pkt.msgID, some pkt.data, env.now, 0⟩ =
      SessionSvr.handleGet s.sessions pkt.data := by
    rw [hid]
    rfl
  rw [serve_eq hs, SessionSvr.handleGet, SessionSvr.Sessions.session]
  cases s.sessions.load pkt.data.playerId <;> rfl

theorem serve_reconnect (hid : pkt.msgID = msgIdSessionReconnect)
    (hload : s.sessions.load pkt.data.playerId = some sess) (env : Env) :
    serve s pkt env =
      post { s with sessions := s.sessions.store pkt.data.playerId (sess.reconnect pkt.data) }
      (⟨pkt.gw, .down, msgIdSessionReconnect, (sess.reconnect pkt.data).toData, s.clock⟩ ::
        if sess.Stale pkt.data.gatewayId then
          ((List.range s.gws.length).filter (· ∈ env.linked)).map fun h =>
            ⟨h, .down, msgIdSessionInvalidate, ⟨pkt.data.playerId, sess.gatewayID, ∅, 0⟩, s.clock⟩
        else []) := by
  have hs : SessionSvr.handle s.sessions ⟨pkt.msgID, some pkt.data, env.now, 0⟩ =
      SessionSvr.handleReconnect s.sessions pkt.data := by
    rw [hid]
    rfl
  rw [serve_eq hs]
  simp only [SessionSvr.handleReconnect, hload]
  split
  · simp [downlink]
  · simp [downlink]

theorem serve_stale (hid : pkt.msgID = msgIdSessionDisconnect)
    (hload : s.sessions.load pkt.data.playerId = some sess) (hstale : sess.Stale pkt.data.gatewayId)
    (env : Env) :
    serve s pkt env = s := by
  have hs : SessionSvr.handle s.sessions ⟨pkt.msgID, some pkt.data, env.now, 0⟩ =
      SessionSvr.handleDisconnect s.sessions pkt.data env.now := by
    rw [hid]
    rfl
  rw [serve_eq hs]
  simp [SessionSvr.handleDisconnect, SyncMap.loadOrStore, hload, hstale, post]

end Serve

-- ---------------------------------------------------------------------------
-- Steps, seen from one player
-- ---------------------------------------------------------------------------

def about (p : Int64) (pkt : Packet) : Bool := pkt.data.playerId = p

/-- Nothing about the player changes. -/
structure Frame (p : Int64) (s s' : State) : Prop where
  ids : s'.gws.map (·.id) = s.gws.map (·.id)
  kept : ∀ (g : Nat) gw', s'.gws[g]? = some gw' → ∃ gw, s.gws[g]? = some gw ∧ Kept p gw gw'
  session : s'.sessions.load p = s.sessions.load p
  net : s'.net.filter (about p) = s.net.filter (about p)
  sent : s'.sent.countP (·.playerId = p) = s.sent.countP (·.playerId = p)
  stopping : (s'.stopping.filter (·.player = p)).Sublist (s.stopping.filter (·.player = p))
  opened : ∀ (g : Nat) gw c, s.gws[g]? = some gw → (gw.conns.load c).isSome →
    s'.opened.load (g, c) = s.opened.load (g, c)

inductive Moves (p : Int64) (s : State) : Event → State → Prop
  | frame (hf : Frame p s s') : Moves p s e s'
  | turn (hg : s.gws[g]? = some gw) (hl : Local ev) (hs : Client.step gw ev = some gw')
      (ht : Turn p gw ev gw') :
      Moves p s (.gateway g ev) (acted s g ev gw gw')
  | served (env : Env) (hk : s.net[k]? = some pkt) (hp : pkt.data.playerId = p)
      (hw : pkt.way = .up) :
      Moves p s (.deliver k env) (serve { s with net := s.net.eraseIdx k } pkt env)
  | arrived (env : Env) (hk : s.net[k]? = some pkt) (hp : pkt.data.playerId = p)
      (hw : pkt.way = .down)
      (hev : arrival pkt env.up = some ev) (hg : s.gws[pkt.gw]? = some gw)
      (hs : Client.step gw ev = some gw')
      (ht : Turn p gw ev gw') :
      Moves p s (.deliver k env) (acted { s with net := s.net.eraseIdx k } pkt.gw ev gw gw')
  | ignored (env : Env) (hk : s.net[k]? = some pkt) (hp : pkt.data.playerId = p)
      (hw : pkt.way = .down)
      (hev : arrival pkt env.up = none) :
      Moves p s (.deliver k env) { s with net := s.net.eraseIdx k }
  | expired (now : Int) (hload : s.sessions.load p = some sess) :
      Moves p s (.expire p now) { s with sessions := s.sessions.delete p }

section Frame

variable {p : Int64} {s : State} {outbox : List Out}

theorem filter_uplink (hq : ∀ out ∈ outbox, out.data.playerId ≠ p) :
    (uplink g clock outbox).filter (about p) = [] := by
  refine List.filter_eq_nil_iff.mpr fun pkt hpkt => ?_
  obtain ⟨out, hout, -, rfl⟩ := mem_uplink hpkt
  simpa [about] using hq out hout

theorem countP_outbox (hq : ∀ out ∈ outbox, out.data.playerId ≠ p) :
    (outbox.map (·.data)).countP (·.playerId = p) = 0 := by
  refine List.countP_eq_zero.mpr fun data hdata => ?_
  obtain ⟨out, hout, rfl⟩ := List.mem_map.mp hdata
  simpa using hq out hout

theorem stoppingAfter_sublist (hev : ∀ data, ev = .conn (.invalidate data) → data.playerId ≠ p)
    (stopping : List Stopped) (g : Nat) (gw : Reconnect.State) :
    ((stoppingAfter stopping g gw ev).filter (·.player = p)).Sublist
      (stopping.filter (·.player = p)) := by
  unfold stoppingAfter
  split
  next => exact (List.filter_sublist).filter _
  next data =>
    have hnone :
        ((invalidated gw data).toList.map fun c => (⟨g, c, data.playerId⟩ : Stopped)).filter
        (·.player = p) = [] := by
      refine List.filter_eq_nil_iff.mpr fun st hst => ?_
      obtain ⟨c, -, rfl⟩ := List.mem_map.mp hst
      simpa using hev data rfl
    rw [List.filter_append, hnone, List.append_nil]
  next => exact List.Sublist.refl _

theorem load_openedAfter (hs : Client.step gw ev = some gw') (hc : (gw.conns.load c).isSome)
    (opened : SyncMap (Nat × UInt64) Nat) (g clock : Nat) :
    (openedAfter opened g clock ev).load (g, c) = opened.load (g, c) := by
  unfold openedAfter
  split
  next c' auth =>
    cases stepped (show Reconnect.step gw (.connStart c' auth) = some gw' from hs) with
    | connStart _ hnone _ =>
      refine SyncMap.load_store_ne _ _ fun heq => ?_
      obtain rfl := (Prod.mk.inj heq).2
      simp [hnone] at hc
  next => rfl

theorem opened_acted (hg : s.gws[g]? = some gw) (hs : Client.step gw ev = some gw')
    (hx : s.gws[h]? = some x) (hc : (x.conns.load c).isSome) :
    (openedAfter s.opened g s.clock ev).load (h, c) = s.opened.load (h, c) := by
  by_cases hhg : h = g
  · subst hhg
    obtain rfl := Option.some.inj (hg.symm.trans hx)
    exact load_openedAfter hs hc s.opened h s.clock
  · unfold openedAfter
    split
    next => exact SyncMap.load_store_ne _ _ fun heq => hhg (Prod.mk.inj heq).1
    next => rfl

theorem frame_acted (hg : s.gws[g]? = some gw) (hs : Client.step gw ev = some gw')
    (hk : Passive p gw gw') (hev : ∀ data, ev = .conn (.invalidate data) → data.playerId ≠ p)
    (hnet : net.filter (about p) = s.net.filter (about p)) :
    Frame p s (acted { s with net } g ev gw gw') where
  ids := Slots.map_set_eq (f := Reconnect.State.id) hg (id_step hs)
  kept := by
    intro h x hx
    rcases Slots.getElem?_of_set hx with ⟨rfl, rfl⟩ | ⟨-, hx⟩
    · exact ⟨gw, hg, hk.toKept⟩
    · exact ⟨x, hx, .of_eq rfl rfl rfl⟩
  session := rfl
  net := by
    simp only [acted, List.filter_append]
    rw [filter_uplink hk.quiet, List.append_nil, hnet]
  sent := by
    simp only [acted, List.countP_append]
    rw [countP_outbox hk.quiet, Nat.add_zero]
  stopping := stoppingAfter_sublist hev s.stopping g gw
  opened := fun _ _ _ hx hc => opened_acted hg hs hx hc

theorem frame_local (hl : Local ev) (hg : s.gws[g]? = some gw) (hs : Client.step gw ev = some gw')
    (hk : Passive p gw gw') : Frame p s (acted s g ev gw gw') := by
  refine frame_acted hg hs hk (fun data hev => ?_) rfl
  subst hev
  cases hl

theorem served_other (hs : Served sessions msgID data now sessions' sent)
    (hne : p ≠ data.playerId) :
    sessions'.load p = sessions.load p := by
  cases hs with
  | saved _ hs _ => exact hs ▸ SyncMap.load_store_ne _ _ hne
  | disconnected _ _ hs _ => exact hs ▸ SyncMap.load_store_ne _ _ hne
  | reconnected _ _ hs _ => exact hs ▸ SyncMap.load_store_ne _ _ hne
  | got _ hs _ => rw [hs]
  | stale _ _ _ hs _ => rw [hs]
  | unknown _ _ hs _ => rw [hs]
  | dropped hs _ _ => rw [hs]

theorem served_live (hs : Served sessions msgID data now sessions' sent)
    (h : (sessions.load p).isSome) :
    (sessions'.load p).isSome := by
  have hstore (sess : SessionSvr.Session) :
      ((sessions.store data.playerId sess).load p).isSome := by
    rw [SyncMap.load_store]
    split
    · rfl
    · exact h
  cases hs with
  | saved _ hs _ => exact hs ▸ hstore _
  | disconnected _ _ hs _ => exact hs ▸ hstore _
  | reconnected _ _ hs _ => exact hs ▸ hstore _
  | got _ hs _ => exact hs ▸ h
  | stale _ _ _ hs _ => exact hs ▸ h
  | unknown _ _ hs _ => exact hs ▸ h
  | dropped hs _ _ => exact hs ▸ h

theorem answers_about (hwf : WellFormed sessions)
    (ha : Answers sessions msgID data n g clock linked pkt) :
    pkt.data.playerId = data.playerId := by
  cases ha with
  | got => rfl
  | reconnected hid hload => exact (hwf _ _ hload).1
  | invalidated => rfl

theorem frame_serve (hwf : WellFormed s.sessions) (hne : pkt.data.playerId ≠ p)
    (hnet : net.filter (about p) = s.net.filter (about p)) (env : Env) :
    Frame p s (serve { s with net } pkt env) := by
  have hs := served s.sessions pkt.msgID pkt.data env.now 0
  have hother :
      ∀ q ∈ (SessionSvr.handle s.sessions ⟨pkt.msgID, some pkt.data, env.now, 0⟩).sent.flatMap
      (downlink s.gws.length pkt.gw s.clock env.linked), q.data.playerId ≠ p :=
    fun q hq => (answers_about hwf (answers hs hq)).symm ▸ hne
  refine ⟨rfl, fun g gw hg => ⟨gw, hg, .of_eq rfl rfl rfl⟩, served_other hs hne.symm, ?_, ?_,
    List.Sublist.refl _, fun _ _ _ _ _ => rfl⟩
  · have hnone := List.filter_eq_nil_iff.mpr fun q hq =>
      show ¬ about p q = true by simpa [about] using hother q hq
    simp only [serve, List.filter_append]
    rw [hnone, List.append_nil, hnet]
  · have hzero := List.countP_eq_zero.mpr fun data hdata =>
      show ¬ decide (SessionData.playerId data = p) = true by
      obtain ⟨q, hq, rfl⟩ := List.mem_map.mp hdata
      simpa using hother q hq
    simp only [serve, List.countP_append]
    rw [hzero, Nat.add_zero]

theorem frame_net (hnet : net.filter (about p) = s.net.filter (about p)) :
    Frame p s { s with net } :=
  ⟨rfl, fun _ gw hg => ⟨gw, hg, .of_eq rfl rfl rfl⟩, rfl, hnet, rfl, List.Sublist.refl _,
    fun _ _ _ _ _ => rfl⟩

theorem Frame.gateway {g : Nat} (hf : Frame p s s') (hg : s'.gws[g]? = some gw') :
    ∃ gw, s.gws[g]? = some gw ∧ gw'.id = gw.id ∧ Kept p gw gw' := by
  obtain ⟨gw, hgw, hk⟩ := hf.kept g gw' hg
  have hids : (s'.gws.map (·.id))[g]? = (s.gws.map (·.id))[g]? := by rw [hf.ids]
  rw [List.getElem?_map, List.getElem?_map, hg, hgw] at hids
  exact ⟨gw, hgw, Option.some.inj hids, hk⟩

theorem Frame.gateway_of {g : Nat} (hf : Frame p s s') (hg : s.gws[g]? = some gw) :
    ∃ gw', s'.gws[g]? = some gw' ∧ gw'.id = gw.id ∧ Kept p gw gw' := by
  have hids : (s'.gws.map (·.id))[g]? = (s.gws.map (·.id))[g]? := by rw [hf.ids]
  rw [List.getElem?_map, List.getElem?_map, hg] at hids
  obtain ⟨gw', hg', -⟩ := Option.map_eq_some_iff.mp hids
  obtain ⟨gw₀, hg₀, hid, hk⟩ := hf.gateway hg'
  obtain rfl := Option.some.inj (hg.symm.trans hg₀)
  exact ⟨gw', hg', hid, hk⟩

theorem Frame.mem_net (hf : Frame p s s') (hp : pkt.data.playerId = p) :
    pkt ∈ s'.net ↔ pkt ∈ s.net := by
  have habout : about p pkt = true := by simpa [about] using hp
  have hmem : pkt ∈ s'.net.filter (about p) ↔ pkt ∈ s.net.filter (about p) := by rw [hf.net]
  simpa [List.mem_filter, habout] using hmem

theorem ids_step (hm : Moves p s e s') : s'.gws.map (·.id) = s.gws.map (·.id) := by
  cases hm with
  | frame hf => exact hf.ids
  | turn hg hl hs ht => exact Slots.map_set_eq (f := Reconnect.State.id) hg (id_step hs)
  | arrived env hk hp hw hev hg hs ht =>
    exact Slots.map_set_eq (f := Reconnect.State.id) hg (id_step hs)
  | served env hk hp hw => rfl
  | ignored env hk hp hw hev => rfl
  | expired now hload => rfl

theorem moves (h : Sound s) (hb : e.Backed) (hn : next s e = some s') (p : Int64) :
    Moves p s e s' := by
  have hother {k : Nat} {pkt : Packet} (hk : s.net[k]? = some pkt) (hp : pkt.data.playerId ≠ p) :
      (s.net.eraseIdx k).filter (about p) = s.net.filter (about p) :=
    Slots.filter_eraseIdx_of_neg hk (by simpa [about] using hp)
  cases transition hn with
  | acted hl ha =>
    obtain ⟨gw, gw', hg, hs, rfl⟩ := act_eq ha
    exact .turn hg hl hs (turn (h.identified gw (List.mem_of_getElem? hg)) hb hs p)
  | @served k pkt env hk hw =>
    by_cases hp : pkt.data.playerId = p
    · exact .served env hk hp hw
    · exact .frame (frame_serve h.wellFormed hp (hother hk hp) env)
  | @arrived k pkt _ _ env hk hw hev ha =>
    obtain ⟨gw, gw', hg, hs, rfl⟩ := act_eq ha
    have hi := h.identified gw (List.mem_of_getElem? hg)
    by_cases hp : pkt.data.playerId = p
    · exact .arrived env hk hp hw hev hg hs (turn hi (backed_arrival h hk hev) hs p)
    · rcases arrival_eq hev with ⟨rfl, -⟩ | ⟨rfl, -⟩
      · have ha : Answered gw pkt.data env.up gw' :=
          Option.some.inj hs ▸ answered gw pkt.data env.up
        exact .frame (frame_acted hg hs (Player.passive_answered hi ha hp) nofun (hother hk hp))
      · obtain rfl := Option.some.inj hs
        refine .frame (frame_acted hg hs (Player.passive_invalidate hp) ?_ (hother hk hp))
        rintro _ ⟨⟩
        exact hp
  | @ignored k pkt env hk hw hev =>
    by_cases hp : pkt.data.playerId = p
    · exact .ignored env hk hp hw hev
    · exact .frame (frame_net (hother hk hp))
  | @expired q sess now hload hexp =>
    by_cases hq : q = p
    · subst hq
      exact .expired now hload
    · refine .frame { frame_net rfl with session := ?_ }
      exact SyncMap.load_delete_ne _ (Ne.symm hq)

theorem entry_step {g : Nat} (h : Sound s) (hm : Moves p s e s') (hg : s'.gws[g]? = some gw')
    (he : gw'.playerConns.load p = some c) :
    ∃ gw, s.gws[g]? = some gw ∧ gw'.id = gw.id ∧
      (gw.playerConns.load p = some c ∨ e = .gateway g (.conn (.connStart c (some p)))) := by
  cases hm with
  | frame hf =>
    obtain ⟨gw, hgw, hid, hk⟩ := hf.gateway hg
    exact ⟨gw, hgw, hid, .inl (hk.entry ▸ he)⟩
  | @turn j x ev x' hx hl hs ht =>
    rcases Slots.getElem?_of_set hg with ⟨rfl, rfl⟩ | ⟨-, hg⟩
    · refine ⟨x, hx, id_step hs, ?_⟩
      exact (Player.entry_turn (h.identified x (List.mem_of_getElem? hx)) ht he).imp id
        fun hev => by rw [hev]
    · exact ⟨gw', hg, rfl, .inl he⟩
  | @arrived k pkt ev x x' env hk hp hw hev hx hs ht =>
    rcases Slots.getElem?_of_set hg with ⟨rfl, rfl⟩ | ⟨-, hg⟩
    · refine ⟨x, hx, id_step hs, .inl ?_⟩
      rcases Player.entry_turn (h.identified x (List.mem_of_getElem? hx)) ht he with he | rfl
      · exact he
      · rcases arrival_eq hev with ⟨heq, -⟩ | ⟨heq, -⟩ <;> cases heq
    · exact ⟨gw', hg, rfl, .inl he⟩
  | served env hk hp hw => exact ⟨gw', hg, rfl, .inl he⟩
  | ignored env hk hp hw hev => exact ⟨gw', hg, rfl, .inl he⟩
  | expired now hload => exact ⟨gw', hg, rfl, .inl he⟩

theorem asking_step {g : Nat} (h : Sound s) (hm : Moves p s e s') (hg : s'.gws[g]? = some gw')
    (hcb : gw'.callbacks.load c = some ⟨p, none⟩) :
    (∃ gw, s.gws[g]? = some gw ∧ gw.callbacks.load c = some ⟨p, none⟩) ∨
      e = .gateway g (.conn (.connStart c (some p))) := by
  cases hm with
  | frame hf =>
    obtain ⟨gw, hgw, hk⟩ := hf.kept g gw' hg
    exact .inl ⟨gw, hgw, (hk.asking c).mp hcb⟩
  | @turn j x ev x' hx hl hs ht =>
    rcases Slots.getElem?_of_set hg with ⟨rfl, rfl⟩ | ⟨-, hg⟩
    · rcases Player.asking_turn (h.identified x (List.mem_of_getElem? hx)) ht hcb with hcb | rfl
      · exact .inl ⟨x, hx, hcb⟩
      · exact .inr rfl
    · exact .inl ⟨gw', hg, hcb⟩
  | @arrived k pkt ev x x' env hk hp hw hev hx hs ht =>
    rcases Slots.getElem?_of_set hg with ⟨rfl, rfl⟩ | ⟨-, hg⟩
    · rcases Player.asking_turn (h.identified x (List.mem_of_getElem? hx)) ht hcb with hcb | rfl
      · exact .inl ⟨x, hx, hcb⟩
      · rcases arrival_eq hev with ⟨heq, -⟩ | ⟨heq, -⟩ <;> cases heq
    · exact .inl ⟨gw', hg, hcb⟩
  | served env hk hp hw => exact .inl ⟨gw', hg, hcb⟩
  | ignored env hk hp hw hev => exact .inl ⟨gw', hg, hcb⟩
  | expired now hload => exact .inl ⟨gw', hg, hcb⟩

end Frame

def online : Env := ⟨5, [svcSessionSvr], [0, 1]⟩

def opens (g : Nat) (c : UInt64) : List Event := [.gateway g (.conn (.connStart c (some 7)))]

def asks (g : Nat) (c : UInt64) : List Event := [.gateway g (.conn (.checkReconnect c online.up))]

def delivers (k : Nat) : Event := .deliver k online

-- Player 7 connects to gateway 0 and leaves it again.
def visited : List Event :=
  opens 0 1 ++ asks 0 1 ++ [delivers 0, delivers 0, delivers 0,
    .gateway 0 (.conn (.connStop 1 online.up)), delivers 0]

-- The player connects to gateway 1, and SessionSvr handles the reconnect.
def moved : List Event := opens 1 1 ++ asks 1 1 ++ [delivers 0, delivers 0, delivers 0]

def gateways : State := fresh ["gw-1", "gw-2"]

end Cardwar.System.Sessions
