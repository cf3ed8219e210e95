import Cardwar.RoomSvr.Members
import Cardwar.System.Chat
import Cardwar.System.Matchmaking
import Cardwar.System.Sessions

/-!
# Expired players in the matchmaking queue

Gateways and SessionSvr as in `Sessions`, with MatchSvr. When a session expires,
SessionSvr reads its match_type tag and tells MatchSvr to take the player off
that queue. A session gets its tags from the answers of backends, by way of the
gateway's connection. No backend sends a match_type, so no session has one, and
MatchSvr is told about no player (`no_forceLeaveQueue`).
-/

namespace Cardwar.System.QueueExpiry

open Conf Protocol Codec Pkg Gateway
open Gateway.Client (Message wrap)
open Gateway.Player (Untagged Without)
open Matchmaking (announced matchSvr1)
open MatchSvr (Matches)
open Sessions
  (Sound serve act act_eq answers answers_tags arrival_eq mem_uplink served_sessions backed_arrival
  transition)
open SessionSvr.Expiry (Sent notifyExpired connTag)
open Run (run)
open Wire (Bytes)

/-- No player's connection, no session and no message has the tag. -/
structure Clean (key : String) (s : Sessions.State) : Prop where
  conns : ∀ gw ∈ s.gws, Untagged key gw
  sessions : ∀ p sess, s.sessions.load p = some sess → sess.toData.connTags.load key = none
  net : ∀ pkt ∈ s.net, pkt.data.connTags.load key = none

def Omits (key : String) : Sessions.Event → Prop
  | .gateway _ ev => Without key ev
  | _ => True

section Clean

variable {key : String} {s : Sessions.State}

theorem clean_fresh (key : String) (ids : List String) : Clean key (Sessions.fresh ids) := by
  refine ⟨?_, by simp [Sessions.fresh], by simp [Sessions.fresh]⟩
  intro gw hgw p c conn hc
  obtain ⟨gwID, -, rfl⟩ := List.mem_map.mp hgw
  simp [Reconnect.init] at hc

theorem Clean.received (h : Clean key s) (k : Nat) : Clean key { s with net := s.net.eraseIdx k } :=
  ⟨h.conns, h.sessions, fun q hq => h.net q (List.mem_of_mem_eraseIdx hq)⟩

theorem clean_serve (h : Clean key s) (hpkt : pkt.data.connTags.load key = none)
    (env : Sessions.Env) :
    Clean key (serve s pkt env) := by
  have hs := SessionSvr.served s.sessions pkt.msgID pkt.data env.now 0
  let P : Int64 → Tags → Prop := fun _ tags => tags.load key = none
  have hempty : ∀ p, P p ∅ := fun _ => SyncMap.load_empty key
  refine ⟨h.conns, served_sessions hempty h.sessions hpkt hs, ?_⟩
  intro q hq
  rcases List.mem_append.mp hq with hq | hq
  · exact h.net q hq
  · exact answers_tags hempty h.sessions hpkt (answers hs hq)

variable (hkey : key ≠ propPlayerID)

include hkey

theorem clean_act (h : Clean key s) (hi : Sound s) (hb : PlayerConns.Backed ev)
    (hw : Without key ev) (hs : act s g ev = some s') : Clean key s' := by
  obtain ⟨gw, gw', hg, hstep, rfl⟩ := act_eq hs
  have hgw := hi.identified gw (List.mem_of_getElem? hg)
  have hold := h.conns gw (List.mem_of_getElem? hg)
  refine ⟨fun x hx => ?_, h.sessions, fun pkt hpkt => ?_⟩
  · rcases List.mem_or_eq_of_mem_set hx with hx | rfl
    · exact h.conns x hx
    · exact Player.untagged_step hgw hb hw hkey hold hstep
  · rcases List.mem_append.mp hpkt with hpkt | hpkt
    · exact h.net pkt hpkt
    · obtain ⟨out, hout, hsvr, rfl⟩ := mem_uplink hpkt
      exact Player.outbox_untagged hgw hb hw hkey hold hstep hout hsvr

theorem clean_step (h : Clean key s) (hi : Sound s) (hb : e.Backed) (hw : Omits key e)
    (hs : Sessions.step s e = some s') : Clean key s' := by
  obtain ⟨s₁, hnext, rfl⟩ := Option.map_eq_some_iff.mp hs
  suffices hclean : Clean key s₁ from ⟨hclean.conns, hclean.sessions, hclean.net⟩
  cases transition hnext with
  | acted hl ha => exact clean_act hkey h hi hb hw ha
  | served env hk hway => exact clean_serve (h.received _) (h.net _ (List.mem_of_getElem? hk)) env
  | arrived env hk hway hev ha =>
    refine clean_act hkey (h.received _) (hi.received _) (backed_arrival hi hk hev) ?_ ha
    rcases arrival_eq hev with ⟨rfl, -⟩ | ⟨rfl, -⟩
    · exact h.net _ (List.mem_of_getElem? hk)
    · trivial
  | ignored env hk hway hev => exact h.received _
  | expired hload hexp =>
    exact ⟨h.conns, fun q t hq => h.sessions q t (SyncMap.of_load_delete hq).2, h.net⟩

end Clean

structure ToMatchSvr where
  msgID : UInt32
  data : Bytes
  conn : UInt64

structure State where
  sys : Sessions.State
  matchSvr : Running Matches := { app := {} }
  links : List UInt64
  requests : List ToMatchSvr := []
  answers : List Outgoing := []
  /-- What SessionSvr sent for expired sessions. -/
  notices : List Sent := []

inductive Event
  /-- A response here is RoomSvr's or ChatSvr's. -/
  | gateway (g : Nat) (ev : Client.Event)
  | deliver (k : Nat) (env : Sessions.Env)
  | expire (player : Int64) (now : Int) (env : Env)
  | send (g : Nat) (c : UInt64) (msg : Message)
  /-- A RoomSvr says that a room is gone. -/
  | destroyed (m : String) (conn : UInt64)
  | handle (k : Nat) (env : Env)
  | answer (k g : Nat) (data : Bytes) (up : List String)

/-- The bytes are an Envelope with this connection id and these tags. -/
def Carries (data : Bytes) (out : Outgoing) : Prop :=
  match out.content, decodeEnvelope data with
  | .envelope connId _ tags, .ok env => env.connId = connId ∧ env.connTags = tags
  | _, _ => False

instance (data : Bytes) (out : Outgoing) : Decidable (Carries data out) := by
  unfold Carries
  split <;> infer_instance

def sessionStep (st : State) (ev : Sessions.Event) : Option State :=
  (Sessions.step st.sys ev).map fun sys => { st with sys }

/-- What the ForwardRouter of gateway `g` sends to MatchSvr. -/
def forwarded (st : State) (g : Nat) (c : UInt64) (msg : Message) : Option ToMatchSvr := do
  let gw ← st.sys.gws[g]?
  let link ← st.links[g]?
  let conn ← gw.conns.load c
  let route ← routeFor announced msg.msgID
  let data ← wrap c conn msg.data
  if route.backend = svcMatchSvr then some ⟨msg.msgID, data, link⟩ else none

def handle (st : State) (k : Nat) (env : Env) (r : ToMatchSvr) : State :=
  let (matchSvr, outs) := MatchSvr.server.dispatch st.matchSvr ⟨r.msgID, r.data, r.conn, env⟩
  { st with matchSvr, requests := st.requests.eraseIdx k, answers := st.answers ++ outs }

def step (st : State) : Event → Option State
  | .gateway g ev => sessionStep st (.gateway g ev)
  | .deliver k env => sessionStep st (.deliver k env)
  | .expire player now env => (st.sys.sessions.load player).bind fun sess =>
    sessionStep { st with notices := st.notices ++ notifyExpired env.reg env.intn sess }
      (.expire player now)
  | .send g c msg => (forwarded st g c msg).map fun r => { st with requests := st.requests ++ [r] }
  | .destroyed m conn =>
    some { st with requests :=
      st.requests ++ [⟨msgIdRoomDestroyedPush, marshalEnvelope 0 (marshalMatchId m) [], conn⟩] }
  | .handle k env => (st.requests[k]?).map (handle st k env)
  | .answer k g data up => (st.answers[k]?).bind fun out =>
    if (st.links[g]?).map .conn = some out.target ∧ Carries data out then
      sessionStep { st with answers := st.answers.eraseIdx k }
        (.gateway g (.response out.msgID data up))
    else none

def start (ids : List String) (links : List UInt64) : State where
  sys := Sessions.fresh ids
  links

/-- A message that RoomSvr or ChatSvr sends to a gateway, in any state and for any
request. The length of a slice is an int. -/
inductive FromOthers (msgID : UInt32) (data : Bytes) : Prop
  | room (hout : out ∈ (RoomSvr.server.dispatch st request).2) (hid : out.msgID = msgID)
      (hdata : Carries data out)
  | chat (hpush : push ∈ ChatSvr.handle conns now conn request) (hlen : request.length < 2 ^ 63)
      (hid : push.msgID = msgID) (hdata : push.data = data)

def Event.Genuine : Event → Prop
  | .gateway _ (.response msgID data _) => FromOthers msgID data
  | _ => True

theorem carries_omits (h : Carries data out) (ho : out.Omits key)
    (henv : decodeEnvelope data = .ok env) :
    env.connTags.load key = none := by
  unfold Carries at h
  split at h
  next connId body tags env' hcontent henv' =>
    obtain rfl := Except.ok.inj (henv.symm.trans henv')
    exact h.2 ▸ ho _ _ _ hcontent
  next => cases h

theorem chat_omits (h : push ∈ ChatSvr.handle conns now conn request)
    (hlen : request.length < 2 ^ 63)
    (hkey : key ≠ tagTargetPlayerID) (henv : decodeEnvelope push.data = .ok env) :
    env.connTags.load key = none := by
  unfold ChatSvr.handle at h
  split at h
  next => cases h
  next reqEnv hreqEnv =>
    split at h
    next => cases h
    next req hreq =>
      have hdata := length_decodeEnvelope hreqEnv
      have hcontent := length_decodeChatReq hreq
      have hresp := length_marshalChatResp ⟨Strconv.parseInt (reqEnv.connTags.get tagPlayerID),
        req.content, now,
        req.targetPlayerId⟩
      dsimp only at hresp
      obtain ⟨env', henv', htags⟩ := Chat.respond_tags (by omega) h
      obtain rfl := Except.ok.inj (henv.symm.trans henv')
      rcases htags with htags | htags
      · simp [htags, tag, hkey]
      · rw [htags, SyncMap.load_empty]

theorem others_omit (h : FromOthers msgID data) (hkey : key ≠ tagTargetPlayerID)
    (henv : decodeEnvelope data = .ok env) : env.connTags.load key = none := by
  cases h with
  | room hout hid hdata => exact carries_omits hdata (RoomSvr.omits_server hout key) henv
  | chat hpush hlen hid hdata => exact chat_omits hpush hlen hkey (hdata ▸ henv)

theorem without_genuine (h : (Event.gateway g ev).Genuine) (hl : Sessions.Local ev)
    (hkey : key ≠ tagTargetPlayerID) : Without key ev := by
  cases ev with
  | response msgID data up => exact fun env henv => others_omit h hkey henv
  | conn ev => cases ev <;> trivial

structure Inv (st : State) : Prop where
  sound : Sound st.sys
  clean : Clean tagMatchType st.sys
  answers : ∀ out ∈ st.answers, out.Omits tagMatchType ∧ out.Omits propPlayerID
  notices : ∀ sent ∈ st.notices, sent.msgID ≠ msgIdSessionForceLeaveQueue

theorem inv_sessionStep (hs : sessionStep st ev = some st') (h : Inv st) (hb : ev.Backed)
    (hw : Omits tagMatchType ev) : Inv st' := by
  obtain ⟨sys, hsys, rfl⟩ := Option.map_eq_some_iff.mp hs
  exact ⟨Sessions.sound_step h.sound hb hsys, clean_step (by decide) h.clean h.sound hb hw hsys,
    h.answers,
    h.notices⟩

theorem notifyExpired_room (h : (sess.connTags.getD ∅).load tagMatchType = none)
    (hsent : sent ∈ notifyExpired reg intn sess) : sent.msgID ≠ msgIdSessionForceLeaveQueue := by
  have htag : connTag sess tagMatchType = "" := by rw [connTag, Tags.get, h, Option.getD_none]
  simp only [notifyExpired, htag, ne_eq, not_true_eq_false, if_false, List.append_nil] at hsent
  split at hsent
  next =>
    obtain ⟨conn, -, rfl⟩ := Option.map_eq_some_iff.mp (Option.mem_toList.mp hsent)
    simp [msgIdSessionForceLeave, msgIdSessionForceLeaveQueue]
  next => cases hsent

theorem inv_step (h : Inv st) (hg : e.Genuine) (hs : step st e = some st') : Inv st' := by
  cases e with
  | gateway g ev =>
    have hl : Sessions.Local ev := by
      obtain ⟨sys, hsys, -⟩ := Option.map_eq_some_iff.mp hs
      obtain ⟨sys₁, hnext, -⟩ := Option.map_eq_some_iff.mp hsys
      cases transition hnext with
      | acted hl ha => exact hl
    exact inv_sessionStep hs h (without_genuine hg hl (by decide))
      (without_genuine hg hl (by decide))
  | deliver k env => exact inv_sessionStep hs h trivial trivial
  | expire player now env =>
    obtain ⟨sess, hload, hs⟩ := Option.bind_eq_some_iff.mp hs
    refine inv_sessionStep hs ⟨h.sound, h.clean, h.answers, fun sent hsent => ?_⟩ trivial trivial
    rcases List.mem_append.mp hsent with hsent | hsent
    · exact h.notices sent hsent
    · exact notifyExpired_room (h.clean.sessions player sess hload) hsent
  | send g c msg =>
    obtain ⟨r, -, rfl⟩ := Option.map_eq_some_iff.mp hs
    exact ⟨h.sound, h.clean, h.answers, h.notices⟩
  | destroyed m conn => exact Option.some.inj hs ▸ ⟨h.sound, h.clean, h.answers, h.notices⟩
  | handle k env =>
    obtain ⟨r, -, rfl⟩ := Option.map_eq_some_iff.mp hs
    refine ⟨h.sound, h.clean, fun out hout => ?_, h.notices⟩
    rcases List.mem_append.mp hout with hout | hout
    · exact h.answers out hout
    · exact ⟨MatchSvr.omits_server (by decide) (by decide) hout,
        MatchSvr.omits_server (by decide) (by decide) hout⟩
  | answer k g data up =>
    obtain ⟨out, hout, hs⟩ := Option.bind_eq_some_iff.mp hs
    split at hs
    next hcond =>
      have homits := h.answers out (List.mem_of_getElem? hout)
      refine inv_sessionStep hs
        ⟨h.sound, h.clean, fun q hq => h.answers q (List.mem_of_mem_eraseIdx hq), h.notices⟩ ?_ ?_
      · exact fun env henv => carries_omits hcond.2 homits.2 henv
      · exact fun env henv => carries_omits hcond.2 homits.1 henv
    next => cases hs

theorem inv_start (ids : List String) (links : List UInt64) : Inv (start ids links) :=
  ⟨Sessions.sound_fresh ids, clean_fresh _ ids, by simp [start], by simp [start]⟩

/-- Whatever queues players entered, whatever answers they got and whenever their
sessions expire: no session has a match_type, and SessionSvr sends no
SessionForceLeaveQueue. -/
theorem no_forceLeaveQueue (hes : ∀ e ∈ es, e.Genuine)
    (hr : run step (start ids links) es = some st) :
    (∀ p sess, st.sys.sessions.load p = some sess →
      (sess.connTags.getD ∅).load tagMatchType = none) ∧
      ∀ sent ∈ st.notices, sent.msgID ≠ msgIdSessionForceLeaveQueue := by
  have hinv : Inv st := Run.invariant (fun _ _ _ => inv_step) (inv_start ids links)
    (Run.along_of_forall (fun e he _ => hes e he) _) hr
  exact ⟨hinv.clean.sessions, hinv.notices⟩

def pool : Pool :=
  (run poolStep (dialPool [matchSvr1] .hash) ([.connStart 0, .setServerID 0].map (.entry 0))).getD
    ⟨[], .hash⟩

def scanning : Env where
  reg := { identity := svcSessionSvr, backends := (∅ : SyncMap String Pool).store svcMatchSvr pool }

def enter : Message := ⟨msgIdMatchEnterReq, Wire.fields [(1, .len (utf8 "2v2"))], by decide +kernel⟩

def enterResp : Bytes :=
  marshalEnvelope 1 (Wire.fields [(1, .len (utf8 "waiting")), (2, .varint 1)]) []

-- Player 7 connects, waits for a 2v2 match and leaves at 1000.
def waited : List Event :=
  [.gateway 0 (.conn (.connStart 1 (some 7))),
    .gateway 0 (.conn (.checkReconnect 1 Sessions.online.up)), .deliver 0 Sessions.online,
    .deliver 0 Sessions.online, .deliver 0 Sessions.online, .send 0 1 enter,
    .handle 0 { reg := { identity := svcMatchSvr } }, .answer 0 0 enterResp Sessions.online.up,
    .gateway 0 (.conn (.connStop 1 Sessions.online.up)),
    .deliver 0 { Sessions.online with now := 1000 }]

-- The session expires at 1200.
def expired : List Event := waited ++ [.expire 7 1200 scanning]

theorem waited_untagged :
    ∃ st sess, run step (start ["gw-1"] [1]) waited = some st ∧ st.sys.sessions.load 7 = some sess ∧
      (sess.connTags.getD ∅).load tagMatchType = none := by
  have hsome :
      ((run step (start ["gw-1"] [1]) waited).bind fun st => st.sys.sessions.load 7).isSome := by
    decide +kernel
  obtain ⟨sess, hsess⟩ := Option.isSome_iff_exists.mp hsome
  obtain ⟨st, hst, hload⟩ := Option.bind_eq_some_iff.mp hsess
  have hes : ∀ e ∈ waited, e.Genuine := by simp [waited, Event.Genuine]
  exact ⟨st, sess, hst, hload, (no_forceLeaveQueue hes hst).1 7 sess hload⟩

/-- The player entered the queue and left, the session is gone, and nobody told
MatchSvr: the player is still in the queue. -/
theorem expired_queued :
    (scanning.reg.routeTo scanning.intn svcMatchSvr "2v2").isSome ∧
      (run step (start ["gw-1"] [1]) waited).map (fun st =>
        (st.matchSvr.app.timesQueued "2v2" 7, (st.sys.sessions.load 7).map (·.disconnectedAt))) =
          some (1, some 1000) ∧
      (run step (start ["gw-1"] [1]) expired).map (fun st =>
        (st.matchSvr.app.timesQueued "2v2" 7, (st.sys.sessions.load 7).isSome,
          st.notices.map (·.msgID))) =
          some (1, false, []) := by
  refine ⟨?_, ?_, ?_⟩ <;> decide +kernel

end Cardwar.System.QueueExpiry
