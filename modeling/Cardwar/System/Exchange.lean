import Cardwar.System.Sessions

/-!
# Coming back

A player with a session opens a connection. The gateway asks for the session and,
if the player had left, restores its tags and reports the reconnect; the answer to
that makes it save what it restored. If the session says that the player never
left, the gateway saves the tags of the new connection instead.

The first exchange ends with the session restored, after finitely many messages,
if the gateway has an id or the old one has nothing to report
(`reconnect_restores`). The second one wipes the session (`crash_wipes`).
-/

namespace Cardwar.System.Exchange

open Conf Protocol Codec Sessions
open Gateway.Reconnect
  (Conn Answered answered checkReconnect collectTags connStop handleSessionInvalidate mem_restored
  mem_send notifyRoomReconnected send sendSession)
open Gateway.Player (Kept connStop_player load_collectTags tagOf)
open SessionSvr (Session)
open Run (run Along)

def opened (p : Int64) : Conn where
  auth := some p
  properties := (∅ : SyncMap String Gateway.Reconnect.Property).store propPlayerID (.int64 p)

/-- Nothing but the exchange and its consequences sends messages about the player,
and the gateways reach SessionSvr. Invalidated connections stop. -/
def Undisturbed (p : Int64) (s : State) : Event → Prop
  | .gateway _ (.conn (.connStart _ auth)) => auth ≠ some p
  | .gateway g (.conn (.checkReconnect c up)) =>
    ∀ gw ∈ s.gws[g]?, gw.callbacks.load c = some ⟨p, none⟩ →
      svcSessionSvr ∈ up
  | .gateway g (.conn (.connStop c _)) =>
    ∀ gw ∈ s.gws[g]?, ∀ conn ∈ gw.conns.load c, conn.auth = some p →
      ⟨g, c, p⟩ ∈ s.stopping
  | .gateway _ (.conn (.retry q _)) => q ≠ p
  | .gateway g (.response _ data _) => ∀ env ∈ (decodeEnvelope data).toOption, env.connTags ≠ ∅ →
      ∀ gw ∈ s.gws[g]?, ∀ conn ∈ gw.conns.load env.connId, conn.auth ≠ some p
  | .deliver k env => ∀ pkt ∈ s.net[k]?, pkt.data.playerId = p → svcSessionSvr ∈ env.up
  | .expire q _ => q ≠ p
  | _ => True

instance (p : Int64) (s : State) (e : Event) : Decidable (Undisturbed p s e) := by
  unfold Undisturbed
  split <;> infer_instance

/-- Connection `c` of the player has started on gateway `b`, and nothing else
about the player is going on. -/
structure Start (p : Int64) (b : Nat) (c : UInt64) (s : State) : Prop where
  started : ∃ gw ∈ s.gws[b]?, gw.playerConns.load p = some c ∧ gw.conns.load c = some (opened p) ∧
    gw.callbacks.load c = some ⟨p, none⟩
  alone : ∀ g < s.gws.length, ∀ gw ∈ s.gws[g]?, ∀ d ∈ gw.callbacks.keys,
    gw.callbacks.load d = some ⟨p, none⟩ → g = b ∧ d = c
  net : ∀ pkt ∈ s.net, pkt.data.playerId ≠ p
  stopping : ∀ st ∈ s.stopping, st.player ≠ p

instance (p : Int64) (b : Nat) (c : UInt64) (s : State) : Decidable (Start p b c s) :=
  decidable_of_iff (_ ∧ _ ∧ _ ∧ _)
    ⟨fun ⟨started, alone, net, stopping⟩ => ⟨started, alone, net, stopping⟩,
      fun h => ⟨h.started, h.alone, h.net, h.stopping⟩⟩

/-- OnConnStart has asked, and no message about the player is under way. -/
structure Completed (p : Int64) (b : Nat) (c : UInt64) (s : State) : Prop where
  asked : ∀ gw ∈ s.gws[b]?, gw.callbacks.load c ≠ some ⟨p, none⟩
  net : ∀ pkt ∈ s.net, pkt.data.playerId ≠ p

instance (p : Int64) (b : Nat) (c : UInt64) (s : State) : Decidable (Completed p b c s) :=
  decidable_of_iff (_ ∧ _) ⟨fun ⟨asked, net⟩ => ⟨asked, net⟩, fun h => ⟨h.asked, h.net⟩⟩

/-- The messages of the exchange itself. -/
def isMain (p : Int64) (pkt : Packet) : Bool :=
  pkt.data.playerId = p ∧ pkt.msgID ≠ msgIdSessionInvalidate ∧ pkt.msgID ≠ msgIdSessionDisconnect

def isNotice (p : Int64) (pkt : Packet) : Bool :=
  pkt.data.playerId = p ∧ pkt.msgID = msgIdSessionInvalidate

/-- The messages about the player sent so far, and those that notices and stopped
connections may yet cause. -/
def cost (p : Int64) (s : State) : Nat :=
  s.sent.countP (·.playerId = p) + s.net.countP (isNotice p) + s.stopping.countP (·.player = p)

section

-- Player, gateway and connection of the exchange, the gateway's id, the session as it was
-- found and the ids of all gateways.
variable (p : Int64) (b : Nat) (c : UInt64) (gwID : String) (sess : Session) (ids : List String)

def restored : Conn := (opened p).restore sess.toData.connTags

def settled : Conn := if sess.disconnectedAt = 0 then opened p else restored p sess

def reconnected : Session := sess.reconnect { playerId := p, gatewayId := gwID }

/-- Where the exchange is, with `n` gateways: the messages still to come, whether
OnConnStart has yet to ask, the connection, the session and the message under way. -/
inductive Phase (n : Nat) : Nat → Bool → Conn → Session → List Packet → Prop
  | asking : Phase n (6 + 2 * n) true (opened p) sess []
  | asked : Phase n (5 + 2 * n) false (opened p) sess
      [⟨b, .up, msgIdSessionGet, { playerId := p }, t⟩]
  | answered : Phase n (4 + 2 * n) false (opened p) sess
      [⟨b, .down, msgIdSessionGet, { sess.toData with playerId := p }, t⟩]
  | reconnecting (hd : sess.disconnectedAt ≠ 0) : Phase n (2 + 2 * n) false (restored p sess) sess
      [⟨b, .up, msgIdSessionReconnect, { playerId := p, gatewayId := gwID }, t⟩]
  | reconnected (hd : sess.disconnectedAt ≠ 0) :
      Phase n 1 false (restored p sess) (reconnected p gwID sess)
      [⟨b, .down, msgIdSessionReconnect,
        { (reconnected p gwID sess).toData with playerId := p }, t⟩]
  | saving (sess' : Session) : Phase n 0 false (settled p sess) sess'
      [⟨b, .up, msgIdSessionSave,
        { playerId := p, gatewayId := gwID, connTags := collectTags (settled p sess) }, t⟩]
  | saved (hgw : sess'.gatewayID = gwID) (hd : sess'.disconnectedAt = 0)
      (ht : sess'.connTags = goTags (collectTags (settled p sess))) :
      Phase n 0 false (settled p sess) sess' []

inductive At (n m : Nat) (s : State) : Prop
  | intro (hg : s.gws[b]? = some gw) (hid : gw.id = gwID) (he : gw.playerConns.load p = some c)
      (hc : gw.conns.load c = some conn) (hload : s.sessions.load p = some sess')
      (hasks : toAsk = true ↔ gw.callbacks.load c = some ⟨p, none⟩)
      (hmain : s.net.filter (isMain p) = l) (hphase : Phase p b gwID sess n m toAsk conn sess' l)

def Moved (s : State) : Prop := ∃ sess', s.sessions.load p = some sess' ∧ sess'.gatewayID = gwID

/-- The other messages about the player: notices for the old gateway, and
disconnects of connections that were stopped there. -/
inductive Side (s : State) (pkt : Packet) : Prop
  | notice (hw : pkt.way = .down) (hid : pkt.msgID = msgIdSessionInvalidate)
      (hd : sess.disconnectedAt ≠ 0) (hgw : pkt.data.gatewayId = sess.gatewayID)
      (hne : sess.gatewayID ≠ gwID) (hm : Moved p gwID s)
  | disconnect (hw : pkt.way = .up) (hid : pkt.msgID = msgIdSessionDisconnect)
      (hgw : pkt.data.gatewayId ≠ gwID) (hne : gwID ≠ "") (hm : Moved p gwID s)

/-- The old gateway has no connection of the player to stop, if the new one has no id. -/
def Absent (s : State) : Prop :=
  gwID = "" → ∀ gw ∈ s.gws, gw.id = sess.gatewayID → gw.id ≠ gwID → gw.playerConns.load p = none

/-- What holds whatever the exchange does. -/
structure Base (s : State) : Prop where
  sound : Sound s
  named : s.gws.map (·.id) = ids
  asking : ∀ (g : Nat) gw d, s.gws[g]? = some gw → gw.callbacks.load d = some ⟨p, none⟩ →
    g = b ∧ d = c
  absent : sess.disconnectedAt ≠ 0 → Absent p gwID sess s

structure Underway (N : Nat) (s : State) : Prop extends Base p b c gwID sess ids s where
  phase : ∃ m, At p b c gwID sess ids.length m s ∧ cost p s + m ≤ N
  side : ∀ pkt ∈ s.net, pkt.data.playerId = p → isMain p pkt ∨ Side p gwID sess s pkt
  stopping : ∀ st ∈ s.stopping, st.player = p → ids[st.gw]? ≠ some gwID ∧ gwID ≠ "" ∧ Moved p gwID s

end

section

variable {p : Int64} {b N : Nat} {c : UInt64} {gwID : String} {sess : Session} {ids : List String}
  {s s' : State}

theorem Phase.auth (h : Phase p b gwID sess n m toAsk conn sess' l) : conn.auth = some p := by
  have hsettled : (settled p sess).auth = some p := by
    unfold settled
    split <;> rfl
  cases h with
  | saving => exact hsettled
  | saved => exact hsettled
  | _ => rfl

theorem Phase.main (h : Phase p b gwID sess n m toAsk conn sess' l) :
    ∀ pkt ∈ l, isMain p pkt = true := by
  have hmain {way : Way} {msgID : UInt32} {data : SessionData} {t : Nat} (hp : data.playerId = p)
      (hid : msgID ≠ msgIdSessionInvalidate ∧ msgID ≠ msgIdSessionDisconnect) :
      ∀ pkt ∈ [(⟨b, way, msgID, data, t⟩ : Packet)], isMain p pkt = true := by
    intro pkt hpkt
    obtain rfl := List.mem_singleton.mp hpkt
    exact decide_eq_true ⟨hp, hid⟩
  cases h with
  | asking => nofun
  | saved => nofun
  | _ => exact hmain rfl (by decide)

theorem Side.mono (h : Side p gwID sess s pkt) (hm : Moved p gwID s → Moved p gwID s') :
    Side p gwID sess s' pkt := by
  cases h with
  | notice hw hid hd hgw hne hmoved => exact .notice hw hid hd hgw hne (hm hmoved)
  | disconnect hw hid hgw hne hmoved => exact .disconnect hw hid hgw hne (hm hmoved)

theorem Underway.next (h : Underway p b c gwID sess ids N s) (hbase : Base p b c gwID sess ids s')
    (hm : Moved p gwID s → Moved p gwID s')
    (hnet : ∀ q ∈ s'.net, q.data.playerId = p → q ∈ s.net ∨ isMain p q ∨ Side p gwID sess s' q)
    (hstop : ∀ st ∈ s'.stopping, st.player = p →
      st ∈ s.stopping ∨ ids[st.gw]? ≠ some gwID ∧ gwID ≠ "" ∧ Moved p gwID s')
    (hat : At p b c gwID sess ids.length m s') (hcost : cost p s' + m ≤ N) :
    Underway p b c gwID sess ids N s' := by
  refine ⟨hbase, ⟨m, hat, hcost⟩, fun q hq hp => ?_, fun st hst hp => ?_⟩
  · rcases hnet q hq hp with hold | hnew
    · exact (h.side q hold hp).imp id (·.mono hm)
    · exact hnew
  · rcases hstop st hst hp with hold | hnew
    · obtain ⟨hb, hne, hmoved⟩ := h.stopping st hold hp
      exact ⟨hb, hne, hm hmoved⟩
    · exact hnew

theorem base_step (h : Base p b c gwID sess ids s) (hok : Undisturbed p s e) (hm : Moves p s e s')
    (hsound : Sound s') : Base p b c gwID sess ids s' := by
  refine ⟨hsound, (ids_step hm).trans h.named, fun g gw d hg hcb => ?_,
    fun hd hempty gw hgw hid hne => ?_⟩
  · rcases asking_step h.sound hm hg hcb with ⟨gw₀, hg₀, hcb₀⟩ | rfl
    · exact h.asking g gw₀ d hg₀ hcb₀
    · exact absurd rfl hok
  · by_contra hsome
    obtain ⟨d, hentry⟩ := Option.ne_none_iff_exists'.mp hsome
    obtain ⟨g, hg⟩ := List.mem_iff_getElem?.mp hgw
    obtain ⟨gw₀, hg₀, hid₀, hold | rfl⟩ := entry_step h.sound hm hg hentry
    · rw [h.absent hd hempty gw₀ (List.mem_of_getElem? hg₀) (hid₀ ▸ hid) (hid₀ ▸ hne)] at hold
      cases hold
    · exact absurd rfl hok

theorem Base.id_of {g : Nat} (h : Base p b c gwID sess ids s) (hg : s.gws[g]? = some gw) :
    ids[g]? = some gw.id := by
  rw [← h.named, List.getElem?_map, hg, Option.map_some]

-- ---------------------------------------------------------------------------
-- Steps that do not concern the player
-- ---------------------------------------------------------------------------

theorem filter_of_about {net net' : List Packet} {f : Packet → Bool}
    (hf : ∀ pkt, f pkt = true → about p pkt = true)
    (hnet : net'.filter (about p) = net.filter (about p)) : net'.filter f = net.filter f := by
  have hand : (fun pkt => f pkt && about p pkt) = f := by
    funext pkt
    cases hfp : f pkt with
    | false => rfl
    | true => rw [hf pkt hfp, Bool.and_true]
  rw [← hand, ← List.filter_filter, hnet, List.filter_filter]

theorem about_of_isMain (h : isMain p pkt = true) : about p pkt = true := by
  simp only [isMain, decide_eq_true_eq] at h
  simpa [about] using h.1

theorem about_of_isNotice (h : isNotice p pkt = true) : about p pkt = true := by
  simp only [isNotice, decide_eq_true_eq] at h
  simpa [about] using h.1

theorem At.kept (h : At p b c gwID sess n m s)
    (hb : ∀ gw, s.gws[b]? = some gw → ∃ gw', s'.gws[b]? = some gw' ∧ gw'.id = gw.id ∧ Kept p gw gw')
    (hs : s'.sessions.load p = s.sessions.load p)
    (hnet : s'.net.filter (isMain p) = s.net.filter (isMain p)) : At p b c gwID sess n m s' := by
  obtain ⟨hg, hid, he, hc, hload, hasks, hmain, hphase⟩ := h
  obtain ⟨gw', hg', hid', hk⟩ := hb _ hg
  exact .intro hg' (hid'.trans hid) (hk.entry.trans he) ((hk.conns c _ hphase.auth).mpr hc)
    (hs.trans hload)
    (hasks.trans (hk.asking c).symm) (hnet.trans hmain) hphase

theorem cost_sublist (h : net.Sublist s.net) : cost p { s with net } ≤ cost p s := by
  have hnotices := h.countP_le (p := isNotice p)
  simp only [cost]
  omega

theorem At.of_asked (hg : s.gws[b]? = some gw) (hid : gw.id = gwID)
    (he : gw.playerConns.load p = some c)
    (hc : gw.conns.load c = some conn) (hload : s.sessions.load p = some sess')
    (hasked : gw.callbacks.load c ≠ some ⟨p, none⟩) (hmain : s.net.filter (isMain p) = l)
    (hphase : Phase p b gwID sess n m false conn sess' l) : At p b c gwID sess n m s := by
  have hasks : false = true ↔ gw.callbacks.load c = some ⟨p, none⟩ := by simp [hasked]
  exact .intro hg hid he hc hload hasks hmain hphase

theorem underway_frame (h : Underway p b c gwID sess ids N s) (hbase : Base p b c gwID sess ids s')
    (hf : Frame p s s') : Underway p b c gwID sess ids N s' := by
  obtain ⟨m, hat, hcost⟩ := h.phase
  have hle : cost p s' ≤ cost p s := by
    have hnotices : s'.net.countP (isNotice p) = s.net.countP (isNotice p) := by
      rw [List.countP_eq_length_filter, List.countP_eq_length_filter,
        filter_of_about (fun _ => about_of_isNotice) hf.net]
    have hstopping := hf.stopping.length_le
    rw [← List.countP_eq_length_filter, ← List.countP_eq_length_filter] at hstopping
    simp only [cost, hf.sent, hnotices]
    omega
  have hat' :=
    hat.kept (fun _ => hf.gateway_of) hf.session (filter_of_about (fun _ => about_of_isMain) hf.net)
  refine h.next hbase ?_ (fun q hq hp => .inl ((hf.mem_net hp).mp hq)) ?_ hat' (by omega)
  · rintro ⟨sess', hload, hgw⟩
    exact ⟨sess', hf.session.trans hload, hgw⟩
  · intro st hst hp
    have hmem := hf.stopping.subset (List.mem_filter.mpr ⟨hst, decide_eq_true hp⟩)
    exact .inl (List.mem_filter.mp hmem).1

-- ---------------------------------------------------------------------------
-- The gateways' own steps
-- ---------------------------------------------------------------------------

theorem uplink_session {m : UInt32} {d : SessionData} (hup : svcSessionSvr ∈ up) (g clock : Nat) :
    uplink g clock (sendSession up p m d) = [⟨g, .up, m, d, clock⟩] := by
  simp [uplink, sendSession, send, hup]

theorem length_send (up : List String) (backend key : String) (msgID : UInt32)
    (data : SessionData) :
    (send up backend key msgID data).length ≤ 1 := by
  unfold send
  split <;> simp

theorem cost_acted {e : Gateway.Client.Event} {w : Gateway.Reconnect.State}
    (hq : ∀ out ∈ gw'.outbox, out.msgID ≠ msgIdSessionInvalidate) :
    cost p (acted s g e w gw') + s.stopping.countP (·.player = p) ≤
      cost p s + gw'.outbox.length + (stoppingAfter s.stopping g w e).countP (·.player = p) := by
  have hnotices : (uplink g s.clock gw'.outbox).countP (isNotice p) = 0 := by
    refine List.countP_eq_zero.mpr fun pkt hpkt => ?_
    obtain ⟨out, hout, -, rfl⟩ := mem_uplink hpkt
    simp [isNotice, hq out hout]
  have hsent : (gw'.outbox.map (·.data)).countP (·.playerId = p) ≤ gw'.outbox.length :=
    List.countP_le_length.trans_eq (List.length_map _)
  simp only [cost, acted, List.countP_append]
  omega

theorem underway_sent (h : Underway p b c gwID sess ids N s) (hsub : net.Sublist s.net)
    (hnone : net.filter (isMain p) = []) (hg : s.gws[b]? = some gw)
    (hbase : Base p b c gwID sess ids (acted { s with net } b ev gw gw'))
    (hst : stoppingAfter s.stopping b gw ev = s.stopping)
    (hq : ∀ out ∈ gw'.outbox, out.msgID ≠ msgIdSessionInvalidate)
    (hlink : uplink b s.clock gw'.outbox = [pkt]) (hid : gw'.id = gwID)
    (he : gw'.playerConns.load p = some c)
    (hc : gw'.conns.load c = some conn) (hload : s.sessions.load p = some sess')
    (hasked : gw'.callbacks.load c ≠ some ⟨p, none⟩)
    (hphase : Phase p b gwID sess ids.length m false conn sess' [pkt])
    (hlen : gw'.outbox.length ≤ j) (hcost : cost p s + j + m ≤ N) :
    Underway p b c gwID sess ids N (acted { s with net } b ev gw gw') := by
  have hmain := hphase.main pkt (List.mem_singleton_self pkt)
  have hle := cost_sublist (p := p) hsub
  have hacted := cost_acted (p := p) (s := { s with net }) (g := b) (e := ev) (w := gw) hq
  simp only [hst] at hacted
  refine h.next (m := m) hbase id (fun q hmem _ => ?_)
    (fun st hmem _ => .inl (hst ▸ hmem)) ?_ (by omega)
  · refine (List.mem_append.mp hmem).imp (hsub.subset ·) fun hnew => .inl ?_
    obtain rfl := List.mem_singleton.mp (hlink ▸ hnew)
    exact hmain
  · refine .of_asked (Slots.getElem?_set_of hg gw') hid he hc hload hasked ?_ hphase
    simp only [acted, hlink, List.filter_append, hnone]
    simp [hmain]

theorem underway_asked {g : Nat} (h : Underway p b c gwID sess ids N s) (hg : s.gws[g]? = some gw)
    (hcb : gw.callbacks.load d = some ⟨p, none⟩) (hup : svcSessionSvr ∈ up)
    (hs : s' = acted s g (.conn (.checkReconnect d up)) gw (checkReconnect gw d p up))
    (hbase : Base p b c gwID sess ids s') : Underway p b c gwID sess ids N s' := by
  subst hs
  obtain ⟨rfl, rfl⟩ := h.asking g gw d hg hcb
  obtain ⟨m, ⟨hg₀, hid, he, hc, hload, hasks, hmain, hphase⟩, hcost⟩ := h.phase
  obtain rfl := Option.some.inj (hg.symm.trans hg₀)
  obtain rfl := hasks.mpr hcb
  cases hphase
  unfold checkReconnect at hbase ⊢
  rw [if_pos hup] at hbase ⊢
  refine underway_sent h (List.Sublist.refl _) hmain hg hbase rfl (fun out hout => ?_)
    (uplink_session hup g s.clock) hid he hc hload (by simp) .asked (length_send ..) (by omega)
  rw [(mem_send hout).1]
  decide

theorem At.taken {k : Nat} (h : At p b c gwID sess n m s) (hk : s.net[k]? = some pkt)
    (hmain : isMain p pkt = true) :
    ∃ gw conn sess', s.gws[b]? = some gw ∧ gw.id = gwID ∧ gw.playerConns.load p = some c ∧
      gw.conns.load c = some conn ∧ s.sessions.load p = some sess' ∧
      gw.callbacks.load c ≠ some ⟨p, none⟩ ∧
      (s.net.eraseIdx k).filter (isMain p) = [] ∧
      Phase p b gwID sess n m false conn sess' [pkt] := by
  obtain @⟨gw, conn, sess', toAsk, l, hg, hid, he, hc, hload, hasks, hl, hphase⟩ := h
  have hmem : pkt ∈ l := hl ▸ List.mem_filter.mpr ⟨List.mem_of_getElem? hk, hmain⟩
  have hsingle : toAsk = false ∧ ∃ q, l = [q] := by
    cases hphase with
    | asking => cases hmem
    | saved => cases hmem
    | _ => exact ⟨rfl, _, rfl⟩
  obtain ⟨rfl, q, rfl⟩ := hsingle
  obtain ⟨rfl, hrest⟩ := Slots.filter_eraseIdx_of_single hk hmain hl
  exact ⟨gw, conn, sess', hg, hid, he, hc, hload, by simpa using hasks, hrest, hphase⟩

theorem uplink_restored (hup : svcSessionSvr ∈ up) (g clock : Nat) :
    uplink g clock ((if m ≠ "" then notifyRoomReconnected up q m server d else []) ++
      sendSession up q msgID data) = [⟨g, .up, msgID, data, clock⟩] := by
  have hroom :
      uplink g clock (if m ≠ "" then notifyRoomReconnected up q m server d else []) = [] := by
    split
    · unfold notifyRoomReconnected send
      split <;> rfl
    · rfl
  have happend (xs ys : List Gateway.Reconnect.Out) :
      uplink g clock (xs ++ ys) = uplink g clock xs ++ uplink g clock ys := by
    simp [uplink]
  rw [happend, hroom, uplink_session hup, List.nil_append]

theorem length_restored (up : List String) (q : Int64) (m server : String) (d : UInt64)
    (data : SessionData) :
    ((if m ≠ "" then notifyRoomReconnected up q m server d else []) ++
      sendSession up q msgIdSessionReconnect data).length ≤ 2 := by
  have hsession : (sendSession up q msgIdSessionReconnect data).length ≤ 1 := length_send ..
  have hroom : (if m ≠ "" then notifyRoomReconnected up q m server d else []).length ≤ 1 := by
    split
    · exact length_send ..
    · simp
  rw [List.length_append]
  omega

theorem underway_answered {k : Nat} (h : Underway p b c gwID sess ids N s)
    (hk : s.net[k]? = some pkt)
    (hmain : isMain p pkt = true) (hw : pkt.way = .down) (hg : s.gws[pkt.gw]? = some gw)
    (hup : svcSessionSvr ∈ up) (ha : Answered gw pkt.data up gw')
    (hs : s' = acted { s with net := s.net.eraseIdx k } pkt.gw
      (.conn (.sessionGet pkt.data up)) gw gw')
    (hbase : Base p b c gwID sess ids s') : Underway p b c gwID sess ids N s' := by
  subst hs
  obtain ⟨m, hat, hcost⟩ := h.phase
  obtain ⟨gw₀, conn₀, sess', hg₀, hid, he, hc, hload, hasked, hnone, hphase⟩ := hat.taken hk hmain
  have hsub := List.eraseIdx_sublist s.net k
  have hb : pkt.gw = b := by cases hphase <;> rfl
  have hp : pkt.data.playerId = p := by cases hphase <;> rfl
  rw [hb] at hg hbase ⊢
  obtain rfl := Option.some.inj (hg.symm.trans hg₀)
  subst hid
  cases ha with
  | unknown hgone =>
    rw [hp, he] at hgone
    cases hgone
  | gone hentry hgone =>
    rw [hp, he] at hentry
    obtain rfl := Option.some.inj hentry
    rw [hc] at hgone
    cases hgone
  | restored hentry hopen hd =>
    rw [hp, he] at hentry
    obtain rfl := Option.some.inj hentry
    obtain rfl := Option.some.inj (hc.symm.trans hopen)
    cases hphase with
    | asked => cases hw
    | reconnecting => cases hw
    | saving => cases hw
    | reconnected => exact absurd rfl hd
    | answered =>
      refine underway_sent h hsub hnone hg hbase rfl
        (fun out hout => ?_) (uplink_restored hup b s.clock) rfl he
        (SyncMap.load_store_self _ _ _) hload hasked (.reconnecting hd) (length_restored ..)
          (by omega)
      rcases mem_restored hout with ⟨-, hid, -⟩ | ⟨hid, -⟩
      · rw [hid]
        decide
      · rw [hid]
        decide
  | saved hentry hopen hd =>
    rw [hp, he] at hentry
    obtain rfl := Option.some.inj hentry
    obtain rfl := Option.some.inj (hc.symm.trans hopen)
    have hsettled : conn₀ = settled p sess ∧ 1 ≤ m := by
      cases hphase with
      | asked => cases hw
      | reconnecting => cases hw
      | saving => cases hw
      | answered => exact ⟨(if_pos hd).symm, by omega⟩
      | reconnected hne => exact ⟨(if_neg hne).symm, Nat.le_refl 1⟩
    refine underway_sent h hsub hnone hg hbase rfl
      (fun out hout => ?_) (uplink_session hup b s.clock) rfl he hc hload
      hasked ?_ (length_send ..) (m := 0) (by omega)
    · rw [(mem_send hout).1]
      decide
    · rw [hp, hsettled.1]
      exact .saving sess'

-- ---------------------------------------------------------------------------
-- The old gateway
-- ---------------------------------------------------------------------------

theorem underway_stopped {g : Nat} (h : Underway p b c gwID sess ids N s) (hg : s.gws[g]? = some gw)
    (hc : gw.conns.load d = some conn) (ha : conn.auth = some p) (hst : ⟨g, d, p⟩ ∈ s.stopping)
    (hs : s' = acted s g (.conn (.connStop d up)) gw (connStop gw d conn up))
    (hbase : Base p b c gwID sess ids s') : Underway p b c gwID sess ids N s' := by
  obtain ⟨m, hat, hcost⟩ := h.phase
  obtain ⟨hother, hne, hmoved⟩ := h.stopping _ hst rfl
  rw [h.id_of hg] at hother
  have hout := (connStop_player (h.sound.identified gw (List.mem_of_getElem? hg)) hc ha up).2
  have hlink : ∀ q ∈ uplink g s.clock (connStop gw d conn up).outbox, q.way = .up ∧
      q.msgID = msgIdSessionDisconnect ∧ q.data.gatewayId = gw.id := by
    intro q hq
    obtain ⟨out, hmem, -, rfl⟩ := mem_uplink hq
    rw [hout] at hmem
    exact ⟨rfl, (mem_send hmem).1, congrArg SessionData.gatewayId (mem_send hmem).2⟩
  have hgb : b ≠ g := by
    rintro rfl
    obtain ⟨hg₀, hid, -⟩ := hat
    exact hother (Option.some.inj (hg.symm.trans hg₀) ▸ congrArg some hid)
  subst hs
  refine h.next hbase id (fun q hq hp => ?_) (fun st hst _ => .inl (List.mem_filter.mp hst).1)
    (hat.kept (fun gw₀ hg₀ => ⟨gw₀, ?_, rfl, .of_eq rfl rfl rfl⟩) rfl ?_) ?_
  · refine (List.mem_append.mp hq).imp id fun hq => .inr ?_
    obtain ⟨hw, hid, hgw⟩ := hlink q hq
    exact .disconnect hw hid (fun heq => hother (congrArg some (hgw.symm.trans heq))) hne hmoved
  · exact (List.getElem?_set_ne hgb.symm).trans hg₀
  · have hnone : (uplink g s.clock (connStop gw d conn up).outbox).filter (isMain p) = [] := by
      refine List.filter_eq_nil_iff.mpr fun q hq => ?_
      simp [isMain, (hlink q hq).2.1]
    simp only [acted, List.filter_append, hnone, List.append_nil]
  · have hlen : (connStop gw d conn up).outbox.length ≤ 1 := hout ▸ length_send ..
    have hq : ∀ out ∈ (connStop gw d conn up).outbox, out.msgID ≠ msgIdSessionInvalidate := by
      intro out hmem
      rw [hout] at hmem
      rw [(mem_send hmem).1]
      decide
    have hle := cost_acted (p := p) (s := s) (g := g) (e := .conn (.connStop d up)) (w := gw) hq
    have hlt :=
      Slots.countP_filter_lt hst (f := (·.player = p)) (q := fun st => ¬ (st.gw = g ∧ st.conn = d))
      (by simp) (by simp)
    simp only [stoppingAfter] at hle
    omega

theorem At.invalidated {g : Nat} (h : At p b c gwID sess n m s) (hg : s.gws[g]? = some gw)
    (hne : data.gatewayId ≠ gwID) (hgws : s'.gws = s.gws.set g (handleSessionInvalidate gw data))
    (hs : s'.sessions.load p = s.sessions.load p)
    (hnet : s'.net.filter (isMain p) = s.net.filter (isMain p)) :
    At p b c gwID sess n m s' := by
  refine h.kept (fun gw₀ hg₀ => ?_) hs hnet
  rw [hgws]
  by_cases hb : g = b
  · subst hb
    obtain ⟨hg₁, hid, -⟩ := h
    obtain rfl := Option.some.inj (hg.symm.trans hg₀)
    obtain rfl := Option.some.inj (hg.symm.trans hg₁)
    have hskip : handleSessionInvalidate gw data = { gw with outbox := [] } :=
      if_pos (.inl (hid.symm ▸ hne))
    rw [hskip]
    exact ⟨_, Slots.getElem?_set_of hg _, rfl, .of_eq rfl rfl rfl⟩
  · exact ⟨gw₀, (List.getElem?_set_ne hb).trans hg₀, rfl, .of_eq rfl rfl rfl⟩

theorem underway_invalidated {k : Nat} (h : Underway p b c gwID sess ids N s)
    (hk : s.net[k]? = some pkt)
    (hp : pkt.data.playerId = p) (hid : pkt.msgID = msgIdSessionInvalidate)
    (hd : sess.disconnectedAt ≠ 0)
    (hgw : pkt.data.gatewayId = sess.gatewayID) (hne : sess.gatewayID ≠ gwID) (hm : Moved p gwID s)
    (hg : s.gws[pkt.gw]? = some gw)
    (hs : s' = acted { s with net := s.net.eraseIdx k } pkt.gw (.conn (.invalidate pkt.data)) gw
      (handleSessionInvalidate gw pkt.data))
    (hbase : Base p b c gwID sess ids s') : Underway p b c gwID sess ids N s' := by
  obtain ⟨m, hat, hcost⟩ := h.phase
  have hout : (handleSessionInvalidate gw pkt.data).outbox = [] := by
    unfold handleSessionInvalidate
    split <;> rfl
  have hnet : s'.net = s.net.eraseIdx k := by simp [hs, acted, hout, uplink]
  have hat' : At p b c gwID sess ids.length m s' := by
    refine hat.invalidated hg (hgw.trans_ne hne) (by rw [hs]; rfl) (by rw [hs]; rfl) ?_
    rw [hnet]
    exact Slots.filter_eraseIdx_of_neg hk (by simp [isMain, hid])
  subst hs
  refine h.next hbase id (fun q hq _ => .inl (List.mem_of_mem_eraseIdx (hnet ▸ hq)))
    (fun st hst _ => ?_) hat' ?_
  · refine (List.mem_append.mp hst).imp id fun hnew => ?_
    obtain ⟨d, hmem, rfl⟩ := List.mem_map.mp hnew
    obtain ⟨hgw', hentry⟩ := invalidated_eq (Option.mem_toList.mp hmem)
    have hother : gw.id ≠ gwID := (hgw'.symm.trans hgw).trans_ne hne
    refine ⟨fun heq => hother (Option.some.inj ((h.id_of hg).symm.trans heq)), fun hempty => ?_, hm⟩
    rw [hp, h.absent hd hempty gw (List.mem_of_getElem? hg) (hgw'.symm.trans hgw) hother] at hentry
    cases hentry
  · have hq : ∀ out ∈ (handleSessionInvalidate gw pkt.data).outbox,
        out.msgID ≠ msgIdSessionInvalidate := by
      simp [hout]
    have hle := cost_acted (p := p) (s := { s with net := s.net.eraseIdx k }) (g := pkt.gw)
      (e := .conn (.invalidate pkt.data)) (w := gw) hq
    have htaken : cost p { s with net := s.net.eraseIdx k } + 1 = cost p s := by
      have hcount := Slots.countP_eraseIdx hk (f := isNotice p) (by simp [isNotice, hp, hid])
      simp only [cost]
      omega
    have hstopped :
        ((invalidated gw pkt.data).toList.map fun d =>
          (⟨pkt.gw, d, pkt.data.playerId⟩ : Stopped)).countP
        (·.player = p) ≤ 1 := by
      refine List.countP_le_length.trans ?_
      cases invalidated gw pkt.data <;> simp
    simp only [stoppingAfter, List.countP_append, hout, List.length_nil] at hle
    omega

-- ---------------------------------------------------------------------------
-- SessionSvr
-- ---------------------------------------------------------------------------

theorem underway_replied {pkt : Packet} (h : Underway p b c gwID sess ids N s)
    (hsub : net.Sublist s.net) (hnone : net.filter (isMain p) = [])
    (hbase : Base p b c gwID sess ids (post { s with net, sessions } (pkt :: notices)))
    (hg : s.gws[b]? = some gw) (hid : gw.id = gwID) (he : gw.playerConns.load p = some c)
    (hc : gw.conns.load c = some conn) (hload : sessions.load p = some sess')
    (hasked : gw.callbacks.load c ≠ some ⟨p, none⟩)
    (hphase : Phase p b gwID sess ids.length m false conn sess' [pkt])
    (hm : Moved p gwID s → sess'.gatewayID = gwID) (hnotices : ∀ q ∈ notices, isNotice p q = true ∧
      Side p gwID sess (post { s with net, sessions } (pkt :: notices)) q)
    (hcost : cost p s + 1 + 2 * notices.length + m ≤ N) :
    Underway p b c gwID sess ids N (post { s with net, sessions } (pkt :: notices)) := by
  have hmain := hphase.main pkt (List.mem_singleton_self pkt)
  have hmains : notices.filter (isMain p) = [] := by
    refine List.filter_eq_nil_iff.mpr fun q hq => ?_
    have hnotice := of_decide_eq_true (hnotices q hq).1
    simp [isMain, hnotice.2]
  refine h.next (m := m) hbase (fun hmoved => ⟨sess', hload, hm hmoved⟩) (fun q hq _ => ?_)
    (fun st hst _ => .inl hst) ?_ ?_
  · refine (List.mem_append.mp hq).imp (hsub.subset ·) fun hnew => ?_
    rcases List.mem_cons.mp hnew with rfl | hnew
    · exact .inl hmain
    · exact .inr (hnotices q hnew).2
  · refine .of_asked hg hid he hc hload hasked ?_ hphase
    simp only [post, List.filter_append, hnone, List.filter_cons, hmain, hmains]
    rfl
  · have hold := hsub.countP_le (p := isNotice p)
    have hnew : (pkt :: notices).countP (isNotice p) ≤ notices.length := by
      have hpkt : isNotice p pkt = false := by
        have hpkt := of_decide_eq_true hmain
        simp [isNotice, hpkt.2.1]
      rw [List.countP_cons_of_neg (by simp [hpkt])]
      exact List.countP_le_length
    have hsent : ((pkt :: notices).map (·.data)).countP (·.playerId = p) ≤ notices.length + 1 :=
      List.countP_le_length.trans_eq (by simp)
    simp only [cost] at hcost
    simp only [cost, post, List.countP_append]
    omega

theorem underway_served {k : Nat} (h : Underway p b c gwID sess ids N s) (hk : s.net[k]? = some pkt)
    (hmain : isMain p pkt = true) (hw : pkt.way = .up) (env : Env)
    (hs : s' = serve { s with net := s.net.eraseIdx k } pkt env)
    (hbase : Base p b c gwID sess ids s') :
    Underway p b c gwID sess ids N s' := by
  subst hs
  obtain ⟨m, hat, hcost⟩ := h.phase
  obtain ⟨gw, conn, sess', hg, hid, he, hc, hload, hasked, hnone, hphase⟩ := hat.taken hk hmain
  have hsub := List.eraseIdx_sublist s.net k
  have hmoved (hm : Moved p gwID s) : sess'.gatewayID = gwID := by
    obtain ⟨sess₀, hload₀, hgw⟩ := hm
    obtain rfl := Option.some.inj (hload.symm.trans hload₀)
    exact hgw
  cases hphase with
  | answered => cases hw
  | reconnected => cases hw
  | asked =>
    have hsession : s.sessions.session p = sess := by simp [SessionSvr.Sessions.session, hload]
    rw [serve_get rfl] at hbase ⊢
    dsimp only at hbase ⊢
    rw [hsession] at hbase ⊢
    exact underway_replied h hsub hnone hbase hg hid he hc hload hasked .answered hmoved (by simp)
      (by rw [List.length_nil]; omega)
  | reconnecting hd =>
    have hdata : (sess.reconnect { playerId := p, gatewayId := gwID }).toData =
        { (reconnected p gwID sess).toData with playerId := p } := by
      simp [reconnected, Session.toData, Session.reconnect, (h.sound.wellFormed p sess hload).1]
    rw [serve_reconnect rfl hload] at hbase ⊢
    dsimp only at hbase ⊢
    rw [hdata] at hbase ⊢
    refine underway_replied h hsub hnone hbase hg hid he hc (SyncMap.load_store_self _ _ _) hasked
      (.reconnected hd)
      (fun _ => rfl) (fun q hq => ?_) ?_
    · split at hq
      next hstale =>
        obtain ⟨g, -, rfl⟩ := List.mem_map.mp hq
        refine ⟨decide_eq_true ⟨rfl, rfl⟩,
          .notice rfl rfl hd rfl hstale.2 ⟨_, SyncMap.load_store_self _ _ _, rfl⟩⟩
      next => cases hq
    · have hsize : s.gws.length = ids.length := by rw [← h.named, List.length_map]
      have hlen : (if sess.Stale gwID then
            ((List.range s.gws.length).filter (· ∈ env.linked)).map fun g =>
              (⟨g, .down, msgIdSessionInvalidate, ⟨p, sess.gatewayID, ∅, 0⟩, s.clock⟩ : Packet)
          else []).length ≤ ids.length := by
        split
        · rw [List.length_map, ← hsize]
          exact (List.length_filter_le _ _).trans_eq List.length_range
        · exact Nat.zero_le _
      omega
  | saving =>
    rw [serve_save rfl] at hbase ⊢
    refine h.next hbase (fun _ => ⟨_, SyncMap.load_store_self _ _ _, rfl⟩)
      (fun q hq _ => .inl (hsub.subset hq)) (fun st hst _ => .inl hst)
      (.of_asked hg hid he hc (SyncMap.load_store_self _ _ _) hasked hnone (.saved rfl rfl rfl)) ?_
    exact Nat.le_trans (Nat.add_le_add_right (cost_sublist hsub) 0) hcost

theorem underway_stale {k : Nat} (h : Underway p b c gwID sess ids N s) (hk : s.net[k]? = some pkt)
    (hp : pkt.data.playerId = p) (hid : pkt.msgID = msgIdSessionDisconnect)
    (hgw : pkt.data.gatewayId ≠ gwID) (hne : gwID ≠ "") (hm : Moved p gwID s) (env : Env)
    (hs : s' = serve { s with net := s.net.eraseIdx k } pkt env)
    (hbase : Base p b c gwID sess ids s') :
    Underway p b c gwID sess ids N s' := by
  obtain ⟨m, hat, hcost⟩ := h.phase
  obtain ⟨sess', hload, rfl⟩ := hm
  have hstale : sess'.Stale pkt.data.gatewayId := ⟨hne, hgw.symm⟩
  rw [serve_stale hid (hp ▸ hload) hstale] at hs
  subst hs
  have hsub := List.eraseIdx_sublist s.net k
  refine h.next hbase id (fun q hq _ => .inl (hsub.subset hq)) (fun st hst _ => .inl hst)
    (hat.kept (fun gw hg => ⟨gw, hg, rfl, .of_eq rfl rfl rfl⟩) rfl ?_) ?_
  · exact Slots.filter_eraseIdx_of_neg hk (by simp [isMain, hid])
  · exact Nat.le_trans (Nat.add_le_add_right (cost_sublist hsub) m) hcost

-- ---------------------------------------------------------------------------
-- Runs
-- ---------------------------------------------------------------------------

theorem underway_arrived {k : Nat} {env : Env} (h : Underway p b c gwID sess ids N s)
    (hk : s.net[k]? = some pkt)
    (hp : pkt.data.playerId = p) (hw : pkt.way = .down) (hup : svcSessionSvr ∈ env.up)
    (hev : arrival pkt env.up = some ev) (hg : s.gws[pkt.gw]? = some gw)
    (hstep : Gateway.Client.step gw ev = some gw')
    (hs : s' = acted { s with net := s.net.eraseIdx k } pkt.gw ev gw gw')
    (hbase : Base p b c gwID sess ids s') :
    Underway p b c gwID sess ids N s' := by
  rcases h.side pkt (List.mem_of_getElem? hk) hp with hmain | hside
  · rcases arrival_eq hev with ⟨rfl, -⟩ | ⟨-, hid⟩
    · have ha : Answered gw pkt.data env.up gw' :=
        Option.some.inj hstep ▸ answered gw pkt.data env.up
      exact underway_answered h hk hmain hw hg hup ha hs hbase
    · exact absurd hid (of_decide_eq_true hmain).2.1
  · cases hside with
    | disconnect hw' => rw [hw] at hw'; cases hw'
    | notice _ hid hd hgw hne hm =>
      rcases arrival_eq hev with ⟨-, hid' | hid'⟩ | ⟨rfl, -⟩
      · exact absurd (hid.symm.trans hid') (by decide)
      · exact absurd (hid.symm.trans hid') (by decide)
      · obtain rfl := Option.some.inj hstep
        exact underway_invalidated h hk hp hid hd hgw hne hm hg hs hbase

theorem arrival_isSome {k : Nat} (h : Underway p b c gwID sess ids N s) (hk : s.net[k]? = some pkt)
    (hp : pkt.data.playerId = p) (hw : pkt.way = .down) (up : List String) :
    arrival pkt up ≠ none := by
  rcases h.side pkt (List.mem_of_getElem? hk) hp with hmain | hside
  · obtain ⟨m, hat, -⟩ := h.phase
    obtain ⟨_, _, _, -, -, -, -, -, -, -, hphase⟩ := hat.taken hk hmain
    cases hphase with
    | answered => simp [arrival]
    | reconnected => simp [arrival]
    | _ => cases hw
  · cases hside with
    | disconnect hw' => rw [hw] at hw'; cases hw'
    | notice _ hid =>
      unfold arrival
      split <;> simp

theorem underway_next (h : Underway p b c gwID sess ids N s) (hok : Undisturbed p s e)
    (hm : Moves p s e s')
    (hbase : Base p b c gwID sess ids s') : Underway p b c gwID sess ids N s' := by
  cases hm with
  | frame hf => exact underway_frame h hbase hf
  | turn hg hl hs ht =>
    cases ht with
    | other hpassive => exact underway_frame h hbase (frame_local hl hg hs hpassive)
    | connStart => exact absurd rfl hok
    | checkReconnect up hcb => exact underway_asked h hg hcb (hok _ hg hcb) rfl hbase
    | connStop up hc ha => exact underway_stopped h hg hc ha (hok _ hg _ hc ha) rfl hbase
    | sessionGet => cases hl
    | invalidate => cases hl
    | retry => exact absurd rfl hok
    | tagged msgID up henv hne hc ha => exact absurd ha (hok _ (by rw [henv]; rfl) hne _ hg _ hc)
  | served env hk hp hw =>
    rcases h.side _ (List.mem_of_getElem? hk) hp with hmain | hside
    · exact underway_served h hk hmain hw env rfl hbase
    · cases hside with
      | notice hw' => rw [hw] at hw'; cases hw'
      | disconnect _ hid hgw hne hm => exact underway_stale h hk hp hid hgw hne hm env rfl hbase
  | arrived env hk hp hw hev hg hs _ =>
    exact underway_arrived h hk hp hw (hok _ hk hp) hev hg hs rfl hbase
  | ignored env hk hp hw hev => exact absurd hev (arrival_isSome h hk hp hw env.up)
  | expired => exact absurd rfl hok

theorem underway_step (h : Underway p b c gwID sess ids N s) (hb : e.Backed)
    (hok : Undisturbed p s e) (hs : step s e = some s') : Underway p b c gwID sess ids N s' := by
  have hsound := sound_step h.sound hb hs
  obtain ⟨s₁, hn, rfl⟩ := Option.map_eq_some_iff.mp hs
  have hm := moves h.sound hb hn p
  have hbase :=
    base_step h.toBase hok hm ⟨hsound.identified, hsound.wellFormed, hsound.sessions, hsound.net⟩
  -- The clock is not part of it.
  refine underway_frame (underway_next h hok hm hbase) ⟨hsound, hbase.named, hbase.asking,
    hbase.absent⟩ ?_
  exact ⟨rfl, fun _ gw hg => ⟨gw, hg, .of_eq rfl rfl rfl⟩, rfl, rfl, rfl, List.Sublist.refl _,
    fun _ _ _ _ _ => rfl⟩

theorem underway_start (hsound : Sound s) (h : Start p b c s) (hg : s.gws[b]? = some gw)
    (hload : s.sessions.load p = some sess)
    (habsent : sess.disconnectedAt ≠ 0 → Absent p gw.id sess s) :
    Underway p b c gw.id sess (s.gws.map (·.id))
      (s.sent.countP (·.playerId = p) + 6 + 2 * s.gws.length) s := by
  obtain ⟨gw₀, hg₀, he, hc, hcb⟩ := h.started
  obtain rfl := Option.some.inj (hg.symm.trans hg₀)
  have hmain : s.net.filter (isMain p) = [] := by
    refine List.filter_eq_nil_iff.mpr fun q hq => ?_
    simp [isMain, h.net q hq]
  have hnotices : s.net.countP (isNotice p) = 0 := by
    refine List.countP_eq_zero.mpr fun q hq => ?_
    simp [isNotice, h.net q hq]
  have hstopping : s.stopping.countP (·.player = p) = 0 := by
    refine List.countP_eq_zero.mpr fun st hst => ?_
    simpa using h.stopping st hst
  have hasking : ∀ (g : Nat) gw d, s.gws[g]? = some gw → gw.callbacks.load d = some ⟨p, none⟩ →
      g = b ∧ d = c :=
    fun g gw d hg hcb => h.alone g (List.getElem?_eq_some_iff.mp hg).1 gw hg d (by simp [hcb]) hcb
  refine ⟨⟨hsound, rfl, hasking, habsent⟩,
    ⟨_, .intro hg rfl he hc hload (iff_of_true rfl hcb) hmain .asking, ?_⟩,
    fun pkt hpkt hp => absurd hp (h.net pkt hpkt), fun st hst hp => absurd hp (h.stopping st hst)⟩
  simp only [cost, hnotices, hstopping, List.length_map]
  omega

theorem underway_run (hsound : Sound s) (hstart : Start p b c s) (hg : s.gws[b]? = some gw)
    (hload : s.sessions.load p = some sess)
    (habsent : sess.disconnectedAt ≠ 0 → Absent p gw.id sess s)
    (hes : ∀ e ∈ es, e.Backed) (ha : Along step (Undisturbed p) s es)
    (hr : run step s es = some s') :
    Underway p b c gw.id sess (s.gws.map (·.id))
    (s.sent.countP (·.playerId = p) + 6 + 2 * s.gws.length) s' := by
  have hok : Along step (fun s e => e.Backed ∧ Undisturbed p s e) s es :=
    (Run.along_of_forall (fun e he _ => hes e he) _).and ha
  exact Run.invariant (fun _ _ _ h hok hs => underway_step h hok.1 hok.2 hs)
    (underway_start hsound hstart hg hload habsent) hok hr

theorem Underway.completed (h : Underway p b c gwID sess ids N s) (hdone : Completed p b c s) :
    ∃ gw sess', s.gws[b]? = some gw ∧ gw.conns.load c = some (settled p sess) ∧
      s.sessions.load p = some sess' ∧
      sess'.gatewayID = gwID ∧ sess'.disconnectedAt = 0 ∧
      sess'.connTags = goTags (collectTags (settled p sess)) := by
  obtain ⟨m, ⟨hg, hid, he, hc, hload, hasks, hmain, hphase⟩, -⟩ := h.phase
  have hnone : s.net.filter (isMain p) = [] := by
    refine List.filter_eq_nil_iff.mpr fun q hq => ?_
    simp [isMain, hdone.net q hq]
  obtain rfl := hmain.symm.trans hnone
  cases hphase with
  | asking => exact absurd (hasks.mp rfl) (hdone.asked _ hg)
  | saved hgw hd ht => exact ⟨_, _, hg, hc, hload, hgw, hd, ht⟩

-- ---------------------------------------------------------------------------
-- The tags
-- ---------------------------------------------------------------------------

def Synced (tags : Tags) : Prop := ∀ key v, tags.load key = some v → key ∈ syncTagKeys ∧ v ≠ ""

theorem synced_tag (hkey : key ∈ syncTagKeys) (hv : v ≠ "") : Synced (tag key v) := by
  intro k w hk
  rw [tag, SyncMap.load_store, SyncMap.load_empty] at hk
  split at hk
  next heq =>
    cases hk
    exact ⟨heq ▸ hkey, hv⟩
  next => cases hk

theorem load_opened (key : String) :
    (opened p).properties.load key = if key = propPlayerID then some (.int64 p) else none := by
  simp [opened, SyncMap.load_store]

theorem load_restored (h : Synced sess.toData.connTags) (key : String) :
    (restored p sess).properties.load key =
      if key = propPlayerID then some (.int64 p)
      else (sess.toData.connTags.load key).map .string := by
  have hload : (restored p sess).properties.load key =
      ((sess.toData.connTags.load key).map .string).or ((opened p).properties.load key) := by
    rw [restored, Conn.restore, SyncMap.load_storeAll, SyncMap.load_mapVal]
  rw [hload, load_opened]
  split
  next heq =>
    have hnone : sess.toData.connTags.load key = none := by
      by_contra hsome
      obtain ⟨v, hv⟩ := Option.ne_none_iff_exists'.mp hsome
      exact absurd (heq ▸ (h key v hv).1) (by decide)
    rw [hnone]
    rfl
  next => exact Option.or_none

theorem collectTags_restored (h : Synced sess.toData.connTags) :
    collectTags (restored p sess) = sess.toData.connTags := by
  refine SyncMap.ext fun key => ?_
  rw [load_collectTags]
  split
  next hkey =>
    have hne : key ≠ propPlayerID := fun heq => absurd (heq ▸ hkey) (by decide)
    rw [tagOf, load_restored h, if_neg hne]
    cases hv : sess.toData.connTags.load key with
    | none => rfl
    | some v => exact if_neg (h key v hv).2
  next hkey =>
    by_contra hsome
    obtain ⟨v, hv⟩ := Option.ne_none_iff_exists'.mp (Ne.symm hsome)
    exact hkey (h key v hv).1

theorem collectTags_opened : collectTags (opened p) = ∅ := by
  refine SyncMap.ext fun key => ?_
  rw [load_collectTags, SyncMap.load_empty]
  split
  next hkey =>
    have hne : key ≠ propPlayerID := fun heq => absurd (heq ▸ hkey) (by decide)
    rw [tagOf, load_opened, if_neg hne]
  next => rfl

-- A backend puts the player's connection on gateway 0 in a match.
def matched : Event :=
  .gateway 0 (.response msgIdMatchAllocateResp (marshalEnvelope 1 [] [(tagMatchID, "m-1")])
    online.up)

-- Player 7 connects to gateway 0 and is in a match.
def playing : List Event :=
  opens 0 1 ++ asks 0 1 ++ [delivers 0, delivers 0, delivers 0, matched, delivers 0]

def left : List Event := [.gateway 0 (.conn (.connStop 1 online.up)), delivers 0]

theorem matched_backed : matched.Backed := by
  intro env henv
  rw [decodeEnvelope_marshal (by decide) (by decide +kernel)] at henv
  cases henv
  decide +kernel

/-- Gateway `b` has the session, and connection `c` carries the tags. -/
structure Resumed (p : Int64) (b : Nat) (c : UInt64) (gwID : String) (tags : Tags) (s : State) :
    Prop where
  session : ∃ sess ∈ s.sessions.load p, sess.gatewayID = gwID ∧ sess.disconnectedAt = 0 ∧
    sess.toData.connTags = tags
  conn : ∃ gw ∈ s.gws[b]?, ∃ conn ∈ gw.conns.load c, ∀ key, conn.properties.load key =
    if key = propPlayerID then some (.int64 p) else (tags.load key).map .string

/-- A player that had left comes back. At most a fixed number of messages about the
player is sent, and when they are all handled, the session is restored. -/
theorem reconnect_restores (hsound : Sound s) (hstart : Start p b c s) (hg : s.gws[b]? = some gw)
    (hload : s.sessions.load p = some sess) (hd : sess.disconnectedAt ≠ 0)
    (htags : Synced sess.toData.connTags)
    (habsent : Absent p gw.id sess s) (hes : ∀ e ∈ es, e.Backed)
    (ha : Along step (Undisturbed p) s es) (hr : run step s es = some s') :
    s'.sent.countP (·.playerId = p) ≤ s.sent.countP (·.playerId = p) + 6 + 2 * s.gws.length ∧
      (Completed p b c s' → Resumed p b c gw.id sess.toData.connTags s') := by
  have h := underway_run hsound hstart hg hload (fun _ => habsent) hes ha hr
  refine ⟨?_, fun hdone => ?_⟩
  · obtain ⟨m, -, hcost⟩ := h.phase
    simp only [cost] at hcost
    omega
  · obtain ⟨gw', sess', hg', hc, hload', hgw, hd', ht⟩ := h.completed hdone
    have hsettled : settled p sess = restored p sess := if_neg hd
    rw [hsettled] at hc
    rw [hsettled, collectTags_restored htags] at ht
    refine ⟨⟨sess', hload', hgw, hd', ?_⟩, gw', hg', _, hc, load_restored htags⟩
    rw [Session.toData, ht]
    exact getD_goTags _

-- The player connects to gateway 1; the notices go out before the tags are saved.
def comesBack : List Event := asks 1 1 ++ List.replicate 7 (delivers 0)

theorem comesBack_restored :
    ∃ s s', run step gateways (playing ++ left ++ opens 1 1) = some s ∧
      run step s comesBack = some s' ∧
      Completed 7 1 1 s' ∧ Resumed 7 1 1 "gw-2" (tag tagMatchID "m-1") s' := by
  have hfacts : ∃ s ∈ run step gateways (playing ++ left ++ opens 1 1), ∃ s' ∈ run step s comesBack,
      ∃ gw ∈ s.gws[1]?, ∃ sess ∈ s.sessions.load 7, Start 7 1 1 s ∧ gw.id = "gw-2" ∧
        sess.disconnectedAt ≠ 0 ∧
        sess.toData.connTags = tag tagMatchID "m-1" ∧ Along step (Undisturbed 7) s comesBack ∧
        Completed 7 1 1 s' := by decide +kernel
  obtain ⟨s, hs, s', hr, gw, hg, sess, hload, hstart, hid, hd, htags, ha, hdone⟩ := hfacts
  have hes₀ : ∀ e ∈ playing ++ left ++ opens 1 1, e.Backed := by
    simpa [playing, left, opens, asks, delivers, Event.Backed, Gateway.PlayerConns.Backed]
      using matched_backed
  have hes : ∀ e ∈ comesBack, e.Backed := by
    simp [comesBack, asks, delivers, Event.Backed, Gateway.PlayerConns.Backed]
  have habsent : Absent 7 gw.id sess s := fun hempty => absurd (hid.symm.trans hempty) (by decide)
  have h := reconnect_restores (sound_run hes₀ hs) hstart hg hload hd
    (htags ▸ synced_tag (by decide) (by decide))
    habsent hes ha hr
  rw [hid, htags] at h
  exact ⟨s, s', hs, hr, hdone, h.2 hdone⟩

-- Player 7 comes back to gateway 0 while that cannot reach SessionSvr, and then connects to
-- gateway 1, which has no id.
def twice : List Event := opens 0 2 ++ [.gateway 0 (.conn (.checkReconnect 2 []))] ++ opens 1 1

-- Gateway 0 gets the notice first and stops its connection. The disconnect of that arrives last.
def undone : List Event :=
  asks 1 1 ++ List.replicate 5 (delivers 0) ++ [.gateway 0 (.conn (.connStop 2 online.up))] ++
    List.replicate 3 (delivers 0)

/-- SessionSvr does not take the disconnect for a stale one, and the session is
back at the old gateway and disconnected. -/
theorem undone_lost :
    ∃ s s' sess, run step (fresh ["gw-1", ""]) (playing ++ left ++ twice) = some s ∧
      run step s undone = some s' ∧
      Start 7 1 1 s ∧ s.sessions.load 7 = some sess ∧ sess.disconnectedAt ≠ 0 ∧
      sess.gatewayID = "gw-1" ∧
      Synced sess.toData.connTags ∧ Along step (Undisturbed 7) s undone ∧ Completed 7 1 1 s' ∧
      s'.sessions.load 7 = some ⟨7, "gw-1", some (tag tagMatchID "m-1"), 5⟩ ∧
      ¬ Resumed 7 1 1 "" sess.toData.connTags s' := by
  have hfacts :
      ∃ s ∈ run step (fresh ["gw-1", ""]) (playing ++ left ++ twice), ∃ s' ∈ run step s undone,
      ∃ sess ∈ s.sessions.load 7, Start 7 1 1 s ∧ sess.disconnectedAt ≠ 0 ∧
        sess.gatewayID = "gw-1" ∧
        sess.toData.connTags = tag tagMatchID "m-1" ∧ Along step (Undisturbed 7) s undone ∧
        Completed 7 1 1 s' ∧
        s'.sessions.load 7 = some ⟨7, "gw-1", some (tag tagMatchID "m-1"), 5⟩ := by decide +kernel
  obtain ⟨s, hs, s', hr, sess, hload, hstart, hd, hgw, htags, ha, hdone, hlost⟩ := hfacts
  refine ⟨s, s', sess, hs, hr, hstart, hload, hd, hgw, htags ▸ synced_tag (by decide) (by decide),
    ha, hdone, hlost, ?_⟩
  rintro ⟨⟨sess', hload', hgw', -⟩, -⟩
  obtain rfl := Option.some.inj (hlost.symm.trans hload')
  exact absurd hgw' (by decide)

/-- A player whose session says that it never left comes back. When all messages
about the player are handled, the tags of the session are gone, and the connection
has none of them. -/
theorem crash_wipes (hsound : Sound s) (hstart : Start p b c s)
    (hload : s.sessions.load p = some sess)
    (hd : sess.disconnectedAt = 0) (hne : sess.toData.connTags ≠ ∅)
    (hkeys : ∀ key, (sess.toData.connTags.load key).isSome → key ∈ syncTagKeys)
    (hes : ∀ e ∈ es, e.Backed) (ha : Along step (Undisturbed p) s es) (hr : run step s es = some s')
    (hdone : Completed p b c s') :
    (∃ sess' ∈ s'.sessions.load p, sess'.connTags = none ∧
      sess'.toData.connTags ≠ sess.toData.connTags) ∧
      ∃ gw ∈ s'.gws[b]?, ∃ conn ∈ gw.conns.load c, ∀ key, (sess.toData.connTags.load key).isSome →
        conn.properties.load key = none := by
  obtain ⟨gw, hg, -⟩ := hstart.started
  have h := underway_run hsound hstart hg hload (fun hne => absurd hd hne) hes ha hr
  obtain ⟨gw', sess', hg', hc, hload', -, -, ht⟩ := h.completed hdone
  have hsettled : settled p sess = opened p := if_pos hd
  rw [hsettled] at hc
  rw [hsettled, collectTags_opened] at ht
  refine ⟨⟨sess', hload', ht, ?_⟩, gw', hg', _, hc, fun key hkey => ?_⟩
  · rw [Session.toData, ht]
    exact hne.symm
  · have hother : key ≠ propPlayerID := fun heq => absurd (heq ▸ hkeys key hkey) (by decide)
    rw [load_opened, if_neg hother]

-- The player connects to gateway 1 while the session says that it is on gateway 0.
def replaces : List Event := asks 1 1 ++ List.replicate 3 (delivers 0)

theorem replaces_wipes :
    ∃ s s', run step gateways (playing ++ opens 1 1) = some s ∧ run step s replaces = some s' ∧
      (∃ sess ∈ s.sessions.load 7, sess.toData.connTags = tag tagMatchID "m-1") ∧
      ∃ sess' ∈ s'.sessions.load 7, sess'.connTags = none := by
  have hfacts : ∃ s ∈ run step gateways (playing ++ opens 1 1), ∃ s' ∈ run step s replaces,
      ∃ sess ∈ s.sessions.load 7, Start 7 1 1 s ∧ sess.disconnectedAt = 0 ∧
        sess.toData.connTags = tag tagMatchID "m-1" ∧ Along step (Undisturbed 7) s replaces ∧
        Completed 7 1 1 s' := by decide +kernel
  obtain ⟨s, hs, s', hr, sess, hload, hstart, hd, htags, ha, hdone⟩ := hfacts
  have hes₀ : ∀ e ∈ playing ++ opens 1 1, e.Backed := by
    simpa [playing, opens, asks, delivers, Event.Backed, Gateway.PlayerConns.Backed]
      using matched_backed
  have hes : ∀ e ∈ replaces, e.Backed := by
    simp [replaces, asks, delivers, Event.Backed, Gateway.PlayerConns.Backed]
  have hsynced : Synced sess.toData.connTags := htags ▸ synced_tag (by decide) (by decide)
  have hne : sess.toData.connTags ≠ ∅ := by
    rw [htags]
    decide +kernel
  have hkeys : ∀ key, (sess.toData.connTags.load key).isSome → key ∈ syncTagKeys := by
    intro key hkey
    obtain ⟨v, hv⟩ := Option.isSome_iff_exists.mp hkey
    exact (hsynced key v hv).1
  obtain ⟨⟨sess', hload', hwiped, -⟩, -⟩ :=
    crash_wipes (sound_run hes₀ hs) hstart hload hd hne hkeys hes ha hr hdone
  exact ⟨s, s', hs, hr, ⟨sess, hload, htags⟩, sess', hload', hwiped⟩

/-- The tags are lost, and the new connection does not have them. -/
theorem match_lost :
    ∃ s ∈ run step gateways (playing ++ opens 1 1), ∃ s' ∈ run step s replaces, Start 7 1 1 s ∧
      s.sessions.load 7 = some ⟨7, "gw-1", some (tag tagMatchID "m-1"), 0⟩ ∧
      Along step (Undisturbed 7) s replaces ∧ Completed 7 1 1 s' ∧
      s'.sessions.load 7 = some ⟨7, "gw-2", none, 0⟩ ∧
      ∃ gw ∈ s'.gws[1]?, ∃ conn ∈ gw.conns.load 1, conn.properties.load tagMatchID = none := by
  decide +kernel

end

end Cardwar.System.Exchange
