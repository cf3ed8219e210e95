import Cardwar.Gateway.Conns
import Cardwar.System.Exchange

/-!
# How many messages an exchange takes

Gateways and SessionSvr answer each other's messages, and SessionSvr broadcasts. Still
there is no loop: a connection that asks for its session causes at most six messages
and one to each gateway, every other event at a gateway at most one, whatever the
order of delivery. While a message is under way it can be delivered, so an exchange
ends (`exchange_ends`).
-/

namespace Cardwar.System.Traffic

open Conf Protocol Sessions
open Gateway.Reconnect (Out send sendSession notifyRoomReconnected)
open Gateway.Conns (Posted posted)
open SessionSvr (served)
open Exchange (playing left)
open Run (run)

/-- How many messages can follow one to SessionSvr, among `n` gateways. -/
def asked (n : Nat) (msgID : UInt32) : Nat :=
  if msgID = msgIdSessionGet then n + 5
  else if msgID = msgIdSessionReconnect then n + 2
  else 0

/-- How many can follow a message under way. -/
def follows (n : Nat) (pkt : Packet) : Nat :=
  match pkt.way with
  | .up => asked n pkt.msgID
  | .down =>
    if pkt.msgID = msgIdSessionGet ∨ pkt.msgID = msgIdSessionReconnect then
      if pkt.data.disconnectedAt ≠ 0 then n + 4 else 1
    else 0

def pending (n : Nat) (net : List Packet) : Nat := (net.map (follows n)).sum

/-- How many messages an event at a gateway causes, at once or later. -/
def caused (n : Nat) : Event → Nat
  | .gateway _ (.conn (.checkReconnect _ _)) => n + 6
  | .gateway _ (.conn (.connStop _ _)) => 1
  | .gateway _ (.conn (.retry _ _)) => 1
  | .gateway _ (.response _ _ _) => 1
  | _ => 0

def delivered : Event → Nat
  | .deliver _ _ => 1
  | _ => 0

def emitted (n g clock : Nat) (outbox : List Out) : Nat :=
  outbox.length + pending n (uplink g clock outbox)

@[simp] theorem pending_nil (n : Nat) : pending n [] = 0 := rfl

@[simp] theorem pending_append (n : Nat) (net pkts : List Packet) :
    pending n (net ++ pkts) = pending n net + pending n pkts := by
  simp [pending]

@[simp] theorem emitted_nil (n g clock : Nat) : emitted n g clock [] = 0 := rfl

theorem emitted_append (n g clock : Nat) (xs ys : List Out) :
    emitted n g clock (xs ++ ys) = emitted n g clock xs + emitted n g clock ys := by
  simp only [emitted, uplink, List.filter_append, List.map_append, pending_append,
    List.length_append]
  omega

theorem pending_eraseIdx {net : List Packet} (hk : net[k]? = some pkt) (n : Nat) :
    pending n (net.eraseIdx k) + follows n pkt = pending n net := by
  obtain ⟨hlt, rfl⟩ := List.getElem?_eq_some_iff.mp hk
  have hperm := ((List.getElem_cons_eraseIdx_perm hlt).map (follows n)).sum_eq
  rw [List.map_cons, List.sum_cons] at hperm
  rw [pending, pending, ← hperm, Nat.add_comm]

theorem emitted_sendSession (n g clock : Nat) (up : List String) (p : Int64) (msgID : UInt32)
    (data : SessionData) :
    emitted n g clock (sendSession up p msgID data) ≤ 1 + asked n msgID := by
  unfold sendSession send
  split
  · simp [emitted, uplink, pending, follows]
  · simp

theorem emitted_notice (n g clock : Nat) (up : List String) (p : Int64) (m server : String)
    (c : UInt64) :
    emitted n g clock (notifyRoomReconnected up p m server c) ≤ 1 := by
  unfold notifyRoomReconnected send
  split
  · have hne : svcRoomSvr ≠ svcSessionSvr := by decide
    simp [emitted, uplink, hne]
  · simp

theorem emitted_local (hl : Local ev) (hp : Posted gw ev outbox) (n g clock : Nat) :
    emitted n g clock outbox ≤ caused n (.gateway g ev) := by
  cases hp with
  | quiet => simp
  | asked =>
    refine (emitted_sendSession ..).trans ?_
    simp only [asked, caused, if_pos]
    omega
  | stopped => exact emitted_sendSession ..
  | retried => exact emitted_sendSession ..
  | tagged => exact emitted_sendSession ..
  | restored => cases hl
  | saved => cases hl

theorem emitted_sessionGet (hp : Posted gw (.conn (.sessionGet data up)) outbox) (n g clock : Nat) :
    emitted n g clock outbox ≤ if data.disconnectedAt ≠ 0 then n + 4 else 1 := by
  cases hp with
  | quiet => simp
  | restored c up hd =>
    rw [if_pos hd, emitted_append]
    have hnotice : emitted n g clock (if data.connTags.get tagMatchID ≠ "" then
        notifyRoomReconnected up data.playerId (data.connTags.get tagMatchID)
          (data.connTags.get tagRoomSvrID) c
        else []) ≤ 1 := by
      split
      · exact emitted_notice ..
      · simp
    have hsession := emitted_sendSession n g clock up data.playerId msgIdSessionReconnect
      { playerId := data.playerId, gatewayId := gw.id }
    have hasked : asked n msgIdSessionReconnect = n + 2 := rfl
    omega
  | saved conn up hd =>
    rw [if_neg (not_not.mpr hd)]
    exact emitted_sendSession ..

theorem emitted_arrival (hw : pkt.way = .down) (hev : arrival pkt up = some ev)
    (hp : Posted gw ev outbox) (n g clock : Nat) : emitted n g clock outbox ≤ follows n pkt := by
  rcases arrival_eq hev with ⟨rfl, hid⟩ | ⟨rfl, -⟩
  · simp only [follows, hw, if_pos hid]
    exact emitted_sessionGet hp n g clock
  · cases hp with
    | quiet => simp

theorem follows_down (h : pkt.way = .down) (n : Nat) : follows n pkt ≤ n + 4 := by
  simp only [follows, h]
  split
  · split <;> omega
  · omega

theorem pending_invalidations (n clock : Nat) (data : SessionData) (gws : List Nat) :
    pending n (gws.map fun h => ⟨h, .down, msgIdSessionInvalidate, data, clock⟩) = 0 := by
  induction gws with
  | nil => rfl
  | cons h gws ih =>
    rw [List.map_cons, pending, List.map_cons, List.sum_cons, ← pending, ih]
    rfl

theorem sent_served (hs : SessionSvr.Served sessions msgID data now sessions' sent)
    (n g clock : Nat) (linked : List Nat) :
    (sent.flatMap (downlink n g clock linked)).length + pending n
      (sent.flatMap (downlink n g clock linked)) ≤
      asked n msgID := by
  have hrange : ((List.range n).filter (· ∈ linked)).length ≤ n := by
    simpa using List.length_filter_le (· ∈ linked) (List.range n)
  cases hs with
  | saved _ _ ho => simp [ho]
  | stale _ _ _ _ ho => simp [ho]
  | disconnected _ _ _ ho => simp [ho]
  | unknown _ _ _ ho => simp [ho]
  | dropped _ ho => simp [ho]
  | got hid _ ho =>
    subst hid ho
    have hasked : asked n msgIdSessionGet = n + 5 := rfl
    simp only [List.flatMap_cons, List.flatMap_nil, downlink, List.append_nil,
      List.length_singleton, pending, List.map_cons, List.map_nil, List.sum_singleton]
    refine (Nat.add_le_add_left (follows_down rfl n) 1).trans ?_
    omega
  | @reconnected sess hid _ _ ho =>
    subst hid ho
    -- The session that is sent back is not disconnected.
    have hreply :
        follows n ⟨g, .down, msgIdSessionReconnect, (sess.reconnect data).toData, clock⟩ = 1 := rfl
    have hasked : asked n msgIdSessionReconnect = n + 2 := rfl
    split
    · simp only [List.flatMap_cons, List.flatMap_nil, downlink, List.append_nil,
        List.singleton_append, List.length_cons, List.length_map]
      rw [pending, List.map_cons, List.sum_cons, ← pending, pending_invalidations, hreply]
      omega
    · simp [downlink, pending, hreply, hasked]

theorem gw_downlink (hg : g < n) (h : pkt ∈ downlink n g clock linked out) : pkt.gw < n := by
  cases out with
  | reply msgID data =>
    obtain rfl := List.mem_singleton.mp h
    exact hg
  | broadcast msgID data =>
    obtain ⟨h, hh, rfl⟩ := List.mem_map.mp h
    exact List.mem_range.mp (List.mem_filter.mp hh).1

/-- After `d` deliveries, when events caused at most `b` messages. -/
structure Inv (n d b : Nat) (s : State) : Prop where
  gws : s.gws.length = n
  gw : ∀ pkt ∈ s.net, pkt.gw < n
  net : d + s.net.length ≤ s.sent.length
  sent : s.sent.length + pending n s.net ≤ b

theorem inv_acted (h : Inv n d b s) (hg : s.gws[g]? = some gw)
    (he : emitted n g s.clock gw'.outbox ≤ b') (ev : Gateway.Client.Event) :
    Inv n d (b + b') (acted s g ev gw gw') where
  gws := by rw [acted, List.length_set, h.gws]
  gw pkt hpkt := by
    rcases List.mem_append.mp hpkt with hpkt | hpkt
    · exact h.gw pkt hpkt
    · obtain ⟨out, -, -, rfl⟩ := mem_uplink hpkt
      exact h.gws ▸ (List.getElem?_eq_some_iff.mp hg).1
  net := by
    have hnet := h.net
    have hle : (uplink g s.clock gw'.outbox).length ≤ gw'.outbox.length := by
      simpa [uplink] using List.length_filter_le _ _
    simp only [acted, List.length_append, List.length_map]
    omega
  sent := by
    have hsent := h.sent
    simp only [emitted] at he
    simp only [acted, List.length_append, List.length_map, pending_append]
    omega

theorem Inv.received (h : Inv n d b s) (hk : s.net[k]? = some pkt) :
    Inv n (d + 1) (b - follows n pkt) { s with net := s.net.eraseIdx k } ∧ follows n pkt ≤ b := by
  have hpending := pending_eraseIdx hk n
  have hlength := List.length_eraseIdx_add_one (List.getElem?_eq_some_iff.mp hk).1
  have hnet := h.net
  have hsent := h.sent
  refine ⟨⟨h.gws, fun q hq => h.gw q (List.mem_of_mem_eraseIdx hq), ?_, ?_⟩, ?_⟩
  · dsimp only
    omega
  · dsimp only
    omega
  · omega

theorem inv_serve (h : Inv n d b s) (hg : pkt.gw < n) (hw : pkt.way = .up) (env : Env) :
    Inv n d (b + follows n pkt) (serve s pkt env) := by
  have hs := served s.sessions pkt.msgID pkt.data env.now 0
  have hcost := sent_served hs n pkt.gw s.clock env.linked
  have hfollows : follows n pkt = asked n pkt.msgID := by rw [follows, hw]
  have hnet := h.net
  have hsent := h.sent
  obtain rfl := h.gws
  refine ⟨rfl, fun q hq => ?_, ?_, ?_⟩
  · rcases List.mem_append.mp hq with hq | hq
    · exact h.gw q hq
    · obtain ⟨out, -, hq⟩ := List.mem_flatMap.mp hq
      exact gw_downlink hg hq
  · simp only [serve, List.length_append, List.length_map]
    omega
  · simp only [serve, List.length_append, List.length_map, pending_append]
    omega

theorem inv_step (h : Inv n d b s) (hs : step s e = some s') :
    Inv n (d + delivered e) (b + caused n e) s' := by
  obtain ⟨s₁, hnext, rfl⟩ := Option.map_eq_some_iff.mp hs
  suffices hinv :
      Inv n (d + delivered e) (b + caused n e) s₁ from ⟨hinv.gws, hinv.gw, hinv.net, hinv.sent⟩
  cases transition hnext with
  | acted hl ha =>
    obtain ⟨gw, gw', hg, hstep, rfl⟩ := act_eq ha
    exact inv_acted h hg (emitted_local hl (posted hstep) n _ _) _
  | served env hk hw =>
    obtain ⟨hrest, hle⟩ := h.received hk
    have hinv := inv_serve hrest (h.gw _ (List.mem_of_getElem? hk)) hw env
    rwa [Nat.sub_add_cancel hle] at hinv
  | arrived env hk hw hev ha =>
    obtain ⟨gw, gw', hg, hstep, rfl⟩ := act_eq ha
    obtain ⟨hrest, hle⟩ := h.received hk
    have hinv := inv_acted hrest hg (emitted_arrival hw hev (posted hstep) n _ _) ‹_›
    rwa [Nat.sub_add_cancel hle] at hinv
  | ignored env hk hw hev =>
    obtain ⟨hrest, hle⟩ := h.received hk
    exact ⟨hrest.gws, hrest.gw, hrest.net, hrest.sent.trans (Nat.sub_le _ _)⟩
  | expired => exact ⟨h.gws, h.gw, h.net, h.sent⟩

theorem inv_run (h : Inv n d b s) (hr : run step s es = some s') :
    Inv n (d + (es.map delivered).sum) (b + (es.map (caused n)).sum) s' := by
  induction es generalizing s d b with
  | nil => exact Option.some.inj hr ▸ h
  | cons e es ih =>
    obtain ⟨m, hm, hrest⟩ := Run.run_cons hr
    have hinv := ih (inv_step h hm) hrest
    simpa only [List.map_cons, List.sum_cons, Nat.add_assoc] using hinv

theorem inv_fresh (ids : List String) : Inv ids.length 0 0 (fresh ids) := by
  constructor <;> simp [fresh]

theorem deliverable (h : Inv n d b s) (hk : k < s.net.length) (env : Env) :
    (step s (.deliver k env)).isSome := by
  obtain ⟨pkt, hpkt⟩ : ∃ pkt, s.net[k]? = some pkt := ⟨_, List.getElem?_eq_getElem hk⟩
  have hgw : pkt.gw < s.gws.length := h.gws ▸ h.gw pkt (List.mem_of_getElem? hpkt)
  simp only [step, next, hpkt, Option.bind_some, Option.isSome_map, deliver]
  split
  · rfl
  · split
    next ev hev =>
      simp only [act, List.getElem?_eq_getElem hgw, Option.bind_some, Option.isSome_map]
      rcases arrival_eq hev with ⟨rfl, -⟩ | ⟨rfl, -⟩ <;> rfl
    next => rfl

-- Player 7, who was in a match at gateway 0, comes back at gateway 1, which reaches RoomSvr.
def away : List Event := playing ++ left ++ opens 1 1

def returns : List Event :=
  asks 1 1 ++ List.replicate 7 (.deliver 0 { online with up := [svcSessionSvr, svcRoomSvr] })

/-- It takes all the messages that one connection can cause. -/
theorem returns_tight :
    ∃ s ∈ run step (fresh ["gw-1", "gw-2"]) away, ∃ s' ∈ run step s returns,
      s'.net = [] ∧ s'.sent.length = s.sent.length + (returns.map (caused 2)).sum := by
  decide +kernel

end Cardwar.System.Traffic
