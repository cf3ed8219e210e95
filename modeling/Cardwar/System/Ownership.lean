import Cardwar.System.Sessions

/-!
# The gateway a player is on

SessionSvr remembers one gateway for each player. When a reconnect moves a player
it tells all gateways, and the old one takes the player off its PlayerConns.

The notice names the player and the gateway, not a connection. It ends superseded
connections only if the player opens none on that gateway while a notice is under
way (`superseded_only`). A SessionSave moves a player without a notice; if none
does, a player ends up on one gateway at most (`ownership_announced`).
-/

namespace Cardwar.System.Ownership

open Conf Protocol Sessions
open Gateway.Reconnect (Answered checkReconnect handleSessionInvalidate retryDisconnect sendSession)
open Gateway.PlayerConns (Identified id_step)
open Gateway.Player (Turn)
open SessionSvr (Served served)
open Run (run Along)

-- ---------------------------------------------------------------------------
-- Invalidations
-- ---------------------------------------------------------------------------

/-- A SessionInvalidate for the player on its way to gateway `g`, whose id it has. -/
def Invalidates (p : Int64) (g : Nat) (gwID : String) (pkt : Packet) : Prop :=
  pkt.way = .down ∧ pkt.msgID = msgIdSessionInvalidate ∧ pkt.gw = g ∧ pkt.data.playerId = p ∧
    pkt.data.gatewayId = gwID

/-- The step takes the connection off PlayerConns, or stops it. -/
def Ends (s s' : State) (g : Nat) (p : Int64) (c : UInt64) : Prop :=
  (∃ gw gw', s.gws[g]? = some gw ∧ s'.gws[g]? = some gw' ∧ gw.playerConns.load p = some c ∧
      gw'.playerConns.load p ≠ some c) ∨
    ⟨g, c, p⟩ ∈ s'.stopping ∧ ⟨g, c, p⟩ ∉ s.stopping

/-- A SessionInvalidate ends only connections opened before SessionSvr handled
the SessionReconnect that caused it. -/
def Superseded (s : State) : Event → Prop
  | .deliver k env =>
    ∀ pkt, s.net[k]? = some pkt → pkt.way = .down → pkt.msgID = msgIdSessionInvalidate →
      ∀ s', step s (.deliver k env) = some s' → ∀ g p c, Ends s s' g p c →
        ∃ t, s.opened.load (g, c) = some t ∧ t < pkt.sentAt
  | _ => True

/-- A player connects to a gateway only while no notice for that player is on
its way there. -/
def Settled (s : State) : Event → Prop
  | .gateway g (.conn (.connStart _ (some p))) =>
    ∀ gw ∈ s.gws[g]?, ∀ pkt ∈ s.net, ¬ Invalidates p g gw.id pkt
  | _ => True

instance (p : Int64) (g : Nat) (gwID : String) (pkt : Packet) :
    Decidable (Invalidates p g gwID pkt) :=
  inferInstanceAs (Decidable (_ ∧ _))

instance (s : State) (e : Event) : Decidable (Settled s e) := by
  unfold Settled
  split <;> infer_instance

structure Timed (s : State) : Prop where
  sound : Sound s
  opened : ∀ (g : Nat) gw p c, s.gws[g]? = some gw → gw.playerConns.load p = some c →
    ∃ t, s.opened.load (g, c) = some t ∧ t < s.clock ∧ ∀ pkt ∈ s.net, Invalidates p g gw.id pkt →
      t < pkt.sentAt

section Timed

variable {s s' : State} {p : Int64}

theorem net_step (hm : Moves p s e s') (hpkt : pkt ∈ s'.net) (hp : pkt.data.playerId = p) :
    pkt ∈ s.net ∨ pkt.sentAt = s.clock ∧ (pkt.way = .down → ∃ k env, e = .deliver k env) := by
  cases hm with
  | frame hf => exact .inl ((hf.mem_net hp).mp hpkt)
  | turn hg hl hs ht =>
    rcases List.mem_append.mp hpkt with hpkt | hpkt
    · exact .inl hpkt
    · obtain ⟨out, -, -, rfl⟩ := mem_uplink hpkt
      exact .inr ⟨rfl, nofun⟩
  | served env hk hp hw =>
    rcases List.mem_append.mp hpkt with hpkt | hpkt
    · exact .inl (List.mem_of_mem_eraseIdx hpkt)
    · refine .inr ⟨?_, fun _ => ⟨_, env, rfl⟩⟩
      cases answers (served s.sessions _ _ env.now 0) hpkt <;> rfl
  | arrived env hk hp hw hev hg hs ht =>
    rcases List.mem_append.mp hpkt with hpkt | hpkt
    · exact .inl (List.mem_of_mem_eraseIdx hpkt)
    · obtain ⟨out, -, -, rfl⟩ := mem_uplink hpkt
      exact .inr ⟨rfl, nofun⟩
  | ignored env hk hp hw hev => exact .inl (List.mem_of_mem_eraseIdx hpkt)
  | expired now hload => exact .inl hpkt

theorem opened_step {g : Nat} (hm : Moves p s e s') (hg : s.gws[g]? = some gw)
    (hc : (gw.conns.load c).isSome) :
    s'.opened.load (g, c) = s.opened.load (g, c) := by
  cases hm with
  | frame hf => exact hf.opened g gw c hg hc
  | turn hx hl hs ht => exact opened_acted hx hs hg hc
  | arrived env hk hp hw hev hx hs ht =>
    exact opened_acted (s := { s with net := s.net.eraseIdx _ }) hx hs hg hc
  | served env hk hp hw => rfl
  | ignored env hk hp hw hev => rfl
  | expired now hload => rfl

theorem timed_step (h : Timed s) (hb : e.Backed) (hok : Settled s e) (hs : step s e = some s') :
    Timed s' := by
  refine ⟨sound_step h.sound hb hs, fun g gw' p c hg he => ?_⟩
  obtain ⟨s₁, hn, rfl⟩ := Option.map_eq_some_iff.mp hs
  have hm := moves h.sound hb hn p
  obtain ⟨gw, hgw, hid, hold | rfl⟩ := entry_step h.sound hm hg he
  · obtain ⟨t, ht, hlt, hafter⟩ := h.opened g gw p c hgw hold
    obtain ⟨conn, hc, -⟩ := (h.sound.identified gw (List.mem_of_getElem? hgw)).owned p c hold
    refine ⟨t, (opened_step hm hgw (by simp [hc])).trans
      ht, by dsimp only; omega, fun pkt hpkt hi => ?_⟩
    rcases net_step hm hpkt hi.2.2.2.1 with hmem | ⟨hnow, -⟩
    · exact hafter pkt hmem (hid ▸ hi)
    · omega
  · -- The connection has just been opened, and no notice is on its way.
    simp only [next, Local] at hn
    obtain ⟨_, _, _, _, rfl⟩ := act_eq hn
    refine ⟨s.clock, SyncMap.load_store_self _ _ _, Nat.lt_succ_self _, fun pkt hpkt hi => ?_⟩
    rcases net_step hm hpkt hi.2.2.2.1 with hmem | ⟨-, hdown⟩
    · exact absurd (hid ▸ hi) (hok gw hgw pkt hmem)
    · obtain ⟨k, env, heq⟩ := hdown hi.1
      cases heq

theorem timed_fresh (ids : List String) : Timed (fresh ids) := by
  refine ⟨sound_fresh ids, fun g gw p c hg he => ?_⟩
  obtain ⟨gwID, -, rfl⟩ := List.mem_map.mp (List.mem_of_getElem? hg)
  simp [Gateway.Reconnect.init] at he

theorem ends_invalidate {g : Nat} (hk : s.net[k]? = some pkt) (hw : pkt.way = .down)
    (hid : pkt.msgID = msgIdSessionInvalidate) (hn : next s (.deliver k env) = some s')
    (he : Ends s s' g p c) :
    ∃ gw, s.gws[g]? = some gw ∧ gw.playerConns.load p = some c ∧ Invalidates p g gw.id pkt := by
  have harrival : arrival pkt env.up = some (.conn (.invalidate pkt.data)) := by
    rw [arrival, hid]
    rfl
  simp only [next, hk, Option.bind_some, deliver, hw, harrival] at hn
  obtain ⟨x, x', hx, hs, rfl⟩ := act_eq hn
  obtain rfl := Option.some.inj hs
  rcases he with ⟨gw, gw', hg, hg', he, hne⟩ | ⟨hnew, hold⟩
  · rcases Slots.getElem?_of_set hg' with ⟨rfl, rfl⟩ | ⟨-, hg'⟩
    · obtain rfl := Option.some.inj (hx.symm.trans hg)
      refine ⟨x, hx, he, hw, hid, rfl, ?_⟩
      unfold handleSessionInvalidate at hne
      split at hne
      · exact absurd he hne
      next hcond =>
        simp only [not_or, not_not] at hcond
        refine ⟨?_, hcond.1⟩
        by_contra hother
        exact hne ((SyncMap.load_delete_ne _ (Ne.symm hother)).trans he)
    · obtain rfl := Option.some.inj (hg.symm.trans hg')
      exact absurd he hne
  · rcases List.mem_append.mp hnew with hnew | hnew
    · exact absurd hnew hold
    · obtain ⟨d, hd, heq⟩ := List.mem_map.mp hnew
      cases heq
      obtain ⟨hgw, hentry⟩ := invalidated_eq (Option.mem_toList.mp hd)
      exact ⟨x, hx, hentry, hw, hid, rfl, rfl, hgw⟩

/-- In every run in which players connect to a gateway only while no notice for
them is on its way there, notices end superseded connections only. -/
theorem superseded_only (hes : ∀ e ∈ es, e.Backed) (ha : Along step Settled (fresh ids) es) :
    Along step Superseded (fresh ids) es := by
  have hok : Along step (fun s e => e.Backed ∧ Settled s e) (fresh ids) es :=
    (Run.along_of_forall (fun e he _ => hes e he) _).and ha
  refine hok.imp (I := Timed) (fun _ _ _ h hok hs => timed_step h hok.1 hok.2 hs) ?_
    (timed_fresh ids)
  intro s e h _
  cases e with
  | gateway => trivial
  | expire => trivial
  | deliver k env =>
    intro pkt hk hw hid s' hs g p c he
    obtain ⟨s₁, hn, rfl⟩ := Option.map_eq_some_iff.mp hs
    obtain ⟨gw, hg, hentry, hi⟩ := ends_invalidate hk hw hid hn he
    obtain ⟨t, ht, -, hafter⟩ := h.opened g gw p c hg hentry
    exact ⟨t, ht, hafter pkt (List.mem_of_getElem? hk) hi⟩

end Timed

/-- The player is on both gateways when it moves; the notice ends the older connection. -/
theorem older_superseded :
    (∃ s ∈ run step gateways (visited ++ opens 0 2 ++ moved ++ [delivers 1]),
      s.stopping = [⟨0, 2, 7⟩]) ∧
      Along step Superseded gateways (visited ++ opens 0 2 ++ moved ++ [delivers 1]) := by
  refine ⟨by decide +kernel, superseded_only ?_ (by decide +kernel)⟩
  simp [visited, moved, opens, asks, delivers, Event.Backed, Gateway.PlayerConns.Backed]

/-- Messages on one connection arrive in the order they were sent in. -/
def Fifo (s : State) : Event → Prop
  | .deliver k _ => ∀ pkt ∈ s.net[k]?, ∀ q ∈ s.net.take k, ¬ (q.gw = pkt.gw ∧ q.way = pkt.way)
  | _ => True

instance (s : State) : DecidablePred (Fifo s)
  | .deliver k _ => inferInstanceAs (Decidable (∀ pkt ∈ s.net[k]?, _))
  | .gateway _ _ | .expire _ _ => isTrue trivial

/-- The player is back on gateway 0 before the notice of its move away arrives,
and loses the new connection. -/
theorem newer_ended :
    Along step Fifo gateways (visited ++ moved ++ opens 0 2 ++ [delivers 1]) ∧
      ∃ s s' pkt t, run step gateways (visited ++ moved ++ opens 0 2) = some s ∧
        step s (delivers 1) = some s' ∧
        s.net[1]? = some pkt ∧ Invalidates 7 0 "gw-1" pkt ∧ s.opened.load (0, 2) = some t ∧
        pkt.sentAt < t ∧
        s'.stopping = [⟨0, 2, 7⟩] ∧ (s'.gws.map fun gw => gw.playerConns.load 7) = [none, some 1] ∧
        ¬ Superseded s (delivers 1) := by
  have hfacts : ∃ s ∈ run step gateways (visited ++ moved ++ opens 0 2), ∃ s' ∈ step s (delivers 1),
      ∃ pkt ∈ s.net[1]?, ∃ t ∈ s.opened.load (0, 2), Invalidates 7 0 "gw-1" pkt ∧ pkt.sentAt < t ∧
        s.stopping = [] ∧ s'.stopping = [⟨0, 2, 7⟩] ∧
        (s'.gws.map fun gw => gw.playerConns.load 7) = [none, some 1] := by decide +kernel
  obtain ⟨s, hr, s', hs, pkt, hpkt, t, ht, hi, hlt, hnone, hstop, hgone⟩ := hfacts
  refine ⟨by decide +kernel, s, s', pkt, t, hr, hs, hpkt, hi, ht, hlt, hstop, hgone, fun h => ?_⟩
  have hends : Ends s s' 0 7 2 := .inr ⟨by simp [hstop], by simp [hnone]⟩
  obtain ⟨t', ht', hlt'⟩ := h pkt hpkt hi.1 hi.2.1 s' hs 0 7 2 hends
  obtain rfl := Option.some.inj (ht.symm.trans ht')
  omega

-- ---------------------------------------------------------------------------
-- Changes of the owner
-- ---------------------------------------------------------------------------

/-- A message that takes a session from one gateway to another is announced. -/
def Announces (sessions : SessionSvr.Sessions) (request : SessionSvr.Request) : Prop :=
  ∀ p sess sess', sessions.load p = some sess →
    (SessionSvr.handle sessions request).sessions.load p = some sess' →
    sess.gatewayID ≠ "" → sess'.gatewayID ≠ sess.gatewayID →
    .broadcast msgIdSessionInvalidate { playerId := p, gatewayId := sess.gatewayID } ∈
      (SessionSvr.handle sessions request).sent

/-- A SessionSave is from the gateway the session is with, if it is with one. -/
def KeepsOwner (sessions : SessionSvr.Sessions) (request : SessionSvr.Request) : Prop :=
  request.msgID = msgIdSessionSave → ∀ data ∈ request.data, ∀ sess ∈ sessions.load data.playerId,
    sess.gatewayID = "" ∨ sess.gatewayID = data.gatewayId

instance (sessions : SessionSvr.Sessions) (request : SessionSvr.Request) :
    Decidable (KeepsOwner sessions request) := by
  unfold KeepsOwner
  infer_instance

theorem announces_of_keepsOwner (hs : Served sessions msgID data now sessions' sent)
    (hok : msgID = msgIdSessionSave → ∀ sess ∈ sessions.load data.playerId,
      sess.gatewayID = "" ∨ sess.gatewayID = data.gatewayId)
    (hload : sessions.load p = some sess) (hload' : sessions'.load p = some sess')
    (hne : sess.gatewayID ≠ "") (hchange : sess'.gatewayID ≠ sess.gatewayID) :
    .broadcast msgIdSessionInvalidate { playerId := p, gatewayId := sess.gatewayID } ∈ sent := by
  have hsame : sessions'.load p ≠ sessions.load p := by
    rw [hload, hload']
    exact fun heq => hchange (congrArg _ (Option.some.inj heq))
  by_cases hp : p = data.playerId
  · subst hp
    have hsession : sessions.session data.playerId = sess := by
      simp [SessionSvr.Sessions.session, hload]
    cases hs with
    | saved hid hs ho =>
      rw [hs, SyncMap.load_store_self, hsession] at hload'
      obtain rfl := Option.some.inj hload'
      rcases hok hid sess hload with h | h
      · exact absurd h hne
      · exact absurd h.symm hchange
    | disconnected hid hfresh hs ho =>
      rw [hs, SyncMap.load_store_self, hsession] at hload'
      obtain rfl := Option.some.inj hload'
      exact absurd (by simp [SessionSvr.Session.disconnect, hne]) hchange
    | reconnected hid hload₀ hs ho =>
      obtain rfl := Option.some.inj (hload₀.symm.trans hload)
      rw [hs, SyncMap.load_store_self] at hload'
      obtain rfl := Option.some.inj hload'
      rw [ho, if_pos ⟨hne, Ne.symm hchange⟩]
      exact List.mem_cons_of_mem _ (List.mem_singleton_self _)
    | got _ hs _ => exact absurd (by rw [hs]) hsame
    | stale _ _ _ hs _ => exact absurd (by rw [hs]) hsame
    | unknown _ _ hs _ => exact absurd (by rw [hs]) hsame
    | dropped hs _ _ => exact absurd (by rw [hs]) hsame
  · exact absurd (served_other hs hp) hsame

theorem announces_iff (sessions : SessionSvr.Sessions) (request : SessionSvr.Request) :
    Announces sessions request ↔ KeepsOwner sessions request := by
  obtain ⟨msgID, data, now, ts⟩ := request
  constructor
  · rintro h rfl data hdata sess hload
    obtain rfl := hdata
    by_contra hmoved
    rw [not_or] at hmoved
    have hload' : (SessionSvr.handleSave sessions data).sessions.load data.playerId =
        some (sess.save data) := by
      simp [SessionSvr.handleSave, Option.mem_def.mp hload]
    have hsent := h data.playerId sess _ hload hload' hmoved.1 (Ne.symm hmoved.2)
    cases hsent
  · intro hok p sess sess' hload hload' hne hchange
    cases data with
    | none => exact absurd (by rw [Option.some.inj (hload.symm.trans hload')]) hchange
    | some data =>
      refine announces_of_keepsOwner (served sessions msgID data now ts) ?_ hload hload' hne hchange
      exact fun hid => hok hid data rfl

/-- Gateways reach SessionSvr when they ask it or get its answers, and are
connected to it when it announces something; SessionSaves keep the owner; and a
session expires only while the player is on no gateway. -/
def Orderly (s : State) : Event → Prop
  | .gateway _ (.conn (.checkReconnect _ up)) => svcSessionSvr ∈ up
  | .deliver k env => svcSessionSvr ∈ env.up ∧ (∀ g < s.gws.length, g ∈ env.linked) ∧
      ∀ pkt ∈ s.net[k]?, pkt.way = .up →
        KeepsOwner s.sessions ⟨pkt.msgID, some pkt.data, env.now, 0⟩
  | .expire p _ => ∀ gw ∈ s.gws, gw.playerConns.load p = none
  | _ => True

instance (s : State) : DecidablePred (Orderly s)
  | .gateway _ (.conn (.checkReconnect _ up)) => inferInstanceAs (Decidable (svcSessionSvr ∈ up))
  | .deliver _ _ => inferInstanceAs (Decidable (_ ∧ _))
  | .expire p _ => inferInstanceAs (Decidable (∀ gw ∈ s.gws, gw.playerConns.load p = none))
  | .gateway _ (.conn (.connStart _ _)) | .gateway _ (.conn (.wake _))
  | .gateway _ (.conn (.timeout _))
  | .gateway _ (.conn (.connStop _ _)) | .gateway _ (.conn (.sessionGet _ _))
  | .gateway _ (.conn (.invalidate _))
  | .gateway _ (.conn (.retry _ _)) | .gateway _ (.response _ _ _) => isTrue trivial

/-- A message whose handling makes the gateway the owner, leads to another such
message, or takes the player off the gateway. `live` says that there is a session. -/
inductive Resolves (live : Prop) (gwID : String) (pkt : Packet) : Prop
  | get (hw : pkt.way = .up) (hid : pkt.msgID = msgIdSessionGet)
  | answer (hw : pkt.way = .down) (hid : pkt.msgID = msgIdSessionGet ∨
      pkt.msgID = msgIdSessionReconnect)
      (hd : pkt.data.disconnectedAt = 0 ∨ live)
  | reconnect (hw : pkt.way = .up) (hid : pkt.msgID = msgIdSessionReconnect)
      (hgw : pkt.data.gatewayId = gwID)
      (hlive : live)
  | save (hw : pkt.way = .up) (hid : pkt.msgID = msgIdSessionSave) (hgw : pkt.data.gatewayId = gwID)
  | invalidate (hw : pkt.way = .down) (hid : pkt.msgID = msgIdSessionInvalidate)
      (hgw : pkt.data.gatewayId = gwID)

/-- Gateway `g` owns the player, or a connection of the player has yet to ask, or
a message that resolves it is under way. -/
inductive Accounted (p : Int64) (s : State) (g : Nat) (gw : Gateway.Reconnect.State) : Prop
  | owner (hload : s.sessions.load p = some sess) (hgw : sess.gatewayID = gw.id)
  | asking (hcb : gw.callbacks.load c = some ⟨p, none⟩)
  | pending (hpkt : pkt ∈ s.net) (hg : pkt.gw = g) (hp : pkt.data.playerId = p)
      (hr : Resolves (s.sessions.load p).isSome gw.id pkt)

structure Owned (p : Int64) (s : State) : Prop where
  sound : Sound s
  ids : (s.gws.map (·.id)).Nodup
  named : "" ∉ s.gws.map (·.id)
  accounted : ∀ (g : Nat) gw, s.gws[g]? = some gw → (gw.playerConns.load p).isSome →
    Accounted p s g gw

theorem Resolves.mono (h : Resolves live gwID pkt) (hl : live → live') :
    Resolves live' gwID pkt := by
  cases h with
  | get hw hid => exact .get hw hid
  | answer hw hid hd => exact .answer hw hid (hd.imp id hl)
  | reconnect hw hid hgw hlive => exact .reconnect hw hid hgw (hl hlive)
  | save hw hid hgw => exact .save hw hid hgw
  | invalidate hw hid hgw => exact .invalidate hw hid hgw

theorem Resolves.down (h : Resolves live gwID pkt) (hw : pkt.way = .down) :
    (pkt.msgID = msgIdSessionGet ∨ pkt.msgID = msgIdSessionReconnect) ∧
    (pkt.data.disconnectedAt = 0 ∨ live) ∨
      pkt.msgID = msgIdSessionInvalidate ∧ pkt.data.gatewayId = gwID := by
  cases h with
  | answer _ hid hd => exact .inl ⟨hid, hd⟩
  | invalidate _ hid hgw => exact .inr ⟨hid, hgw⟩
  | get hup => cases hw.symm.trans hup
  | reconnect hup => cases hw.symm.trans hup
  | save hup => cases hw.symm.trans hup

section Owned

variable {s s' : State} {p : Int64}

theorem Accounted.mono {gw gw' : Gateway.Reconnect.State} (h : Accounted p s g gw)
    (hsession : s'.sessions.load p = s.sessions.load p) (hid : gw'.id = gw.id)
    (hcb : ∀ c, gw.callbacks.load c = some ⟨p, none⟩ → gw'.callbacks.load c = some ⟨p, none⟩)
    (hnet : ∀ pkt ∈ s.net, pkt.data.playerId = p → pkt ∈ s'.net) : Accounted p s' g gw' := by
  cases h with
  | owner hload hgw => exact .owner (hsession.trans hload) (hgw.trans hid.symm)
  | asking h => exact .asking (hcb _ h)
  | pending hpkt hg hp hr => exact .pending (hnet _ hpkt hp) hg hp (by rwa [hsession, hid])

theorem accounted_frame {g : Nat} (h : Owned p s) (hf : Frame p s s') (hg : s'.gws[g]? = some gw')
    (he : (gw'.playerConns.load p).isSome) : Accounted p s' g gw' := by
  obtain ⟨gw, hgw, hid, hk⟩ := hf.gateway hg
  refine (h.accounted g gw hgw (hk.entry ▸ he)).mono hf.session hid
    (fun c hc => (hk.asking c).mpr hc) ?_
  exact fun pkt hpkt hp => (hf.mem_net hp).mpr hpkt

theorem accounted_turn (hi : Identified gw) (hl : Local ev) (hok : Orderly s (.gateway g ev))
    (hold : (gw.playerConns.load p).isSome → Accounted p s g gw) (ht : Turn p gw ev gw')
    (hid : gw'.id = gw.id)
    (he : (gw'.playerConns.load p).isSome) : Accounted p (acted s g ev gw gw') g gw' := by
  have hnet : ∀ pkt ∈ s.net, pkt.data.playerId = p → pkt ∈ (acted s g ev gw gw').net :=
    fun pkt hpkt _ => List.mem_append_left _ hpkt
  cases ht with
  | other hk => exact (hold (hk.entry ▸ he)).mono rfl hid (fun c hc => (hk.asking c).mpr hc) hnet
  | connStart hc hcb => exact .asking (SyncMap.load_store_self _ _ _)
  | @checkReconnect c up hcb =>
    have hup : svcSessionSvr ∈ up := hok
    have hsub : sendSession up p msgIdSessionGet { playerId := p } ⊆
        (checkReconnect gw c p up).outbox := by
      simp [checkReconnect, hup]
    exact .pending (List.mem_append_right _ (sent_uplink hup hsub g s.clock)) rfl rfl (.get rfl rfl)
  | connStop up hc ha =>
    rw [(Gateway.PlayerConns.connStop_maps hi hc up).2, ha] at he
    simp at he
  | sessionGet => cases hl
  | invalidate => cases hl
  | retry up =>
    unfold retryDisconnect at he hid hnet ⊢
    split at he
    next hup =>
      rw [if_pos hup] at hid hnet ⊢
      exact (hold he).mono rfl hid (fun _ hc => hc) hnet
    next hup =>
      rw [if_neg hup] at hid hnet ⊢
      exact (hold he).mono rfl hid (fun _ hc => hc) hnet
  | tagged =>
    exact (hold he).mono rfl hid (fun _ hc => hc) hnet

theorem accounted_owner {g : Nat} (hk : s.net[k]? = some pkt) (hw : pkt.way = .up)
    (hok : Orderly s (.deliver k env)) (hg : s.gws[g]? = some gw) (hne : gw.id ≠ "")
    (hload : s.sessions.load pkt.data.playerId = some sess) (hgw : sess.gatewayID = gw.id) :
    Accounted pkt.data.playerId (serve { s with net := s.net.eraseIdx k } pkt env) g gw := by
  have hs := served s.sessions pkt.msgID pkt.data env.now 0
  obtain ⟨sess', hload'⟩ :=
    Option.isSome_iff_exists.mp (served_live (p := pkt.data.playerId) hs (by simp [hload]))
  by_cases hsame : sess'.gatewayID = sess.gatewayID
  · exact .owner hload' (hsame.trans hgw)
  · have hsent :=
      announces_of_keepsOwner hs (fun hid => hok.2.2 pkt hk hw hid pkt.data rfl) hload hload'
      (hgw ▸ hne) hsame
    have hlt : g < s.gws.length := (List.getElem?_eq_some_iff.mp hg).1
    have hlinked : g ∈ (List.range s.gws.length).filter (· ∈ env.linked) :=
      List.mem_filter.mpr ⟨List.mem_range.mpr hlt, decide_eq_true (hok.2.1 g hlt)⟩
    refine .pending
      (List.mem_append_right _
        (List.mem_flatMap.mpr ⟨_, hsent, List.mem_map.mpr ⟨g, hlinked, rfl⟩⟩))
      rfl rfl (.invalidate rfl rfl hgw)

theorem accounted_resolved (hw : pkt.way = .up)
    (hr : Resolves (s.sessions.load pkt.data.playerId).isSome gw.id pkt)
    (env : Env) : Accounted pkt.data.playerId (serve s pkt env) pkt.gw gw := by
  cases hr with
  | get _ hid =>
    rw [serve_get hid]
    refine .pending (List.mem_append_right _ (List.mem_singleton_self _)) rfl rfl
      (.answer rfl (.inl rfl) ?_)
    show (s.sessions.session pkt.data.playerId).disconnectedAt = 0 ∨
        (s.sessions.load pkt.data.playerId).isSome
    cases hload : s.sessions.load pkt.data.playerId with
    | none => exact .inl (by simp [SessionSvr.Sessions.session, hload])
    | some sess => exact .inr rfl
  | answer hdown => cases hw.symm.trans hdown
  | reconnect _ hid hgw hlive =>
    obtain ⟨sess, hload⟩ := Option.isSome_iff_exists.mp hlive
    rw [serve_reconnect hid hload]
    exact .owner (SyncMap.load_store_self _ _ _) hgw
  | save _ hid hgw =>
    rw [serve_save hid]
    exact .owner (SyncMap.load_store_self _ _ _) hgw
  | invalidate hdown => cases hw.symm.trans hdown

theorem accounted_served {g : Nat} (hk : s.net[k]? = some pkt) (hp : pkt.data.playerId = p)
    (hw : pkt.way = .up)
    (hok : Orderly s (.deliver k env)) (hg : s.gws[g]? = some gw) (hne : gw.id ≠ "")
    (h : Accounted p s g gw) :
    Accounted p (serve { s with net := s.net.eraseIdx k } pkt env) g gw := by
  subst hp
  cases h with
  | owner hload hgw => exact accounted_owner hk hw hok hg hne hload hgw
  | asking hcb => exact .asking hcb
  | pending hpkt hgw hp hr =>
    rcases Slots.mem_or_mem_eraseIdx hk hpkt with rfl | hmem
    · exact hgw ▸ accounted_resolved (s := { s with net := s.net.eraseIdx k }) hw hr env
    · refine .pending (List.mem_append_left _ hmem) hgw hp (hr.mono ?_)
      exact served_live (served s.sessions pkt.msgID pkt.data env.now 0)

theorem accounted_answered (hi : Identified gw) (hk : s.net[k]? = some pkt)
    (hp : pkt.data.playerId = p)
    (hw : pkt.way = .down) (hid : pkt.msgID = msgIdSessionGet ∨ pkt.msgID = msgIdSessionReconnect)
    (hok : Orderly s (.deliver k env)) (ha : Answered gw pkt.data env.up gw')
    (h : Accounted p s pkt.gw gw) (he : (gw.playerConns.load p).isSome) :
    Accounted p (acted { s with net := s.net.eraseIdx k } pkt.gw
      (.conn (.sessionGet pkt.data env.up)) gw gw')
      pkt.gw gw' := by
  subst hp
  have hup : svcSessionSvr ∈ env.up := hok.1
  cases ha with
  | unknown hnone => simp [hnone] at he
  | gone hp hc =>
    obtain ⟨conn, hconn, -⟩ := hi.owned _ _ hp
    simp [hc] at hconn
  | restored hp hc hd =>
    cases h with
    | owner hload hgw => exact .owner hload hgw
    | asking hcb => exact .asking hcb
    | @pending q hpkt hgw hq hr =>
      rcases Slots.mem_or_mem_eraseIdx hk hpkt with rfl | hmem
      · -- The answer itself: it was about a session, and a reconnect follows.
        have hlive : (s.sessions.load q.data.playerId).isSome := by
          rcases hr.down hw with ⟨-, hlive⟩ | ⟨hinv, -⟩
          · exact hlive.resolve_left hd
          · rw [hinv] at hid
            rcases hid with hid | hid <;> exact absurd hid (by decide)
        exact .pending
          (List.mem_append_right _ (sent_uplink hup (List.subset_append_right _ _) q.gw s.clock))
          rfl rfl (.reconnect rfl rfl rfl hlive)
      · exact .pending (List.mem_append_left _ hmem) hgw hq hr
  | saved hp hc hd =>
    exact .pending (List.mem_append_right _ (sent_uplink hup (List.Subset.refl _) pkt.gw s.clock))
      rfl rfl (.save rfl rfl rfl)

theorem accounted_arrived (hi : Identified gw) (hk : s.net[k]? = some pkt)
    (hp : pkt.data.playerId = p)
    (hw : pkt.way = .down) (hne : p ≠ 0) (hok : Orderly s (.deliver k env))
    (hev : arrival pkt env.up = some ev) (hs : Gateway.Client.step gw ev = some gw')
    (hold : (gw.playerConns.load p).isSome → Accounted p s pkt.gw gw)
    (he : (gw'.playerConns.load p).isSome) :
    Accounted p (acted { s with net := s.net.eraseIdx k } pkt.gw ev gw gw') pkt.gw gw' := by
  rcases arrival_eq hev with ⟨rfl, hid⟩ | ⟨rfl, hid⟩
  · have ha : Answered gw pkt.data env.up gw' :=
      Option.some.inj hs ▸ Gateway.Reconnect.answered gw pkt.data env.up
    have hentry : gw'.playerConns = gw.playerConns := by cases ha <;> rfl
    rw [hentry] at he
    exact accounted_answered hi hk hp hw hid hok ha (hold he) he
  · obtain rfl := Option.some.inj hs
    subst hp
    by_cases hgw : pkt.data.gatewayId = gw.id
    · simp [handleSessionInvalidate, hgw, hne] at he
    · rw [handleSessionInvalidate, if_pos (.inl hgw)] at he ⊢
      cases hold he with
      | owner hload hid => exact .owner hload hid
      | asking hcb => exact .asking hcb
      | pending hpkt hq hqp hr =>
        rcases Slots.mem_or_mem_eraseIdx hk hpkt with rfl | hmem
        · rcases hr.down hw with ⟨hans, -⟩ | ⟨-, hself⟩
          · rw [hid] at hans
            rcases hans with hans | hans <;> exact absurd hans (by decide)
          · exact absurd hself hgw
        · exact .pending (List.mem_append_left _ hmem) hq hqp hr

theorem owned_step (h : Owned p s) (hne : p ≠ 0) (hb : e.Backed) (hok : Orderly s e)
    (hs : step s e = some s') :
    Owned p s' := by
  have hsound := sound_step h.sound hb hs
  obtain ⟨s₁, hn, rfl⟩ := Option.map_eq_some_iff.mp hs
  have hm := moves h.sound hb hn p
  have hids := ids_step hm
  refine ⟨hsound, hids.symm ▸ h.ids, hids.symm ▸ h.named, fun g gw hg he => ?_⟩
  suffices hacc : Accounted p s₁ g gw from hacc.mono rfl rfl (fun _ hc => hc) fun _ hpkt _ => hpkt
  cases hm with
  | frame hf => exact accounted_frame h hf hg he
  | @turn j x ev x' hx hl hstep ht =>
    rcases Slots.getElem?_of_set hg with ⟨rfl, rfl⟩ | ⟨-, hg⟩
    · exact accounted_turn (h.sound.identified x (List.mem_of_getElem? hx)) hl hok
        (h.accounted g x hx) ht
        (id_step hstep) he
    · refine (h.accounted g gw hg he).mono rfl rfl (fun _ hc => hc) ?_
      exact fun pkt hpkt _ => List.mem_append_left _ hpkt
  | served env hk hp hw =>
    have hid : gw.id ≠ "" :=
      fun heq => h.named (heq ▸ List.mem_map_of_mem (List.mem_of_getElem? hg))
    exact accounted_served hk hp hw hok hg hid (h.accounted g gw hg he)
  | @arrived k pkt ev x x' env hk hp hw hev hx hstep ht =>
    rcases Slots.getElem?_of_set hg with ⟨rfl, rfl⟩ | ⟨hother, hg⟩
    · exact accounted_arrived (h.sound.identified x (List.mem_of_getElem? hx)) hk hp
        hw hne hok hev hstep
        (h.accounted _ x hx) he
    · -- The message was for another gateway.
      cases h.accounted g gw hg he with
      | owner hload hgw => exact .owner hload hgw
      | asking hcb => exact .asking hcb
      | pending hpkt hgw hq hr =>
        rcases Slots.mem_or_mem_eraseIdx hk hpkt with rfl | hmem
        · exact absurd hgw.symm hother
        · exact .pending (List.mem_append_left _ hmem) hgw hq hr
  | ignored env hk hp hw hev =>
    cases h.accounted g gw hg he with
    | owner hload hgw => exact .owner hload hgw
    | asking hcb => exact .asking hcb
    | pending hpkt hgw hq hr =>
      rcases Slots.mem_or_mem_eraseIdx hk hpkt with rfl | hmem
      · rcases hr.down hw with ⟨hans, -⟩ | ⟨hinv, -⟩
        · simp [arrival, hans] at hev
        · simp only [arrival, hinv, if_true] at hev
          split at hev <;> cases hev
      · exact .pending hmem hgw hq hr
  | expired now hload =>
    have hnone := hok gw (List.mem_of_getElem? hg)
    simp [hnone] at he

theorem owned_fresh (hids : ids.Nodup) (hne : "" ∉ ids) (p : Int64) : Owned p (fresh ids) := by
  have hmap : (fresh ids).gws.map (·.id) = ids := by
    simp [fresh, Gateway.Reconnect.init, Function.comp_def]
  refine ⟨sound_fresh ids, hmap.symm ▸ hids, hmap.symm ▸ hne, fun g gw hg he => ?_⟩
  obtain ⟨gwID, -, rfl⟩ := List.mem_map.mp (List.mem_of_getElem? hg)
  simp [Gateway.Reconnect.init] at he

end Owned

/-- No message about the player is under way, and no connection has yet to ask. -/
def Quiescent (p : Int64) (s : State) : Prop :=
  (∀ pkt ∈ s.net, pkt.data.playerId ≠ p) ∧
    ∀ gw ∈ s.gws, ∀ c ∈ gw.callbacks.keys, gw.callbacks.load c ≠ some ⟨p, none⟩

instance (p : Int64) (s : State) : Decidable (Quiescent p s) := inferInstanceAs (Decidable (_ ∧ _))

theorem Owned.owner {g : Nat} (h : Owned p s) (hq : Quiescent p s) (hg : s.gws[g]? = some gw)
    (he : (gw.playerConns.load p).isSome) :
    ∃ sess, s.sessions.load p = some sess ∧ sess.gatewayID = gw.id := by
  cases h.accounted g gw hg he with
  | owner hload hgw => exact ⟨_, hload, hgw⟩
  | asking hcb => exact absurd hcb (hq.2 gw (List.mem_of_getElem? hg) _ (by simp [hcb]))
  | pending hpkt _ hp _ => exact absurd hp (hq.1 _ hpkt)

/-- A change of the owner is announced exactly if no SessionSave makes it, and
then every orderly run leaves a player on one gateway at most. -/
theorem ownership_announced (hids : ids.Nodup) (hne : "" ∉ ids) (hp : p ≠ 0)
    (hes : ∀ e ∈ es, e.Backed) :
    (∀ sessions request, Announces sessions request ↔ KeepsOwner sessions request) ∧
    (Along step Orderly (fresh ids) es → ∀ s, run step (fresh ids) es = some s → Quiescent p s →
      ∀ (i j : Nat), ∀ gw ∈ s.gws[i]?, ∀ gw' ∈ s.gws[j]?, (gw.playerConns.load p).isSome →
        (gw'.playerConns.load p).isSome → i = j) := by
  refine ⟨announces_iff, fun ha s hr hq i j gw hi gw' hj he he' => ?_⟩
  have hok : Along step (fun s e => e.Backed ∧ Orderly s e) (fresh ids) es :=
    (Run.along_of_forall (fun e he _ => hes e he) _).and ha
  have h : Owned p s :=
    Run.invariant (fun _ _ _ h hok hs => owned_step h hp hok.1 hok.2 hs)
      (owned_fresh hids hne p) hok hr
  rw [Option.mem_def] at hi hj
  obtain ⟨sess, hload, hgw⟩ := h.owner hq hi he
  obtain ⟨sess', hload', hgw'⟩ := h.owner hq hj he'
  obtain rfl := Option.some.inj (hload.symm.trans hload')
  have hlt : i < (s.gws.map (·.id)).length := by
    rw [List.length_map]
    exact (List.getElem?_eq_some_iff.mp hi).1
  exact (List.getElem?_inj hlt h.ids).mp (by simp [hi, hj, ← hgw, ← hgw'])

-- The first connection is still open when the player moves, and asks only after the notice.
def handedOver : List Event :=
  visited ++ opens 0 2 ++ moved ++ [delivers 1] ++ asks 0 2 ++ List.replicate 5 (delivers 0)

theorem handedOver_once :
    ∃ s, run step gateways handedOver = some s ∧ Quiescent 7 s ∧
      (s.gws.map fun gw => gw.playerConns.load 7) = [none, some 1] ∧
      (∀ (i j : Nat), ∀ gw ∈ s.gws[i]?, ∀ gw' ∈ s.gws[j]?, (gw.playerConns.load 7).isSome →
        (gw'.playerConns.load 7).isSome → i = j) := by
  have hfacts : ∃ s ∈ run step gateways handedOver, Quiescent 7 s ∧
      (s.gws.map fun gw => gw.playerConns.load 7) = [none, some 1] := by decide +kernel
  obtain ⟨s, hr, hq, hentries⟩ := hfacts
  have hes : ∀ e ∈ handedOver, e.Backed := by
    simp [handedOver, visited, moved, opens, asks, delivers, Event.Backed,
      Gateway.PlayerConns.Backed]
  exact ⟨s, hr, hq, hentries,
    (ownership_announced (by decide) (by decide) (by decide) hes).2 (by decide +kernel) s hr hq⟩

-- Player 7 is connected to gateway 0 and connects to gateway 1 too.
def second : List Event :=
  opens 0 1 ++ asks 0 1 ++ [delivers 0, delivers 0, delivers 0] ++ opens 1 1 ++ asks 1 1 ++
    [delivers 0, delivers 0]

/-- The save of gateway 1 takes the session over unannounced, and the player
stays on both gateways. -/
theorem second_unannounced :
    (∃ s pkt, run step gateways second = some s ∧ s.net = [pkt] ∧ pkt.msgID = msgIdSessionSave ∧
      ¬ Announces s.sessions ⟨pkt.msgID, some pkt.data, online.now, 0⟩) ∧
    ∃ s ∈ run step gateways (second ++ [delivers 0]), Quiescent 7 s ∧
      (s.gws.map fun gw => gw.playerConns.load 7) = [some 1, some 1] := by
  have hfacts :
      ∃ s ∈ run step gateways second, ∃ pkt ∈ s.net, s.net = [pkt] ∧ pkt.msgID = msgIdSessionSave ∧
      ¬ KeepsOwner s.sessions ⟨pkt.msgID, some pkt.data, online.now, 0⟩ := by decide +kernel
  obtain ⟨s, hr, pkt, -, hnet, hid, hkeeps⟩ := hfacts
  exact ⟨⟨s, pkt, hr, hnet, hid, fun h => hkeeps ((announces_iff _ _).mp h)⟩, by decide +kernel⟩

end Cardwar.System.Ownership
