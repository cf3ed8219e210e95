import Cardwar.Gateway.Conns
import Cardwar.System.Exchange

/-!
# Where a player's tags come from

The tags of a player are on connections of several gateways, in a session and in
messages under way, and are copied between them. A player has only tags that a backend
gave to a connection of this player (`tags_given`), and RoomSvr is told that a player
is back in a match only if the player was given the match.
-/

namespace Cardwar.System.Provenance

open Conf Protocol Codec Sessions
open Gateway.Reconnect (Conn init send collectTags notifyRoomReconnected mem_send)
open Gateway.Conns (Posted posted given connAfter load_step)
open Gateway.Player (tagOf load_collectTags outbox_collected)
open Gateway.PlayerConns (Identified)
open SessionSvr (served)
open Exchange (playing left comesBack matched_backed)
open Run (run Along)

/-- The event is an answer of a backend that gives a connection of the player the tag. -/
def Gives (s : State) (p : Int64) (key v : String) : Event → Prop
  | .gateway g (.response msgID data up) =>
    ∃ gw c conn, s.gws[g]? = some gw ∧ gw.conns.load c = some conn ∧
      conn.auth = some p ∧ (given gw c (.response msgID data up)).load key = some v
  | _ => False

/-- Some step of the run does. -/
def Given (s : State) (es : List Event) (p : Int64) (key v : String) : Prop :=
  ∃ pre e post m, es = pre ++ e :: post ∧ run step s pre = some m ∧ Gives m p key v e

section
-- The tags a player may have.
variable (Q : Int64 → String → String → Prop)

def Within (p : Int64) (tags : Tags) : Prop := ∀ key v, tags.load key = some v → Q p key v

def ConnWithin (p : Int64) (conn : Conn) : Prop :=
  ∀ key v, conn.properties.load key = some (.string v) → Q p key v

def Held (gw : Gateway.Reconnect.State) : Prop :=
  ∀ c conn p, gw.conns.load c = some conn → conn.auth = some p → ConnWithin Q p conn

/-- Where tags of players are: on connections, in sessions, in messages between the
gateways and SessionSvr and in the notices to RoomSvr. -/
structure Traced (s : State) : Prop where
  conns : ∀ gw ∈ s.gws, Held Q gw
  sessions : ∀ p sess, s.sessions.load p = some sess → Within Q p sess.toData.connTags
  net : ∀ pkt ∈ s.net, Within Q pkt.data.playerId pkt.data.connTags
  sent : ∀ data ∈ s.sent, ∀ key ∈ syncTagKeys, ∀ v, data.connTags.load key = some v →
    Q data.playerId key v

/-- The event gives connections only such tags, and so does the session it brings. -/
structure Feeds (gw : Gateway.Reconnect.State) (ev : Gateway.Client.Event) : Prop where
  given : ∀ c conn p, gw.conns.load c = some conn → conn.auth = some p → Within Q p (given gw c ev)
  session : ∀ data up, ev = .conn (.sessionGet data up) → Within Q data.playerId data.connTags

end

section
variable {Q : Int64 → String → String → Prop}

theorem within_empty (p : Int64) : Within Q p ∅ := by
  intro key v h
  simp at h

theorem ConnWithin.collectTags (h : ConnWithin Q p conn) : Within Q p (collectTags conn) := by
  intro key v hv
  rw [load_collectTags] at hv
  split at hv
  next =>
    unfold tagOf at hv
    split at hv
    next t ht =>
      split at hv
      · cases hv
      · exact Option.some.inj hv ▸ h key t ht
    next => cases hv
  next => cases hv

theorem ConnWithin.restore (h : ConnWithin Q p conn) (htags : Within Q p tags) :
    ConnWithin Q p (conn.restore tags) := by
  intro key v hv
  rw [Conn.restore, SyncMap.load_storeAll, SyncMap.load_mapVal] at hv
  cases ht : tags.load key with
  | none =>
    rw [ht] at hv
    exact h key v hv
  | some t =>
    rw [ht] at hv
    cases hv
    exact htags key v ht

theorem connWithin_opened (q : Option Int64) : ConnWithin Q p (Gateway.Conns.opened q) := by
  intro key v hv
  cases q with
  | none => simp [Gateway.Conns.opened] at hv
  | some q =>
    simp only [Gateway.Conns.opened, Option.elim_some, SyncMap.load_store] at hv
    split at hv
    · cases hv
    · simp at hv

theorem held_step (h : Held Q gw) (hf : Feeds Q gw ev) (hs : Gateway.Client.step gw ev = some gw') :
    Held Q gw' := by
  intro c conn p hc ha
  rw [load_step hs c] at hc
  unfold connAfter at hc
  split at hc
  next d auth =>
    split at hc
    · exact Option.some.inj hc ▸ connWithin_opened auth
    · exact h c conn p hc ha
  next d up =>
    split at hc
    · cases hc
    · exact h c conn p hc ha
  next =>
    obtain ⟨old, hold, rfl⟩ := Option.map_eq_some_iff.mp hc
    exact (h c old p hold ha).restore (hf.given c old p hold ha)

theorem backend_send (h : out ∈ send up backend key msgID data) : out.backend = backend := by
  unfold send at h
  split at h
  · rw [List.mem_singleton.mp h]
  · cases h

theorem notice_posted (hp : Posted gw ev outbox) (hout : out ∈ outbox)
    (hne : out.backend ≠ svcSessionSvr) :
    ∃ data up server c, ev = .conn (.sessionGet data up) ∧ data.connTags.get tagMatchID ≠ "" ∧
      out ∈ notifyRoomReconnected up data.playerId (data.connTags.get tagMatchID) server c := by
  cases hp with
  | quiet => cases hout
  | @restored data c up hd =>
    rcases List.mem_append.mp hout with hroom | hsession
    · split at hroom
      next hm => exact ⟨data, up, _, c, rfl, hm, hroom⟩
      next => cases hroom
    · exact absurd (backend_send hsession) hne
  | asked | stopped | retried | saved | tagged => exact absurd (backend_send hout) hne

theorem notice_tags (h : out ∈ notifyRoomReconnected up q m server c) (hkey : key ∈ syncTagKeys)
    (hv : out.data.connTags.load key = some v) :
    out.data.playerId = q ∧ key = tagMatchID ∧ v = m := by
  rw [(mem_send h).2] at hv ⊢
  have hsender : key ≠ tagSenderID := fun heq => absurd (heq ▸ hkey) (by decide)
  have hplayer : key ≠ tagPlayerID := fun heq => absurd (heq ▸ hkey) (by decide)
  rw [SyncMap.load_store_ne _ _ hsender, SyncMap.load_store] at hv
  split at hv
  next hmatch => exact ⟨rfl, hmatch, (Option.some.inj hv).symm⟩
  next => simp [tag, hplayer] at hv

theorem load_of_get {tags : Tags} (h : tags.get key ≠ "") :
    tags.load key = some (tags.get key) := by
  unfold Tags.get at h ⊢
  cases hv : tags.load key with
  | none => simp [hv] at h
  | some v => rfl

theorem outbox_within (hi : Identified gw) (hb : Gateway.PlayerConns.Backed ev) (h : Held Q gw')
    (hs : Gateway.Client.step gw ev = some gw') (hout : out ∈ gw'.outbox)
    (hsvr : out.backend = svcSessionSvr) :
    Within Q out.data.playerId out.data.connTags := by
  rcases outbox_collected hi hb hs hout hsvr with htags | ⟨c, conn, hc, ha, htags⟩
  · exact htags ▸ within_empty _
  · exact htags ▸ (h c conn _ hc ha).collectTags

theorem outbox_synced (hi : Identified gw) (hb : Gateway.PlayerConns.Backed ev) (h : Held Q gw')
    (hf : Feeds Q gw ev)
    (hs : Gateway.Client.step gw ev = some gw') (hout : out ∈ gw'.outbox) (hkey : key ∈ syncTagKeys)
    (hv : out.data.connTags.load key = some v) : Q out.data.playerId key v := by
  by_cases hsvr : out.backend = svcSessionSvr
  · exact outbox_within hi hb h hs hout hsvr key v hv
  · obtain ⟨data, up, server, c, hev, hm, hnotice⟩ := notice_posted (posted hs) hout hsvr
    obtain ⟨hplayer, rfl, rfl⟩ := notice_tags hnotice hkey hv
    rw [hplayer]
    exact hf.session data up hev _ _ (load_of_get hm)

theorem traced_act (h : Traced Q s) (hsound : Sound s) (hg : s.gws[g]? = some gw)
    (hb : Gateway.PlayerConns.Backed ev)
    (hf : Feeds Q gw ev) (hs : Gateway.Client.step gw ev = some gw') :
    Traced Q (acted s g ev gw gw') := by
  have hmem := List.mem_of_getElem? hg
  have hi := hsound.identified gw hmem
  have hheld := held_step (h.conns gw hmem) hf hs
  refine ⟨fun x hx => ?_, h.sessions, fun pkt hpkt => ?_, fun data hdata key hkey v hv => ?_⟩
  · rcases List.mem_or_eq_of_mem_set hx with hx | rfl
    · exact h.conns x hx
    · exact hheld
  · rcases List.mem_append.mp hpkt with hpkt | hpkt
    · exact h.net pkt hpkt
    · obtain ⟨out, hout, hsvr, rfl⟩ := mem_uplink hpkt
      exact outbox_within hi hb hheld hs hout hsvr
  · rcases List.mem_append.mp hdata with hdata | hdata
    · exact h.sent data hdata key hkey v hv
    · obtain ⟨out, hout, rfl⟩ := List.mem_map.mp hdata
      exact outbox_synced hi hb hheld hf hs hout hkey hv

theorem traced_serve (h : Traced Q s) (hsound : Sound s)
    (hpkt : Within Q pkt.data.playerId pkt.data.connTags)
    (env : Env) : Traced Q (serve s pkt env) := by
  have hs := served s.sessions pkt.msgID pkt.data env.now 0
  -- SessionSvr sends a player's tags as that player's.
  have hanswer :
      ∀ q ∈ (SessionSvr.handle s.sessions ⟨pkt.msgID, some pkt.data, env.now, 0⟩).sent.flatMap
      (downlink s.gws.length pkt.gw s.clock env.linked),
      Within Q q.data.playerId q.data.connTags := by
    intro q hq
    have ha := answers hs hq
    rw [answers_about hsound.wellFormed ha]
    exact answers_tags within_empty h.sessions hpkt ha
  refine ⟨h.conns, served_sessions within_empty h.sessions hpkt hs, fun q hq => ?_,
    fun data hdata key hkey v hv => ?_⟩
  · rcases List.mem_append.mp hq with hq | hq
    · exact h.net q hq
    · exact hanswer q hq
  · rcases List.mem_append.mp hdata with hdata | hdata
    · exact h.sent data hdata key hkey v hv
    · obtain ⟨q, hq, rfl⟩ := List.mem_map.mp hdata
      exact hanswer q hq key v hv

theorem Traced.received (h : Traced Q s) (k : Nat) : Traced Q { s with net := s.net.eraseIdx k } :=
  ⟨h.conns, h.sessions, fun q hq => h.net q (List.mem_of_mem_eraseIdx hq), h.sent⟩

theorem feeds_local (hl : Local ev) (hg : s.gws[g]? = some gw)
    (hgives : ∀ p key v, Gives s p key v (.gateway g ev) → Q p key v) : Feeds Q gw ev where
  given c conn p hc ha := by
    intro key v hv
    cases ev with
    | response msgID data up => exact hgives p key v ⟨gw, c, conn, hg, hc, ha, hv⟩
    | conn ev =>
      cases ev with
      | sessionGet => cases hl
      | _ => simp [given] at hv
  session data up hev := by
    subst hev
    cases hl

theorem feeds_arrival (hi : Identified gw) (hpkt : Within Q pkt.data.playerId pkt.data.connTags)
    (hev : arrival pkt up = some ev) : Feeds Q gw ev := by
  rcases arrival_eq hev with ⟨rfl, -⟩ | ⟨rfl, -⟩
  · refine ⟨fun c conn p hc ha => ?_, fun data up' heq => ?_⟩
    · rw [given]
      split
      next hcond =>
        -- The connection is the player's the session is about.
        obtain ⟨conn', hc', ha'⟩ := hi.owned _ c hcond.1
        obtain rfl := Option.some.inj (hc.symm.trans hc')
        obtain rfl := Option.some.inj (ha.symm.trans ha')
        exact hpkt
      next => exact within_empty p
    · cases heq
      exact hpkt
  · exact ⟨fun c conn p _ _ => within_empty p, fun data up' heq => by cases heq⟩

theorem traced_step (h : Traced Q s) (hsound : Sound s) (hb : e.Backed)
    (hgives : ∀ p key v, Gives s p key v e → Q p key v) (hs : step s e = some s') :
    Traced Q s' := by
  obtain ⟨s₁, hnext, rfl⟩ := Option.map_eq_some_iff.mp hs
  suffices htraced : Traced Q s₁ from ⟨htraced.conns, htraced.sessions, htraced.net, htraced.sent⟩
  cases transition hnext with
  | acted hl ha =>
    obtain ⟨gw, gw', hg, hstep, rfl⟩ := act_eq ha
    exact traced_act h hsound hg hb (feeds_local hl hg hgives) hstep
  | served env hk hw =>
    exact traced_serve (h.received _) (hsound.received _) (h.net _ (List.mem_of_getElem? hk)) env
  | arrived env hk hw hev ha =>
    obtain ⟨gw, gw', hg, hstep, rfl⟩ := act_eq ha
    have hi := hsound.identified gw (List.mem_of_getElem? hg)
    exact traced_act (h.received _) (hsound.received _) hg (backed_arrival hsound hk hev)
      (feeds_arrival hi (h.net _ (List.mem_of_getElem? hk)) hev) hstep
  | ignored env hk hw hev => exact h.received _
  | expired hload hexp =>
    exact ⟨h.conns, fun q t hq => h.sessions q t (SyncMap.of_load_delete hq).2, h.net, h.sent⟩

theorem traced_fresh (ids : List String) : Traced Q (fresh ids) := by
  refine ⟨fun gw hgw c conn p hc => ?_, fun p sess h => by simp [fresh]
    at h, by simp [fresh], by simp [fresh]⟩
  obtain ⟨gwID, -, rfl⟩ := List.mem_map.mp hgw
  simp [init] at hc

end

/-- Over every run of gateways and SessionSvr, with messages that are delayed and
overtake each other: each tag a player has anywhere was given by a backend to a
connection of this player. -/
theorem tags_given (hes : ∀ e ∈ es, e.Backed) (hr : run step (fresh ids) es = some s) :
    Traced (Given (fresh ids) es) s := by
  have hgives :
      Along step (fun s e => ∀ p key v, Gives s p key v e → Given (fresh ids) es p key v)
        (fresh ids) es :=
    Run.along_of_reached fun pre e post m heq hm p key v hg => ⟨pre, e, post, m, heq, hm, hg⟩
  have ha := (Run.along_of_forall (fun e he _ => hes e he) (fresh ids)).and hgives
  refine (Run.invariant (P := fun s => Sound s ∧ Traced (Given (fresh ids) es) s)
    (fun s e s' h hok hs => ?_)
    ⟨sound_fresh ids, traced_fresh ids⟩ ha hr).2
  exact ⟨sound_step h.1 hok.1 hs, traced_step h.2 h.1 hok.1 hok.2 hs⟩

-- Player 7 is given a match at gateway 0, leaves and comes back at gateway 1.
def wentAway : List Event := playing ++ left ++ opens 1 1 ++ comesBack

theorem wentAway_given :
    ∃ s gw conn, run step (fresh ["gw-1", "gw-2"]) wentAway = some s ∧ s.gws[1]? = some gw ∧
      gw.conns.load 1 = some conn ∧ conn.properties.load tagMatchID = some (.string "m-1") ∧
      Given (fresh ["gw-1", "gw-2"]) wentAway 7 tagMatchID "m-1" := by
  have hrun : ∃ s ∈ run step (fresh ["gw-1", "gw-2"]) wentAway, ∃ gw ∈ s.gws[1]?,
      ∃ conn ∈ gw.conns.load 1,
      conn.auth = some 7 ∧ conn.properties.load tagMatchID = some (.string "m-1") := by
    decide +kernel
  obtain ⟨s, hs, gw, hg, conn, hc, ha, hm⟩ := hrun
  have hes : ∀ e ∈ wentAway, e.Backed := by
    simpa [wentAway, playing, left, comesBack, opens, asks, delivers, Event.Backed,
      Gateway.PlayerConns.Backed] using
      matched_backed
  exact ⟨s, gw, conn, hs, hg, hc, hm,
    (tags_given hes hs).conns gw (List.mem_of_getElem? hg) 1 conn 7 hc ha tagMatchID "m-1" hm⟩

-- A backend sends the only client, player 7, a tag of the name the player's id is kept under.
def renamed : List Event :=
  opens 0 1 ++ [.gateway 0 (.response msgIdMatchAllocateResp
    (marshalEnvelope 1 [] [(propPlayerID, "8"), (tagMatchID, "m-1")]) online.up), delivers 0]

/-- The match is then saved for player 8, who never connected. -/
theorem renamed_leaks :
    (∀ e ∈ renamed, ∀ g c, e ≠ .gateway g (.conn (.connStart c (some 8)))) ∧
      ∃ s ∈ run step (fresh ["gw-1"]) renamed, ∃ sess ∈ s.sessions.load 8,
        sess.toData.connTags.load tagMatchID = some "m-1" := by
  refine ⟨?_, by decide +kernel⟩
  intro e he g c heq
  subst heq
  simp [renamed, opens, delivers] at he

end Cardwar.System.Provenance
