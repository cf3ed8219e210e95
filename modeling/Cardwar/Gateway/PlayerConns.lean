import Cardwar.Gateway.Client

/-!
# The players a gateway knows

PlayerConns has one connection for a player, the one that started last, and the
stop of any of the player's connections removes the entry. It is accurate in
every state of a run exactly if no connection stops while another one of its
player is open (`playerConns_accurate_iff`).
-/

namespace Cardwar.Gateway.PlayerConns

open Conf Protocol Codec Reconnect Client
open Run (run Along)
open Strconv (formatInt)
open Wire (Bytes)

/-- Backends and sessions have no tag of the name OnConnStart keeps the player
id under. -/
def Backed : Client.Event → Prop
  | .conn (.sessionGet data _) => data.connTags.load propPlayerID = none
  | .response _ data _ =>
    ∀ env, decodeEnvelope data = .ok env → env.connTags.load propPlayerID = none
  | _ => True

/-- Invalidations are for other gateways. -/
def ForOthers (gw : String) : Client.Event → Prop
  | .conn (.invalidate data) => data.gatewayId ≠ gw
  | _ => True

structure Identified (s : State) : Prop where
  property : ∀ c conn, s.conns.load c = some conn →
    conn.properties.load propPlayerID = conn.auth.map .int64
  owned : ∀ p c, s.playerConns.load p = some c → ∃ conn, s.conns.load c = some conn ∧
    conn.auth = some p

-- ---------------------------------------------------------------------------
-- Connections keep the identity they were opened with
-- ---------------------------------------------------------------------------

theorem load_restore (conn : Conn) (htags : tags.load key = none) :
    (conn.restore tags).properties.load key = conn.properties.load key := by
  simp [Conn.restore, SyncMap.load_storeAll, htags]

theorem Identified.store (h : Identified s) (hc : s.conns.load c = some conn)
    (hconns : s'.conns = s.conns.store c conn') (hplayers : s'.playerConns = s.playerConns)
    (hauth : conn'.auth = conn.auth)
    (hprop : conn'.properties.load propPlayerID = conn.properties.load propPlayerID) :
    Identified s' := by
  constructor
  · intro d e hd
    rw [hconns, SyncMap.load_store] at hd
    split at hd
    · cases hd
      rw [hprop, hauth]
      exact h.property c conn hc
    · exact h.property d e hd
  · intro p d hp
    rw [hplayers] at hp
    obtain ⟨e, hd, he⟩ := h.owned p d hp
    rw [hconns]
    by_cases hdc : d = c
    · subst hdc
      obtain rfl := Option.some.inj (hc.symm.trans hd)
      exact ⟨conn', SyncMap.load_store_self .., hauth.trans he⟩
    · exact ⟨e, (SyncMap.load_store_ne _ _ hdc).trans hd, he⟩

theorem Identified.congr (h : Identified s) (hconns : s'.conns = s.conns)
    (hplayers : s'.playerConns = s.playerConns) : Identified s' :=
  ⟨hconns ▸ h.property, hplayers ▸ hconns ▸ h.owned⟩

theorem identified_connStart (h : Identified s) (hc : s.conns.load c = none) (auth : Option Int64) :
    Identified (connStart s c auth) := by
  -- An entry is for an open connection, so not for the new one.
  have howned : ∀ p d, s.playerConns.load p = some d → ∃ conn, s.conns.load d = some conn ∧
      conn.auth = some p ∧ d ≠ c := by
    intro p d hp
    obtain ⟨conn, hd, ha⟩ := h.owned p d hp
    refine ⟨conn, hd, ha, ?_⟩
    rintro rfl
    simp [hc] at hd
  cases auth with
  | none =>
    constructor
    · intro d e hd
      simp only [connStart, SyncMap.load_store] at hd
      split at hd
      · cases hd
        simp
      · exact h.property d e hd
    · intro p d hp
      obtain ⟨conn, hd, ha, hne⟩ := howned p d hp
      exact ⟨conn, (SyncMap.load_store_ne _ _ hne).trans hd, ha⟩
  | some player =>
    constructor
    · intro d e hd
      simp only [connStart, SyncMap.load_store] at hd
      split at hd
      · cases hd
        simp
      · exact h.property d e hd
    · intro p d hp
      simp only [connStart, SyncMap.load_store] at hp ⊢
      split at hp
      next hpp =>
        cases hp
        exact ⟨_, if_pos rfl, by rw [hpp]⟩
      next =>
        obtain ⟨conn, hd, ha, hne⟩ := howned p d hp
        exact ⟨conn, (if_neg hne).trans hd, ha⟩

theorem conns_markDisconnected (s : State) (p : Int64) (up : List String) :
    (markDisconnected s p up).conns = s.conns ∧
      (markDisconnected s p up).playerConns = s.playerConns := by
  unfold markDisconnected
  split <;> exact ⟨rfl, rfl⟩

theorem connStop_maps (h : Identified s) (hc : s.conns.load c = some conn) (up : List String) :
    (connStop s c conn up).conns = s.conns.delete c ∧
      (connStop s c conn up).playerConns =
        match conn.auth with
        | some p => s.playerConns.delete p
        | none => s.playerConns := by
  have hprop := h.property c conn hc
  unfold connStop
  dsimp only
  rw [hprop]
  cases conn.auth with
  | none => exact ⟨rfl, rfl⟩
  | some p =>
    dsimp only [Option.map_some]
    exact conns_markDisconnected _ p up

theorem identified_connStop (h : Identified s) (hc : s.conns.load c = some conn)
    (up : List String) :
    Identified (connStop s c conn up) := by
  obtain ⟨hconns, hplayers⟩ := connStop_maps h hc up
  constructor
  · intro d e hd
    rw [hconns] at hd
    obtain ⟨-, hd⟩ := SyncMap.of_load_delete hd
    exact h.property d e hd
  · intro p d hp
    have hold : s.playerConns.load p = some d ∧ conn.auth ≠ some p := by
      rw [hplayers] at hp
      split at hp
      next q hq =>
        obtain ⟨hne, hp⟩ := SyncMap.of_load_delete hp
        exact ⟨hp, fun heq => hne (Option.some.inj (heq.symm.trans hq))⟩
      next hnone => exact ⟨hp, fun heq => by simp [hnone] at heq⟩
    obtain ⟨e, hd, he⟩ := h.owned p d hold.1
    have hdc : d ≠ c := by
      rintro rfl
      rw [hc] at hd
      cases hd
      exact hold.2 he
    rw [hconns]
    exact ⟨e, (SyncMap.load_delete_ne _ hdc).trans hd, he⟩

/-- What a step does to the connections and to PlayerConns. -/
inductive Tables (s : State) : Client.Event → State → Prop
  | kept (hconns : s'.conns = s.conns) (hplayers : s'.playerConns = s.playerConns) : Tables s ev s'
  | connStart (auth : Option Int64) (hc : s.conns.load c = none) :
      Tables s (.conn (.connStart c auth)) (connStart s c auth)
  | connStop (up : List String) (hc : s.conns.load c = some conn) :
      Tables s (.conn (.connStop c up)) (connStop s c conn up)
  | tagged (hc : s.conns.load c = some conn) (htags : tags.load propPlayerID = none)
      (hconns : s'.conns = s.conns.store c (conn.restore tags))
      (hplayers : s'.playerConns = s.playerConns) :
      Tables s ev s'
  | invalidated (hgw : data.gatewayId = s.id) (hconns : s'.conns = s.conns)
      (hplayers : s'.playerConns = s.playerConns.delete data.playerId) :
      Tables s (.conn (.invalidate data)) s'

theorem tables_response (htags : env.connTags.load propPlayerID = none) (s : State) (msgID : UInt32)
    (up : List String) : Tables s ev (handleResponse s msgID env up).1 := by
  unfold handleResponse
  dsimp only
  split
  · exact .kept rfl rfl
  split
  · split
    next => exact .kept rfl rfl
    next conn hc =>
      unfold applyConnTags
      split
      · exact .kept rfl rfl
      · exact .tagged hc htags rfl (by simp [htags])
  · exact .kept rfl rfl

theorem tables (hb : Backed ev) (hs : Client.step s ev = some s') : Tables s ev s' := by
  cases ev with
  | response msgID data up =>
    obtain rfl := Option.some.inj hs
    unfold responseRouter
    split
    next => exact .kept rfl rfl
    next env henv => exact tables_response (hb env henv) s msgID up
  | conn ev =>
    cases stepped hs with
    | connStart auth hc hcb => exact .connStart auth hc
    | checkReconnect up hcb =>
      unfold checkReconnect
      split <;> exact .kept rfl rfl
    | wake hcb => exact .kept rfl rfl
    | timeout hcb => exact .kept rfl rfl
    | connStop up hc => exact .connStop up hc
    | sessionGet ha =>
      cases ha with
      | unknown => exact .kept rfl rfl
      | gone => exact .kept rfl rfl
      | restored hp hc hd => exact .tagged hc hb rfl rfl
      | saved => exact .kept rfl rfl
    | invalidate data =>
      unfold handleSessionInvalidate
      split
      next => exact .kept rfl rfl
      next hcond =>
        simp only [not_or, not_not] at hcond
        exact .invalidated hcond.1 rfl rfl
    | retry up hq =>
      unfold retryDisconnect
      split <;> exact .kept rfl rfl

theorem identified_step (h : Identified s) (hb : Backed ev) (hs : Client.step s ev = some s') :
    Identified s' := by
  cases tables hb hs with
  | kept hconns hplayers => exact h.congr hconns hplayers
  | connStart auth hc => exact identified_connStart h hc auth
  | connStop up hc => exact identified_connStop h hc up
  | tagged hc htags hconns hplayers => exact h.store hc hconns hplayers rfl (load_restore _ htags)
  | invalidated hgw hconns hplayers =>
    refine ⟨hconns.symm ▸ h.property, fun p c hp => ?_⟩
    rw [hplayers] at hp
    obtain ⟨-, hp⟩ := SyncMap.of_load_delete hp
    exact hconns.symm ▸ h.owned p c hp

theorem identified_init (gw : String) : Identified (init gw) :=
  ⟨fun c conn h => by simp [init] at h, fun p c h => by simp [init] at h⟩

def Reached (s : State) : Prop :=
  ∃ gw es, (∀ e ∈ es, Backed e) ∧ run Client.step (init gw) es = some s

theorem identified_reached (h : Reached s) : Identified s := by
  obtain ⟨gw, es, hes, hr⟩ := h
  exact Run.invariant (fun _ _ _ hi hb hs => identified_step hi hb hs) (identified_init gw)
    (Run.along_of_forall (fun e he _ => hes e he) _) hr

theorem wrap_authenticated (h : Identified s) (hc : s.conns.load c = some conn)
    (ha : conn.auth = some p)
    (data : Bytes) :
    wrap c conn data = some (marshalEnvelope c data [(tagPlayerID, formatInt p)]) := by
  simp [wrap, h.property c conn hc, ha]

-- ---------------------------------------------------------------------------
-- Accuracy
-- ---------------------------------------------------------------------------

structure Accurate (s : State) : Prop where
  online : ∀ p, Online s.conns p → ∃ c conn, s.playerConns.load p = some c ∧
    s.conns.load c = some conn ∧ conn.auth = some p
  owned : ∀ p c, s.playerConns.load p = some c → ∃ conn, s.conns.load c = some conn ∧
    conn.auth = some p

/-- A message for a player who is online reaches one of the player's connections. -/
def Reaches (s : State) : Prop :=
  ∀ p msgID data env up, Online s.conns p → decodeEnvelope data = .ok env →
    env.connTags.get tagTargetPlayerID = formatInt p →
    ∃ c conn, s.conns.load c = some conn ∧ conn.auth = some p ∧
      (responseRouter s msgID data up).2 = {⟨c, msgID, env.data⟩}

/-- A connection stops only while no other one of its player is open. -/
def LastStops (s : State) : Client.Event → Prop
  | .conn (.connStop c _) => ∀ p c' conn conn', s.conns.load c = some conn → conn.auth = some p →
      s.conns.load c' = some conn' → conn'.auth = some p → c' = c
  | _ => True

def Listed (s : State) : Prop := ∀ p, Online s.conns p → (s.playerConns.load p).isSome

theorem accurate_of_listed (h : Identified s) (hl : Listed s) : Accurate s := by
  refine ⟨fun p hp => ?_, h.owned⟩
  obtain ⟨c, hc⟩ := Option.isSome_iff_exists.mp (hl p hp)
  obtain ⟨conn, hconn, ha⟩ := h.owned p c hc
  exact ⟨c, conn, hc, hconn, ha⟩

theorem Accurate.listed (h : Accurate s) : Listed s := by
  intro p hp
  obtain ⟨c, conn, hc, -⟩ := h.online p hp
  simp [hc]

theorem Accurate.reaches (h : Accurate s) : Reaches s := by
  intro p msgID data env up hp henv ht
  obtain ⟨c, conn, hc, hconn, ha⟩ := h.online p hp
  refine ⟨c, conn, hconn, ha, ?_⟩
  simp [responseRouter, henv, handleResponse, ht, Strconv.formatInt_ne_empty, hc, hconn]

theorem Listed.congr (h : Listed s) (hconns : s'.conns = s.conns)
    (hplayers : s'.playerConns = s.playerConns) : Listed s' := by
  intro p hp
  rw [hplayers]
  exact h p (hconns ▸ hp)

theorem Listed.store (h : Listed s) (hc : s.conns.load c = some conn)
    (hconns : s'.conns = s.conns.store c conn') (hplayers : s'.playerConns = s.playerConns)
    (hauth : conn'.auth = conn.auth) : Listed s' := by
  intro p hp
  rw [hconns] at hp
  rw [hplayers]
  rcases hp.of_store with ha | ho
  · exact h p ⟨c, conn, hc, hauth ▸ ha⟩
  · exact h p ho

theorem listed_connStart (h : Listed s) (c : UInt64) (auth : Option Int64) :
    Listed (connStart s c auth) := by
  intro p hp
  cases auth with
  | none =>
    rcases Online.of_store hp with ha | ho
    · cases ha
    · exact h p ho
  | some player =>
    simp only [connStart, SyncMap.load_store]
    split
    · rfl
    next hne =>
      rcases Online.of_store hp with ha | ho
      · exact absurd (Option.some.inj ha).symm hne
      · exact h p ho

theorem listed_connStop (hi : Identified s) (h : Listed s) (hc : s.conns.load c = some conn)
    (up : List String) :
    Listed (connStop s c conn up) ↔ LastStops s (.conn (.connStop c up)) := by
  obtain ⟨hconns, hplayers⟩ := connStop_maps hi hc up
  constructor
  · intro hl p c' conn₀ conn' hc₀ ha hc' ha'
    obtain rfl := Option.some.inj (hc.symm.trans hc₀)
    by_contra hne
    -- The other connection is still open, but the entry is gone.
    have honline : Online (connStop s c conn up).conns p := by
      rw [hconns]
      exact ⟨c', conn', (SyncMap.load_delete_ne _ hne).trans hc', ha'⟩
    have hsome := hl p honline
    simp [hplayers, ha] at hsome
  · intro hlast p hp
    rw [hconns] at hp
    have hother : conn.auth ≠ some p := by
      intro ha
      obtain ⟨c', conn', hc', ha'⟩ := hp
      obtain ⟨hne, hc'⟩ := SyncMap.of_load_delete hc'
      exact hne (hlast p c' conn conn' hc ha hc' ha')
    rw [hplayers]
    split
    next q hq =>
      have hpq : p ≠ q := fun heq => hother (heq ▸ hq)
      rw [SyncMap.load_delete_ne _ hpq]
      exact h p hp.of_delete
    next => exact h p hp.of_delete

theorem listed_step (hi : Identified s) (hb : Backed ev) (ho : ForOthers s.id ev) (h : Listed s)
    (hok : LastStops s ev) (hs : Client.step s ev = some s') : Listed s' := by
  cases tables hb hs with
  | kept hconns hplayers => exact h.congr hconns hplayers
  | connStart auth hc => exact listed_connStart h _ auth
  | connStop up hc => exact (listed_connStop hi h hc up).mpr hok
  | tagged hc htags hconns hplayers => exact h.store hc hconns hplayers rfl
  | invalidated hgw hconns hplayers => exact absurd hgw ho

theorem id_step (hs : Client.step s ev = some s') : s'.id = s.id := by
  cases ev with
  | conn ev =>
    cases stepped hs with
    | connStart auth => cases auth <;> rfl
    | checkReconnect =>
      unfold checkReconnect
      split <;> rfl
    | connStop =>
      simp only [connStop, markDisconnected]
      split
      · split <;> rfl
      · rfl
    | sessionGet ha => cases ha <;> rfl
    | invalidate =>
      unfold handleSessionInvalidate
      split <;> rfl
    | retry =>
      unfold retryDisconnect
      split <;> rfl
    | _ => rfl
  | response msgID data up =>
    obtain rfl := Option.some.inj hs
    simp only [responseRouter, handleResponse, applyConnTags]
    grind

/-- PlayerConns is accurate, and private messages reach the players online, in
every state of a run exactly if each connection that stops is the last one of
its player. -/
theorem playerConns_accurate_iff (hes : ∀ e ∈ es, Backed e ∧ ForOthers gw e) :
    (∀ pre s, pre <+: es → run Client.step (init gw) pre = some s → Accurate s ∧ Reaches s) ↔
      Along Client.step LastStops (init gw) es := by
  refine Run.reached_iff (I := fun s => Identified s ∧ s.id = gw) ?_ ?_
    ⟨identified_init gw, rfl⟩ ?_ hes
  · rintro s e s' ⟨hi, hid⟩ he hs
    exact ⟨identified_step hi he.1 hs, (id_step hs).trans hid⟩
  · rintro s e ⟨hi, rfl⟩ ⟨hacc, -⟩ ⟨hb, ho⟩
    constructor
    · intro h
      cases e with
      | response => trivial
      | conn ev =>
        cases ev with
        | connStop c up =>
          intro p c' conn conn' hc
          have hstop := h (connStop s c conn up) (by simp [Client.step, Reconnect.step, hc])
          exact (listed_connStop hi hacc.listed hc up).mp hstop.1.listed p c' conn conn' hc
        | _ => trivial
    · intro hok s' hs
      have hl := listed_step hi hb ho hacc.listed hok hs
      have haccurate := accurate_of_listed (identified_step hi hb hs) hl
      exact ⟨haccurate, haccurate.reaches⟩
  · have haccurate : Accurate (init gw) :=
      accurate_of_listed (identified_init gw) fun p hp => by simp [Online, init] at hp
    exact ⟨haccurate, haccurate.reaches⟩

-- Player 7 opens a second connection after the first one stopped.
def inTurn : List Client.Event :=
  [.conn (.connStart 1 (some 7)), .conn (.connStop 1 [svcSessionSvr]),
    .conn (.connStart 2 (some 7))]

theorem inTurn_accurate :
    ∃ s, run Client.step (init "gateway-1") inTurn = some s ∧ Online s.conns 7 ∧ Accurate s ∧
      Reaches s := by
  have hes : ∀ e ∈ inTurn, Backed e ∧ ForOthers "gateway-1" e := by simp [inTurn, Backed, ForOthers]
  have ha : Along Client.step LastStops (init "gateway-1") inTurn := by
    refine ⟨trivial, ?_⟩
    rintro _ ⟨⟩
    refine ⟨fun p c' conn conn' _ _ hload _ => ?_, ?_⟩
    · by_contra hne
      simp [connStart, init, hne] at hload
    rintro _ ⟨⟩
    exact ⟨trivial, fun _ _ => trivial⟩
  exact ⟨_, rfl, ⟨2, _, rfl, rfl⟩,
    (playerConns_accurate_iff hes).mpr ha inTurn _ (List.prefix_refl _) rfl⟩

/-- The stop of the first of two connections removes the entry of the second. -/
theorem twoConns_unlisted :
    ∃ s, run Client.step (init "gateway-1") (twoConns.map .conn) = some s ∧ Online s.conns 7 ∧
      s.playerConns.load 7 = none ∧ ¬ Accurate s := by
  refine ⟨_, rfl, ⟨2, _, rfl, rfl⟩, rfl, fun h => ?_⟩
  obtain ⟨c, conn, hc, -⟩ := h.online 7 ⟨2, _, rfl, rfl⟩
  cases hc

end Cardwar.Gateway.PlayerConns
