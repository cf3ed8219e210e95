import Cardwar.Gateway.PlayerConns

/-!
# What a gateway does for one player

Seen from one player, an event at a gateway leaves everything alone or is one of
a few things: a connection of the player starts, asks SessionSvr or stops, a
message about the player arrives, a backend tags the player's connection, or a
queued disconnect is retried.
-/

namespace Cardwar.Gateway.Player

open Conf Protocol Codec Reconnect Client PlayerConns

/-- Nothing about the player changes. -/
structure Kept (p : Int64) (gw gw' : State) : Prop where
  entry : gw'.playerConns.load p = gw.playerConns.load p
  conns : ∀ c conn, conn.auth = some p →
    (gw'.conns.load c = some conn ↔ gw.conns.load c = some conn)
  asking : ∀ c, gw'.callbacks.load c = some ⟨p, none⟩ ↔ gw.callbacks.load c = some ⟨p, none⟩

structure Passive (p : Int64) (gw gw' : State) : Prop extends Kept p gw gw' where
  quiet : ∀ out ∈ gw'.outbox, out.data.playerId ≠ p

theorem Kept.of_eq (hp : gw'.playerConns = gw.playerConns) (hc : gw'.conns = gw.conns)
    (hcb : gw'.callbacks = gw.callbacks) : Kept p gw gw' :=
  ⟨by rw [hp], fun _ _ _ => by rw [hc], fun _ => by rw [hcb]⟩

inductive Turn (p : Int64) (gw : State) : Client.Event → State → Prop
  | other (hk : Passive p gw gw') : Turn p gw ev gw'
  | connStart (hc : gw.conns.load c = none) (hcb : gw.callbacks.load c = none) :
      Turn p gw (.conn (.connStart c (some p))) (connStart gw c (some p))
  | checkReconnect (up : List String) (hcb : gw.callbacks.load c = some ⟨p, none⟩) :
      Turn p gw (.conn (.checkReconnect c up)) (checkReconnect gw c p up)
  | connStop (up : List String) (hc : gw.conns.load c = some conn) (ha : conn.auth = some p) :
      Turn p gw (.conn (.connStop c up)) (connStop gw c conn up)
  | sessionGet (hp : data.playerId = p) (ha : Answered gw data up gw') :
      Turn p gw (.conn (.sessionGet data up)) gw'
  | invalidate (hp : data.playerId = p) :
      Turn p gw (.conn (.invalidate data)) (handleSessionInvalidate gw data)
  | retry (up : List String) : Turn p gw (.conn (.retry p up)) (retryDisconnect gw p up)
  | tagged (msgID : UInt32) (up : List String) (henv : decodeEnvelope data = .ok env)
      (hne : env.connTags ≠ ∅)
      (hc : gw.conns.load env.connId = some conn) (ha : conn.auth = some p) :
      Turn p gw (.response msgID data up) { gw with
        conns := gw.conns.store env.connId (conn.restore env.connTags)
        outbox := syncSessionTags gw.id (conn.restore env.connTags) up }

section Parts

variable {p : Int64}

theorem other_auth {conns : SyncMap UInt64 Conn} (hc : conns.load c = some conn)
    (hne : conn.auth ≠ some p)
    (old : Conn) (hload : conns.load c = some old) : old.auth ≠ some p := by
  rwa [← Option.some.inj (hc.symm.trans hload)]

theorem store_callbacks {callbacks : SyncMap UInt64 Callback}
    (hold : callbacks.load c ≠ some ⟨p, none⟩) (hnew : cb ≠ ⟨p, none⟩) (d : UInt64) :
    (callbacks.store c cb).load d = some ⟨p, none⟩ ↔ callbacks.load d = some ⟨p, none⟩ := by
  refine SyncMap.load_store_iff (P := (· = ⟨p, none⟩)) ?_ hnew d _ rfl
  rintro _ hload rfl
  exact hold hload

theorem delete_callbacks {callbacks : SyncMap UInt64 Callback}
    (hold : callbacks.load c ≠ some ⟨p, none⟩) (d : UInt64) :
    (callbacks.delete c).load d = some ⟨p, none⟩ ↔ callbacks.load d = some ⟨p, none⟩ := by
  refine SyncMap.load_delete_iff (P := (· = ⟨p, none⟩)) ?_ d _ rfl
  rintro _ hload rfl
  exact hold hload

theorem quiet_nil (p : Int64) : ∀ out ∈ ([] : List Out), out.data.playerId ≠ p :=
  fun _ hout => absurd hout List.not_mem_nil

theorem quiet_send (hq : data.playerId ≠ p) :
    ∀ out ∈ send up backend key msgID data, out.data.playerId ≠ p :=
  fun _ hout => (mem_send hout).2 ▸ hq

theorem quiet_restored (hq : q ≠ p) :
    ∀ out ∈ (if m ≠ "" then notifyRoomReconnected up q m server c else []) ++
      sendSession up q msgIdSessionReconnect { playerId := q, gatewayId := gwID },
      out.data.playerId ≠ p := by
  intro out hout
  rcases mem_restored hout with ⟨-, -, hplayer⟩ | ⟨-, hdata⟩
  · rwa [hplayer]
  · rwa [hdata]

end Parts

-- ---------------------------------------------------------------------------
-- One step
-- ---------------------------------------------------------------------------

theorem passive_connStart (hc : gw.conns.load c = none) (hcb : gw.callbacks.load c = none)
    (hne : auth ≠ some p) :
    Passive p gw (connStart gw c auth) := by
  have hold : ∀ old, gw.conns.load c = some old → old.auth ≠ some p := by simp [hc]
  cases auth with
  | none => exact ⟨⟨rfl, SyncMap.load_store_iff hold (by simp), fun _ => Iff.rfl⟩, quiet_nil p⟩
  | some q =>
    have hqp : q ≠ p := fun heq => hne (congrArg some heq)
    refine ⟨⟨SyncMap.load_store_ne _ _ hqp.symm, SyncMap.load_store_iff hold hne, ?_⟩, quiet_nil p⟩
    exact store_callbacks (by simp [hcb]) fun heq => hqp (congrArg Callback.player heq)

theorem passive_checkReconnect (hcb : gw.callbacks.load c = some ⟨q, none⟩) (hqp : q ≠ p)
    (up : List String) :
    Passive p gw (checkReconnect gw c q up) := by
  have hold : gw.callbacks.load c ≠ some ⟨p, none⟩ := by simpa [hcb] using hqp
  unfold checkReconnect
  split
  · exact ⟨⟨rfl, fun _ _ _ => Iff.rfl, store_callbacks hold (by simp)⟩, quiet_send hqp⟩
  · exact ⟨⟨rfl, fun _ _ _ => Iff.rfl, delete_callbacks hold⟩, quiet_nil p⟩

theorem passive_endWait (hcb : gw.callbacks.load c = some ⟨q, some ch⟩) :
    Passive p gw { endWait gw c q with pendingDisconnects := pending } :=
  ⟨⟨rfl, fun _ _ _ => Iff.rfl, delete_callbacks (by simp [hcb])⟩, quiet_nil p⟩

theorem passive_connStop (h : Identified gw) (hc : gw.conns.load c = some conn)
    (hne : conn.auth ≠ some p) (up : List String) : Passive p gw (connStop gw c conn up) := by
  have hold := other_auth hc hne
  unfold connStop
  dsimp only
  rw [h.property c conn hc]
  cases ha : conn.auth with
  | none => exact ⟨⟨rfl, SyncMap.load_delete_iff hold, fun _ => Iff.rfl⟩, quiet_nil p⟩
  | some q =>
    have hqp : q ≠ p := fun heq => hne (heq ▸ ha)
    dsimp only [Option.map_some]
    unfold markDisconnected
    split
    · exact ⟨⟨SyncMap.load_delete_ne _ hqp.symm, SyncMap.load_delete_iff hold, fun _ => Iff.rfl⟩,
        quiet_send hqp⟩
    · exact ⟨⟨SyncMap.load_delete_ne _ hqp.symm, SyncMap.load_delete_iff hold, fun _ => Iff.rfl⟩,
        quiet_nil p⟩

theorem passive_answered (h : Identified gw) (ha : Answered gw data up gw')
    (hne : data.playerId ≠ p) :
    Passive p gw gw' := by
  cases ha with
  | unknown => exact ⟨.of_eq rfl rfl rfl, quiet_nil p⟩
  | gone => exact ⟨.of_eq rfl rfl rfl, quiet_nil p⟩
  | @restored c conn hp hc hd =>
    -- The connection is the other player's.
    obtain ⟨conn', hc', ha'⟩ := h.owned _ c hp
    obtain rfl := Option.some.inj (hc.symm.trans hc')
    have hother : conn.auth ≠ some p := fun heq => hne (Option.some.inj (ha'.symm.trans heq))
    exact ⟨⟨rfl, SyncMap.load_store_iff (other_auth hc hother) hother, fun _ => Iff.rfl⟩,
      quiet_restored hne⟩
  | saved => exact ⟨.of_eq rfl rfl rfl, quiet_send hne⟩

theorem passive_invalidate (hne : data.playerId ≠ p) :
    Passive p gw (handleSessionInvalidate gw data) := by
  unfold handleSessionInvalidate
  split
  · exact ⟨.of_eq rfl rfl rfl, quiet_nil p⟩
  · exact ⟨⟨SyncMap.load_delete_ne _ hne.symm, fun _ _ _ => Iff.rfl, fun _ => Iff.rfl⟩, quiet_nil p⟩

theorem passive_retry (hne : q ≠ p) : Passive p gw (retryDisconnect gw q up) := by
  unfold retryDisconnect
  split
  · exact ⟨.of_eq rfl rfl rfl, quiet_send hne⟩
  · exact ⟨.of_eq rfl rfl rfl, quiet_nil p⟩

theorem passive_quiet : Passive p gw { gw with outbox := [] } :=
  ⟨.of_eq rfl rfl rfl, quiet_nil p⟩

theorem quiet_syncSessionTags (hprop : conn.properties.load propPlayerID = conn.auth.map .int64)
    (hne : conn.auth ≠ some p) : ∀ out ∈ syncSessionTags gwID conn up, out.data.playerId ≠ p := by
  unfold syncSessionTags
  rw [hprop]
  cases ha : conn.auth with
  | none => exact quiet_nil p
  | some q =>
    dsimp only [Option.map_some, toPlayerID]
    split
    · exact quiet_nil p
    · exact quiet_send fun heq => hne (heq ▸ ha)

theorem turn_response (h : Identified gw) (henv : decodeEnvelope data = .ok env)
    (htags : env.connTags.load propPlayerID = none) (msgID : UInt32) (up : List String)
    (p : Int64) :
    Turn p gw (.response msgID data up) (handleResponse gw msgID env up).1 := by
  unfold handleResponse
  dsimp only
  split
  · exact .other passive_quiet
  split
  · split
    next => exact .other passive_quiet
    next conn hc =>
      unfold applyConnTags
      split
      · exact .other passive_quiet
      next hne =>
        rw [htags]
        by_cases ha : conn.auth = some p
        · exact .tagged msgID up henv hne hc ha
        · have hprop : (conn.restore env.connTags).properties.load propPlayerID =
              (conn.restore env.connTags).auth.map .int64 :=
            (load_restore conn htags).trans (h.property _ conn hc)
          exact .other ⟨⟨rfl, SyncMap.load_store_iff (other_auth hc ha) ha, fun _ => Iff.rfl⟩,
            quiet_syncSessionTags hprop ha⟩
  · exact .other passive_quiet

theorem turn (h : Identified gw) (hb : Backed ev) (hs : Client.step gw ev = some gw') (p : Int64) :
    Turn p gw ev gw' := by
  cases ev with
  | response msgID data up =>
    obtain rfl := Option.some.inj hs
    unfold responseRouter
    split
    next => exact .other passive_quiet
    next env henv => exact turn_response h henv (hb env henv) msgID up p
  | conn ev =>
    cases stepped hs with
    | connStart auth hc hcb =>
      by_cases ha : auth = some p
      · subst ha
        exact .connStart hc hcb
      · exact .other (passive_connStart hc hcb ha)
    | @checkReconnect c q up hcb =>
      by_cases hq : q = p
      · subst hq
        exact .checkReconnect up hcb
      · exact .other (passive_checkReconnect hcb hq up)
    | wake hcb => exact .other (passive_endWait hcb)
    | timeout hcb => exact .other (passive_endWait hcb)
    | @connStop c conn up hc =>
      by_cases ha : conn.auth = some p
      · exact .connStop up hc ha
      · exact .other (passive_connStop h hc ha up)
    | @sessionGet data up _ ha =>
      by_cases hp : data.playerId = p
      · exact .sessionGet hp ha
      · exact .other (passive_answered h ha hp)
    | invalidate data =>
      by_cases hp : data.playerId = p
      · exact .invalidate hp
      · exact .other (passive_invalidate hp)
    | @retry q up hq =>
      by_cases hqp : q = p
      · subst hqp
        exact .retry up
      · exact .other (passive_retry hqp)

theorem connStop_player (h : Identified gw) (hc : gw.conns.load c = some conn)
    (ha : conn.auth = some p) (up : List String) :
    (connStop gw c conn up).callbacks = gw.callbacks ∧ (connStop gw c conn up).outbox =
      sendSession up p msgIdSessionDisconnect { playerId := p, gatewayId := gw.id } := by
  unfold connStop
  rw [h.property c conn hc, ha]
  simp only [Option.map_some, markDisconnected]
  split
  · exact ⟨rfl, rfl⟩
  next hup => exact ⟨rfl, by simp [sendSession, send, hup]⟩

theorem entry_turn (h : Identified gw) (ht : Turn p gw ev gw')
    (he : gw'.playerConns.load p = some c) :
    gw.playerConns.load p = some c ∨ ev = .conn (.connStart c (some p)) := by
  cases ht with
  | other hk => exact .inl (hk.entry ▸ he)
  | connStart hc hcb =>
    obtain rfl : c = _ := by simpa [connStart] using he.symm
    exact .inr rfl
  | checkReconnect up hcb =>
    unfold checkReconnect at he
    split at he <;> exact .inl he
  | connStop up hc ha =>
    rw [(connStop_maps h hc up).2, ha] at he
    simp at he
  | sessionGet hp ha => cases ha <;> exact .inl he
  | invalidate hp =>
    unfold handleSessionInvalidate at he
    split at he
    · exact .inl he
    · rw [hp, SyncMap.load_delete_self] at he
      cases he
  | retry up =>
    unfold retryDisconnect at he
    split at he <;> exact .inl he
  | tagged => exact .inl he

theorem asking_turn (h : Identified gw) (ht : Turn p gw ev gw')
    (hcb : gw'.callbacks.load c = some ⟨p, none⟩) :
    gw.callbacks.load c = some ⟨p, none⟩ ∨ ev = .conn (.connStart c (some p)) := by
  cases ht with
  | other hk => exact .inl ((hk.asking c).mp hcb)
  | @connStart d hc hcb' =>
    by_cases hd : c = d
    · exact .inr (by rw [hd])
    · exact .inl ((SyncMap.load_store_ne _ _ hd).symm.trans hcb)
  | @checkReconnect d up hd =>
    unfold checkReconnect at hcb
    split at hcb
    · rw [SyncMap.load_store] at hcb
      split at hcb
      · cases hcb
      · exact .inl hcb
    · obtain ⟨-, hcb⟩ := SyncMap.of_load_delete hcb
      exact .inl hcb
  | connStop up hc ha =>
    rw [(connStop_player h hc ha up).1] at hcb
    exact .inl hcb
  | sessionGet hp ha => cases ha <;> exact .inl hcb
  | invalidate hp =>
    unfold handleSessionInvalidate at hcb
    split at hcb <;> exact .inl hcb
  | retry up =>
    unfold retryDisconnect at hcb
    split at hcb <;> exact .inl hcb
  | tagged => exact .inl hcb

-- ---------------------------------------------------------------------------
-- The tags a gateway saves
-- ---------------------------------------------------------------------------

def tagOf (conn : Conn) (key : String) : Option String :=
  match conn.properties.load key with
  | some (.string s) => if s = "" then none else some s
  | _ => none

theorem load_collectTags (conn : Conn) (key : String) :
    (collectTags conn).load key = if key ∈ syncTagKeys then tagOf conn key else none := by
  have hstep : ∀ (tags : Tags) k, (match conn.properties.load k with
      | some (.string s) => if s = "" then tags else tags.store k s
      | _ => tags).load key = if key = k then (tagOf conn k).or (tags.load key)
        else tags.load key := by
    intro tags k
    unfold tagOf
    split
    next s hs =>
      split
      · simp
      · rw [SyncMap.load_store, Option.some_or]
    next => simp
  -- Over any list of keys, from any tags collected before.
  have hkeys :
      ∀ (keys : List String) (tags : Tags),
        (keys.foldl (fun tags k => match conn.properties.load k with
      | some (.string s) => if s = "" then tags else tags.store k s
      | _ => tags) tags).load key = if key ∈ keys then (tagOf conn key).or (tags.load key)
        else tags.load key := by
    intro keys
    induction keys with
    | nil => simp
    | cons k keys ih =>
      intro tags
      rw [List.foldl_cons, ih, hstep]
      by_cases hk : key = k
      · subst hk
        simp [← Option.or_assoc]
      · simp [hk]
  exact (hkeys syncTagKeys ∅).trans (by simp)

/-- The tags a gateway sends to SessionSvr are those it collects from a connection
of the player, or there are none. -/
theorem outbox_collected (h : Identified gw) (hb : Backed ev) (hs : Client.step gw ev = some gw')
    (hout : out ∈ gw'.outbox) (hsvr : out.backend = svcSessionSvr) :
    out.data.connTags = ∅ ∨ ∃ c conn, gw'.conns.load c = some conn ∧
      conn.auth = some out.data.playerId ∧
      out.data.connTags = collectTags conn := by
  have hbare {up : List String} {q : Int64} {msgID : UInt32} {gatewayId : String}
      (hsend : out ∈ sendSession up q msgID { playerId := q, gatewayId }) :
      out.data.connTags = ∅ := by
    rw [(mem_send hsend).2]
  cases turn h hb hs out.data.playerId with
  | other hk => exact absurd rfl (hk.quiet out hout)
  | connStart => cases hout
  | checkReconnect up hcb =>
    unfold checkReconnect at hout
    split at hout
    · exact .inl (hbare hout)
    · cases hout
  | @connStop c conn up hc ha =>
    rw [(connStop_player h hc ha up).2] at hout
    exact .inl (hbare hout)
  | sessionGet hp ha =>
    cases ha with
    | unknown => cases hout
    | gone => cases hout
    | restored hp hc hd =>
      rcases mem_restored hout with ⟨hroom, -⟩ | ⟨-, hdata⟩
      · exact absurd (hroom.symm.trans hsvr) (by decide)
      · exact .inl (by rw [hdata])
    | @saved c conn hpc hc hd =>
      obtain ⟨conn', hc', ha'⟩ := h.owned _ c hpc
      obtain rfl := Option.some.inj (hc.symm.trans hc')
      exact .inr ⟨c, conn, hc, hp ▸ ha', by rw [(mem_send hout).2]⟩
  | invalidate =>
    unfold handleSessionInvalidate at hout
    split at hout <;> cases hout
  | retry up =>
    unfold retryDisconnect at hout
    split at hout
    · exact .inl (hbare hout)
    · cases hout
  | @tagged _ env conn msgID up henv hne hc ha =>
    simp only [syncSessionTags] at hout
    split at hout
    next => cases hout
    next =>
      split at hout
      · cases hout
      · exact .inr ⟨env.connId, _, SyncMap.load_store_self _ _ _, ha, by rw [(mem_send hout).2]⟩

theorem outbox_tags (h : Identified gw) (hb : Backed ev) (hs : Client.step gw ev = some gw')
    (hout : out ∈ gw'.outbox) (hsvr : out.backend = svcSessionSvr) (hkey : key ∉ syncTagKeys) :
    out.data.connTags.load key = none := by
  rcases outbox_collected h hb hs hout hsvr with htags | ⟨c, conn, -, -, htags⟩
  · rw [htags, SyncMap.load_empty]
  · rw [htags, load_collectTags, if_neg hkey]

-- ---------------------------------------------------------------------------
-- A tag nobody sends
-- ---------------------------------------------------------------------------

/-- No session and no backend says anything about the key. -/
def Without (key : String) : Client.Event → Prop
  | .conn (.sessionGet data _) => data.connTags.load key = none
  | .response _ data _ => ∀ env, decodeEnvelope data = .ok env → env.connTags.load key = none
  | _ => True

def Untagged (key : String) (gw : State) : Prop :=
  ∀ p c conn, gw.conns.load c = some conn → conn.auth = some p → conn.properties.load key = none

theorem untagged_step (h : Identified gw) (hb : Backed ev) (hw : Without key ev)
    (hkey : key ≠ propPlayerID)
    (hu : Untagged key gw) (hs : Client.step gw ev = some gw') : Untagged key gw' := by
  intro p c conn hc ha
  cases turn h hb hs p with
  | other hk => exact hu p c conn ((hk.conns c conn ha).mp hc) ha
  | connStart =>
    simp only [connStart, SyncMap.load_store] at hc
    split at hc
    · cases hc
      simp [hkey]
    · exact hu p c conn hc ha
  | checkReconnect up hcb =>
    unfold checkReconnect at hc
    split at hc <;> exact hu p c conn hc ha
  | connStop up hc' ha' =>
    rw [(connStop_maps h hc' up).1] at hc
    obtain ⟨-, hc⟩ := SyncMap.of_load_delete hc
    exact hu p c conn hc ha
  | @sessionGet data up _ hp hans =>
    cases hans with
    | unknown => exact hu p c conn hc ha
    | gone => exact hu p c conn hc ha
    | restored hp hc' hd =>
      simp only [SyncMap.load_store] at hc
      split at hc
      · cases hc
        exact (load_restore _ hw).trans (hu p _ _ hc' ha)
      · exact hu p c conn hc ha
    | saved => exact hu p c conn hc ha
  | invalidate =>
    unfold handleSessionInvalidate at hc
    split at hc <;> exact hu p c conn hc ha
  | retry up =>
    unfold retryDisconnect at hc
    split at hc <;> exact hu p c conn hc ha
  | tagged msgID up henv hne hc' ha' =>
    simp only [SyncMap.load_store] at hc
    split at hc
    · cases hc
      exact (load_restore _ (hw _ henv)).trans (hu p _ _ hc' ha)
    · exact hu p c conn hc ha

theorem outbox_untagged (h : Identified gw) (hb : Backed ev) (hw : Without key ev)
    (hkey : key ≠ propPlayerID)
    (hu : Untagged key gw) (hs : Client.step gw ev = some gw') (hout : out ∈ gw'.outbox)
    (hsvr : out.backend = svcSessionSvr) : out.data.connTags.load key = none := by
  rcases outbox_collected h hb hs hout hsvr with htags | ⟨c, conn, hc, ha, htags⟩
  · rw [htags, SyncMap.load_empty]
  · have hprop := untagged_step h hb hw hkey hu hs _ c conn hc ha
    rw [htags, load_collectTags, tagOf, hprop, ite_self]

end Cardwar.Gateway.Player
