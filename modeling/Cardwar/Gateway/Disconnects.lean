import Cardwar.Gateway.Conns

/-!
# Disconnects that wait for SessionSvr

When a connection stops and SessionSvr cannot be reached, the player is queued, and
a loop retries. Here the loop takes its steps one by one: it visits an entry, sends
the disconnect and removes the entry, and other callbacks run in between. A queued
player who is not back is not forgotten, if OnConnStop runs after OnConnStart has
returned and no connection of a player stops while the loop is about to remove that
player's entry (`disconnect_not_lost`).
-/

namespace Cardwar.Gateway.Disconnects

open Conf Protocol Codec Reconnect PlayerConns
open Run (run Along)

/-- Where `retryPendingDisconnects` is. -/
inductive Retry
  | idle
  | visiting (player : Int64)
  | sent (player : Int64)
  deriving DecidableEq

structure State where
  gw : Reconnect.State
  retry : Retry := .idle
  /-- Players with a connection that stopped, and no disconnect sent since. No code
  reads this. -/
  unreported : Finset Int64 := ∅

inductive Event
  | client (ev : Client.Event)
  | retryVisit (player : Int64)
  | retrySend (up : List String)
  | retryDelete

instance (outbox : List Out) (p : Int64) : Decidable (DisconnectSent outbox p) :=
  inferInstanceAs
    (Decidable (∃ out ∈ outbox, out.msgID = msgIdSessionDisconnect ∧ out.data.playerId = p))

def stopped (gw : Reconnect.State) : Client.Event → Option Int64
  | .conn (.connStop c _) => (gw.conns.load c).bind (·.auth)
  | _ => none

def State.next (s : State) (gw : Reconnect.State) (stopped : Option Int64) : State :=
  { s with
    gw
    unreported := (s.unreported ∪ stopped.toFinset).filter fun p => ¬ DisconnectSent gw.outbox p }

@[simp] theorem next_gw (s : State) (gw : Reconnect.State) (who : Option Int64) :
    (s.next gw who).gw = gw := rfl

def step (s : State) : Event → Option State
  -- In one piece this is not what the loop does.
  | .client (.conn (.retry _ _)) => none
  | .client ev => (Client.step s.gw ev).map fun gw => s.next gw (stopped s.gw ev)
  | .retryVisit p => match s.retry, s.gw.pendingDisconnects.load p with
    | .idle, some () => some { s with retry := .visiting p }
    | _, _ => none
  | .retrySend up => match s.retry with
    | .visiting p =>
      let outbox := sendSession up p msgIdSessionDisconnect { playerId := p, gatewayId := s.gw.id }
      some { s.next { s.gw with outbox } none with
        retry := if svcSessionSvr ∈ up then .sent p else .idle }
    | _ => none
  | .retryDelete => match s.retry with
    | .sent p => some { s with
        gw := { s.gw with pendingDisconnects := s.gw.pendingDisconnects.delete p, outbox := [] }
        retry := .idle }
    | _ => none

def start (gw : String) : State := { gw := init gw }

/-- OnConnStop follows OnConnStart, and not between the two last steps of a retry for
the same player. -/
def Orderly (s : State) : Event → Prop
  | .client (.conn (.connStop c up)) => s.gw.callbacks.load c = none ∧
      (stopped s.gw (.conn (.connStop c up))).map .sent ≠ some s.retry
  | _ => True

instance (s : State) : DecidablePred (Orderly s)
  | .client (.conn (.connStop c up)) => inferInstanceAs (Decidable (s.gw.callbacks.load c = none ∧
      (stopped s.gw (.conn (.connStop c up))).map .sent ≠ some s.retry))
  | .client (.conn (.connStart _ _)) | .client (.conn (.checkReconnect _ _))
  | .client (.conn (.wake _))
  | .client (.conn (.timeout _)) | .client (.conn (.sessionGet _ _))
  | .client (.conn (.invalidate _))
  | .client (.conn (.retry _ _)) | .client (.response _ _ _) | .retryVisit _ | .retrySend _
  | .retryDelete =>
    inferInstanceAs (Decidable True)

def Event.Backed : Event → Prop
  | .client ev => PlayerConns.Backed ev
  | _ => True

def Keeps (gw gw' : Reconnect.State) : Prop :=
  ∀ c conn, gw.conns.load c = some conn → ∃ conn', gw'.conns.load c = some conn' ∧
    conn'.auth = conn.auth

theorem Keeps.of_eq (h : gw'.conns = gw.conns) : Keeps gw gw' :=
  fun _ conn hc => ⟨conn, h ▸ hc, rfl⟩

theorem Keeps.online (h : Keeps gw gw') (ho : Online gw.conns p) : Online gw'.conns p := by
  obtain ⟨c, conn, hc, ha⟩ := ho
  obtain ⟨conn', hc', ha'⟩ := h c conn hc
  exact ⟨c, conn', hc', ha'.trans ha⟩

def Started (gw : Reconnect.State) : Prop :=
  ∀ c cb, gw.callbacks.load c = some cb → ∃ conn, gw.conns.load c = some conn ∧
    conn.auth = some cb.player

theorem Started.keeps (h : Started gw) (hk : Keeps gw gw')
    (hcb : ∀ c cb, gw'.callbacks.load c = some cb → ∃ old, gw.callbacks.load c = some old ∧
      old.player = cb.player) :
    Started gw' := by
  intro c cb hload
  obtain ⟨old, hold, hp⟩ := hcb c cb hload
  obtain ⟨conn, hc, ha⟩ := h c old hold
  obtain ⟨conn', hc', ha'⟩ := hk c conn hc
  exact ⟨conn', hc', by rw [ha', ha, hp]⟩

inductive Effect (gw : Reconnect.State) : Client.Event → Reconnect.State → Prop
  | kept (hk : Keeps gw gw') (hs : Started gw → Started gw')
      (hq : gw'.pendingDisconnects = gw.pendingDisconnects) (hstop : stopped gw ev = none) :
      Effect gw ev gw'
  | woken (hcb : gw.callbacks.load c = some ⟨p, ch⟩) (hconns : gw'.conns = gw.conns)
      (hs : gw'.callbacks = gw.callbacks.delete c)
      (hq : gw'.pendingDisconnects = gw.pendingDisconnects.delete p) :
      Effect gw (.conn (.wake c)) gw'
  | stopped (up : List String) (hc : gw.conns.load c = some conn) :
      Effect gw (.conn (.connStop c up)) (connStop gw c conn up)

theorem response_kept (gw : Reconnect.State) (msgID : UInt32) (data : Wire.Bytes)
    (up : List String) :
    (Client.responseRouter gw msgID data up).1.callbacks = gw.callbacks ∧
      (Client.responseRouter gw msgID data up).1.pendingDisconnects = gw.pendingDisconnects := by
  have hr := Conns.responded gw msgID data up
  generalize (Client.responseRouter gw msgID data up).1 = gw' at hr ⊢
  cases hr with
  | quiet => exact ⟨rfl, rfl⟩
  | tagged => exact ⟨rfl, rfl⟩

theorem keeps_step (hs : Client.step gw ev = some gw')
    (hstop : ∀ c up, ev ≠ .conn (.connStop c up)) :
    Keeps gw gw' :=
  fun c _ hc => Conns.open_step hs (hstop c) hc

theorem started_of_eq (hk : Keeps gw gw') (hcb : gw'.callbacks = gw.callbacks) (h : Started gw) :
    Started gw' :=
  h.keeps hk fun _ cb hload => ⟨cb, hcb ▸ hload, rfl⟩

theorem started_delete (hk : Keeps gw gw') (hcb : gw'.callbacks = gw.callbacks.delete c)
    (h : Started gw) :
    Started gw' := by
  refine h.keeps hk fun d cb hload => ?_
  rw [hcb] at hload
  exact ⟨cb, (SyncMap.of_load_delete hload).2, rfl⟩

theorem effect (hretry : ∀ p up, ev ≠ .conn (.retry p up)) (hs : Client.step gw ev = some gw') :
    Effect gw ev gw' := by
  cases ev with
  | response msgID data up =>
    have hk := keeps_step hs (by simp)
    obtain rfl := Option.some.inj hs
    obtain ⟨hcb, hq⟩ := response_kept gw msgID data up
    exact .kept hk (started_of_eq hk hcb) hq rfl
  | conn ev =>
    cases stepped hs with
    | @connStart c auth hc hcb =>
      have hk := keeps_step hs (by simp)
      cases auth with
      | none => exact .kept hk (started_of_eq hk rfl) rfl rfl
      | some p =>
        refine .kept hk (fun h d cb hload => ?_) rfl rfl
        simp only [connStart, SyncMap.load_store] at hload ⊢
        split at hload
        next heq =>
          cases hload
          exact ⟨_, if_pos heq, rfl⟩
        next hne =>
          obtain ⟨conn, hd, ha⟩ := h d cb hload
          exact ⟨conn, (if_neg hne).trans hd, ha⟩
    | @checkReconnect c p up hcb =>
      unfold checkReconnect
      split
      next =>
        refine .kept (.of_eq rfl) (fun h => h.keeps (.of_eq rfl) fun d cb hload => ?_) rfl rfl
        rw [SyncMap.load_store] at hload
        split at hload
        next heq =>
          subst heq
          cases hload
          exact ⟨_, hcb, rfl⟩
        next => exact ⟨cb, hload, rfl⟩
      next => exact .kept (.of_eq rfl) (started_delete (.of_eq rfl) rfl) rfl rfl
    | wake hcb => exact .woken hcb rfl rfl rfl
    | timeout hcb => exact .kept (.of_eq rfl) (started_delete (.of_eq rfl) rfl) rfl rfl
    | connStop up hc => exact .stopped up hc
    | sessionGet ha =>
      have hk := keeps_step hs (by simp)
      cases ha <;> exact .kept hk (started_of_eq hk rfl) rfl rfl
    | invalidate data =>
      unfold handleSessionInvalidate
      split <;> exact .kept (.of_eq rfl) (started_of_eq (.of_eq rfl) rfl) rfl rfl
    | retry up => exact absurd rfl (hretry _ up)

structure Inv (s : State) : Prop where
  identified : Identified s.gw
  started : Started s.gw
  kept : ∀ p ∈ s.unreported, Queued s.gw p ∨ Online s.gw.conns p
  sent : ∀ p, s.retry = .sent p → p ∉ s.unreported

theorem inv_start (gw : String) : Inv (start gw) :=
  ⟨identified_init gw, by simp [Started, start, init], by simp [start], by simp [start]⟩

theorem mem_next {s : State} {gw : Reconnect.State} {who : Option Int64}
    (h : p ∈ (s.next gw who).unreported) :
    (p ∈ s.unreported ∨ p ∈ who) ∧ ¬ DisconnectSent gw.outbox p := by
  simpa [State.next] using h

theorem Inv.next_none (h : Inv s) (hi : Identified gw) (hs : Started gw)
    (hkept : ∀ p ∈ s.unreported, Queued s.gw p ∨ Online s.gw.conns p →
      Queued gw p ∨ Online gw.conns p) :
    Inv (s.next gw none) where
  identified := hi
  started := hs
  kept p hp := by
    have hold := (mem_next hp).1.resolve_right (by simp)
    exact hkept p hold (h.kept p hold)
  sent p hr hp := h.sent p hr ((mem_next hp).1.resolve_right (by simp))

theorem callbacks_connStop (gw : Reconnect.State) (c : UInt64) (conn : Conn) (up : List String) :
    (connStop gw c conn up).callbacks = gw.callbacks := by
  unfold connStop
  dsimp only
  split
  next =>
    unfold markDisconnected
    split <;> rfl
  next => rfl

theorem queued_connStop (hq : Queued gw q) (c : UInt64) (conn : Conn) (up : List String) :
    Queued (connStop gw c conn up) q := by
  unfold connStop
  dsimp only
  split
  next p _ =>
    unfold markDisconnected
    split
    · exact hq
    · simp only [Queued, SyncMap.load_store]
      split
      · rfl
      · exact hq
  next => exact hq

theorem sent_sendSession (hup : svcSessionSvr ∈ up) (p : Int64) (gatewayId : String) :
    DisconnectSent (sendSession up p msgIdSessionDisconnect { playerId := p, gatewayId }) p := by
  rw [sendSession, send, if_pos hup]
  exact ⟨_, List.mem_singleton_self _, rfl, rfl⟩

theorem connStop_reports (h : Identified gw) (hc : gw.conns.load c = some conn)
    (ha : conn.auth = some p) (up : List String) :
    DisconnectSent (connStop gw c conn up).outbox p ∨ Queued (connStop gw c conn up) p := by
  have hprop : conn.properties.load propPlayerID = some (.int64 p) := by
    rw [h.property c conn hc, ha, Option.map_some]
  simp only [connStop, hprop, markDisconnected]
  split
  next hup => exact .inl (sent_sendSession hup p gw.id)
  next => exact .inr (SyncMap.load_store_self _ _ _)

theorem inv_connStop (h : Inv s) (hc : s.gw.conns.load c = some conn)
    (hcb : s.gw.callbacks.load c = none)
    (hretry : conn.auth.map .sent ≠ some s.retry) (up : List String) :
    Inv (s.next (connStop s.gw c conn up) conn.auth) where
  identified := identified_connStop h.identified hc up
  started := by
    intro d cb hload
    rw [next_gw] at hload ⊢
    rw [callbacks_connStop] at hload
    obtain ⟨e, hd, he⟩ := h.started d cb hload
    have hne : d ≠ c := fun heq => by rw [heq, hcb] at hload; cases hload
    exact ⟨e, by rw [(connStop_maps h.identified hc up).1, SyncMap.load_delete_ne _ hne, hd], he⟩
  kept p hp := by
    obtain ⟨hmem, hnot⟩ := mem_next hp
    by_cases ha : conn.auth = some p
    · exact .inl ((connStop_reports h.identified hc ha up).resolve_left hnot)
    · have hold := hmem.resolve_right fun hm => ha hm
      rcases h.kept p hold with hq | ⟨d, e, hd, he⟩
      · exact .inl (queued_connStop hq c conn up)
      · -- The connection that keeps the player online is another one.
        have hne : d ≠ c := by
          rintro rfl
          rw [Option.some.inj (hc.symm.trans hd)] at ha
          exact ha he
        refine .inr ⟨d, e, ?_, he⟩
        rw [next_gw, (connStop_maps h.identified hc up).1, SyncMap.load_delete_ne _ hne, hd]
  sent p hr hp := by
    rcases (mem_next hp).1 with hold | hstop
    · exact h.sent p hr hold
    · have hretry' : s.retry = .sent p := hr
      exact hretry (by rw [Option.mem_def.mp hstop, hretry', Option.map_some])

theorem inv_client (h : Inv s) (ho : Orderly s (.client ev)) (hb : Backed ev)
    (hs : step s (.client ev) = some s') : Inv s' := by
  have hretry : ∀ p up, ev ≠ .conn (.retry p up) := by
    rintro p up rfl
    cases hs
  obtain ⟨gw, hgw, rfl⟩ : ∃ gw, Client.step s.gw ev = some gw ∧
    s.next gw (stopped s.gw ev) = s' := by
    unfold step at hs
    split at hs
    next => cases hs
    next heq =>
      cases heq
      exact Option.map_eq_some_iff.mp hs
    all_goals cases ‹Event.client ev = _›
  have hi := identified_step h.identified hb hgw
  cases effect hretry hgw with
  | kept hk hstarted hq hstop =>
    rw [hstop]
    refine h.next_none hi (hstarted h.started) fun p _ hp => ?_
    exact hp.imp (fun hold => by rwa [Queued, hq]) hk.online
  | @woken c p ch _ hcb hconns hcbs hq =>
    refine h.next_none hi (started_delete (.of_eq hconns) hcbs h.started) fun q _ hold => ?_
    by_cases hqp : q = p
    · subst hqp
      obtain ⟨conn, hc, ha⟩ := h.started c _ hcb
      exact .inr ⟨c, conn, hconns ▸ hc, ha⟩
    · refine hold.imp (fun hq' => ?_) fun ho => hconns ▸ ho
      rwa [Queued, hq, SyncMap.load_delete_ne _ hqp]
  | @stopped c conn up hc =>
    have hwho : Disconnects.stopped s.gw (.conn (.connStop c up)) = conn.auth := by
      simp only [Disconnects.stopped, hc, Option.bind_some]
    rw [hwho]
    exact inv_connStop h hc ho.1 (hwho ▸ ho.2) up

theorem inv_step (h : Inv s) (ho : Orderly s e) (hb : e.Backed) (hs : step s e = some s') :
    Inv s' := by
  cases e with
  | client ev => exact inv_client h ho hb hs
  | retryVisit p =>
    simp only [step] at hs
    split at hs <;> cases hs
    exact ⟨h.identified, h.started, h.kept, by simp⟩
  | retrySend up =>
    simp only [step] at hs
    split at hs <;> cases hs
    next p hr =>
      have hsame : Inv (s.next { s.gw with
          outbox := sendSession up p msgIdSessionDisconnect
            { playerId := p, gatewayId := s.gw.id } } none) :=
        h.next_none ⟨h.identified.property, h.identified.owned⟩ h.started fun _ _ hold => hold
      refine ⟨hsame.identified, hsame.started, hsame.kept, ?_⟩
      intro q hq hmem
      dsimp only at hq
      split at hq
      next hup =>
        obtain rfl := Retry.sent.inj hq
        exact (mem_next hmem).2 (sent_sendSession hup p s.gw.id)
      next => cases hq
  | retryDelete =>
    simp only [step] at hs
    split at hs <;> cases hs
    next p hr =>
      refine ⟨⟨h.identified.property, h.identified.owned⟩, h.started, fun q hq => ?_, by simp⟩
      have hne : q ≠ p := fun heq => h.sent p hr (heq ▸ hq)
      refine (h.kept q hq).imp_left fun hold => ?_
      rwa [Queued, SyncMap.load_delete_ne _ hne]

/-- A player without a connection whose disconnect was not sent since the last one
stopped is queued, and a visit sends it as soon as SessionSvr can be reached. -/
theorem disconnect_not_lost (hb : ∀ e ∈ es, e.Backed) (ha : Along step Orderly (start gw) es)
    (hr : run step (start gw) es = some s) (hp : p ∈ s.unreported) (hoff : ¬ Online s.gw.conns p) :
    Queued s.gw p ∧ (s.retry = .idle → ∀ up, svcSessionSvr ∈ up →
      ∃ s', run step s [.retryVisit p, .retrySend up] = some s' ∧
        DisconnectSent s'.gw.outbox p) := by
  have hinv : Inv s := Run.invariant (fun _ _ _ h ho hs => inv_step h ho.1 ho.2 hs) (inv_start gw)
    (ha.and (Run.along_of_forall (fun e he _ => hb e he) _)) hr
  have hq := (hinv.kept p hp).resolve_right hoff
  refine ⟨hq, fun hidle up hup => ?_⟩
  simp only [run, step, hidle]
  rw [show s.gw.pendingDisconnects.load p = some () from hq]
  exact ⟨_, rfl, sent_sendSession hup p s.gw.id⟩

-- Player 8 leaves while the disconnect of player 7 is retried.
def besideRetry : List Event :=
  [.client (.conn (.connStart 1 (some 7))), .client (.conn (.checkReconnect 1 [])),
    .client (.conn (.connStart 2 (some 8))), .client (.conn (.checkReconnect 2 [])),
    .client (.conn (.connStop 1 [])), .retryVisit 7, .retrySend [svcSessionSvr],
    .client (.conn (.connStop 2 [])), .retryDelete]

theorem offline_of_keys (h : conns.keys = ∅) (p : Int64) : ¬ Online conns p := by
  rintro ⟨c, conn, hc, -⟩
  have hmem : c ∈ conns.keys := (SyncMap.mem_keys ..).mpr (by rw [hc]; rfl)
  rw [h] at hmem
  cases hmem

theorem besideRetry_queued :
    ∃ s, run step (start "gateway-1") besideRetry = some s ∧ Queued s.gw 8 := by
  have hrun : ∃ s ∈ run step (start "gateway-1") besideRetry, 8 ∈ s.unreported ∧
      s.gw.conns.keys = ∅ := by
    decide +kernel
  obtain ⟨s, hs, hmem, hkeys⟩ := hrun
  have hb : ∀ e ∈ besideRetry, e.Backed := by simp [besideRetry, Event.Backed, Backed]
  exact ⟨s, hs, (disconnect_not_lost hb (by decide +kernel) hs hmem (offline_of_keys hkeys 8)).1⟩

-- Player 7 comes back and leaves again before the retry removes the entry.
def duringRetry : List Event :=
  [.client (.conn (.connStart 1 (some 7))), .client (.conn (.checkReconnect 1 [])),
    .client (.conn (.connStop 1 [])), .retryVisit 7, .retrySend [svcSessionSvr],
    .client (.conn (.connStart 2 (some 7))), .client (.conn (.checkReconnect 2 [])),
    .client (.conn (.connStop 2 [])), .retryDelete]

-- The connection stops while its OnConnStart waits for the session.
def duringStart : List Event :=
  [.client (.conn (.connStart 1 (some 7))), .client (.conn (.checkReconnect 1 [svcSessionSvr])),
    .client (.conn (.connStop 1 [])), .client (.conn (.sessionGet { playerId := 7 } [])),
    .client (.conn (.wake 1))]

/-- SessionSvr is never told that the player is gone. -/
theorem disconnect_lost {es : List Event} (h : es = duringRetry ∨ es = duringStart) :
    ∃ s, run step (start "gateway-1") es = some s ∧ 7 ∈ s.unreported ∧ ¬ Online s.gw.conns 7 ∧
      ¬ Queued s.gw 7 := by
  have hrun : ∃ s ∈ run step (start "gateway-1") es, 7 ∈ s.unreported ∧ s.gw.conns.keys = ∅ ∧
      s.gw.pendingDisconnects.load 7 = none := by
    rcases h with rfl | rfl <;> decide +kernel
  obtain ⟨s, hs, hmem, hkeys, hnone⟩ := hrun
  exact ⟨s, hs, hmem, offline_of_keys hkeys 7, by simp [Queued, hnone]⟩

end Cardwar.Gateway.Disconnects
