import Cardwar.Gateway.PlayerConns

/-!
# The open connections of a gateway

What an event leaves of a connection: it is opened, closed, or keeps its properties up
to the tags it is given by an answer of a backend or by a restored session
(`load_step`). What it makes the gateway send is said by `posted`.
-/

namespace Cardwar.Gateway.Conns

open Conf Protocol Codec Reconnect Client

/-- The tags the event gives to the connection. -/
def given (gw : State) (c : UInt64) : Client.Event → Tags
  | .response _ data _ => match decodeEnvelope data with
    | .error _ => ∅
    | .ok env =>
      if env.connTags.get tagTargetPlayerID = "" ∧ env.connId = c ∧ c ≠ 0 then env.connTags else ∅
  | .conn (.sessionGet data _) =>
    if gw.playerConns.load data.playerId = some c ∧ data.disconnectedAt ≠ 0 then data.connTags
    else ∅
  | .conn _ => ∅

def opened (auth : Option Int64) : Conn where
  auth := auth
  properties := auth.elim ∅ fun p => (∅ : SyncMap String Property).store propPlayerID (.int64 p)

def connAfter (gw : State) (c : UInt64) : Client.Event → Option Conn
  | .conn (.connStart d auth) => if c = d then some (opened auth) else gw.conns.load c
  | .conn (.connStop d _) => if c = d then none else gw.conns.load c
  | ev => (gw.conns.load c).map (·.restore (given gw c ev))

@[simp] theorem restore_empty (conn : Conn) : conn.restore ∅ = conn := by
  have hprops : conn.properties.storeAll ((∅ : Tags).mapVal .string) = conn.properties := by
    ext1 key
    simp [SyncMap.load_storeAll]
  rw [Conn.restore, hprops]

theorem load_given {gw gw' : State} (hd : gw.conns.load d = some conn)
    (hself : given gw d ev = tags)
    (hother : ∀ c, c ≠ d → given gw c ev = ∅)
    (hconns : gw'.conns = gw.conns.store d (conn.restore tags)) (c : UInt64) :
    gw'.conns.load c = (gw.conns.load c).map (·.restore (given gw c ev)) := by
  rw [hconns, SyncMap.load_store]
  split
  next heq =>
    subst heq
    rw [hd, hself, Option.map_some]
  next hne => simp [hother c hne]

theorem load_kept {gw gw' : State} (h : (gw.conns.load c).isSome → given gw c ev = ∅)
    (hconns : gw'.conns = gw.conns) :
    gw'.conns.load c = (gw.conns.load c).map (·.restore (given gw c ev)) := by
  rw [hconns]
  cases hc : gw.conns.load c with
  | none => rfl
  | some conn => simp [h (by simp [hc])]

/-- An answer of a backend gives tags to one connection, and then saves what that
connection has, or it gives tags to none. -/
inductive Responded (gw : State) (msgID : UInt32) (data : Wire.Bytes) (up : List String) :
    State → Prop
  | quiet (h : ∀ c, (gw.conns.load c).isSome → given gw c (.response msgID data up) = ∅) :
      Responded gw msgID data up { gw with outbox := [] }
  | tagged (hc : gw.conns.load c = some conn) (hgiven : given gw c (.response msgID data up) = tags)
      (hne : tags ≠ ∅)
      (hother : ∀ d, d ≠ c → given gw d (.response msgID data up) = ∅)
      (hplayers : tags.load propPlayerID = none → playerConns = gw.playerConns) :
      Responded gw msgID data up { gw with
        conns := gw.conns.store c (conn.restore tags)
        playerConns
        outbox := syncSessionTags gw.id (conn.restore tags) up }

theorem responded (gw : State) (msgID : UInt32) (data : Wire.Bytes) (up : List String) :
    Responded gw msgID data up (responseRouter gw msgID data up).1 := by
  unfold responseRouter
  split
  next herr => exact .quiet fun _ _ => by simp [given, herr]
  next env henv =>
  have hgiven : ∀ d, given gw d (.response msgID data up) =
      if env.connTags.get tagTargetPlayerID = "" ∧ env.connId = d ∧ d ≠ 0 then env.connTags
      else ∅ := by
    intro d
    rw [given, henv]
  unfold handleResponse
  dsimp only
  split
  next htarget => exact .quiet fun _ _ => by rw [hgiven, if_neg fun h => htarget h.1]
  next htarget =>
  split
  next hne =>
    split
    next hnone =>
      refine .quiet fun c hopen => ?_
      rw [hgiven, if_neg]
      rintro ⟨-, rfl, -⟩
      simp [hnone] at hopen
    next conn hconn =>
      unfold applyConnTags
      split
      next hempty => exact .quiet fun _ _ => by rw [hgiven, hempty, ite_self]
      next hsome =>
        refine .tagged hconn ?_ hsome (fun d hd => ?_) fun hnone => by rw [hnone]
        · rw [hgiven, if_pos ⟨not_not.mp htarget, rfl, hne⟩]
        · rw [hgiven, if_neg fun h => hd h.2.1.symm]
  next hzero =>
    refine .quiet fun c _ => ?_
    rw [hgiven, if_neg]
    rintro ⟨-, rfl, hne⟩
    exact hzero hne

theorem load_answered (ha : Answered gw data up gw') (c : UInt64) :
    gw'.conns.load c = (gw.conns.load c).map
      (·.restore (given gw c (.conn (.sessionGet data up)))) := by
  cases ha with
  | unknown hnone => exact load_kept (fun _ => by simp [given, hnone]) rfl
  | @gone d hp hd =>
    refine load_kept (fun hopen => ?_) rfl
    rw [given, if_neg]
    rintro ⟨hc, -⟩
    obtain rfl := Option.some.inj (hp.symm.trans hc)
    simp [hd] at hopen
  | @restored d conn hp hd hat =>
    refine load_given hd ?_ (fun e hne => ?_) rfl c
    · rw [given, if_pos ⟨hp, hat⟩]
    · rw [given, if_neg fun h => hne (Option.some.inj (h.1.symm.trans hp))]
  | saved hp hd hat => exact load_kept (fun _ => by simp [given, hat]) rfl

theorem conns_connStart (gw : State) (d : UInt64) (auth : Option Int64) :
    (connStart gw d auth).conns = gw.conns.store d (opened auth) := by
  cases auth <;> rfl

theorem conns_connStop (gw : State) (d : UInt64) (conn : Conn) (up : List String) :
    (connStop gw d conn up).conns = gw.conns.delete d := by
  unfold connStop
  dsimp only
  split
  · exact (PlayerConns.conns_markDisconnected _ _ up).1
  · rfl

theorem load_step (hs : Client.step gw ev = some gw') (c : UInt64) :
    gw'.conns.load c = connAfter gw c ev := by
  cases ev with
  | response msgID data up =>
    have hr := responded gw msgID data up
    rw [Option.some.inj hs] at hr
    cases hr with
    | quiet h => exact load_kept (h c) rfl
    | tagged hc hgiven _ hother => exact load_given hc hgiven hother rfl c
  | conn ev =>
    cases stepped hs with
    | @connStart d auth => rw [conns_connStart, SyncMap.load_store, connAfter]
    | @connStop d conn up => rw [conns_connStop, SyncMap.load_delete, connAfter]
    | sessionGet ha => exact load_answered ha c
    | checkReconnect up =>
      unfold checkReconnect
      split <;> exact load_kept (fun _ => rfl) rfl
    | wake | timeout => exact load_kept (fun _ => rfl) rfl
    | invalidate data =>
      unfold handleSessionInvalidate
      split <;> exact load_kept (fun _ => rfl) rfl
    | retry up =>
      unfold retryDisconnect
      split <;> exact load_kept (fun _ => rfl) rfl

theorem auth_step (hs : Client.step gw ev = some gw') (hc : gw'.conns.load c = some conn') :
    ev = .conn (.connStart c conn'.auth) ∨ ∃ conn, gw.conns.load c = some conn ∧
      conn.auth = conn'.auth := by
  rw [load_step hs c] at hc
  unfold connAfter at hc
  split at hc
  next d auth =>
    split at hc
    next heq =>
      cases hc
      exact .inl (by rw [heq]; rfl)
    next => exact .inr ⟨conn', hc, rfl⟩
  next d up =>
    split at hc
    next => cases hc
    next => exact .inr ⟨conn', hc, rfl⟩
  next =>
    obtain ⟨conn, hold, rfl⟩ := Option.map_eq_some_iff.mp hc
    exact .inr ⟨conn, hold, rfl⟩

theorem open_step (hs : Client.step gw ev = some gw') (hstop : ∀ up, ev ≠ .conn (.connStop c up))
    (hc : gw.conns.load c = some conn) :
    ∃ conn', gw'.conns.load c = some conn' ∧ conn'.auth = conn.auth := by
  rw [load_step hs c]
  unfold connAfter
  split
  next d auth =>
    have hconn : Reconnect.step gw (.connStart d auth) = some gw' := hs
    have hd : gw.conns.load d = none := by
      cases stepped hconn with
      | connStart _ hd => exact hd
    have hne : c ≠ d := fun heq => by rw [heq, hd] at hc; cases hc
    rw [if_neg hne]
    exact ⟨conn, hc, rfl⟩
  next d up =>
    have hne : c ≠ d := fun heq => hstop up (heq ▸ rfl)
    rw [if_neg hne]
    exact ⟨conn, hc, rfl⟩
  next =>
    rw [hc, Option.map_some]
    exact ⟨_, rfl, rfl⟩

inductive Posted (gw : State) : Client.Event → List Out → Prop
  | quiet (ev : Client.Event) : Posted gw ev []
  | asked (c : UInt64) (p : Int64) (up : List String) :
      Posted gw (.conn (.checkReconnect c up)) (sendSession up p msgIdSessionGet { playerId := p })
  | stopped (c : UInt64) (p : Int64) (up : List String) : Posted gw (.conn (.connStop c up))
      (sendSession up p msgIdSessionDisconnect { playerId := p, gatewayId := gw.id })
  | retried (p : Int64) (up : List String) : Posted gw (.conn (.retry p up))
      (sendSession up p msgIdSessionDisconnect { playerId := p, gatewayId := gw.id })
  | restored (c : UInt64) (up : List String) (hd : data.disconnectedAt ≠ 0) :
      Posted gw (.conn (.sessionGet data up))
      ((if data.connTags.get tagMatchID ≠ "" then
        notifyRoomReconnected up data.playerId (data.connTags.get tagMatchID)
          (data.connTags.get tagRoomSvrID) c
        else []) ++
      sendSession up data.playerId msgIdSessionReconnect
        { playerId := data.playerId, gatewayId := gw.id })
  | saved (conn : Conn) (up : List String) (hd : data.disconnectedAt = 0) :
      Posted gw (.conn (.sessionGet data up))
      (sendSession up data.playerId msgIdSessionSave
        { playerId := data.playerId, gatewayId := gw.id, connTags := collectTags conn })
  | tagged (msgID : UInt32) (data : Wire.Bytes) (up : List String) (p : Int64) (conn : Conn) :
      Posted gw (.response msgID data up)
        (sendSession up p msgIdSessionSave
          { playerId := p, gatewayId := gw.id, connTags := collectTags conn })

theorem posted_response (hr : Responded gw msgID data up gw') :
    Posted gw (.response msgID data up) gw'.outbox := by
  cases hr with
  | quiet => exact .quiet _
  | tagged =>
    dsimp only [syncSessionTags]
    split
    · exact .quiet _
    · split
      · exact .quiet _
      · exact .tagged msgID data up _ _

theorem posted_connStop (gw : State) (c : UInt64) (conn : Conn) (up : List String) :
    Posted gw (.conn (.connStop c up)) (connStop gw c conn up).outbox := by
  unfold connStop
  dsimp only
  split
  next p _ =>
    unfold markDisconnected
    split
    · exact .stopped c p up
    · exact .quiet _
  next => exact .quiet _

theorem posted (hs : Client.step gw ev = some gw') : Posted gw ev gw'.outbox := by
  cases ev with
  | response msgID data up =>
    exact Option.some.inj hs ▸ posted_response (responded gw msgID data up)
  | conn ev =>
    cases stepped hs with
    | connStart auth => cases auth <;> exact .quiet _
    | @checkReconnect c p up =>
      unfold checkReconnect
      split
      · exact .asked c p up
      · exact .quiet _
    | wake => exact .quiet _
    | timeout => exact .quiet _
    | connStop up => exact posted_connStop ..
    | sessionGet ha =>
      cases ha with
      | unknown => exact .quiet _
      | gone => exact .quiet _
      | @restored c conn hp hc hd => exact .restored c _ hd
      | @saved c conn hp hc hd => exact .saved conn _ hd
    | invalidate data =>
      unfold handleSessionInvalidate
      split <;> exact .quiet _
    | @retry p up =>
      unfold retryDisconnect
      split
      · exact .retried p up
      · exact .quiet _

end Cardwar.Gateway.Conns
