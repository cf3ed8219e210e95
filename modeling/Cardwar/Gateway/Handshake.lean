import Cardwar.Gateway.PlayerConns

/-!
# Which player a connection belongs to

The token of a WebSocket request is checked before the upgrade, and the player
id is left in `pendingAuths` under the request's remote address. OnConnStart
takes it from there by the address of its connection. It does not know which
request left it, nor whether the connection came from one: raw TCP connections
have the same callback.
-/

namespace Cardwar.Gateway.Handshake

open Protocol
open Reconnect (Property)
open Run (run Along)

inductive Stage
  | validated
  | failed
  | opened
  deriving DecidableEq

structure Request where
  addr : String
  player : Int64
  stage : Stage := .validated
  deriving DecidableEq

structure State where
  pendingAuths : SyncMap String Int64 := ∅
  gateway : Reconnect.State
  requests : List Request := []
  /-- The request each connection came from; a raw TCP connection has none. -/
  openedBy : SyncMap UInt64 (Option Nat) := ∅

inductive Event
  /-- The result of `ValidateJWT` for a request, or none without a token. -/
  | websocketAuth (addr : String) (playerID : Option Int64)
  | upgradeFails (r : Nat)
  | wsStart (r : Nat) (c : UInt64)
  | tcpStart (addr : String) (c : UInt64)
  | connStop (c : UInt64) (up : List String)

def start (gw : String) : State := { gateway := Reconnect.init gw }

def State.setStage (s : State) (r : Nat) (req : Request) (stage : Stage) : State :=
  { s with requests := s.requests.set r { req with stage } }

def onConnStart (s : State) (addr : String) (c : UInt64) (request : Option Nat) : Option State :=
  let (auth, pendingAuths) := s.pendingAuths.loadAndDelete addr
  (Reconnect.step s.gateway (.connStart c auth)).map fun gateway =>
    { s with pendingAuths, gateway, openedBy := s.openedBy.store c request }

def step (s : State) : Event → Option State
  | .websocketAuth _ none => some s
  | .websocketAuth addr (some playerID) => some { s with
      pendingAuths := s.pendingAuths.store addr playerID
      requests := s.requests ++ [{ addr, player := playerID }] }
  | .upgradeFails r => match s.requests[r]? with
    | some req => if req.stage = .validated then some (s.setStage r req .failed) else none
    | none => none
  | .wsStart r c => match s.requests[r]? with
    | some req =>
      if req.stage = .validated then onConnStart (s.setStage r req .opened) req.addr c (some r)
      else none
    | none => none
  | .tcpStart addr c => onConnStart s addr c none
  | .connStop c up =>
    (Reconnect.step s.gateway (.connStop c up)).map fun gateway => { s with gateway }

/-- The id under which OnConnStart keeps the connection; it stops one without. -/
def identity (s : State) (c : UInt64) : Option Property :=
  (s.gateway.conns.load c).bind fun conn => conn.properties.load propPlayerID

def proved (s : State) (c : UInt64) : Option Int64 :=
  ((s.openedBy.load c).join.bind fun r => s.requests[r]?).map Request.player

/-- A connection that is not stopped has the identity its own request proved. -/
def Authentic (s : State) : Prop :=
  ∀ c id, identity s c = some id → ∃ p, proved s c = some p ∧ id = .int64 p

def Free (s : State) (c : UInt64) : Prop :=
  s.gateway.conns.load c = none ∧ s.gateway.callbacks.load c = none

instance (s : State) (c : UInt64) : Decidable (Free s c) := by
  unfold Free
  infer_instance

/-- What `pendingAuths` has for the address of a connection that starts is its
own request's player. -/
def OwnToken (s : State) : Event → Prop
  | .wsStart r c => ∀ req, s.requests[r]? = some req → req.stage = .validated → Free s c →
      ∀ p, s.pendingAuths.load req.addr = some p → p = req.player
  | .tcpStart addr c => Free s c → s.pendingAuths.load addr = none
  | _ => True

theorem onConnStart_eq (s : State) (addr : String) (c : UInt64) (request : Option Nat) :
    onConnStart s addr c request =
      if Free s c then some { s with
        pendingAuths := s.pendingAuths.delete addr
        gateway := Reconnect.connStart s.gateway c (s.pendingAuths.load addr)
        openedBy := s.openedBy.store c request }
      else none := by
  simp only [onConnStart, SyncMap.loadAndDelete, Reconnect.step]
  split
  next hfree => exact (if_pos (c := Free s c) hfree).symm
  next hfree => exact (if_neg (c := Free s c) hfree).symm

theorem load_connStart (gw : Reconnect.State) (c d : UInt64) (auth : Option Int64) :
    ((Reconnect.connStart gw c auth).conns.load d).bind
      (fun conn => conn.properties.load propPlayerID) =
      if d = c then auth.map .int64
      else (gw.conns.load d).bind fun conn => conn.properties.load propPlayerID := by
  cases auth with
  | none =>
    simp only [Reconnect.connStart, SyncMap.load_store]
    split <;> simp
  | some p =>
    simp only [Reconnect.connStart, SyncMap.load_store]
    split <;> simp

theorem Authentic.congr {s s' : State} (h : Authentic s) (hgw : s'.gateway.conns = s.gateway.conns)
    (hopened : s'.openedBy = s.openedBy)
    (hreqs : ∀ (r : Nat) (req : Request), s.requests[r]? = some req →
      (s'.requests[r]?).map Request.player = some req.player) : Authentic s' := by
  intro c id hid
  obtain ⟨p, hp, rfl⟩ := h c id (by simpa [identity, hgw] using hid)
  refine ⟨p, ?_, rfl⟩
  obtain ⟨req, hreq, rfl⟩ := Option.map_eq_some_iff.mp hp
  obtain ⟨r, hr, hget⟩ := Option.bind_eq_some_iff.mp hreq
  rw [proved, hopened, hr, Option.bind_some, hreqs r req hget]

theorem player_set {requests : List Request} (hr : requests[r]? = some req) (stage : Stage)
    (j : Nat) :
    ((requests.set r { req with stage })[j]?).map Request.player =
      (requests[j]?).map Request.player := by
  by_cases hj : r = j
  · subst hj
    rw [List.getElem?_set_self (List.getElem?_eq_some_iff.mp hr).1, hr]
    rfl
  · rw [List.getElem?_set_ne hj]

theorem authentic_setStage {s : State} (h : Authentic s) (hr : s.requests[r]? = some req)
    (stage : Stage) :
    Authentic (s.setStage r req stage) := by
  refine h.congr rfl rfl fun j req' hj => ?_
  rw [State.setStage, player_set hr, hj, Option.map_some]

/-- A connection that starts is authentic exactly if what is left for its
address is its own request's player. -/
theorem authentic_connStart {s : State} (h : Authentic s) (addr : String) (c : UInt64)
    (request : Option Nat) :
    Authentic { s with
        pendingAuths := s.pendingAuths.delete addr
        gateway := Reconnect.connStart s.gateway c (s.pendingAuths.load addr)
        openedBy := s.openedBy.store c request } ↔
      ∀ p, s.pendingAuths.load addr = some p →
        (request.bind fun r => s.requests[r]?).map Request.player = some p := by
  unfold Authentic
  simp only [identity, proved, load_connStart, SyncMap.load_store]
  constructor
  · intro h' p hp
    obtain ⟨q, hq, hpq⟩ := h' c (.int64 p) (by simp [hp])
    rw [if_pos rfl] at hq
    exact Property.int64.inj hpq ▸ hq
  · intro hp d id hid
    split at hid
    next hd =>
      obtain ⟨p, hload, rfl⟩ := Option.map_eq_some_iff.mp hid
      refine ⟨p, ?_, rfl⟩
      rw [if_pos hd]
      exact hp p hload
    next hd =>
      simp only [hd, ↓reduceIte]
      exact h d id hid

theorem authentic_onConnStart {s : State} (h : Authentic s) (addr : String) (c : UInt64)
    (request : Option Nat) :
    (∀ s' ∈ onConnStart s addr c request, Authentic s') ↔
      (Free s c → ∀ p, s.pendingAuths.load addr = some p →
        (request.bind fun r => s.requests[r]?).map Request.player = some p) := by
  rw [onConnStart_eq]
  split
  next hfree =>
    rw [imp_iff_right hfree, ← authentic_connStart h addr c request]
    simp
  next hfree => simp [hfree]

theorem conns_connStop (gw : Reconnect.State) (c : UInt64) (conn : Reconnect.Conn)
    (up : List String) :
    (Reconnect.connStop gw c conn up).conns = gw.conns.delete c := by
  unfold Reconnect.connStop
  split
  next p _ => exact (PlayerConns.conns_markDisconnected _ p up).1
  next => rfl

theorem authentic_connStop {s : State} (h : Authentic s) (conn : Reconnect.Conn)
    (up : List String) :
    Authentic { s with gateway := Reconnect.connStop s.gateway c conn up } := by
  intro d id hid
  obtain ⟨conn', hd, hprop⟩ := Option.bind_eq_some_iff.mp hid
  rw [conns_connStop] at hd
  have hold : identity s d = some id :=
    Option.bind_eq_some_iff.mpr ⟨conn', (SyncMap.of_load_delete hd).2, hprop⟩
  exact h d id hold

theorem authentic_step {s : State} (h : Authentic s) (ev : Event) :
    (∀ s' ∈ step s ev, Authentic s') ↔ OwnToken s ev := by
  cases ev with
  | websocketAuth addr playerID =>
    refine iff_of_true (fun s' hs => ?_) trivial
    cases playerID with
    | none => exact Option.some.inj hs ▸ h
    | some p =>
      obtain rfl := Option.some.inj hs
      refine h.congr rfl rfl fun r req hr => ?_
      rw [List.getElem?_append_left (List.getElem?_eq_some_iff.mp hr).1, hr, Option.map_some]
  | upgradeFails r =>
    refine iff_of_true (fun s' hs => ?_) trivial
    simp only [step] at hs
    split at hs
    next req hr =>
      split at hs <;> cases hs
      exact authentic_setStage h hr .failed
    next => cases hs
  | wsStart r c =>
    simp only [step, OwnToken]
    cases hr : s.requests[r]? with
    | none => simp
    | some req =>
      by_cases hstage : req.stage = .validated
      · simp only [hstage, ↓reduceIte]
        rw [authentic_onConnStart (authentic_setStage h hr .opened)]
        have hplayer : ((s.setStage r req .opened).requests[r]?).map Request.player =
            some req.player := by
          rw [State.setStage, player_set hr, hr, Option.map_some]
        constructor
        · rintro h' req' heq - hfree p hp
          obtain rfl := Option.some.inj heq
          exact (Option.some.inj (hplayer.symm.trans (h' hfree p hp))).symm
        · intro h' hfree p hp
          exact hplayer.trans (congrArg some (h' req rfl hstage hfree p hp).symm)
      · simp [hstage]
  | tcpStart addr c =>
    refine (authentic_onConnStart h addr c none).trans ?_
    refine imp_congr_right fun _ => ?_
    cases s.pendingAuths.load addr <;> simp
  | connStop c up =>
    refine iff_of_true (fun s' hs => ?_) trivial
    obtain ⟨gw, hgw, rfl⟩ := Option.map_eq_some_iff.mp (Option.mem_def.mp hs)
    obtain ⟨conn, -, rfl⟩ := Option.map_eq_some_iff.mp hgw
    exact authentic_connStop h conn up

/-- Every connection of a run that is not stopped has the identity its own
request proved, exactly if no connection starts while another request's player
is left for its address. -/
theorem authentic_iff (gw : String) (evs : List Event) :
    (∀ pre s, pre <+: evs → run step (start gw) pre = some s → Authentic s) ↔
      Along step OwnToken (start gw) evs := by
  have h0 : Authentic (start gw) := fun c id hid => by simp [identity, start, Reconnect.init] at hid
  exact Run.reached_iff (I := fun _ => True) (A := fun _ => True) (fun _ _ _ _ _ _ => trivial)
    (fun _ ev _ h _ => authentic_step h ev) trivial h0 fun _ _ => trivial

theorem tcp_stopped {s : State} (h : Authentic s) (hc : s.openedBy.load c = some none) :
    identity s c = none := by
  cases hid : identity s c with
  | none => rfl
  | some id =>
    obtain ⟨p, hp, -⟩ := h c id hid
    simp [proved, hc] at hp

theorem onConnStart_identity {s : State} (hfree : Free s c)
    (hload : s.pendingAuths.load addr = some p)
    (request : Option Nat) :
    ∃ s', onConnStart s addr c request = some s' ∧ identity s' c = some (.int64 p) := by
  refine ⟨_, (onConnStart_eq s addr c request).trans (if_pos hfree), ?_⟩
  rw [identity, load_connStart, if_pos rfl, hload]
  rfl

theorem opened_identity {s : State} (hfree : Free s c) (addr : String) (p : Int64) :
    ∃ s', run step s [.websocketAuth addr (some p), .wsStart s.requests.length c] = some s' ∧
      identity s' c = some (.int64 p) := by
  let req : Request := { addr, player := p }
  let asked : State :=
    { s with pendingAuths := s.pendingAuths.store addr p, requests := s.requests ++ [req] }
  have hreq : asked.requests[s.requests.length]? = some req := List.getElem?_concat_length
  have hfree' : Free (asked.setStage s.requests.length req .opened) c := hfree
  have hload : (asked.setStage s.requests.length req .opened).pendingAuths.load addr = some p :=
    SyncMap.load_store_self ..
  obtain ⟨s', hstart, hid⟩ := onConnStart_identity hfree' hload (some s.requests.length)
  have hstep : step asked (.wsStart s.requests.length c) = some s' := by
    simp only [step, hreq]
    exact hstart
  exact ⟨s', congrArg (Option.bind · some) hstep, hid⟩

-- A token is valid, the upgrade fails, and the address is used for a raw connection.
def borrowed : List Event :=
  [.websocketAuth "10.0.0.9:4711" (some 7), .upgradeFails 0, .tcpStart "10.0.0.9:4711" 1]

/-- The raw connection is player 7. -/
theorem borrowed_identity :
    ∃ s, run step (start "gw-1") borrowed = some s ∧ s.openedBy.load 1 = some none ∧
      identity s 1 = some (.int64 7) ∧ ¬ Authentic s := by
  refine ⟨_, rfl, by decide +kernel, by decide +kernel, fun h => ?_⟩
  have hnone := tcp_stopped (c := 1) h (by decide +kernel)
  exact absurd hnone (by decide +kernel)

end Cardwar.Gateway.Handshake
