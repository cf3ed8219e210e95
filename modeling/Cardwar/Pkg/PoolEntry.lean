import Cardwar.Conf
import Cardwar.Lib.Run
import Cardwar.Lib.SyncMap

/-!
# One entry of a backend pool

An entry owns one connection at a time. A drop is reported by OnConnStop, which
starts `reconnectLoop` unless one is running; the loop dials, and the new
connection reaches it through a channel with one slot: OnConnStart puts the
connection there, OnConnStop puts nil there if the slot is free. A dial attempt
has one client and at most one connection, so a connection is named by its
attempt.

The sections under the entry's mutex are single steps, and so are the channel
operations. `live_or_reconnecting` needs that a connection does not drop between
its OnConnStart and the moment the loop stores it.
-/

namespace Cardwar.Pkg

open Conf (ServerNode)
open Run (run Along)

inductive Kind
  | dial (serverID : String)
  | add (serverID : String)
  | loop
  deriving DecidableEq

/-- What OnConnStart sets as the connection's `server_id`. -/
def Kind.serverID : Kind → Option String
  | .dial id => some id
  | .add id => some id
  | .loop => none

inductive Phase
  | dialing
  | live
  | dropped
  deriving DecidableEq

/-- `connCh`: a connection or nil, or nothing. -/
inductive Slot
  | empty
  | conn
  | nil
  deriving DecidableEq

structure Attempt where
  kind : Kind
  phase : Phase := .dialing
  /-- The `server_id` property of its connection. -/
  serverID : Option String := none
  slot : Slot := .empty
  /-- OnConnStop has still to send nil. -/
  nilPending : Bool := false
  stopRequested : Bool := false
  deriving DecidableEq

inductive Pc
  | sleeping
  | waiting (k : Nat)
  | received (k : Nat)
  | failed
  deriving DecidableEq

structure Entry where
  addr : String
  conn : Option Nat := none
  healthy : Bool := false
  stopped : Bool := false
  /-- In milliseconds. -/
  backoff : Nat
  reconnecting : Bool := false
  failLogged : Bool := false
  attempts : SyncMap Nat Attempt
  nextAttempt : Nat := 1
  loops : SyncMap Nat Pc := ∅
  nextLoop : Nat := 0

def reconnectInitBackoff : Nat := 200
def reconnectMaxBackoff : Nat := 5000

def dialing (srv : ServerNode) : Entry :=
  { addr := srv.listen, backoff := 1000,
    attempts := (∅ : SyncMap Nat Attempt).store 0 { kind := .dial srv.id } }

def adding (srv : ServerNode) : Entry :=
  { addr := srv.listen, backoff := reconnectInitBackoff,
    attempts := (∅ : SyncMap Nat Attempt).store 0 { kind := .add srv.id } }

inductive Event
  | connStart (k : Nat)
  /-- `SetProperty`, which OnConnStart calls after its section. -/
  | setServerID (k : Nat)
  | connStop (k : Nat)
  | nilSend (k : Nat)
  /-- `Dial`'s pass over the entries that did not connect in time. -/
  | onDisconnect
  | addTimeout
  | dial (l : Nat)
  | recv (l : Nat)
  | timeout (l : Nat)
  | install (l : Nat)
  | fail (l : Nat)
  /-- `RemoveServer` or `Close`. -/
  | stop

-- ---------------------------------------------------------------------------
-- The steps
-- ---------------------------------------------------------------------------

def onDisconnect (e : Entry) : Entry :=
  if e.reconnecting || e.stopped then { e with healthy := false, conn := none }
  else { e with
    healthy := false
    conn := none
    reconnecting := true
    loops := e.loops.store e.nextLoop .sleeping
    nextLoop := e.nextLoop + 1 }

def setAttempt (e : Entry) (k : Nat) (a : Attempt) : Entry :=
  { e with attempts := e.attempts.store k a }

def setLoop (e : Entry) (l : Nat) (pc : Pc) : Entry := { e with loops := e.loops.store l pc }

/-- OnConnStart, which differs between the three callers, up to the end of its
section. The loop's one blocks while the slot is taken. -/
def connStart (e : Entry) (k : Nat) (a : Attempt) : Option Entry :=
  match a.kind with
  | .dial _ =>
    some { setAttempt e k { a with phase := .live } with conn := some k, healthy := true }
  | .add _ =>
    let e := setAttempt e k { a with phase := .live }
    some (if e.stopped then e else { e with conn := some k, healthy := true })
  | .loop =>
    if a.slot = .empty then some (setAttempt e k { a with phase := .live, slot := .conn }) else none

/-- The connection may have dropped by now. -/
def setServerID (e : Entry) (k : Nat) (a : Attempt) : Option Entry :=
  if a.phase ≠ .dialing ∧ a.serverID = none then
    a.kind.serverID.map fun id => setAttempt e k { a with serverID := some id }
  else none

def connStop (e : Entry) (k : Nat) (a : Attempt) : Entry :=
  onDisconnect (setAttempt e k { a with phase := .dropped, nilPending := a.kind = .loop })

def nilSend (e : Entry) (k : Nat) (a : Attempt) : Entry :=
  setAttempt e k { a with nilPending := false, slot := if a.slot = .empty then .nil else a.slot }

def requestStop (e : Entry) (k : Nat) : Entry :=
  match e.attempts.load k with
  | none => e
  | some a => setAttempt e k { a with stopRequested := true }

def dial (e : Entry) (l : Nat) : Entry :=
  { setLoop (setAttempt e e.nextAttempt { kind := .loop }) l (.waiting e.nextAttempt) with
    nextAttempt := e.nextAttempt + 1 }

/-- The section after a connection was received. The connection is not looked
at again, and gets no `server_id`. -/
def install (e : Entry) (l k : Nat) : Entry :=
  { e with
    conn := some k
    healthy := true
    backoff := reconnectInitBackoff
    reconnecting := false
    failLogged := false
    loops := e.loops.delete l }

def fail (e : Entry) (l : Nat) : Entry :=
  if e.stopped then { e with loops := e.loops.delete l }
  else { setLoop e l .sleeping with
    failLogged := true
    backoff := if e.backoff < reconnectMaxBackoff then e.backoff * 2 else e.backoff }

def stop (e : Entry) : Entry :=
  match e.conn with
  | none => { e with stopped := true }
  | some k => { requestStop e k with stopped := true }

def step (e : Entry) : Event → Option Entry
  | .connStart k => match e.attempts.load k with
    | some a => if a.phase = .dialing then connStart e k a else none
    | none => none
  | .setServerID k => match e.attempts.load k with
    | some a => setServerID e k a
    | none => none
  | .connStop k => match e.attempts.load k with
    | some a => if a.phase = .live then some (connStop e k a) else none
    | none => none
  | .nilSend k => match e.attempts.load k with
    | some a => if a.nilPending then some (nilSend e k a) else none
    | none => none
  | .onDisconnect => some (onDisconnect e)
  | .addTimeout => match e.attempts.load 0 with
    | some ⟨.add _, _, _, _, _, _⟩ => some { requestStop e 0 with stopped := true }
    | _ => none
  | .dial l => match e.loops.load l with
    | some .sleeping => some (dial e l)
    | _ => none
  | .recv l => match e.loops.load l with
    | some (.waiting k) => match e.attempts.load k with
      | some a => match a.slot with
        | .conn => some (setLoop (setAttempt e k { a with slot := .empty }) l (.received k))
        | .nil => some (setLoop (setAttempt e k { a with slot := .empty }) l .failed)
        | .empty => none
      | none => none
    | _ => none
  | .timeout l => match e.loops.load l with
    | some (.waiting k) => some (setLoop (requestStop e k) l .failed)
    | _ => none
  | .install l => match e.loops.load l with
    | some (.received k) => some (install e l k)
    | _ => none
  | .fail l => match e.loops.load l with
    | some .failed => some (fail e l)
    | _ => none
  | .stop => some (stop e)

/-- The steps of an entry, one constructor for each thing that can happen. -/
inductive Stepped (e : Entry) : Event → Entry → Prop
  | startDial (hk : e.attempts.load k = some a) (hp : a.phase = .dialing)
      (hkind : a.kind = .dial sid) :
      Stepped e (.connStart k)
        { setAttempt e k { a with phase := .live } with conn := some k, healthy := true }
  | startAdd (hk : e.attempts.load k = some a) (hp : a.phase = .dialing) (hkind : a.kind = .add sid)
      (hstop : e.stopped = false) :
      Stepped e (.connStart k)
        { setAttempt e k { a with phase := .live } with conn := some k, healthy := true }
  | startStopped (hk : e.attempts.load k = some a) (hp : a.phase = .dialing)
      (hkind : a.kind = .add sid)
      (hstop : e.stopped = true) :
      Stepped e (.connStart k) (setAttempt e k { a with phase := .live })
  | startLoop (hk : e.attempts.load k = some a) (hp : a.phase = .dialing) (hkind : a.kind = .loop) :
      Stepped e (.connStart k) (setAttempt e k { a with phase := .live, slot := .conn })
  | setServerID (hk : e.attempts.load k = some a) (hp : a.phase ≠ .dialing)
      (hnone : a.serverID = none) (hkind : a.kind.serverID = some sid) :
      Stepped e (.setServerID k) (setAttempt e k { a with serverID := some sid })
  | connStop (hk : e.attempts.load k = some a) (hp : a.phase = .live) :
      Stepped e (.connStop k) (connStop e k a)
  | nilSend (hk : e.attempts.load k = some a) : Stepped e (.nilSend k) (nilSend e k a)
  | onDisconnect : Stepped e .onDisconnect (onDisconnect e)
  | addTimeout : Stepped e .addTimeout { requestStop e 0 with stopped := true }
  | dial (hl : e.loops.load l = some .sleeping) : Stepped e (.dial l) (dial e l)
  | recvConn (hl : e.loops.load l = some (.waiting k)) (hk : e.attempts.load k = some a)
      (hslot : a.slot = .conn) :
      Stepped e (.recv l) (setLoop (setAttempt e k { a with slot := .empty }) l (.received k))
  | recvNil (hl : e.loops.load l = some (.waiting k)) (hk : e.attempts.load k = some a) :
      Stepped e (.recv l) (setLoop (setAttempt e k { a with slot := .empty }) l .failed)
  | timeout (hl : e.loops.load l = some (.waiting k)) :
      Stepped e (.timeout l) (setLoop (requestStop e k) l .failed)
  | install (hl : e.loops.load l = some (.received k)) : Stepped e (.install l) (install e l k)
  | fail (hl : e.loops.load l = some .failed) : Stepped e (.fail l) (fail e l)
  | stop : Stepped e .stop (stop e)

theorem stepped_connStart (hk : e.attempts.load k = some a) (hp : a.phase = .dialing)
    (hs : connStart e k a = some e') : Stepped e (.connStart k) e' := by
  unfold connStart at hs
  split at hs
  next sid hkind =>
    cases hs
    exact .startDial hk hp hkind
  next sid hkind =>
    cases hs
    cases hstop : e.stopped with
    | false => simpa [setAttempt, hstop] using Stepped.startAdd hk hp hkind hstop
    | true => simpa [setAttempt, hstop] using Stepped.startStopped hk hp hkind hstop
  next hkind =>
    split at hs <;> cases hs
    exact .startLoop hk hp hkind

theorem stepped (hs : step e ev = some e') : Stepped e ev e' := by
  cases ev <;> simp only [step] at hs
  case connStart k =>
    split at hs
    next a hk =>
      split at hs
      next hp => exact stepped_connStart hk hp hs
      next => cases hs
    next => cases hs
  case setServerID k =>
    split at hs
    next a hk =>
      unfold setServerID at hs
      split at hs
      next hp =>
        obtain ⟨sid, hkind, rfl⟩ := Option.map_eq_some_iff.mp hs
        exact .setServerID hk hp.1 hp.2 hkind
      next => cases hs
    next => cases hs
  case connStop k =>
    split at hs
    next a hk =>
      split at hs <;> cases hs
      next hp => exact .connStop hk hp
    next => cases hs
  case nilSend k =>
    split at hs
    next a hk =>
      split at hs <;> cases hs
      exact .nilSend hk
    next => cases hs
  case onDisconnect => exact Option.some.inj hs ▸ .onDisconnect
  case addTimeout =>
    split at hs <;> cases hs
    exact .addTimeout
  case dial l =>
    split at hs <;> cases hs
    next hl => exact .dial hl
  case recv l =>
    split at hs
    next k hl =>
      split at hs
      next a hk =>
        split at hs <;> cases hs
        next hslot => exact .recvConn hl hk hslot
        next => exact .recvNil hl hk
      next => cases hs
    next => cases hs
  case timeout l =>
    split at hs <;> cases hs
    next k hl => exact .timeout hl
  case install l =>
    split at hs <;> cases hs
    next k hl => exact .install hl
  case fail l =>
    split at hs <;> cases hs
    next hl => exact .fail hl
  case stop => exact Option.some.inj hs ▸ .stop

/-- The entry as `Dial` or `AddServer` leaves it: connected or timed out. -/
def Opened (srv : ServerNode) (e : Entry) : Prop :=
  run step (dialing srv) [.connStart 0, .setServerID 0] = some e ∨
    step (dialing srv) .onDisconnect = some e ∨
    run step (adding srv) [.connStart 0, .setServerID 0] = some e ∨
    step (adding srv) .addTimeout = some e

def Has (Q : Phase → Prop) (e : Entry) (k : Nat) : Prop :=
  ∃ a, e.attempts.load k = some a ∧ Q a.phase

abbrev Live : Entry → Nat → Prop := Has (· = .live)

/-- The connection is on its way from OnConnStart to a reconnect loop. -/
def InHandover (e : Entry) (k : Nat) : Prop :=
  ∃ l, e.loops.load l = some (.received k) ∨
    e.loops.load l = some (.waiting k) ∧ ∃ a, e.attempts.load k = some a ∧ a.slot = .conn

def NoDropInHandover (e : Entry) : Event → Prop
  | .connStop k => ¬ InHandover e k
  | _ => True

-- ---------------------------------------------------------------------------
-- Where connections come from
-- ---------------------------------------------------------------------------

-- `Q` holds of every connection the entry has or is about to get. It is about
-- phases, so only the three callbacks matter.
structure Tracks (Q : Phase → Prop) (e : Entry) : Prop where
  fresh : ∀ k a, e.attempts.load k = some a → k < e.nextAttempt
  conn : ∀ k, e.conn = some k → Has Q e k
  handover : ∀ k, InHandover e k → Has Q e k

section
variable {Q : Phase → Prop}

theorem has_setAttempt : Has Q (setAttempt e k a) j ↔ if j = k then Q a.phase else Has Q e j := by
  unfold Has setAttempt
  simp only [SyncMap.load_store]
  split
  next => simp
  next => rfl

theorem Tracks.setAttempt (h : Tracks Q e) (hk : e.attempts.load k = some a)
    (hphase : Q a.phase → Q a'.phase) (hslot : a'.slot = .conn → Q a'.phase ∨ a.slot = .conn) :
    Tracks Q (setAttempt e k a') := by
  have hhas : ∀ j, Has Q e j → Has Q (Pkg.setAttempt e k a') j := by
    rintro j ⟨b, hb, hq⟩
    rw [has_setAttempt]
    split
    next hjk =>
      subst hjk
      rw [hk] at hb
      cases hb
      exact hphase hq
    next => exact ⟨b, hb, hq⟩
  refine ⟨?_, fun j hj => hhas j (h.conn j hj), ?_⟩
  · intro j b hb
    rw [Pkg.setAttempt, SyncMap.load_store] at hb
    split at hb
    next hjk => exact hjk ▸ h.fresh k a hk
    next => exact h.fresh j b hb
  · rintro j ⟨l, hl | ⟨hl, b, hb, hbs⟩⟩
    · exact hhas j (h.handover j ⟨l, .inl hl⟩)
    · rw [Pkg.setAttempt, SyncMap.load_store] at hb
      split at hb
      next hjk =>
        cases hb
        subst hjk
        rcases hslot hbs with hq | hs
        · rw [has_setAttempt, if_pos rfl]
          exact hq
        · exact hhas j (h.handover j ⟨l, .inr ⟨hl, a, hk, hs⟩⟩)
      next => exact hhas j (h.handover j ⟨l, .inr ⟨hl, b, hb, hbs⟩⟩)

theorem Tracks.setConn (h : Tracks Q e) (hk : Has Q e k) :
    Tracks Q { e with conn := some k, healthy := true } :=
  ⟨h.fresh, fun _ hj => Option.some.inj hj ▸ hk, h.handover⟩

theorem Tracks.setLoops (h : Tracks Q e)
    (hloops : ∀ k, InHandover { e with loops } k → InHandover e k ∨ Has Q e k) :
    Tracks Q { e with loops } :=
  ⟨h.fresh, h.conn, fun k hk => (hloops k hk).elim (h.handover k) id⟩

theorem Tracks.setLoop (h : Tracks Q e) (hreceived : ∀ k, pc = .received k → Has Q e k)
    (hwaiting : ∀ k, pc ≠ .waiting k) : Tracks Q (setLoop e l pc) := by
  refine h.setLoops fun k hk => ?_
  obtain ⟨j, hj | ⟨hj, hslot⟩⟩ := hk
  · rw [SyncMap.load_store] at hj
    split at hj
    · exact .inr (hreceived k (Option.some.inj hj))
    · exact .inl ⟨j, .inl hj⟩
  · rw [SyncMap.load_store] at hj
    split at hj
    · exact absurd (Option.some.inj hj) (hwaiting k)
    · exact .inl ⟨j, .inr ⟨hj, hslot⟩⟩

theorem Tracks.deleteLoop (h : Tracks Q e) : Tracks Q { e with loops := e.loops.delete l } := by
  refine h.setLoops fun k hk => .inl ?_
  obtain ⟨j, hj⟩ := hk
  have hjl : j ≠ l := by
    rintro rfl
    simp at hj
  exact ⟨j, by simpa [hjl] using hj⟩

theorem tracks_onDisconnect (hfresh : ∀ k a, e.attempts.load k = some a → k < e.nextAttempt)
    (hhandover : ∀ k, InHandover e k → Has Q e k) : Tracks Q (onDisconnect e) := by
  have hforget : Tracks Q { e with healthy := false, conn := none } :=
    ⟨hfresh, fun _ hj => (by cases hj), hhandover⟩
  unfold onDisconnect
  split
  next => exact hforget
  next =>
    have hnew : Tracks Q (setLoop { e with healthy := false, conn := none } e.nextLoop .sleeping) :=
      hforget.setLoop (fun _ hp => by cases hp) fun _ hp => by cases hp
    exact ⟨hnew.fresh, hnew.conn, hnew.handover⟩

theorem tracks_connStop (h : Tracks Q e) (hk : e.attempts.load k = some a)
    (hok : Q .dropped ∨ ¬ InHandover e k) : Tracks Q (connStop e k a) := by
  refine tracks_onDisconnect (fun j b hb => ?_) fun j hj => ?_
  · rw [setAttempt, SyncMap.load_store] at hb
    split at hb
    next hjk => exact hjk ▸ h.fresh k a hk
    next => exact h.fresh j b hb
  · -- The slot of the dropped connection is as it was.
    have hold : InHandover e j := by
      obtain ⟨l, hl | ⟨hl, b, hb, hslot⟩⟩ := hj
      · exact ⟨l, .inl hl⟩
      · rw [setAttempt, SyncMap.load_store] at hb
        split at hb
        next hjk =>
          cases hb
          subst hjk
          exact ⟨l, .inr ⟨hl, a, hk, hslot⟩⟩
        next => exact ⟨l, .inr ⟨hl, b, hb, hslot⟩⟩
    rw [has_setAttempt]
    split
    next hjk => exact hok.resolve_right fun hnot => hnot (hjk ▸ hold)
    next => exact h.handover j hold

theorem tracks_requestStop (h : Tracks Q e) : Tracks Q (requestStop e k) := by
  unfold requestStop
  split
  next => exact h
  next a ha => exact h.setAttempt ha id .inr

theorem tracks_started (hlive : Q .live) (h : Tracks Q e) (hk : e.attempts.load k = some a) :
    Tracks Q { setAttempt e k { a with phase := .live } with conn := some k, healthy := true } := by
  have hset : Tracks Q (setAttempt e k { a with phase := .live }) :=
    h.setAttempt hk (fun _ => hlive) fun _ => .inl hlive
  refine hset.setConn ?_
  rw [has_setAttempt, if_pos rfl]
  exact hlive

theorem tracks_dial (h : Tracks Q e) : Tracks Q (dial e l) := by
  have hnew : ∀ k a, e.attempts.load k = some a → k ≠ e.nextAttempt :=
    fun k a hk => Nat.ne_of_lt (h.fresh k a hk)
  have hhas : ∀ k, Has Q e k → Has Q (dial e l) k := by
    rintro k ⟨a, ha, hp⟩
    exact ⟨a, by simp [dial, setLoop, setAttempt, hnew k a ha, ha], hp⟩
  refine ⟨?_, fun k hk => hhas k (h.conn k hk), ?_⟩
  · intro k a hk
    simp only [dial, setLoop, setAttempt, SyncMap.load_store] at hk ⊢
    split at hk
    next heq => exact heq ▸ Nat.lt_succ_self _
    next => exact Nat.lt_succ_of_lt (h.fresh k a hk)
  · rintro k ⟨j, hj | ⟨hj, a, ha, hslot⟩⟩
    · simp only [dial, setLoop, setAttempt, SyncMap.load_store] at hj
      split at hj
      · cases hj
      · exact hhas k (h.handover k ⟨j, .inl hj⟩)
    · simp only [dial, setLoop, setAttempt, SyncMap.load_store] at hj ha
      -- The new attempt's slot is empty.
      split at ha
      · cases ha
        cases hslot
      next hne =>
        split at hj
        · cases hj
          exact absurd rfl hne
        · exact hhas k (h.handover k ⟨j, .inr ⟨hj, a, ha, hslot⟩⟩)

theorem tracks_emptied (h : Tracks Q e) (hk : e.attempts.load k = some a) :
    Tracks Q (setAttempt e k { a with slot := .empty }) :=
  h.setAttempt hk id fun hslot => by cases hslot

theorem tracks_recv (h : Tracks Q e) (hl : e.loops.load l = some (.waiting k))
    (hk : e.attempts.load k = some a) (hslot : a.slot = .conn) :
    Tracks Q (setLoop (setAttempt e k { a with slot := .empty }) l (.received k)) := by
  refine (tracks_emptied h hk).setLoop (fun j hj => ?_) fun _ hp => by cases hp
  cases hj
  obtain ⟨b, hb, hq⟩ := h.handover k ⟨l, .inr ⟨hl, a, hk, hslot⟩⟩
  rw [hk] at hb
  cases hb
  rw [has_setAttempt, if_pos rfl]
  exact hq

/-- One step. A drop must leave `Q` true of the connection, or meet it outside
a hand-over. -/
theorem tracks_step (hlive : Q .live) (h : Tracks Q e)
    (hok : ∀ k, ev = .connStop k → Q .dropped ∨ ¬ InHandover e k) (hs : step e ev = some e') :
    Tracks Q e' := by
  have hreq (k : Nat) : Tracks Q { requestStop e k with stopped := true } :=
    have hstop : Tracks Q (requestStop e k) := tracks_requestStop h
    ⟨hstop.fresh, hstop.conn, hstop.handover⟩
  cases stepped hs with
  | startDial hk hp hkind => exact tracks_started hlive h hk
  | startAdd hk hp hkind hstop => exact tracks_started hlive h hk
  | startStopped hk hp hkind hstop => exact h.setAttempt hk (fun _ => hlive) fun _ => .inl hlive
  | startLoop hk hp hkind => exact h.setAttempt hk (fun _ => hlive) fun _ => .inl hlive
  | setServerID hk hp hnone hkind => exact h.setAttempt hk id .inr
  | connStop hk hp => exact tracks_connStop h hk (hok _ rfl)
  | nilSend hk =>
    refine h.setAttempt hk id fun hslot => .inr ?_
    split at hslot
    · cases hslot
    · exact hslot
  | onDisconnect => exact tracks_onDisconnect h.fresh h.handover
  | addTimeout => exact hreq 0
  | dial hl => exact tracks_dial h
  | recvConn hl hk hslot => exact tracks_recv h hl hk hslot
  | recvNil hl hk =>
    exact (tracks_emptied h hk).setLoop (fun _ hp => by cases hp) fun _ hp => by cases hp
  | timeout hl =>
    exact (tracks_requestStop h).setLoop (fun _ hp => by cases hp) fun _ hp => by cases hp
  | @install l k hl =>
    have hdel := (h.setConn (h.handover k ⟨l, .inl hl⟩)).deleteLoop (l := l)
    exact ⟨hdel.fresh, hdel.conn, hdel.handover⟩
  | @fail l hl =>
    unfold fail
    split
    · exact h.deleteLoop
    · have hset : Tracks Q (setLoop e l .sleeping) :=
        h.setLoop (fun _ hp => by cases hp) fun _ hp => by cases hp
      exact ⟨hset.fresh, hset.conn, hset.handover⟩
  | stop =>
    unfold stop
    split
    · exact ⟨h.fresh, h.conn, h.handover⟩
    · exact hreq _

theorem tracks_first (hload : ∀ k, k ≠ 0 → e.attempts.load k = none) (hnext : e.nextAttempt = 1)
    (hloops : e.loops = ∅) (hconn : ∀ k, e.conn = some k → Has Q e k) : Tracks Q e := by
  refine ⟨fun k a hk => ?_, hconn, ?_⟩
  · have hzero : k = 0 := by
      by_contra hne
      rw [hload k hne] at hk
      cases hk
    omega
  · rintro k ⟨l, hl | ⟨hl, -⟩⟩
    · simp [hloops] at hl
    · simp [hloops] at hl

end

-- ---------------------------------------------------------------------------
-- The flags
-- ---------------------------------------------------------------------------

/-- `reconnecting` says whether a loop runs; without one the entry is healthy
and has a connection. -/
structure Flags (e : Entry) : Prop where
  running : e.stopped = false → e.reconnecting = true → ∃ l pc, e.loops.load l = some pc
  connected : e.stopped = false → e.reconnecting = false → e.healthy = true ∧ ∃ k, e.conn = some k

theorem flags_stopped (hs : e.stopped = true) : Flags e :=
  ⟨fun h => (by simp [hs] at h), fun h => (by simp [hs] at h)⟩

theorem flags_onDisconnect (hrunning : e.stopped = false → e.reconnecting = true →
    ∃ l pc, e.loops.load l = some pc) : Flags (onDisconnect e) := by
  unfold onDisconnect
  split
  next hor =>
    refine ⟨hrunning, fun hs hr => ?_⟩
    simp_all
  next => exact ⟨fun _ _ => ⟨_, _, SyncMap.load_store_self ..⟩, fun _ hr => by simp at hr⟩

theorem Flags.setLoop (h : Flags e) : Flags (setLoop e l pc) :=
  ⟨fun _ _ => ⟨l, pc, SyncMap.load_store_self ..⟩, h.connected⟩

theorem Flags.setAttempt (h : Flags e) : Flags (setAttempt e k a) := ⟨h.running, h.connected⟩

theorem Flags.setConn (h : Flags e) : Flags { e with conn := some k, healthy := true } :=
  ⟨h.running, fun _ _ => ⟨rfl, k, rfl⟩⟩

theorem flags_requestStop (h : Flags e) : Flags (requestStop e k) := by
  unfold requestStop
  split
  · exact h
  · exact h.setAttempt

theorem flags_step (h : Flags e) (hs : step e ev = some e') : Flags e' := by
  cases stepped hs with
  | startDial hk hp hkind => exact h.setAttempt.setConn
  | startAdd hk hp hkind hstop => exact h.setAttempt.setConn
  | startStopped hk hp hkind hstop => exact h.setAttempt
  | startLoop hk hp hkind => exact h.setAttempt
  | setServerID hk hp hnone hkind => exact h.setAttempt
  | connStop hk hp => exact flags_onDisconnect h.running
  | nilSend hk => exact h.setAttempt
  | onDisconnect => exact flags_onDisconnect h.running
  | addTimeout => exact flags_stopped rfl
  | @dial l hl => exact ⟨fun _ _ => ⟨l, _, SyncMap.load_store_self ..⟩, h.connected⟩
  | recvConn hl hk hslot => exact h.setAttempt.setLoop
  | recvNil hl hk => exact h.setAttempt.setLoop
  | timeout hl => exact (flags_requestStop h).setLoop
  | @install l k hl => exact ⟨fun _ hr => (by simp [install] at hr), fun _ _ => ⟨rfl, k, rfl⟩⟩
  | fail hl =>
    unfold fail
    split
    next hstop => exact flags_stopped hstop
    next => exact ⟨h.setLoop.running, h.connected⟩
  | stop =>
    unfold stop
    split <;> exact flags_stopped rfl

-- ---------------------------------------------------------------------------
-- Runs
-- ---------------------------------------------------------------------------

theorem tracks_dialing (srv : ServerNode) : Tracks Q (dialing srv) :=
  tracks_first (fun k hk => by simp [dialing, hk]) rfl rfl fun _ hk => by cases hk

theorem tracks_adding (srv : ServerNode) : Tracks Q (adding srv) :=
  tracks_first (fun k hk => by simp [adding, hk]) rfl rfl fun _ hk => by cases hk

theorem ok_step (h : Tracks (· = .live) e ∧ Flags e) (hok : NoDropInHandover e ev)
    (hs : step e ev = some e') : Tracks (· = .live) e' ∧ Flags e' := by
  refine ⟨tracks_step rfl h.1 ?_ hs, flags_step h.2 hs⟩
  rintro k rfl
  exact .inr hok

theorem ok_first (ht : Tracks (· = .live) e) (hev : ∀ k, ev ≠ .connStop k) (hs : step e ev = some m)
    (hf : Flags m) : Tracks (· = .live) m ∧ Flags m :=
  ⟨tracks_step rfl ht (fun k hk => absurd hk (hev k)) hs, hf⟩

theorem ok_started (ht : Tracks (· = .live) e) (hs : step e (.connStart 0) = some m) (hf : Flags m)
    (hr : run step e [.connStart 0, .setServerID 0] = some e') :
    Tracks (· = .live) e' ∧ Flags e' := by
  obtain ⟨n, hn, hrest⟩ := Run.run_cons hr
  obtain rfl := Option.some.inj (hs.symm.trans hn)
  obtain ⟨_, hset, hnil⟩ := Run.run_cons hrest
  cases hnil
  have hok : NoDropInHandover m (.setServerID 0) := trivial
  exact ok_step (ok_first ht (by simp) hs hf) hok hset

theorem opened_ok (h : Opened srv e) : Tracks (· = .live) e ∧ Flags e := by
  have hdial : Tracks (· = .live) (dialing srv) := tracks_dialing srv
  have hadd : Tracks (· = .live) (adding srv) := tracks_adding srv
  rcases h with h | h | h | h
  · exact ok_started hdial rfl ⟨fun _ hr => (by cases hr), fun _ _ => ⟨rfl, 0, rfl⟩⟩ h
  · exact ok_first hdial (by simp) h
      (Option.some.inj h ▸ flags_onDisconnect fun _ hr => by cases hr)
  · exact ok_started hadd rfl ⟨fun _ hr => (by cases hr), fun _ _ => ⟨rfl, 0, rfl⟩⟩ h
  · exact ok_first hadd (by simp) h (Option.some.inj h ▸ flags_stopped rfl)

/-- Unless it was stopped, an entry has a live connection and is healthy, or a
reconnect loop is running for it. -/
theorem live_or_reconnecting (h0 : Opened srv e₀) (ha : Along step NoDropInHandover e₀ es)
    (hr : run step e₀ es = some e) (hs : e.stopped = false) :
    (e.healthy = true ∧ ∃ k, e.conn = some k ∧ Live e k) ∨ ∃ l pc, e.loops.load l = some pc := by
  obtain ⟨htracks, hflags⟩ := Run.invariant (P := fun e => Tracks (· = .live) e ∧ Flags e)
    (fun _ _ _ => ok_step) (opened_ok h0) ha hr
  cases hrec : e.reconnecting with
  | false =>
    obtain ⟨hh, k, hk⟩ := hflags.connected hs hrec
    exact .inl ⟨hh, k, hk, htracks.conn k hk⟩
  | true => exact .inr (hflags.running hs hrec)

def node : ServerNode := ⟨"roomsvr-1", "0.0.0.0:8005"⟩

-- What `Dial` leaves when the server answers at once.
def connected : Entry :=
  { setAttempt (dialing node) 0
      { kind := .dial node.id, phase := .live, serverID := some node.id } with
    conn := some 0, healthy := true }

-- The connection drops and the loop brings a new one.
def reconnected : List Event := [.connStop 0, .dial 0, .connStart 1, .recv 0, .install 0]

theorem reconnected_live :
    ∃ e, run step connected reconnected = some e ∧ e.conn = some 1 ∧
      ((e.healthy = true ∧ ∃ k, e.conn = some k ∧ Live e k) ∨
        ∃ l pc, e.loops.load l = some pc) := by
  have h0 : Opened node connected := .inl rfl
  have ha : Along step NoDropInHandover connected reconnected := by
    refine ⟨?_, fun _ _ => ⟨trivial, fun _ _ => ⟨trivial, fun _ _ => ⟨trivial, fun _ _ =>
      ⟨trivial, fun _ _ => trivial⟩⟩⟩⟩⟩
    rintro ⟨l, hl | ⟨hl, -⟩⟩
    · simp [connected, setAttempt, dialing] at hl
    · simp [connected, setAttempt, dialing] at hl
  exact ⟨_, rfl, rfl, live_or_reconnecting h0 ha rfl rfl⟩

-- The new connection drops while it is in the channel; nil finds the slot taken.
def droppedInChannel : List Event :=
  [.connStop 0, .dial 0, .connStart 1, .connStop 1, .nilSend 1, .recv 0, .install 0]

/-- The entry stays healthy with a dropped connection, no loop runs and
nothing is pending. -/
theorem droppedInChannel_stuck :
    ∃ e, run step connected droppedInChannel = some e ∧ e.stopped = false ∧ e.healthy = true ∧
      e.conn = some 1 ∧ ¬ Live e 1 ∧ e.loops = ∅ ∧
      ∀ k < e.nextAttempt, (e.attempts.load k).map Attempt.nilPending = some false := by
  refine ⟨_, rfl, rfl, rfl, rfl, ?_, by decide, by decide⟩
  rintro ⟨a, ha, hlive⟩
  cases ha
  cases hlive

end Cardwar.Pkg
