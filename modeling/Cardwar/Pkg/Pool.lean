import Cardwar.Lib.Slots
import Cardwar.Pkg.PoolEntry

/-!
# Routing over a pool

A `RouteFunc` picks one of the pool's healthy connections for a key. `DirectRoute`
looks for the connection whose `server_id` property is the key, which only Dial
and AddServer set, at the end of OnConnStart: a connection brought back by
`reconnectLoop` has none (`route_direct`).
-/

namespace Cardwar.Pkg

open Conf (ServerNode)
open Run (run Along)

-- A healthy connection: the server it leads to, its attempt and its `server_id`.
structure Conn where
  server : ServerNode
  attempt : Nat
  serverID : Option String
  deriving DecidableEq

def directRoute (key : String) (healthy : List Conn) : Option Conn :=
  healthy.find? fun conn => conn.serverID = some key

/-- The sum of `fnv.New32a` after writing the key. -/
def fnv32a (key : String) : UInt32 :=
  key.toUTF8.data.toList.foldl (fun h b => (h ^^^ b.toUInt32) * 16777619) 2166136261

def hashRoute (key : String) (healthy : List Conn) : Option Conn :=
  if healthy.length = 0 then none else healthy[(fnv32a key).toNat % healthy.length]?

/-- `intn` is the number `rand.Intn` draws from, before reduction. -/
def randomRoute (intn : Nat) (healthy : List Conn) : Option Conn :=
  if healthy.length = 0 then none else healthy[intn % healthy.length]?

inductive RouteFunc
  | direct
  | hash
  | random
  deriving DecidableEq

def routeFuncFor (routeType : String) : RouteFunc :=
  match routeType with
  | "random" => .random
  | "direct" => .direct
  | _ => .hash

def RouteFunc.apply (f : RouteFunc) (intn : Nat) (key : String) (healthy : List Conn) :
    Option Conn :=
  match f with
  | .direct => directRoute key healthy
  | .hash => hashRoute key healthy
  | .random => randomRoute intn healthy

theorem directRoute_some (h : directRoute key healthy = some conn) :
    conn ∈ healthy ∧ conn.serverID = some key := by
  refine ⟨List.mem_of_find?_eq_some h, ?_⟩
  simpa using List.find?_some h

-- ---------------------------------------------------------------------------
-- A pool
-- ---------------------------------------------------------------------------

structure PoolEntry where
  srv : ServerNode
  entry : Entry

structure Pool where
  conns : List PoolEntry
  routeFn : RouteFunc

def serverIDOf (e : Entry) (k : Nat) : Option String := (e.attempts.load k).bind Attempt.serverID

def PoolEntry.healthyConn (pe : PoolEntry) : Option Conn :=
  if pe.entry.healthy && !pe.entry.stopped then
    pe.entry.conn.map fun k => ⟨pe.srv, k, serverIDOf pe.entry k⟩
  else none

def healthyConns (pool : Pool) : List Conn := pool.conns.filterMap PoolEntry.healthyConn

def route (pool : Pool) (intn : Nat) (key : String) : Option Conn :=
  pool.routeFn.apply intn key (healthyConns pool)

def dialPool (servers : List ServerNode) (routeFn : RouteFunc) : Pool :=
  ⟨servers.map fun srv => ⟨srv, dialing srv⟩, routeFn⟩

-- `Sync` is any number of `addServer` and `RemoveServer` (a `stop` of the
-- entry) steps, then `setRouteFn`.
inductive PoolEvent
  | entry (i : Nat) (ev : Event)
  | addServer (srv : ServerNode) (routeFn : RouteFunc)
  | setRouteFn (routeFn : RouteFunc)

def poolStep (pool : Pool) : PoolEvent → Option Pool
  | .entry i ev => match pool.conns[i]? with
    | none => none
    | some pe =>
      (step pe.entry ev).map fun entry => { pool with conns := pool.conns.set i { pe with entry } }
  | .addServer srv routeFn => some ⟨pool.conns ++ [⟨srv, adding srv⟩], routeFn⟩
  | .setRouteFn routeFn => some { pool with routeFn }

/-- An added server's id is none of those configured at that time. -/
def NewID (pool : Pool) : PoolEvent → Prop
  | .addServer srv _ => ∀ pe ∈ pool.conns, pe.entry.stopped = false → pe.srv.id ≠ srv.id
  | _ => True

instance (pool : Pool) (ev : PoolEvent) : Decidable (NewID pool ev) := by
  unfold NewID
  split <;> infer_instance

structure Registry where
  backends : SyncMap String Pool := ∅
  identity : String

def Registry.dial (reg : Registry) (service : String) (servers : List ServerNode)
    (routeFn : RouteFunc) : Registry :=
  { reg with backends := reg.backends.store service (dialPool servers routeFn) }

def Registry.routeTo (reg : Registry) (intn : Nat) (backend key : String) : Option Conn :=
  (reg.backends.load backend).bind fun pool => route pool intn key

-- ---------------------------------------------------------------------------
-- The `server_id` of an entry's connections
-- ---------------------------------------------------------------------------

/-- What one step can do to an attempt: nothing its routing depends on, or give
its connection the `server_id`. -/
inductive Attempt.Becomes (a a' : Attempt) : Prop
  | same (hk : a'.kind = a.kind) (hid : a'.serverID = a.serverID)
  | named (hk : a'.kind = a.kind) (hid : a'.serverID = a.kind.serverID)

theorem attempts_requestStop (e : Entry) (k : Nat) :
    (requestStop e k).attempts = e.attempts ∨ ∃ a a', e.attempts.load k = some a ∧
      (requestStop e k).attempts = e.attempts.store k a' ∧ a.Becomes a' := by
  unfold requestStop
  split
  next => exact .inl rfl
  next a ha => exact .inr ⟨a, _, ha, rfl, .same rfl rfl⟩

theorem attempts_onDisconnect (e : Entry) : (onDisconnect e).attempts = e.attempts := by
  unfold onDisconnect
  split <;> rfl

theorem attempts_step (hs : step e ev = some e') :
    e'.attempts = e.attempts ∨
      (∃ k a a', e.attempts.load k = some a ∧ e'.attempts = e.attempts.store k a' ∧ a.Becomes a') ∨
      e'.attempts = e.attempts.store e.nextAttempt { kind := .loop } := by
  cases stepped hs with
  | startDial hk hp hkind => exact .inr (.inl ⟨_, _, _, hk, rfl, .same rfl rfl⟩)
  | startAdd hk hp hkind hstop => exact .inr (.inl ⟨_, _, _, hk, rfl, .same rfl rfl⟩)
  | startStopped hk hp hkind hstop => exact .inr (.inl ⟨_, _, _, hk, rfl, .same rfl rfl⟩)
  | startLoop hk hp hkind => exact .inr (.inl ⟨_, _, _, hk, rfl, .same rfl rfl⟩)
  | setServerID hk hp hnone hkind =>
    exact .inr (.inl ⟨_, _, _, hk, rfl, .named rfl hkind.symm⟩)
  | connStop hk hp => exact .inr (.inl ⟨_, _, _, hk, attempts_onDisconnect _, .same rfl rfl⟩)
  | nilSend hk => exact .inr (.inl ⟨_, _, _, hk, rfl, .same rfl rfl⟩)
  | onDisconnect => exact .inl (attempts_onDisconnect e)
  | addTimeout => exact (attempts_requestStop e 0).imp_right fun h => .inl ⟨0, h⟩
  | dial hl => exact .inr (.inr rfl)
  | recvConn hl hk hslot => exact .inr (.inl ⟨_, _, _, hk, rfl, .same rfl rfl⟩)
  | recvNil hl hk => exact .inr (.inl ⟨_, _, _, hk, rfl, .same rfl rfl⟩)
  | @timeout l k hl => exact (attempts_requestStop e k).imp_right fun h => .inl ⟨k, h⟩
  | install hl => exact .inl rfl
  | fail hl =>
    unfold fail
    split <;> exact .inl rfl
  | stop =>
    unfold stop
    split
    next => exact .inl rfl
    next k _ => exact (attempts_requestStop e k).imp_right fun h => .inl ⟨k, h⟩

structure Attempt.Named (id : String) (a : Attempt) : Prop where
  kind : ∀ x, a.kind.serverID = some x → x = id
  serverID : ∀ x, a.serverID = some x → a.kind.serverID = some x

theorem Attempt.Named.becomes (h : Attempt.Named sid a) (hb : a.Becomes a') :
    Attempt.Named sid a' := by
  cases hb with
  | same hk hid => exact ⟨hk ▸ h.kind, fun x hx => hk ▸ h.serverID x (hid ▸ hx)⟩
  | named hk hid => exact ⟨hk ▸ h.kind, fun x hx => hk ▸ hid ▸ hx⟩

structure Named (sid : String) (e : Entry) : Prop where
  attempts : ∀ k a, e.attempts.load k = some a → a.Named sid
  tracks : Tracks (· ≠ .dialing) e

theorem named_step (h : Named sid e) (hs : step e ev = some e') : Named sid e' := by
  refine ⟨fun k a hk => ?_, tracks_step (by simp) h.tracks (fun _ _ => .inl (by simp)) hs⟩
  rcases attempts_step hs with heq | ⟨j, b, b', hj, heq, hb⟩ | heq
  · exact h.attempts k a (heq ▸ hk)
  · rw [heq, SyncMap.load_store] at hk
    split at hk
    · cases hk
      exact (h.attempts j b hj).becomes hb
    · exact h.attempts k a hk
  · rw [heq, SyncMap.load_store] at hk
    split at hk
    · cases hk
      exact ⟨fun x hx => (by cases hx), fun x hx => by cases hx⟩
    · exact h.attempts k a hk

theorem named_first (hload : e.attempts = (∅ : SyncMap Nat Attempt).store 0 a) (ha : a.Named sid)
    (ht : Tracks (· ≠ .dialing) e) : Named sid e := by
  refine ⟨fun k b hk => ?_, ht⟩
  rw [hload, SyncMap.load_store] at hk
  split at hk
  · exact Option.some.inj hk ▸ ha
  · simp at hk

theorem named_dialing (srv : ServerNode) : Named srv.id (dialing srv) :=
  named_first rfl ⟨fun _ hx => (Option.some.inj hx).symm, fun _ hx => by cases hx⟩
    (tracks_dialing srv)

theorem named_adding (srv : ServerNode) : Named srv.id (adding srv) :=
  named_first rfl ⟨fun _ hx => (Option.some.inj hx).symm, fun _ hx => by cases hx⟩
    (tracks_adding srv)

theorem stopped_onDisconnect (e : Entry) : (onDisconnect e).stopped = e.stopped := by
  unfold onDisconnect
  split <;> rfl

theorem stopped_requestStop (e : Entry) (k : Nat) : (requestStop e k).stopped = e.stopped := by
  unfold requestStop
  split <;> rfl

theorem stopped_step (hs : step e ev = some e') (h : e.stopped = true) : e'.stopped = true := by
  cases stepped hs with
  | connStop hk hp => exact (stopped_onDisconnect _).trans h
  | onDisconnect => exact (stopped_onDisconnect e).trans h
  | addTimeout => rfl
  | timeout hl => exact (stopped_requestStop e _).trans h
  | fail hl =>
    unfold fail
    split <;> exact h
  | stop =>
    unfold stop
    split <;> rfl
  -- The other steps do not touch the flag.
  | _ => exact h

-- ---------------------------------------------------------------------------
-- The pool's invariant
-- ---------------------------------------------------------------------------

/-- The entries still configured have distinct ids, and every entry's
connections are named as its server is. -/
structure PoolInv (pool : Pool) : Prop where
  distinct : ∀ (i j : Nat) (pe qe : PoolEntry), pool.conns[i]? = some pe →
    pool.conns[j]? = some qe →
    pe.entry.stopped = false → qe.entry.stopped = false → pe.srv.id = qe.srv.id → i = j
  named : ∀ pe ∈ pool.conns, Named pe.srv.id pe.entry

theorem named_poolStep (h : ∀ pe ∈ pool.conns, Named pe.srv.id pe.entry)
    (hs : poolStep pool ev = some pool') : ∀ pe ∈ pool'.conns, Named pe.srv.id pe.entry := by
  intro qe hq
  cases ev with
  | entry i ev =>
    simp only [poolStep] at hs
    split at hs
    next => cases hs
    next pe hi =>
      obtain ⟨entry, hstep, rfl⟩ := Option.map_eq_some_iff.mp hs
      rcases List.mem_or_eq_of_mem_set hq with hold | rfl
      · exact h qe hold
      · exact named_step (h pe (List.mem_of_getElem? hi)) hstep
  | addServer srv f =>
    cases hs
    rcases List.mem_append.mp hq with hold | hlast
    · exact h qe hold
    · rw [List.mem_singleton.mp hlast]
      exact named_adding srv
  | setRouteFn f =>
    cases hs
    exact h qe hq

theorem named_dialPool : ∀ pe ∈ (dialPool servers f).conns, Named pe.srv.id pe.entry := by
  intro pe hp
  obtain ⟨srv, _, rfl⟩ := List.mem_map.mp hp
  exact named_dialing srv

theorem distinct_entry (h : PoolInv pool) (hi : pool.conns[i]? = some pe)
    (hs : step pe.entry ev = some entry) {j k : Nat} {qe re : PoolEntry}
    (hj : (pool.conns.set i { pe with entry })[j]? = some qe)
    (hk : (pool.conns.set i { pe with entry })[k]? = some re)
    (hq : qe.entry.stopped = false) (hr : re.entry.stopped = false) (hid : qe.srv.id = re.srv.id) :
    j = k := by
  -- The entry at an index has the server it had, and is stopped if it was.
  have hback : ∀ (j : Nat) (qe : PoolEntry),
      (pool.conns.set i { pe with entry })[j]? = some qe → qe.entry.stopped = false →
      ∃ qe₀ : PoolEntry, pool.conns[j]? = some qe₀ ∧ qe₀.srv = qe.srv ∧
        qe₀.entry.stopped = false := by
    intro j qe hj hq
    rcases Slots.getElem?_of_set hj with ⟨rfl, rfl⟩ | ⟨-, hj⟩
    · refine ⟨pe, hi, rfl, ?_⟩
      cases hst : pe.entry.stopped with
      | false => rfl
      | true =>
        rw [stopped_step hs hst] at hq
        cases hq
    · exact ⟨qe, hj, rfl, hq⟩
  obtain ⟨qe₀, hj₀, hsq, hq₀⟩ := hback j qe hj hq
  obtain ⟨re₀, hk₀, hsr, hr₀⟩ := hback k re hk hr
  exact h.distinct j k qe₀ re₀ hj₀ hk₀ hq₀ hr₀ (by rw [hsq, hsr, hid])

theorem distinct_addServer (h : PoolInv pool)
    (hnew : ∀ pe ∈ pool.conns, pe.entry.stopped = false → pe.srv.id ≠ srv.id)
    {i j : Nat} {pe qe : PoolEntry} (hi : (pool.conns ++ [⟨srv, adding srv⟩])[i]? = some pe)
    (hj : (pool.conns ++ [⟨srv, adding srv⟩])[j]? = some qe) (hp : pe.entry.stopped = false)
    (hq : qe.entry.stopped = false) (hid : pe.srv.id = qe.srv.id) : i = j := by
  have hold : ∀ (k : Nat) (re : PoolEntry), pool.conns[k]? = some re →
      re.entry.stopped = false → re.srv.id ≠ srv.id :=
    fun k re hk => hnew re (List.mem_of_getElem? hk)
  rcases Slots.getElem?_snoc hi with hi | ⟨rfl, rfl⟩
  · rcases Slots.getElem?_snoc hj with hj | ⟨rfl, rfl⟩
    · exact h.distinct i j pe qe hi hj hp hq hid
    · exact absurd hid (hold i pe hi hp)
  · rcases Slots.getElem?_snoc hj with hj | ⟨rfl, -⟩
    · exact absurd hid.symm (hold j qe hj hq)
    · rfl

theorem poolInv_step (h : PoolInv pool) (hok : NewID pool ev)
    (hs : poolStep pool ev = some pool') : PoolInv pool' := by
  refine ⟨?_, named_poolStep h.named hs⟩
  intro i j pe qe hi hj hp hq hid
  cases ev with
  | entry k ev =>
    simp only [poolStep] at hs
    split at hs
    next => cases hs
    next re hk =>
      obtain ⟨entry, hstep, rfl⟩ := Option.map_eq_some_iff.mp hs
      exact distinct_entry h hk hstep hi hj hp hq hid
  | addServer srv f =>
    cases hs
    exact distinct_addServer h hok hi hj hp hq hid
  | setRouteFn f =>
    cases hs
    exact h.distinct i j pe qe hi hj hp hq hid

theorem poolInv_dial (hids : (servers.map (·.id)).Nodup) : PoolInv (dialPool servers f) := by
  refine ⟨fun i j pe qe hi hj _ _ hid => ?_, named_dialPool⟩
  simp only [dialPool, List.getElem?_map, Option.map_eq_some_iff] at hi hj
  obtain ⟨srv, hi, rfl⟩ := hi
  obtain ⟨srv', hj, rfl⟩ := hj
  have hlt : i < (servers.map (·.id)).length := by
    simpa using (List.getElem?_eq_some_iff.mp hi).1
  refine (List.getElem?_inj hlt hids).mp ?_
  simpa [List.getElem?_map, hi, hj] using hid

theorem poolInv_entries (hids : (servers.map (·.id)).Nodup)
    (hevs : ∀ ev ∈ evs, ∃ i e, ev = .entry i e)
    (hr : run poolStep (dialPool servers f) evs = some pool) : PoolInv pool ∧ pool.routeFn = f := by
  have ha : Along poolStep (fun _ ev => ∃ i e, ev = .entry i e) (dialPool servers f) evs :=
    Run.along_of_forall (fun ev hev _ => hevs ev hev) _
  refine Run.invariant (P := fun pool => PoolInv pool ∧ pool.routeFn = f) ?_
    ⟨poolInv_dial hids, rfl⟩ ha hr
  rintro pool ev pool' ⟨h, hf⟩ ⟨i, e, rfl⟩ hs
  have hnew : NewID pool (.entry i e) := trivial
  refine ⟨poolInv_step h hnew hs, ?_⟩
  simp only [poolStep] at hs
  split at hs
  next => cases hs
  next =>
    obtain ⟨entry, _, rfl⟩ := Option.map_eq_some_iff.mp hs
    exact hf

-- ---------------------------------------------------------------------------
-- Direct routing
-- ---------------------------------------------------------------------------

def MadeByLoop (e : Entry) (k : Nat) : Prop := (e.attempts.load k).map Attempt.kind = some .loop

instance (e : Entry) (k : Nat) : Decidable (MadeByLoop e k) := by
  unfold MadeByLoop
  infer_instance

/-- OnConnStart of Dial or AddServer has not called `SetProperty` yet. -/
def Starting (e : Entry) (k : Nat) : Prop :=
  ∃ a ∈ e.attempts.load k, a.kind ≠ .loop ∧ a.serverID = none

instance (e : Entry) (k : Nat) : Decidable (Starting e k) :=
  inferInstanceAs (Decidable (∃ a ∈ e.attempts.load k, a.kind ≠ .loop ∧ a.serverID = none))

def Unnamed (e : Entry) (k : Nat) : Prop := MadeByLoop e k ∨ Starting e k

instance (e : Entry) (k : Nat) : Decidable (Unnamed e k) :=
  inferInstanceAs (Decidable (MadeByLoop e k ∨ Starting e k))

theorem healthyConn_some (h : PoolEntry.healthyConn pe = some c) :
    pe.entry.stopped = false ∧ pe.entry.conn = some c.attempt ∧ c.server = pe.srv ∧
      c.serverID = serverIDOf pe.entry c.attempt := by
  unfold PoolEntry.healthyConn at h
  split at h
  next hh =>
    obtain ⟨k, hk, rfl⟩ := Option.map_eq_some_iff.mp h
    rw [Bool.and_eq_true, Bool.not_eq_true'] at hh
    exact ⟨hh.2, hk, rfl, rfl⟩
  next => cases h

theorem healthyConns_nodup (h : PoolInv pool) : ((healthyConns pool).map (·.server.id)).Nodup := by
  have hpair : pool.conns.Pairwise fun pe qe =>
      pe.entry.stopped = false → qe.entry.stopped = false → pe.srv.id ≠ qe.srv.id := by
    rw [List.pairwise_iff_getElem]
    intro i j hi hj hij hp hq heq
    exact hij.ne
      (h.distinct i j _ _ (List.getElem?_eq_getElem hi) (List.getElem?_eq_getElem hj) hp hq heq)
  rw [List.Nodup, List.pairwise_map, healthyConns, List.pairwise_filterMap]
  refine hpair.imp fun hne c hc d hd => ?_
  obtain ⟨hp, -, hcs, -⟩ := healthyConn_some hc
  obtain ⟨hq, -, hds, -⟩ := healthyConn_some hd
  rw [hcs, hds]
  exact hne hp hq

theorem mem_healthyConns (h : c ∈ healthyConns pool) :
    ∃ (i : Nat) (pe : PoolEntry), pool.conns[i]? = some pe ∧ pe.healthyConn = some c := by
  obtain ⟨pe, hpe, hc⟩ := List.mem_filterMap.mp h
  obtain ⟨i, hi⟩ := List.mem_iff_getElem?.mp hpe
  exact ⟨i, pe, hi, hc⟩

/-- A healthy connection has the id of its server, or none if `reconnectLoop` made
it or its OnConnStart has not come to the end. -/
theorem healthyConn_serverID {pe : PoolEntry} (h : Named pe.srv.id pe.entry)
    (hc : pe.healthyConn = some c) :
    c.serverID = if Unnamed pe.entry c.attempt then none else some pe.srv.id := by
  obtain ⟨_, hconn, _, hid⟩ := healthyConn_some hc
  obtain ⟨a, ha, -⟩ := h.tracks.conn c.attempt hconn
  have hn := h.attempts c.attempt a ha
  have hset : c.serverID = a.serverID := by rw [hid, serverIDOf, ha, Option.bind_some]
  have hunnamed : Unnamed pe.entry c.attempt ↔ a.serverID = none := by
    simp only [Unnamed, MadeByLoop, Starting, ha, Option.map_some, Option.some.injEq,
      Option.mem_def, exists_eq_left']
    constructor
    · rintro (hloop | ⟨-, hnone⟩)
      · refine Option.eq_none_iff_forall_ne_some.mpr fun x hx => ?_
        have hkind := hn.serverID x hx
        rw [hloop] at hkind
        cases hkind
      · exact hnone
    · intro hnone
      exact (em (a.kind = .loop)).imp_right fun hne => ⟨hne, hnone⟩
  rw [hset, if_congr hunnamed rfl rfl]
  split
  next hnone => exact hnone
  next hsome =>
    obtain ⟨x, hx⟩ := Option.ne_none_iff_exists'.mp hsome
    rw [hx, hn.kind x (hn.serverID x hx)]

theorem directRoute_server (h : ∀ pe ∈ pool.conns, Named pe.srv.id pe.entry)
    (hr : directRoute s (healthyConns pool) = some c) :
    ∃ (i : Nat) (pe : PoolEntry), pool.conns[i]? = some pe ∧ pe.healthyConn = some c ∧
      pe.srv.id = s ∧ ¬ Unnamed pe.entry c.attempt := by
  obtain ⟨hmem, hid⟩ := directRoute_some hr
  obtain ⟨i, pe, hi, hc⟩ := mem_healthyConns hmem
  have hname := healthyConn_serverID (h pe (List.mem_of_getElem? hi)) hc
  rw [hid] at hname
  split at hname
  next => cases hname
  next hl => exact ⟨i, pe, hi, hc, (Option.some.inj hname).symm, hl⟩

theorem directRoute_unique {pe : PoolEntry} (h : PoolInv pool) (hpe : pe ∈ pool.conns)
    (hc : pe.healthyConn = some c) (hd : directRoute pe.srv.id (healthyConns pool) = some c') :
    c' = c ∧ ¬ Unnamed pe.entry c.attempt := by
  obtain ⟨j, qe, hj, hqc, hid, hl⟩ := directRoute_server h.named hd
  obtain ⟨i, hi⟩ := List.mem_iff_getElem?.mp hpe
  have hij := h.distinct j i qe pe hj hi (healthyConn_some hqc).1 (healthyConn_some hc).1 hid
  obtain rfl : pe = qe := Option.some.inj (hi.symm.trans (hij ▸ hj))
  obtain rfl : c = c' := Option.some.inj (hc.symm.trans hqc)
  exact ⟨rfl, hl⟩

/-- `DirectRoute` never leads to another server. It finds the healthy connection
to a server exactly if Dial or AddServer made that connection and its OnConnStart
has come to the end. -/
theorem route_direct (hids : (servers.map (·.id)).Nodup)
    (ha : Along poolStep NewID (dialPool servers f) evs)
    (hr : run poolStep (dialPool servers f) evs = some pool) (hf : pool.routeFn = .direct)
    (intn : Nat) :
    (∀ s c, route pool intn s = some c → c.server.id = s) ∧
    ∀ pe ∈ pool.conns, ∀ c, pe.healthyConn = some c →
      ((∃ c', route pool intn pe.srv.id = some c' ∧ c'.server = pe.srv) ↔
        ¬ Unnamed pe.entry c.attempt) := by
  have h : PoolInv pool :=
    Run.invariant (fun _ _ _ h hok hs => poolInv_step h hok hs) (poolInv_dial hids) ha hr
  have hroute : ∀ s, route pool intn s = directRoute s (healthyConns pool) := by
    intro s
    rw [route, hf, RouteFunc.apply]
  refine ⟨fun s c hc => ?_, fun pe hpe c hc => ⟨?_, fun hl => ?_⟩⟩
  · obtain ⟨i, pe, _, hpc, rfl, _⟩ := directRoute_server h.named (hroute s ▸ hc)
    rw [(healthyConn_some hpc).2.2.1]
  · rintro ⟨c', hc', -⟩
    exact (directRoute_unique h hpe hc (hroute _ ▸ hc')).2
  · have hid : c.serverID = some pe.srv.id := by
      rw [healthyConn_serverID (h.named pe hpe) hc, if_neg hl]
    have hmem : c ∈ healthyConns pool := List.mem_filterMap.mpr ⟨pe, hpe, hc⟩
    cases hd : directRoute pe.srv.id (healthyConns pool) with
    | none => exact absurd hid (by simpa using List.find?_eq_none.mp hd c hmem)
    | some c' =>
      refine ⟨c', (hroute _).trans hd, ?_⟩
      obtain ⟨rfl, -⟩ := directRoute_unique h hpe hc hd
      exact (healthyConn_some hc).2.2.1

-- Both room servers are dialed; the second one restarts and is reconnected.
def dialed : List PoolEvent :=
  [.entry 0 (.connStart 0), .entry 0 (.setServerID 0), .entry 1 (.connStart 0),
    .entry 1 (.setServerID 0)]

def restart : List PoolEvent :=
  [.entry 1 (.connStop 0), .entry 1 (.dial 0), .entry 1 (.connStart 1), .entry 1 (.recv 0),
    .entry 1 (.install 0)]

theorem dialed_routed :
    ∃ pool, run poolStep (dialPool Conf.shippedRoomSvrs .direct) dialed = some pool ∧
      ∀ pe ∈ pool.conns, ∀ c, pe.healthyConn = some c →
        ((∃ c', route pool 0 pe.srv.id = some c' ∧ c'.server = pe.srv) ↔
          ¬ Unnamed pe.entry c.attempt) := by
  have ha : Along poolStep NewID (dialPool Conf.shippedRoomSvrs .direct) dialed := by decide
  exact ⟨_, rfl, (route_direct (by decide) ha rfl rfl 0).2⟩

theorem restarted_not_routed :
    (run poolStep (dialPool Conf.shippedRoomSvrs .direct) (dialed ++ restart)).map (fun pool =>
      ((healthyConns pool).map (·.server), route pool 0 "roomsvr-1" |>.map (·.server.id),
        route pool 0 "roomsvr-2")) = some (Conf.shippedRoomSvrs, some "roomsvr-1", none) := by
  decide

end Cardwar.Pkg
