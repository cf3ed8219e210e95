import Cardwar.Pkg.Pool

/-!
# Synchronising a pool with the configuration

`Sync` adds the wanted servers that are not in the pool and then removes the
ones that are no longer wanted. Servers are told apart by their address. It
ranges over two Go maps; the orders are part of a call here, as are the
outcomes of the `AddServer` calls it makes.
-/

namespace Cardwar.Pkg

open Conf (ServerNode)
open Run (run Along total)

inductive Outcome
  | connects
  | timesOut
  deriving DecidableEq

/-- How `AddServer`'s wait ends. -/
def Outcome.events : Outcome → List Event
  | .connects => [.connStart 0, .setServerID 0]
  | .timesOut => [.addTimeout]

def Outcome.entry (out : Outcome) (srv : ServerNode) : Entry :=
  (run step (adding srv) out.events).getD (adding srv)

def addServer (pool : Pool) (srv : ServerNode) (routeFn : RouteFunc) (out : Outcome) : Pool :=
  ⟨pool.conns ++ [⟨srv, out.entry srv⟩], routeFn⟩

/-- The search of `RemoveServer`, which ends at the first running entry. -/
def stopFirst (addr : String) : List PoolEntry → List PoolEntry
  | [] => []
  | pe :: rest =>
    if pe.entry.addr = addr ∧ pe.entry.stopped = false
      then { pe with entry := stop pe.entry } :: rest
    else pe :: stopFirst addr rest

def removeServer (pool : Pool) (addr : String) : Pool :=
  { pool with conns := stopFirst addr pool.conns }

def runningAddrs (conns : List PoolEntry) : List String :=
  (conns.filter fun pe => !pe.entry.stopped).map fun pe => pe.entry.addr

def serverAddrs (pool : Pool) : List String := runningAddrs pool.conns

/-- Of several servers with one address the last counts. -/
def wanted (servers : List ServerNode) : SyncMap String ServerNode :=
  servers.foldl (fun m srv => m.store srv.listen srv) ∅

structure SyncCall where
  servers : List ServerNode
  routeFn : RouteFunc
  wantedOrder : List String
  currentOrder : List String
  outcome : String → Outcome

/-- Each order visits the keys of its map once. -/
structure Ranges (pool : Pool) (call : SyncCall) : Prop where
  wantedNodup : call.wantedOrder.Nodup
  wanted : ∀ addr, addr ∈ call.wantedOrder ↔ addr ∈ (wanted call.servers).keys
  currentNodup : call.currentOrder.Nodup
  current : ∀ addr, addr ∈ call.currentOrder ↔ addr ∈ serverAddrs pool

def addWanted (call : SyncCall) (current : List String) (pool : Pool) (addr : String) : Pool :=
  match (wanted call.servers).load addr with
  | some srv => if addr ∈ current then pool else addServer pool srv call.routeFn (call.outcome addr)
  | none => pool

def removeUnwanted (call : SyncCall) (pool : Pool) (addr : String) : Pool :=
  if addr ∈ (wanted call.servers).keys then pool else removeServer pool addr

def sync (pool : Pool) (call : SyncCall) : Pool :=
  let pool₁ := call.wantedOrder.foldl (addWanted call (serverAddrs pool)) pool
  let pool₂ := call.currentOrder.foldl (removeUnwanted call) pool₁
  { pool₂ with routeFn := call.routeFn }

theorem wanted_snoc (servers : List ServerNode) (srv : ServerNode) :
    wanted (servers ++ [srv]) = (wanted servers).store srv.listen srv := by
  simp [wanted]

theorem listen_of_wanted (h : (wanted servers).load addr = some srv) : srv.listen = addr := by
  induction servers using List.reverseRecOn with
  | nil => simp [wanted] at h
  | append_singleton servers s ih =>
    rw [wanted_snoc, SyncMap.load_store] at h
    split at h
    next heq => exact Option.some.inj h ▸ heq.symm
    next => exact ih h

theorem mem_keys_wanted (servers : List ServerNode) (addr : String) :
    addr ∈ (wanted servers).keys ↔ ∃ srv ∈ servers, srv.listen = addr := by
  induction servers using List.reverseRecOn with
  | nil => simp [wanted]
  | append_singleton servers s ih =>
    rw [wanted_snoc, SyncMap.mem_keys, SyncMap.load_store]
    rw [SyncMap.mem_keys] at ih
    split
    next heq => simp [heq]
    next hne =>
      rw [ih]
      simp [Ne.symm hne]

@[simp] theorem Outcome.entry_addr (out : Outcome) (srv : ServerNode) :
    (out.entry srv).addr = srv.listen := by
  cases out <;> rfl

@[simp] theorem Outcome.entry_stopped (out : Outcome) (srv : ServerNode) :
    (out.entry srv).stopped = decide (out = .timesOut) := by
  cases out <;> rfl

/-- The entry `Sync` adds for an address, if it adds one. -/
def newEntry (call : SyncCall) (current : List String) (addr : String) : Option PoolEntry :=
  if addr ∈ current then none
  else ((wanted call.servers).load addr).map fun srv => ⟨srv, (call.outcome addr).entry srv⟩

theorem conns_addWanted (call : SyncCall) (current : List String) (pool : Pool) (addr : String) :
    (addWanted call current pool addr).conns = pool.conns ++
      (newEntry call current addr).toList := by
  unfold addWanted newEntry
  cases (wanted call.servers).load addr with
  | none => simp
  | some srv => by_cases hc : addr ∈ current <;> simp [hc, addServer]

theorem conns_addAll (call : SyncCall) (current : List String) (order : List String) (pool : Pool) :
    (order.foldl (addWanted call current) pool).conns =
      pool.conns ++ order.filterMap (newEntry call current) := by
  induction order generalizing pool with
  | nil => simp
  | cons addr order ih =>
    rw [List.foldl_cons, ih, conns_addWanted, List.append_assoc]
    cases h : newEntry call current addr <;> simp [h]

-- ---------------------------------------------------------------------------
-- Removing
-- ---------------------------------------------------------------------------

def stopIf (gone : String → Prop) [DecidablePred gone] (pe : PoolEntry) : PoolEntry :=
  if gone pe.entry.addr ∧ pe.entry.stopped = false then { pe with entry := stop pe.entry } else pe

theorem addr_stop (e : Entry) : (stop e).addr = e.addr := by
  unfold stop
  split
  next => rfl
  next k _ =>
    show (requestStop e k).addr = e.addr
    unfold requestStop
    split <;> rfl

theorem stopped_stop (e : Entry) : (stop e).stopped = true := by
  unfold stop
  split <;> rfl

section
variable (gone gone' : String → Prop) [DecidablePred gone] [DecidablePred gone']

theorem stopIf_congr {pe : PoolEntry} (h : gone pe.entry.addr ↔ gone' pe.entry.addr) :
    stopIf gone pe = stopIf gone' pe :=
  if_congr (and_congr_left' h) rfl rfl

theorem stopIf_of_running {pe : PoolEntry} (h : pe.entry.stopped = false → ¬ gone pe.entry.addr) :
    stopIf gone pe = pe :=
  if_neg fun hpe => h hpe.2 hpe.1

theorem stopIf_addr (pe : PoolEntry) : (stopIf gone pe).entry.addr = pe.entry.addr := by
  unfold stopIf
  split
  · exact addr_stop pe.entry
  · rfl

theorem stopIf_stopped (pe : PoolEntry) :
    (stopIf gone pe).entry.stopped = (pe.entry.stopped || decide (gone pe.entry.addr)) := by
  unfold stopIf
  split
  next h => simp [stopped_stop, h.1]
  next h => cases hs : pe.entry.stopped <;> simp_all

theorem stopIf_stopIf (pe : PoolEntry) :
    stopIf gone' (stopIf gone pe) = stopIf (fun addr => gone addr ∨ gone' addr) pe := by
  by_cases h : gone pe.entry.addr ∧ pe.entry.stopped = false
  · have hor : (gone pe.entry.addr ∨ gone' pe.entry.addr) ∧ pe.entry.stopped = false :=
      ⟨.inl h.1, h.2⟩
    simp [stopIf, h, stopped_stop]
  · rw [stopIf.eq_def gone, if_neg h, stopIf, stopIf]
    refine if_congr ?_ rfl rfl
    constructor
    · exact fun hg => ⟨.inr hg.1, hg.2⟩
    · exact fun hg => ⟨hg.1.resolve_left fun hgone => h ⟨hgone, hg.2⟩, hg.2⟩

theorem runningAddrs_stopIf (conns : List PoolEntry) :
    runningAddrs (conns.map (stopIf gone)) = (runningAddrs conns).filter fun addr =>
      ¬ gone addr := by
  induction conns with
  | nil => rfl
  | cons pe conns ih =>
    simp only [runningAddrs, List.map_cons, List.filter_cons, stopIf_stopped] at ih ⊢
    cases hs : pe.entry.stopped with
    | true => simpa using ih
    | false =>
      by_cases hg : gone pe.entry.addr
      · simpa [hg] using ih
      · simpa [hg, stopIf_addr] using ih

end

theorem runningAddrs_cons (pe : PoolEntry) (conns : List PoolEntry) :
    runningAddrs (pe :: conns) =
      if pe.entry.stopped then runningAddrs conns else pe.entry.addr :: runningAddrs conns := by
  cases hs : pe.entry.stopped <;> simp [runningAddrs, hs]

theorem runningAddrs_append (xs ys : List PoolEntry) :
    runningAddrs (xs ++ ys) = runningAddrs xs ++ runningAddrs ys := by
  simp [runningAddrs]

theorem mem_runningAddrs (hpe : pe ∈ conns) (hs : pe.entry.stopped = false) :
    pe.entry.addr ∈ runningAddrs conns :=
  List.mem_map_of_mem (List.mem_filter.mpr ⟨hpe, by simp [hs]⟩)

theorem stopFirst_eq (addr : String) (h : (runningAddrs conns).Nodup) :
    stopFirst addr conns = conns.map (stopIf (· = addr)) := by
  induction conns with
  | nil => rfl
  | cons pe conns ih =>
    rw [runningAddrs_cons] at h
    simp only [stopFirst, List.map_cons]
    split
    next hpe =>
      rw [hpe.2] at h
      obtain ⟨hnot, -⟩ := List.nodup_cons.mp h
      have hrest : conns.map (stopIf (· = addr)) = conns := by
        refine (List.map_congr_left fun qe hqe => ?_).trans (List.map_id conns)
        refine stopIf_of_running _ fun hs heq => hnot ?_
        rw [hpe.1, ← heq]
        exact mem_runningAddrs hqe hs
      rw [stopIf, if_pos hpe, hrest]
    next hpe =>
      have htail : (runningAddrs conns).Nodup := by
        split at h
        · exact h
        · exact (List.nodup_cons.mp h).2
      rw [stopIf, if_neg hpe, ih htail]

theorem conns_removeAll (call : SyncCall) (order : List String) (pool : Pool)
    (h : (runningAddrs pool.conns).Nodup) :
    (order.foldl (removeUnwanted call) pool).conns =
      pool.conns.map (stopIf fun addr => addr ∈ order ∧ addr ∉ (wanted call.servers).keys) := by
  induction order generalizing pool with
  | nil =>
    refine (List.map_id'' (fun pe => ?_) _).symm
    simp [stopIf]
  | cons addr order ih =>
    rw [List.foldl_cons, removeUnwanted]
    split
    next hw =>
      rw [ih pool h]
      refine List.map_congr_left fun pe _ => stopIf_congr _ _ ?_
      have hne : pe.entry.addr ∉ (wanted call.servers).keys → pe.entry.addr ≠ addr :=
        fun hp heq => hp (heq ▸ hw)
      rw [List.mem_cons]
      exact ⟨fun hp => ⟨.inr hp.1, hp.2⟩, fun hp => ⟨hp.1.resolve_left (hne hp.2), hp.2⟩⟩
    next hw =>
      have hnodup : (runningAddrs (removeServer pool addr).conns).Nodup := by
        rw [removeServer, stopFirst_eq addr h, runningAddrs_stopIf]
        exact h.filter _
      rw [ih _ hnodup, removeServer, stopFirst_eq addr h, List.map_map]
      refine List.map_congr_left fun pe _ => (stopIf_stopIf _ _ pe).trans (stopIf_congr _ _ ?_)
      rw [List.mem_cons]
      constructor
      · rintro (rfl | hp)
        · exact ⟨.inl rfl, hw⟩
        · exact ⟨.inr hp.1, hp.2⟩
      · rintro ⟨rfl | hp, hnot⟩
        · exact .inl rfl
        · exact .inr ⟨hp, hnot⟩

-- ---------------------------------------------------------------------------
-- One call
-- ---------------------------------------------------------------------------

theorem runningAddrs_new (call : SyncCall) (current order : List String)
    (h : ∀ addr ∈ order, addr ∈ (wanted call.servers).keys) :
    runningAddrs (order.filterMap (newEntry call current)) =
      order.filter fun addr => addr ∉ current ∧ call.outcome addr = .connects := by
  induction order with
  | nil => rfl
  | cons addr order ih =>
    have ih := ih fun a ha => h a (List.mem_cons_of_mem addr ha)
    obtain ⟨srv, hsrv⟩ :=
      Option.isSome_iff_exists.mp ((SyncMap.mem_keys ..).mp (h addr List.mem_cons_self))
    have hlisten : srv.listen = addr := listen_of_wanted hsrv
    by_cases hc : addr ∈ current
    · have hnone : newEntry call current addr = none := by simp [newEntry, hc]
      simpa [hnone, hc] using ih
    · have hsome : newEntry call current addr = some ⟨srv, (call.outcome addr).entry srv⟩ := by
        simp [newEntry, hc, hsrv]
      rw [List.filterMap_cons_some hsome, runningAddrs_cons, ih]
      cases hout : call.outcome addr <;> simp [hc, hout, hlisten]

theorem nodup_added (h : (serverAddrs pool).Nodup) (hr : Ranges pool call) :
    (runningAddrs
      (pool.conns ++ call.wantedOrder.filterMap (newEntry call (serverAddrs pool)))).Nodup := by
  rw [runningAddrs_append, runningAddrs_new call _ _ fun addr ha => (hr.wanted addr).mp ha]
  refine List.Nodup.append h (hr.wantedNodup.filter _) fun addr hold hnew => ?_
  exact (of_decide_eq_true (List.mem_filter.mp hnew).2).1 hold

theorem conns_sync (h : (serverAddrs pool).Nodup) (hr : Ranges pool call) :
    (sync pool call).conns =
      (pool.conns ++ call.wantedOrder.filterMap (newEntry call (serverAddrs pool))).map
        (stopIf fun addr => addr ∈ serverAddrs pool ∧ addr ∉ (wanted call.servers).keys) := by
  have hnodup := nodup_added h hr
  rw [← conns_addAll] at hnodup ⊢
  refine (conns_removeAll call call.currentOrder _ hnodup).trans ?_
  exact List.map_congr_left fun pe _ => stopIf_congr _ _ (and_congr_left' (hr.current _))

theorem serverAddrs_sync (h : (serverAddrs pool).Nodup) (hr : Ranges pool call) :
    serverAddrs (sync pool call) =
      (serverAddrs pool ++ call.wantedOrder.filter fun addr =>
        addr ∉ serverAddrs pool ∧ call.outcome addr = .connects).filter fun addr =>
          ¬ (addr ∈ serverAddrs pool ∧ addr ∉ (wanted call.servers).keys) := by
  rw [serverAddrs, conns_sync h hr, runningAddrs_stopIf, runningAddrs_append,
    runningAddrs_new call _ _ fun addr ha => (hr.wanted addr).mp ha]
  rfl

/-- The call adds a server at this address, and the wait for it times out. -/
def TimesOut (pool : Pool) (call : SyncCall) (addr : String) : Prop :=
  addr ∈ (wanted call.servers).keys ∧ addr ∉ serverAddrs pool ∧ call.outcome addr = .timesOut

structure Converged (pool : Pool) (call : SyncCall) (pool' : Pool) : Prop where
  distinct : (serverAddrs pool').Nodup
  addrs : ∀ addr, addr ∈ serverAddrs pool' ↔
    (∃ srv ∈ call.servers, srv.listen = addr) ∧ ¬ TimesOut pool call addr
  untouched : ∀ (i : Nat) (pe : PoolEntry), pool.conns[i]? = some pe → pe.entry.stopped = false →
    (∃ srv ∈ call.servers, srv.listen = pe.entry.addr) → pool'.conns[i]? = some pe
  routeFn : pool'.routeFn = call.routeFn

theorem converged_sync (h : (serverAddrs pool).Nodup) (hr : Ranges pool call) :
    Converged pool call (sync pool call) := by
  have haddrs := serverAddrs_sync h hr
  refine ⟨?_, fun addr => ?_, fun i pe hi _ hw => ?_, rfl⟩
  · rw [haddrs, ← runningAddrs_new call _ _ fun addr ha => (hr.wanted addr).mp ha]
    refine List.Nodup.filter _ ?_
    have hnodup := nodup_added h hr
    rwa [runningAddrs_append] at hnodup
  · rw [haddrs, ← mem_keys_wanted, TimesOut]
    simp only [List.mem_filter, List.mem_append, decide_eq_true_eq, hr.wanted addr]
    by_cases hw : addr ∈ (wanted call.servers).keys <;> by_cases hc : addr ∈ serverAddrs pool <;>
      cases call.outcome addr <;> simp [hw, hc, -SyncMap.mem_keys]
  · have hlt : i < pool.conns.length := (List.getElem?_eq_some_iff.mp hi).1
    rw [conns_sync h hr, List.getElem?_map, List.getElem?_append_left hlt, hi, Option.map_some]
    refine congrArg some (stopIf_of_running _ fun _ hgone => hgone.2 ?_)
    exact (mem_keys_wanted call.servers _).mpr hw

theorem sync_same (hr : Ranges pool call)
    (h : ∀ addr, addr ∈ serverAddrs pool ↔ addr ∈ (wanted call.servers).keys) :
    sync pool call = { pool with routeFn := call.routeFn } := by
  have hadd : ∀ order : List String, (∀ addr ∈ order, addr ∈ (wanted call.servers).keys) →
      order.foldl (addWanted call (serverAddrs pool)) pool = pool := by
    intro order horder
    induction order with
    | nil => rfl
    | cons addr order ih =>
      have hin : addr ∈ serverAddrs pool := (h addr).mpr (horder addr List.mem_cons_self)
      have hstep : addWanted call (serverAddrs pool) pool addr = pool := by
        unfold addWanted
        split
        · rw [if_pos hin]
        · rfl
      rw [List.foldl_cons, hstep, ih fun a ha => horder a (List.mem_cons_of_mem addr ha)]
  have hremove : ∀ order : List String, (∀ addr ∈ order, addr ∈ serverAddrs pool) →
      order.foldl (removeUnwanted call) pool = pool := by
    intro order horder
    induction order with
    | nil => rfl
    | cons addr order ih =>
      have hin : addr ∈ (wanted call.servers).keys := (h addr).mp (horder addr List.mem_cons_self)
      rw [List.foldl_cons, removeUnwanted, if_pos hin, ih fun a ha =>
        horder a (List.mem_cons_of_mem addr ha)]
  rw [sync, hadd _ fun addr ha => (hr.wanted addr).mp ha, hremove _ fun addr ha =>
    (hr.current addr).mp ha]

-- ---------------------------------------------------------------------------
-- A call as steps of the pool
-- ---------------------------------------------------------------------------

def Leads (pool pool' : Pool) : Prop := ∃ evs, run poolStep pool evs = some pool'

theorem Leads.trans (h : Leads pool pool₁) (h' : Leads pool₁ pool₂) : Leads pool pool₂ := by
  obtain ⟨xs, hx⟩ := h
  obtain ⟨ys, hy⟩ := h'
  exact ⟨xs ++ ys, (Run.run_append xs ys hx).trans hy⟩

theorem leads_foldl {f : Pool → String → Pool} (h : ∀ pool addr, Leads pool (f pool addr))
    (order : List String) (pool : Pool) : Leads pool (order.foldl f pool) := by
  induction order generalizing pool with
  | nil => exact ⟨[], rfl⟩
  | cons addr order ih => exact (h pool addr).trans (ih (f pool addr))

theorem run_entry {pool : Pool} {pe : PoolEntry} (hi : pool.conns[i]? = some pe)
    (hr : run step pe.entry evs = some entry) :
    run poolStep pool (evs.map (.entry i)) =
      some { pool with conns := pool.conns.set i { pe with entry } } := by
  induction evs generalizing pool pe with
  | nil =>
    cases hr
    obtain ⟨hlt, rfl⟩ := List.getElem?_eq_some_iff.mp hi
    rw [List.set_getElem_self]
    rfl
  | cons ev evs ih =>
    obtain ⟨m, hm, hrest⟩ := Run.run_cons hr
    have hstep : poolStep pool (.entry i ev) =
        some { pool with conns := pool.conns.set i { pe with entry := m } } := by
      simp only [poolStep, hi, hm, Option.map_some]
    have hset : (pool.conns.set i { pe with entry := m })[i]? = some { pe with entry := m } :=
      Slots.getElem?_set_of hi _
    rw [List.map_cons, run, hstep, Option.bind_some, ih hset hrest, List.set_set]

theorem leads_addServer (pool : Pool) (srv : ServerNode) (f : RouteFunc) (out : Outcome) :
    Leads pool (addServer pool srv f out) := by
  have hrun : run step (adding srv) out.events = some (out.entry srv) := by cases out <;> rfl
  have hlast : (pool.conns ++ [PoolEntry.mk srv (adding srv)])[pool.conns.length]? =
      some ⟨srv, adding srv⟩ := by simp
  refine ⟨.addServer srv f :: out.events.map (.entry pool.conns.length), ?_⟩
  rw [run, poolStep, Option.bind_some, run_entry hlast hrun]
  simp [addServer]

theorem stopFirst_set (addr : String) (conns : List PoolEntry) :
    stopFirst addr conns = conns ∨ ∃ (i : Nat) (pe : PoolEntry), conns[i]? = some pe ∧
      stopFirst addr conns = conns.set i { pe with entry := stop pe.entry } := by
  induction conns with
  | nil => exact .inl rfl
  | cons pe conns ih =>
    unfold stopFirst
    split
    next => exact .inr ⟨0, pe, rfl, rfl⟩
    next =>
      rcases ih with heq | ⟨i, qe, hi, heq⟩
      · exact .inl (congrArg (pe :: ·) heq)
      · exact .inr ⟨i + 1, qe, hi, congrArg (pe :: ·) heq⟩

theorem leads_removeServer (pool : Pool) (addr : String) : Leads pool (removeServer pool addr) := by
  rcases stopFirst_set addr pool.conns with heq | ⟨i, pe, hi, heq⟩
  · exact ⟨[], by rw [run, removeServer, heq]⟩
  · refine ⟨[.entry i .stop], ?_⟩
    simp [run, poolStep, hi, step, removeServer, heq]

theorem leads_sync (pool : Pool) (call : SyncCall) : Leads pool (sync pool call) := by
  have hadd : ∀ pool' addr, Leads pool' (addWanted call (serverAddrs pool) pool' addr) := by
    intro pool' addr
    unfold addWanted
    split
    next srv _ =>
      split
      · exact ⟨[], rfl⟩
      · exact leads_addServer pool' srv call.routeFn _
    next => exact ⟨[], rfl⟩
  have hremove : ∀ pool' addr, Leads pool' (removeUnwanted call pool' addr) := by
    intro pool' addr
    unfold removeUnwanted
    split
    · exact ⟨[], rfl⟩
    · exact leads_removeServer pool' addr
  refine ((leads_foldl hadd call.wantedOrder pool).trans
    (leads_foldl hremove call.currentOrder _)).trans ?_
  exact ⟨[.setRouteFn call.routeFn], rfl⟩

-- ---------------------------------------------------------------------------
-- Sequences of calls
-- ---------------------------------------------------------------------------

/-- After each call of any sequence, whatever the orders and outcomes: the
running entries are the wanted servers but for those that timed out, each once,
entries that stay are untouched; and if none timed out the same call again
changes nothing. -/
theorem sync_converges (h0 : (serverAddrs pool₀).Nodup) (ha : Along (total sync) Ranges pool₀ calls)
    (hr : Ranges (calls.foldl sync pool₀) call) :
    Converged (calls.foldl sync pool₀) call (sync (calls.foldl sync pool₀) call) ∧
      ((∀ addr, ¬ TimesOut (calls.foldl sync pool₀) call addr) →
        ∀ call' : SyncCall, call'.servers = call.servers → call'.routeFn = call.routeFn →
          Ranges (sync (calls.foldl sync pool₀) call) call' →
            sync (sync (calls.foldl sync pool₀) call) call' =
              sync (calls.foldl sync pool₀) call) := by
  have hnodup : (serverAddrs (calls.foldl sync pool₀)).Nodup :=
    Run.total_invariant (P := fun pool => (serverAddrs pool).Nodup)
      (fun _ _ h hc => (converged_sync h hc).distinct) h0 ha
  have hconv := converged_sync hnodup hr
  refine ⟨hconv, fun hnone call' hservers hroute hr' => ?_⟩
  have hsame : ∀ addr, addr ∈ serverAddrs (sync (calls.foldl sync pool₀) call) ↔
      addr ∈ (wanted call'.servers).keys := by
    intro addr
    rw [hconv.addrs addr, mem_keys_wanted, hservers, and_iff_left (hnone addr)]
  rw [sync_same hr' hsame, hroute]
  rfl

def callFor (pool : Pool) (servers : List ServerNode) (routeFn : RouteFunc)
    (outcome : String → Outcome) :
    SyncCall :=
  { servers, routeFn, outcome
    wantedOrder := (servers.map (·.listen)).dedup
    currentOrder := (serverAddrs pool).dedup }

theorem ranges_callFor (pool : Pool) (servers : List ServerNode) (routeFn : RouteFunc)
    (outcome : String → Outcome) : Ranges pool (callFor pool servers routeFn outcome) := by
  refine ⟨List.nodup_dedup _, fun addr => ?_, List.nodup_dedup _, fun addr => List.mem_dedup⟩
  rw [mem_keys_wanted, callFor, List.mem_dedup, List.mem_map]

def twoRooms : Pool := dialPool Conf.shippedRoomSvrs .direct

-- The first server goes, a new one comes, listed twice.
def replaced : List ServerNode :=
  [⟨"roomsvr-2", "0.0.0.0:8006"⟩, ⟨"roomsvr-3", "0.0.0.0:8007"⟩, ⟨"roomsvr-3", "0.0.0.0:8007"⟩]

def replacing : SyncCall := callFor twoRooms replaced .direct fun _ => .connects

theorem replacing_converges :
    (∀ addr, addr ∈ serverAddrs (sync twoRooms replacing) ↔ ∃ srv ∈ replaced, srv.listen = addr) ∧
      ∀ call', call'.servers = replaced → call'.routeFn = .direct →
        Ranges (sync twoRooms replacing) call' →
        sync (sync twoRooms replacing) call' = sync twoRooms replacing := by
  have hnone : ∀ addr, ¬ TimesOut twoRooms replacing addr := fun _ h => by cases h.2.2
  obtain ⟨hconv, hagain⟩ := @sync_converges twoRooms [] replacing (by decide) trivial
    (ranges_callFor twoRooms replaced .direct _)
  refine ⟨fun addr => ?_, hagain hnone⟩
  exact (hconv.addrs addr).trans (and_iff_left (hnone addr))

end Cardwar.Pkg
