import Cardwar.Etcdutil.Registry

/-!
# The resolver of a service

A client's resolver reads the instances of its service once, opens a watch on their
prefix and reads them again after every response. `ResolveNow` reads beside it, under
a lock that the watch does not take. A change between the first read and the watch is
not reported, a read that fails is not repeated, and a slow `ResolveNow` can publish
what it read before the watch did. Where none of this happens, the resolver has the
registered instances whenever the watch has nothing left to report
(`published_listed`).
-/

namespace Cardwar.Etcdutil.Resolver

open Run (run Along)

structure Snapshot where
  addresses : List Address
  revision : Nat
  deriving DecidableEq

/-- How far `start` is, and after it the goroutine of `watch`. -/
inductive Loop (W : Type)
  | starting
  | started (q : Snapshot)
  | opening
  | waiting (w : W)
  | received (w : W)
  | fetched (w : W) (q : Snapshot)
  | ended

def Loop.watch : Loop W → Option W
  | .waiting w | .received w | .fetched w _ => some w
  | .starting | .started _ | .opening | .ended => none

def Loop.built : Loop W → Bool
  | .starting | .started _ => false
  | .opening | .waiting _ | .received _ | .fetched .. | .ended => true

def Loop.unwatched : Loop W → Bool
  | .started _ | .opening => true
  | .starting | .waiting _ | .received _ | .fetched .. | .ended => false

structure State (ι σ L W : Type) where
  cluster : Cluster ι σ L
  /-- How often what is read under the prefix has changed. No code reads this. -/
  revision : Nat := 0
  loop : Loop W := .starting
  /-- What a `ResolveNow` has read and not published. It holds the lock. -/
  now : Option Snapshot := none
  /-- What the last `UpdateState` was called with. -/
  published : Option Snapshot := none
  closed : Bool := false

inductive Event (ι L : Type)
  | registry (e : Etcdutil.Event ι L)
  /-- The `Get` of `update`, called by `start` or by `watch`. -/
  | get (ok : Bool)
  | updateState
  | watch
  | receive (n : Nat)
  | receiveError
  | channelClosed
  | done
  | resolveNow (ok : Bool)
  | resolveNowUpdateState
  | close

-- ---------------------------------------------------------------------------
-- Steps
-- ---------------------------------------------------------------------------

section
variable {ι σ L W : Type} (etcd : LeaseService σ L W String String) (d : Deployment ι)
  (svc : String)

def start : State ι σ L W := { cluster := init etcd }

def State.read (s : State ι σ L W) : Snapshot := ⟨fetch etcd s.cluster.store svc, s.revision⟩

def State.pending (s : State ι σ L W) : Nat :=
  s.loop.watch.elim 0 fun w => etcd.pending w s.cluster.store

def Changed (store store' : σ) : Prop := fetch etcd store' svc ≠ fetch etcd store svc

instance (store store' : σ) : Decidable (Changed etcd svc store store') :=
  inferInstanceAs (Decidable (fetch etcd store' svc ≠ fetch etcd store svc))

def State.registry (s : State ι σ L W) (cluster : Cluster ι σ L) : State ι σ L W :=
  { s with cluster, revision :=
      if Changed etcd svc s.cluster.store cluster.store then s.revision + 1 else s.revision }

variable [DecidableEq ι]

def step (s : State ι σ L W) : Event ι L → Option (State ι σ L W)
  | .registry e => (Etcdutil.step etcd d s.cluster e).map (s.registry etcd svc)
  | .get ok => match s.loop with
    | .starting => some { s with loop := if ok then .started (s.read etcd svc) else .opening }
    | .received w =>
      some { s with loop := if ok then .fetched w (s.read etcd svc) else .waiting w }
    | _ => none
  | .updateState => match s.loop with
    | .started q => some { s with loop := .opening, published := some q }
    | .fetched w q => some { s with loop := .waiting w, published := some q }
    | _ => none
  | .watch => match s.loop with
    | .opening => some { s with loop := .waiting (etcd.watch s.cluster.store (underPrefix svc)) }
    | _ => none
  | .receive n => match s.loop with
    | .waiting w =>
      if n < etcd.pending w s.cluster.store then
        some { s with loop := .received (etcd.receive w s.cluster.store n) }
      else none
    | _ => none
  | .receiveError => match s.loop with
    -- `continue`
    | .waiting _ => some s
    | _ => none
  | .channelClosed => match s.loop with
    | .waiting _ => some { s with loop := .ended }
    | _ => none
  | .done => match s.loop with
    | .waiting _ => if s.closed then some { s with loop := .ended } else none
    | _ => none
  | .resolveNow ok =>
    if s.loop.built ∧ s.now.isNone then
      some (if ok then { s with now := some (s.read etcd svc) } else s)
    else none
  | .resolveNowUpdateState => s.now.map fun q => { s with now := none, published := some q }
  | .close =>
    if s.loop.built ∧ s.now.isNone ∧ ¬ s.closed then some { s with closed := true } else none

/-- The watch is open and has nothing left to report. -/
def State.Quiet (s : State ι σ L W) : Prop :=
  match s.loop with
  | .waiting w => etcd.pending w s.cluster.store = 0
  | _ => False

instance (s : State ι σ L W) : Decidable (s.Quiet etcd) := by
  unfold State.Quiet
  split <;> infer_instance

/-- Nothing changes between the first read and the watch, a read that fails has another
response behind it, and no `ResolveNow` publishes what was read before what is published. -/
def Orderly (s : State ι σ L W) : Event ι L → Prop
  | .registry e => ∀ c ∈ Etcdutil.step etcd d s.cluster e,
    Changed etcd svc s.cluster.store c.store → ¬ s.loop.unwatched
  | .get ok => ok = true ∨ 0 < s.pending etcd
  | .resolveNowUpdateState => ∀ q ∈ s.now, ∀ p ∈ s.published, p.revision ≤ q.revision
  | _ => True

instance (s : State ι σ L W) : DecidablePred (Orderly etcd d svc s)
  | .registry e => inferInstanceAs (Decidable (∀ c ∈ Etcdutil.step etcd d s.cluster e,
      Changed etcd svc s.cluster.store c.store → ¬ s.loop.unwatched))
  | .get ok => inferInstanceAs (Decidable (ok = true ∨ 0 < s.pending etcd))
  | .resolveNowUpdateState =>
    inferInstanceAs (Decidable (∀ q ∈ s.now, ∀ p ∈ s.published, p.revision ≤ q.revision))
  | .updateState | .watch | .receive _ | .receiveError | .channelClosed | .done | .resolveNow _
  | .close => inferInstanceAs (Decidable True)

end

-- ---------------------------------------------------------------------------
-- What is published
-- ---------------------------------------------------------------------------

def Loop.snapshot : Loop W → Option Snapshot
  | .started q | .fetched _ q => some q
  | .starting | .opening | .waiting _ | .received _ | .ended => none

section
variable {ι σ L W : Type} (etcd : LeaseService σ L W String String) (d : Deployment ι)
  (svc : String)

/-- The snapshot was read at most now, and is what a read would give if nothing
changed since. -/
def State.Read (s : State ι σ L W) (q : Snapshot) : Prop :=
  q.revision ≤ s.revision ∧
    (q.revision = s.revision → q.addresses = fetch etcd s.cluster.store svc)

def State.Fresh (s : State ι σ L W) : Prop := ∃ q ∈ s.published, q.revision = s.revision

/-- What is published is as the registry is, or the loop will publish something newer. -/
def State.Current (s : State ι σ L W) : Prop :=
  match s.loop with
  | .started q => q.revision = s.revision
  | .opening => s.Fresh
  | .waiting w => s.Fresh ∨ 0 < etcd.pending w s.cluster.store
  | .fetched w q => q.revision = s.revision ∨ 0 < etcd.pending w s.cluster.store
  | .starting | .received _ | .ended => True

structure Inv (s : State ι σ L W) : Prop where
  registry : Etcdutil.Inv etcd d s.cluster
  watches : ∀ w ∈ s.loop.watch, etcd.Watches w (underPrefix svc) s.cluster.store
  read : ∀ q, q ∈ s.loop.snapshot ∨ q ∈ s.now ∨ q ∈ s.published → s.Read etcd svc q
  current : s.Current etcd

variable {etcd d svc} {s s' : State ι σ L W}

theorem inv_start (hetcd : etcd.Laws) : Inv etcd d svc (start etcd) :=
  ⟨Etcdutil.inv_init hetcd, by simp [start, Loop.watch], by simp [start, Loop.snapshot], trivial⟩

theorem pending_changed (hetcd : etcd.Laws) (hw : etcd.Watches w (underPrefix svc) store)
    (hm : etcd.Moved store store') (hch : Changed etcd svc store store') :
    etcd.pending w store < etcd.pending w store' := by
  by_contra hle
  refine hch ?_
  rw [fetch, fetch, hetcd.range_congr store' store]
  intro k hk
  by_contra hne
  exact hle (hetcd.pending_lt w _ store store' k hw hm hk (Ne.symm hne))

theorem current_changed (hetcd : etcd.Laws) (h : Inv etcd d svc s)
    (hm : etcd.Moved s.cluster.store c.store) (hch : Changed etcd svc s.cluster.store c.store)
    (hgap : ¬ s.loop.unwatched) : (s.registry etcd svc c).Current etcd := by
  have hmore : ∀ w ∈ s.loop.watch, 0 < etcd.pending w c.store := fun w hw =>
    (Nat.zero_le _).trans_lt (pending_changed hetcd (h.watches w hw) hm hch)
  unfold State.Current
  cases hl : s.loop with
  | started | opening => exact absurd (by rw [hl]; rfl) hgap
  | waiting w | fetched w q =>
    simp only [State.registry, hl]
    exact .inr (hmore w (by rw [hl]; rfl))
  | starting | received w | ended => simp only [State.registry, hl]

theorem current_same (hetcd : etcd.Laws) (h : Inv etcd d svc s)
    (hm : c.store = s.cluster.store ∨ etcd.Moved s.cluster.store c.store)
    (hch : ¬ Changed etcd svc s.cluster.store c.store) : (s.registry etcd svc c).Current etcd := by
  have hmore : ∀ w, etcd.pending w s.cluster.store ≤ etcd.pending w c.store := by
    intro w
    rcases hm with heq | hm
    · rw [heq]
    · exact hetcd.pending_le w _ _ hm
  have hcur := h.current
  unfold State.Current at hcur ⊢
  cases hl : s.loop <;> simp only [State.registry, State.Fresh, hl, if_neg hch] at hcur ⊢
  case started | opening => exact hcur
  case waiting w | fetched w q => exact hcur.imp_right fun hp => hp.trans_le (hmore w)

theorem inv_registry [DecidableEq ι] (hetcd : etcd.Laws) (h : Inv etcd d svc s)
    (hs : Stepped etcd d s.cluster c)
    (hgap : Changed etcd svc s.cluster.store c.store → ¬ s.loop.unwatched) :
    Inv etcd d svc (s.registry etcd svc c) := by
  have hmoved := hs.store
  refine ⟨Etcdutil.inv_step hetcd h.registry hs, fun w hw => ?_, fun q hq => ?_, ?_⟩
  · rcases hmoved with heq | hm
    · exact heq ▸ h.watches w hw
    · exact hetcd.watches_moved _ _ _ _ (h.watches w hw) hm
  · obtain ⟨hle, hsame⟩ := h.read q hq
    simp only [State.Read, State.registry]
    split
    next =>
      -- The revision is one that nothing was read at.
      exact ⟨Nat.le_succ_of_le hle, fun heq => absurd heq (Nat.ne_of_lt (Nat.lt_succ_of_le hle))⟩
    next hch =>
      rw [not_not.mp hch]
      exact ⟨hle, hsame⟩
  · by_cases hch : Changed etcd svc s.cluster.store c.store
    · rcases hmoved with heq | hm
      · exact absurd (by rw [heq]) hch
      · exact current_changed hetcd h hm hch (hgap hch)
    · exact current_same hetcd h hmoved hch

theorem Inv.update (h : Inv etcd d svc s) (hcluster : s'.cluster = s.cluster)
    (hrevision : s'.revision = s.revision)
    (hwatches : ∀ w ∈ s'.loop.watch, etcd.Watches w (underPrefix svc) s.cluster.store)
    (hread : ∀ q, q ∈ s'.loop.snapshot ∨ q ∈ s'.now ∨ q ∈ s'.published →
      (q ∈ s.loop.snapshot ∨ q ∈ s.now ∨ q ∈ s.published) ∨ q = s.read etcd svc)
    (hcur : s'.Current etcd) : Inv etcd d svc s' := by
  refine ⟨hcluster ▸ h.registry, hcluster ▸ hwatches, fun q hq => ?_, hcur⟩
  rw [State.Read, hcluster, hrevision]
  rcases hread q hq with hq | rfl
  · exact h.read q hq
  · exact ⟨le_rfl, fun _ => rfl⟩

variable [DecidableEq ι]

theorem inv_get (h : Inv etcd d svc s) (ho : ok = true ∨ 0 < s.pending etcd)
    (hs : step etcd d svc s (.get ok) = some s') : Inv etcd d svc s' := by
  have hwatches := h.watches
  simp only [step] at hs
  split at hs <;> cases hs
  next hl =>
    obtain rfl : ok = true := ho.resolve_right (by simp [State.pending, hl, Loop.watch])
    exact h.update rfl rfl (by simp [Loop.watch]) (by grind [Loop.snapshot]) rfl
  next w hl =>
    rw [hl] at hwatches
    cases ok with
    | true => exact h.update rfl rfl hwatches (by grind [Loop.snapshot]) (.inl rfl)
    | false =>
      have hp : 0 < s.pending etcd := ho.resolve_left Bool.false_ne_true
      rw [State.pending, hl] at hp
      exact h.update rfl rfl hwatches (by grind [Loop.snapshot]) (.inr hp)

theorem inv_updateState (h : Inv etcd d svc s) (hs : step etcd d svc s .updateState = some s') :
    Inv etcd d svc s' := by
  have hcur := h.current
  have hwatches := h.watches
  simp only [step] at hs
  split at hs <;> cases hs
  next q hl =>
    simp only [State.Current, hl] at hcur
    exact h.update rfl rfl (by simp [Loop.watch]) (by grind [Loop.snapshot]) ⟨q, rfl, hcur⟩
  next w q hl =>
    rw [hl] at hwatches
    simp only [State.Current, hl] at hcur
    exact h.update rfl rfl hwatches (by grind [Loop.snapshot])
      (hcur.imp_left fun heq => ⟨q, rfl, heq⟩)

theorem inv_resolveNowUpdateState (h : Inv etcd d svc s)
    (ho : ∀ q ∈ s.now, ∀ p ∈ s.published, p.revision ≤ q.revision)
    (hs : step etcd d svc s .resolveNowUpdateState = some s') : Inv etcd d svc s' := by
  have hcur := h.current
  obtain ⟨q, hq, rfl⟩ := Option.map_eq_some_iff.mp hs
  have hfresh : s.Fresh → q.revision = s.revision := by
    rintro ⟨p, hp, heq⟩
    exact le_antisymm (h.read q (.inr (.inl hq))).1 (heq ▸ ho q hq p hp)
  refine h.update rfl rfl h.watches (by grind [Loop.snapshot]) ?_
  unfold State.Current at hcur ⊢
  cases hl : s.loop with
  | opening =>
    simp only [hl] at hcur
    exact ⟨q, rfl, hfresh hcur⟩
  | waiting w =>
    simp only [hl] at hcur
    exact hcur.imp_left fun hf => ⟨q, rfl, hfresh hf⟩
  | starting | received | ended => trivial
  | started | fetched => simpa only [hl] using hcur

theorem inv_step (hetcd : etcd.Laws) (h : Inv etcd d svc s) (ho : Orderly etcd d svc s e)
    (hs : step etcd d svc s e = some s') : Inv etcd d svc s' := by
  have hcur := h.current
  have hwatches := h.watches
  cases e with
  | registry e =>
    obtain ⟨c, hc, rfl⟩ := Option.map_eq_some_iff.mp hs
    exact inv_registry hetcd h (stepped hc) (ho c hc)
  | get ok => exact inv_get h ho hs
  | updateState => exact inv_updateState h hs
  | watch =>
    simp only [step] at hs
    split at hs <;> cases hs
    next hl =>
      simp only [State.Current, hl] at hcur
      refine h.update rfl rfl ?_ (by grind [Loop.snapshot]) (.inl hcur)
      rintro w ⟨⟩
      exact hetcd.watches_watch _ _
  | receive n =>
    simp only [step] at hs
    split at hs
    next w hl =>
      split at hs <;> cases hs
      next hn =>
        rw [hl] at hwatches
        refine h.update rfl rfl ?_ (by grind [Loop.snapshot]) trivial
        rintro w' ⟨⟩
        exact hetcd.watches_receive w _ _ n (hwatches w rfl) hn
    next => cases hs
  | receiveError =>
    simp only [step] at hs
    split at hs <;> cases hs
    exact h
  | channelClosed =>
    simp only [step] at hs
    split at hs <;> cases hs
    exact h.update rfl rfl (by simp [Loop.watch]) (by grind [Loop.snapshot]) trivial
  | done =>
    simp only [step] at hs
    split at hs
    next hl =>
      split at hs <;> cases hs
      exact h.update rfl rfl (by simp [Loop.watch]) (by grind [Loop.snapshot]) trivial
    next => cases hs
  | resolveNow ok =>
    simp only [step] at hs
    split at hs <;> cases hs
    cases ok with
    | true => exact h.update rfl rfl hwatches (by grind [Loop.snapshot]) hcur
    | false => exact h
  | resolveNowUpdateState => exact inv_resolveNowUpdateState h ho hs
  | close =>
    simp only [step] at hs
    split at hs <;> cases hs
    exact h.update rfl rfl hwatches (by grind) hcur

theorem inv_run (hetcd : etcd.Laws) (h : Inv etcd d svc s)
    (ha : Along (step etcd d svc) (Orderly etcd d svc) s es)
    (hr : run (step etcd d svc) s es = some s') : Inv etcd d svc s' :=
  Run.invariant (fun _ _ _ h ho hs => inv_step hetcd h ho hs) h ha hr

-- ---------------------------------------------------------------------------
-- The loop
-- ---------------------------------------------------------------------------

def Event.refreshes : Event ι L → Prop
  | .receive _ | .get true | .updateState => True
  | _ => False

theorem orderly_of_refreshes (h : Event.refreshes e) (s : State ι σ L W) :
    Orderly etcd d svc s e := by
  cases e with
  | get ok =>
    cases ok with
    | true => exact .inl rfl
    | false => exact h.elim
  | receive | updateState => trivial
  | _ => exact h.elim

/-- How many steps the loop can make until it has nothing to do. -/
def State.work (etcd : LeaseService σ L W String String) (s : State ι σ L W) : Nat :=
  match s.loop with
  | .waiting w => 3 * etcd.pending w s.cluster.store
  | .fetched w _ => 3 * etcd.pending w s.cluster.store + 1
  | .received w => 3 * etcd.pending w s.cluster.store + 2
  | _ => 0

omit [DecidableEq ι] in
theorem work_le (s : State ι σ L W) : s.work etcd ≤ 3 * s.pending etcd + 2 := by
  unfold State.work State.pending
  cases s.loop <;> simp [Loop.watch]

theorem refresh_step (hetcd : etcd.Laws) (hw : s.loop.watch.isSome) (he : Event.refreshes e)
    (hs : step etcd d svc s e = some s') :
    s'.loop.watch.isSome ∧ s'.cluster = s.cluster ∧ s'.work etcd < s.work etcd := by
  cases e with
  | get ok =>
    cases ok with
    | false => exact he.elim
    | true =>
      simp only [step] at hs
      split at hs <;> cases hs
      next hl => simp [hl, Loop.watch] at hw
      next w hl => exact ⟨rfl, rfl, by simp [State.work, hl]⟩
  | updateState =>
    simp only [step] at hs
    split at hs <;> cases hs
    next q hl => simp [hl, Loop.watch] at hw
    next w q hl => exact ⟨rfl, rfl, by simp [State.work, hl]⟩
  | receive n =>
    simp only [step] at hs
    split at hs
    next w hl =>
      split at hs <;> cases hs
      next hn =>
        have hless := hetcd.pending_receive w s.cluster.store n hn
        refine ⟨rfl, rfl, ?_⟩
        simp only [State.work, hl, hless]
        omega
    next => cases hs
  | _ => exact he.elim

theorem refresh_run (hetcd : etcd.Laws) (hw : s.loop.watch.isSome)
    (he : ∀ e ∈ es, Event.refreshes e) (hr : run (step etcd d svc) s es = some s') :
    s'.loop.watch.isSome ∧ s'.cluster = s.cluster ∧ es.length ≤ s.work etcd := by
  induction es generalizing s with
  | nil =>
    cases hr
    exact ⟨hw, rfl, Nat.zero_le _⟩
  | cons e es ih =>
    obtain ⟨m, hm, hrest⟩ := Run.run_cons hr
    obtain ⟨he, hes⟩ := List.forall_mem_cons.mp he
    obtain ⟨hwm, hcluster, hless⟩ := refresh_step hetcd hw he hm
    obtain ⟨hw', hcluster', hlen⟩ := ih hwm hes hrest
    exact ⟨hw', hcluster'.trans hcluster, (Nat.succ_le_succ hlen).trans hless⟩

theorem quiet_or_refreshes (hw : s.loop.watch.isSome) :
    s.Quiet etcd ∨ ∃ e : Event ι L, e.refreshes ∧ (step etcd d svc s e).isSome := by
  cases hl : s.loop with
  | waiting w =>
    by_cases hp : etcd.pending w s.cluster.store = 0
    · exact .inl (by rw [State.Quiet, hl]; exact hp)
    · refine .inr ⟨.receive 0, trivial, ?_⟩
      simp [step, hl, Nat.pos_of_ne_zero hp]
  | received w => exact .inr ⟨.get true, trivial, by simp [step, hl]⟩
  | fetched w q => exact .inr ⟨.updateState, trivial, by simp [step, hl]⟩
  | starting | started | opening | ended => simp [hl, Loop.watch] at hw

-- ---------------------------------------------------------------------------
-- The instances a client has
-- ---------------------------------------------------------------------------

/-- What is published is the instances of the service that are listed, each once. -/
def State.Shows (etcd : LeaseService σ L W String String) (d : Deployment ι) (svc : String)
    (s : State ι σ L W) : Prop :=
  ∃ q ∈ s.published, (q.addresses.map Address.serverName).Nodup ∧ ∀ a, a ∈ q.addresses ↔
    ∃ i, Listed etcd d s.cluster i ∧ d.name i = svc ∧ a = ⟨d.addr i, d.id i⟩

omit [DecidableEq ι] in
theorem Inv.shows (hetcd : etcd.Laws) (h : Inv etcd d svc s)
    (hnames : ∀ i, '/' ∉ (d.name i).toList) (hsvc : '/' ∉ svc.toList) (hq : s.Quiet etcd) :
    s.Shows etcd d svc := by
  have hcur := h.current
  unfold State.Quiet at hq
  split at hq
  next w hl =>
    simp only [State.Current, hl, hq, lt_irrefl, or_false] at hcur
    obtain ⟨q, hpub, hrev⟩ := hcur
    have hfetch := (h.read q (.inr (.inr hpub))).2 hrev
    exact ⟨q, hpub, hfetch ▸ nodup_fetch hetcd _ _, hfetch ▸ mem_fetch hetcd h.registry hnames hsvc⟩
  next => exact hq.elim

/-- When the watch has nothing left to report, the client has the listed instances.
While the prefix is watched the loop gets there, however the watch groups the changes:
its own steps end, and until they do the next one is possible. -/
theorem published_listed (hetcd : etcd.Laws) (hnames : ∀ i, '/' ∉ (d.name i).toList)
    (hsvc : '/' ∉ svc.toList) (ha : Along (step etcd d svc) (Orderly etcd d svc) (start etcd) es)
    (hr : run (step etcd d svc) (start etcd) es = some s) :
    (s.Quiet etcd → s.Shows etcd d svc) ∧
      (s.loop.watch.isSome → ∀ more s', (∀ e ∈ more, Event.refreshes e) →
        run (step etcd d svc) s more = some s' → s'.cluster = s.cluster ∧
          more.length ≤ 3 * s.pending etcd + 2 ∧
          (s'.Shows etcd d svc ∨
            ∃ e : Event ι L, e.refreshes ∧ (step etcd d svc s' e).isSome)) := by
  have hinv := inv_run hetcd (inv_start hetcd) ha hr
  refine ⟨hinv.shows hetcd hnames hsvc, fun hw more s' hmore hrun => ?_⟩
  obtain ⟨hw', hcluster, hlen⟩ := refresh_run hetcd hw hmore hrun
  have horderly : Along (step etcd d svc) (Orderly etcd d svc) s more :=
    Run.along_of_forall (fun e he m => orderly_of_refreshes (hmore e he) m) s
  have hinv' := inv_run hetcd hinv horderly hrun
  refine ⟨hcluster, hlen.trans (work_le s), ?_⟩
  exact (quiet_or_refreshes hw').imp_left (hinv'.shows hetcd hnames hsvc)

end

-- An instance is registered while a ResolveNow runs.
def registeredBeside : List (Event Bool Nat) :=
  [.get true, .registry (.connect true true), .registry (.grant true true true),
    .updateState, .watch, .resolveNow true, .registry (.put true true true), .receive 0, .get true]

theorem registeredBeside_shown :
    ∃ s, run (step leasedEtcd userServices "user-service") (start leasedEtcd)
        (registeredBeside ++ [.resolveNowUpdateState, .updateState]) = some s ∧
      s.Shows leasedEtcd userServices "user-service" := by
  have hrun : ∃ s ∈ run (step leasedEtcd userServices "user-service") (start leasedEtcd)
      (registeredBeside ++ [.resolveNowUpdateState, .updateState]), s.Quiet leasedEtcd := by
    decide +kernel
  obtain ⟨s, hs, hquiet⟩ := hrun
  refine ⟨s, hs, ?_⟩
  exact (published_listed leasedEtcd_laws (by decide) (by decide) (by decide +kernel) hs).1 hquiet

-- Its answer is older and is published last.
def overtaken : List (Event Bool Nat) :=
  registeredBeside ++ [.updateState, .resolveNowUpdateState]

-- An instance is registered after the first read and before the watch.
def unwatched : List (Event Bool Nat) :=
  [.get true, .registry (.connect true true), .registry (.grant true true true),
    .registry (.put true true true), .updateState, .watch]

theorem not_shown {es : List (Event Bool Nat)} (h : es = overtaken ∨ es = unwatched) :
    ∃ s, run (step leasedEtcd userServices "user-service") (start leasedEtcd) es = some s ∧
      s.Quiet leasedEtcd ∧ ¬ s.Shows leasedEtcd userServices "user-service" := by
  have hrun : ∃ s ∈ run (step leasedEtcd userServices "user-service") (start leasedEtcd) es,
      s.Quiet leasedEtcd ∧ Listed leasedEtcd userServices s.cluster true ∧
        ∀ q ∈ s.published, q.addresses = [] := by
    rcases h with rfl | rfl <;> decide +kernel
  obtain ⟨s, hs, hq, hlisted, hnone⟩ := hrun
  refine ⟨s, hs, hq, ?_⟩
  rintro ⟨q, hpub, -, hiff⟩
  have hmem := (hiff _).mpr ⟨true, hlisted, rfl, rfl⟩
  rw [hnone q hpub] at hmem
  cases hmem

end Cardwar.Etcdutil.Resolver
