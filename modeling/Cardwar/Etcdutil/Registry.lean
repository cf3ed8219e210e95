import Cardwar.Lib.LeasedStore
import Cardwar.Lib.Run

/-!
# Registration in etcd

`grpcserver.New` registers an instance under `/services/<name>/<id>`: a lease, the
key put with it, and a loop that keeps it alive. `GracefulStop` revokes the lease.
Any call can fail, a write can fail after it took effect, an instance can die
anywhere, and any lease can run out. Of etcd nothing is used but the laws of a
`LeaseService`. Whatever happens, what is read under the prefix of a service is
its instances whose key was put and whose lease is there (`fetched_iff`).
-/

namespace Cardwar.Etcdutil

open Run (run)

-- ---------------------------------------------------------------------------
-- Keys
-- ---------------------------------------------------------------------------

def serviceKey (serviceName instanceID : String) : String :=
  "/services/" ++ serviceName ++ "/" ++ instanceID

def servicePrefix (serviceName : String) : String := "/services/" ++ serviceName ++ "/"

def HasPrefix (pre key : String) : Prop := pre.toList <+: key.toList

instance (pre : String) : DecidablePred (HasPrefix pre) :=
  fun key => inferInstanceAs (Decidable (pre.toList <+: key.toList))

def trimPrefix (key pre : String) : String :=
  if HasPrefix pre key then String.ofList (key.toList.drop pre.toList.length) else key

theorem isPrefix_snoc_iff {a b : List α} (ha : x ∉ a) (hb : x ∉ b) (c : List α) :
    a ++ [x] <+: b ++ x :: c ↔ a = b := by
  induction a generalizing b with
  | nil =>
    cases b with
    | nil => simp
    | cons y b =>
      have hne : x ≠ y := fun heq => hb (heq ▸ List.mem_cons_self)
      simp [List.cons_prefix_cons, hne]
  | cons z a ih =>
    obtain ⟨hz, ha⟩ := not_or.mp (List.mem_cons.not.mp ha)
    cases b with
    | nil => simp [List.cons_prefix_cons, Ne.symm hz]
    | cons y b =>
      obtain ⟨-, hb⟩ := not_or.mp (List.mem_cons.not.mp hb)
      simp [List.cons_prefix_cons, ih ha hb]

theorem hasPrefix_serviceKey (hs : '/' ∉ svc.toList) (hn : '/' ∉ name.toList) (id : String) :
    HasPrefix (servicePrefix svc) (serviceKey name id) ↔ svc = name := by
  have hslash : "/".toList = ['/'] := rfl
  simp only [HasPrefix, servicePrefix, serviceKey, String.toList_append, hslash, List.append_assoc,
    List.prefix_append_right_inj, List.singleton_append]
  rw [isPrefix_snoc_iff hs hn, String.toList_inj]

theorem trimPrefix_serviceKey (name id : String) :
    trimPrefix (serviceKey name id) (servicePrefix name) = id := by
  have hkey : (serviceKey name id).toList = (servicePrefix name).toList ++ id.toList := by
    simp only [serviceKey, servicePrefix, String.toList_append, List.append_assoc]
  have hpre : HasPrefix (servicePrefix name) (serviceKey name id) := ⟨id.toList, hkey.symm⟩
  rw [trimPrefix, if_pos hpre, hkey, List.drop_left, String.ofList_toList]

theorem trimPrefix_inj (h : HasPrefix pre k) (h' : HasPrefix pre k')
    (heq : trimPrefix k pre = trimPrefix k' pre) :
    k = k' := by
  obtain ⟨t, ht⟩ := h
  obtain ⟨t', ht'⟩ := h'
  rw [trimPrefix, trimPrefix, if_pos ⟨t, ht⟩, if_pos ⟨t', ht'⟩, ← ht, ← ht', List.drop_left,
    List.drop_left, String.ofList_inj] at heq
  rw [← String.toList_inj, ← ht, ← ht', heq]

-- ---------------------------------------------------------------------------
-- Instances
-- ---------------------------------------------------------------------------

structure Config where
  name : String
  addr : String
  id : String := ""
  etcdEndpoints : List String := []

/-- The id `New` works with; `random` is what `randomHex` gave. -/
def Config.instanceID (cfg : Config) (random : String) : String :=
  if cfg.id = "" then cfg.name ++ "-" ++ random else cfg.id

structure Deployment (ι : Type) where
  server : ι → Config
  random : ι → String

def Deployment.name (d : Deployment ι) (i : ι) : String := (d.server i).name

def Deployment.addr (d : Deployment ι) (i : ι) : String := (d.server i).addr

def Deployment.id (d : Deployment ι) (i : ι) : String := (d.server i).instanceID (d.random i)

def Deployment.key (d : Deployment ι) (i : ι) : String := serviceKey (d.name i) (d.id i)

/-- An instance that is over has the lease its key went in with, if it did. -/
inductive Phase (L : Type)
  | created
  | connected
  | granted (lease : L)
  | put (lease : L)
  /-- `New` returned. Without endpoints there is no lease. -/
  | serving (lease : Option L)
  | failed (lease : Option L)
  | stopped (lease : Option L) (revoked : Bool)
  | crashed (lease : Option L)
  deriving DecidableEq

def Phase.lease : Phase L → Option L
  | .created | .connected | .granted _ => none
  | .put lease => some lease
  | .serving lease | .failed lease | .stopped lease _ | .crashed lease => lease

def Phase.over : Phase L → Bool
  | .failed _ | .stopped .. | .crashed _ => true
  | .created | .connected | .granted _ | .put _ | .serving _ => false

/-- `σ` are the states of etcd. -/
structure Cluster (ι σ L : Type) where
  store : σ
  phase : ι → Phase L
  /-- Who put a key last, and with which lease. No code reads this. -/
  latest : SyncMap String (ι × L)

inductive Event (ι L : Type)
  | connect (i : ι) (ok : Bool)
  /-- A call that returns an error may have been `applied`. -/
  | grant (i : ι) (ok applied : Bool)
  | put (i : ι) (ok applied : Bool)
  | keepAlive (i : ι) (ok : Bool)
  /-- `GracefulStop`; an error of `Revoke` is logged. -/
  | gracefulStop (i : ι) (revoked : Bool)
  | crash (i : ι)
  | expire (lease : L)

section
variable {ι σ L W : Type} (etcd : LeaseService σ L W String String) (d : Deployment ι)

def init : Cluster ι σ L := ⟨etcd.empty, fun _ => .created, ∅⟩

def Cluster.register (c : Cluster ι σ L) (i : ι) (store : σ) (lease : L) : Cluster ι σ L :=
  { c with store, latest := c.latest.store (d.key i) (i, lease) }

def Cluster.enter [DecidableEq ι] (c : Cluster ι σ L) (i : ι) (p : Phase L) : Cluster ι σ L :=
  { c with phase := Function.update c.phase i p }

def step [DecidableEq ι] (c : Cluster ι σ L) : Event ι L → Option (Cluster ι σ L)
  | .connect i ok => match c.phase i with
    | .created => some (c.enter i
        (if (d.server i).etcdEndpoints = [] then .serving none
          else if ok then .connected else .failed none))
    | _ => none
  | .grant i ok applied => match c.phase i with
    | .connected =>
      let (lease, store) := etcd.grant c.store
      some (if ok then { c with store }.enter i (.granted lease)
        else if applied then { c with store }.enter i (.failed none)
        else c.enter i (.failed none))
    | _ => none
  | .put i ok applied => match c.phase i with
    | .granted lease => match etcd.put c.store (d.key i) (d.addr i) lease with
      -- The lease ran out in the meantime.
      | none => some (c.enter i (.failed none))
      | some store => some (if ok then (c.register d i store lease).enter i (.put lease)
          else if applied then (c.register d i store lease).enter i (.failed (some lease))
          else c.enter i (.failed none))
    | _ => none
  | .keepAlive i ok => match c.phase i with
    | .put lease => some (c.enter i (if ok then .serving (some lease) else .failed (some lease)))
    | _ => none
  | .gracefulStop i revoked => match c.phase i with
    | .serving none => some (c.enter i (.stopped none revoked))
    | .serving (some lease) =>
      some ((if revoked then { c with store := etcd.drop c.store lease } else c).enter i
        (.stopped (some lease) revoked))
    | _ => none
  | .crash i =>
    if (c.phase i).over then none else some (c.enter i (.crashed (c.phase i).lease))
  | .expire lease => some { c with store := etcd.drop c.store lease }

inductive Stepped [DecidableEq ι] (c : Cluster ι σ L) : Cluster ι σ L → Prop
  | entered (i : ι) (p : Phase L) (hp : p.lease = (c.phase i).lease)
      (hrun : ∀ lease, p ≠ .stopped (some lease) true) : Stepped c (c.enter i p)
  | granted (i : ι) (p : Phase L) (hi : (c.phase i).lease = none) (hp : p.lease = none) :
      Stepped c ({ c with store := (etcd.grant c.store).2 }.enter i p)
  | put (i : ι) (lease : L) (p : Phase L) (hi : (c.phase i).lease = none)
      (hput : etcd.put c.store (d.key i) (d.addr i) lease = some store)
      (hp : p.lease = some lease) (hrun : ∀ lease, p ≠ .stopped (some lease) true) :
      Stepped c ((c.register d i store lease).enter i p)
  | revoked (i : ι) (lease : L) (hi : c.phase i = .serving (some lease)) :
      Stepped c ({ c with store := etcd.drop c.store lease }.enter i (.stopped (some lease) true))
  | expired (lease : L) : Stepped c { c with store := etcd.drop c.store lease }

variable {etcd d} {c c' : Cluster ι σ L}

theorem stepped [DecidableEq ι] (h : step etcd d c e = some c') : Stepped etcd d c c' := by
  cases e with
  | connect i ok =>
    simp only [step] at h
    split at h <;> cases h
    next hi =>
      refine .entered i _ ?_ ?_
      · rw [hi]
        split
        · rfl
        · split <;> rfl
      · intro lease
        split
        · simp
        · split <;> simp
  | grant i ok applied =>
    simp only [step] at h
    split at h <;> cases h
    next hi =>
      have hnone : (c.phase i).lease = none := by rw [hi]; rfl
      split
      · exact .granted i _ hnone rfl
      · split
        · exact .granted i _ hnone rfl
        · exact .entered i _ hnone.symm (by simp)
  | put i ok applied =>
    simp only [step] at h
    split at h
    next lease hi =>
      have hnone : (c.phase i).lease = none := by rw [hi]; rfl
      split at h <;> cases h
      · exact .entered i _ hnone.symm (by simp)
      next store hput =>
        split
        · exact .put i lease _ hnone hput rfl (by simp)
        · split
          · exact .put i lease _ hnone hput rfl (by simp)
          · exact .entered i _ hnone.symm (by simp)
    next => cases h
  | keepAlive i ok =>
    simp only [step] at h
    split at h <;> cases h
    next lease hi =>
      refine .entered i _ ?_ ?_
      · rw [hi]
        split <;> rfl
      · intro lease
        split <;> simp
  | gracefulStop i revoked =>
    simp only [step] at h
    split at h <;> cases h
    next hi => exact .entered i _ (by rw [hi]; rfl) (by simp)
    next lease hi =>
      cases revoked with
      | true => exact .revoked i lease hi
      | false => exact .entered i _ (by rw [hi]; rfl) (by simp)
  | crash i =>
    simp only [step] at h
    split at h <;> cases h
    exact .entered i _ rfl (by simp)
  | expire lease =>
    cases h
    exact .expired lease

theorem Stepped.store [DecidableEq ι] (hs : Stepped etcd d c c') :
    c'.store = c.store ∨ etcd.Moved c.store c'.store := by
  cases hs with
  | entered => exact .inl rfl
  | granted => exact .inr .grant
  | put i lease p hi hput => exact .inr (.put hput)
  | revoked i lease => exact .inr (.drop lease)
  | expired lease => exact .inr (.drop lease)

end

-- ---------------------------------------------------------------------------
-- What is in the store
-- ---------------------------------------------------------------------------

/-- A key is there exactly while the lease it was last put with is. -/
structure Inv (etcd : LeaseService σ L W String String) (d : Deployment ι) (c : Cluster ι σ L) :
    Prop where
  load : ∀ k v l, etcd.load c.store k = some (v, l) ↔
    ∃ i, c.latest.load k = some (i, l) ∧ v = d.addr i ∧ etcd.alive c.store l
  keyed : ∀ k i l, c.latest.load k = some (i, l) → k = d.key i ∧ (c.phase i).lease = some l
  taken : ∀ i l, (c.phase i).lease = some l →
    etcd.Granted c.store l ∧ ∃ e, c.latest.load (d.key i) = some e
  revoked : ∀ i l, c.phase i = .stopped (some l) true → ¬ etcd.alive c.store l

section
variable {ι σ L W : Type} {etcd : LeaseService σ L W String String} {d : Deployment ι}
  {c c' : Cluster ι σ L}

theorem inv_init (hetcd : etcd.Laws) : Inv etcd d (init etcd) := by
  constructor <;> simp [init, hetcd.load_empty, Phase.lease]

theorem Inv.granted_of_latest (h : Inv etcd d c) (hk : c.latest.load k = some (i, l)) :
    etcd.Granted c.store l :=
  (h.taken i l (h.keyed k i l hk).2).1

theorem inv_grant (hetcd : etcd.Laws) (h : Inv etcd d c) :
    Inv etcd d { c with store := (etcd.grant c.store).2 } := by
  -- The new lease is none that was given before.
  have halive : ∀ l, etcd.Granted c.store l →
      (etcd.alive (etcd.grant c.store).2 l ↔ etcd.alive c.store l) := by
    intro l hl
    rw [hetcd.alive_grant, or_iff_left]
    rintro rfl
    exact hetcd.grant_new c.store hl
  refine ⟨fun k v l => ?_, h.keyed, fun i l hi => ?_, fun i l hi => ?_⟩
  · rw [hetcd.load_grant, h.load]
    exact exists_congr fun i => and_congr_right fun hi => and_congr_right fun _ =>
      (halive l (h.granted_of_latest hi)).symm
  · exact (h.taken i l hi).imp_left (hetcd.granted_grant _ _)
  · exact (halive l (h.taken i l (by rw [hi]; rfl)).1).not.mpr (h.revoked i l hi)

theorem inv_drop (hetcd : etcd.Laws) (h : Inv etcd d c) (lease : L) :
    Inv etcd d { c with store := etcd.drop c.store lease } := by
  refine ⟨fun k v l => ?_, h.keyed, fun i l hi => ?_, fun i l hi hl => ?_⟩
  · rw [hetcd.load_drop, h.load, hetcd.alive_drop]
    constructor
    · rintro ⟨⟨i, hi, hv, hl⟩, hne⟩
      exact ⟨i, hi, hv, hl, hne⟩
    · rintro ⟨i, hi, hv, hl, hne⟩
      exact ⟨⟨i, hi, hv, hl⟩, hne⟩
  · exact (h.taken i l hi).imp_left (hetcd.granted_drop _ _ _)
  · exact h.revoked i l hi ((hetcd.alive_drop ..).mp hl).1

variable [DecidableEq ι]

theorem lease_enter (c : Cluster ι σ L) (i j : ι) (p : Phase L) :
    ((c.enter i p).phase j).lease = if j = i then p.lease else (c.phase j).lease := by
  simp only [Cluster.enter, Function.update_apply]
  split
  · rfl
  · rfl

theorem Inv.enter (h : Inv etcd d c) (hp : p.lease = (c.phase i).lease)
    (hrevoked : ∀ l, p = .stopped (some l) true → ¬ etcd.alive c.store l) :
    Inv etcd d (c.enter i p) := by
  have hlease : ∀ j, ((c.enter i p).phase j).lease = (c.phase j).lease := by
    intro j
    rw [lease_enter]
    split
    next heq => exact heq ▸ hp
    next => rfl
  refine ⟨h.load, fun k j l hj => ?_, fun j l hj => ?_, fun j l hj => ?_⟩
  · rw [hlease]
    exact h.keyed k j l hj
  · rw [hlease] at hj
    exact h.taken j l hj
  · simp only [Cluster.enter, Function.update_apply] at hj
    split at hj
    next => exact hrevoked l hj
    next => exact h.revoked j l hj

theorem inv_put (hetcd : etcd.Laws) (h : Inv etcd d c) (hi : (c.phase i).lease = none)
    (hput : etcd.put c.store (d.key i) (d.addr i) lease = some store) (hp : p.lease = some lease)
    (hrun : ∀ lease, p ≠ .stopped (some lease) true) :
    Inv etcd d ((c.register d i store lease).enter i p) := by
  have halive := hetcd.alive_of_put _ _ _ _ _ hput
  have hgranted := hetcd.granted_put _ _ _ _ _ hput
  constructor
  · intro k v l
    simp only [Cluster.enter, Cluster.register]
    rw [hetcd.load_put _ _ _ _ _ hput, hetcd.alive_put _ _ _ _ _ hput, SyncMap.load_store]
    split
    · constructor
      · rintro ⟨⟩
        exact ⟨i, rfl, rfl, halive⟩
      · rintro ⟨_, ⟨⟩, rfl, -⟩
        rfl
    · exact h.load k v l
  · intro k j l hj
    rw [lease_enter, hp]
    simp only [Cluster.enter, Cluster.register] at hj ⊢
    rw [SyncMap.load_store] at hj
    split at hj
    next hk =>
      cases hj
      exact ⟨hk, if_pos rfl⟩
    next =>
      obtain ⟨hk, hjl⟩ := h.keyed k j l hj
      have hne : j ≠ i := by
        rintro rfl
        cases hi.symm.trans hjl
      exact ⟨hk, (if_neg hne).trans hjl⟩
  · intro j l hj
    rw [lease_enter, hp] at hj
    simp only [Cluster.enter, Cluster.register] at hj ⊢
    rw [SyncMap.load_store]
    split at hj
    next heq =>
      cases hj
      exact ⟨hgranted _ (hetcd.granted_of_alive _ _ halive), _, if_pos (heq ▸ rfl)⟩
    next =>
      obtain ⟨hg, e, he⟩ := h.taken j l hj
      refine ⟨hgranted _ hg, ?_⟩
      split
      · exact ⟨_, rfl⟩
      · exact ⟨e, he⟩
  · intro j l hj
    simp only [Cluster.enter, Cluster.register, Function.update_apply] at hj ⊢
    split at hj
    next => exact absurd hj (hrun l)
    next => exact (hetcd.alive_put _ _ _ _ _ hput l).not.mpr (h.revoked j l hj)

theorem inv_step (hetcd : etcd.Laws) (h : Inv etcd d c) (hs : Stepped etcd d c c') :
    Inv etcd d c' := by
  cases hs with
  | entered i p hp hrun => exact h.enter hp fun l hl => absurd hl (hrun l)
  | granted i p hi hp =>
    refine (inv_grant hetcd h).enter (hp.trans hi.symm) fun l hl => ?_
    rw [hl] at hp
    cases hp
  | put i lease p hi hput hp hrun => exact inv_put hetcd h hi hput hp hrun
  | revoked i lease hi =>
    refine (inv_drop hetcd h lease).enter (congrArg Phase.lease hi).symm ?_
    rintro l ⟨⟩ hl
    exact ((hetcd.alive_drop ..).mp hl).2 rfl
  | expired lease => exact inv_drop hetcd h lease

theorem inv_run (hetcd : etcd.Laws) (hr : run (step etcd d) (init etcd) es = some c) :
    Inv etcd d c :=
  Run.invariant (P := Inv etcd d) (fun _ _ _ h (_ : True) hs => inv_step hetcd h (stepped hs))
    (inv_init hetcd) (Run.along_of_forall (fun _ _ _ => trivial) (init etcd)) hr

end

-- ---------------------------------------------------------------------------
-- What is read
-- ---------------------------------------------------------------------------

structure Address where
  addr : String
  serverName : String
  deriving DecidableEq

def underPrefix (serviceName key : String) : Bool := HasPrefix (servicePrefix serviceName) key

section
variable {ι σ L W : Type} (etcd : LeaseService σ L W String String) (d : Deployment ι)

/-- The addresses `update` makes of what it gets for the prefix. -/
def fetch (store : σ) (serviceName : String) : List Address :=
  (etcd.range store (underPrefix serviceName)).map fun kv =>
    ⟨kv.2, trimPrefix kv.1 (servicePrefix serviceName)⟩

/-- The key of the instance is the one it put, and the lease is there. -/
def Listed (c : Cluster ι σ L) (i : ι) : Prop :=
  ∃ e ∈ c.latest.load (d.key i), e.1 = i ∧ etcd.alive c.store e.2

instance [DecidableEq ι] (c : Cluster ι σ L) (i : ι) : Decidable (Listed etcd d c i) :=
  inferInstanceAs (Decidable (∃ e ∈ c.latest.load (d.key i), e.1 = i ∧ etcd.alive c.store e.2))

variable {etcd d} {c : Cluster ι σ L}

theorem mem_fetch (hetcd : etcd.Laws) (h : Inv etcd d c) (hnames : ∀ i, '/' ∉ (d.name i).toList)
    (hsvc : '/' ∉ svc.toList) (a : Address) :
    a ∈ fetch etcd c.store svc ↔
      ∃ i, Listed etcd d c i ∧ d.name i = svc ∧ a = ⟨d.addr i, d.id i⟩ := by
  simp only [fetch, List.mem_map, Prod.exists, hetcd.mem_range, underPrefix, decide_eq_true_eq]
  constructor
  · rintro ⟨k, v, ⟨hpre, l, hload⟩, rfl⟩
    obtain ⟨i, hi, rfl, hl⟩ := (h.load k v l).mp hload
    obtain ⟨rfl, -⟩ := h.keyed k i l hi
    obtain rfl := (hasPrefix_serviceKey hsvc (hnames i) (d.id i)).mp hpre
    exact ⟨i, ⟨_, hi, rfl, hl⟩, rfl, by rw [Deployment.key, trimPrefix_serviceKey]⟩
  · rintro ⟨i, ⟨⟨_, l⟩, hi, rfl, hl⟩, rfl, rfl⟩
    refine ⟨d.key _, d.addr _, ⟨?_, l, (h.load _ _ l).mpr ⟨_, hi, rfl, hl⟩⟩, ?_⟩
    · exact (hasPrefix_serviceKey hsvc (hnames _) (d.id _)).mpr rfl
    · rw [Deployment.key, trimPrefix_serviceKey]

theorem nodup_fetch (hetcd : etcd.Laws) (store : σ) (svc : String) :
    ((fetch etcd store svc).map Address.serverName).Nodup := by
  have hname : (fetch etcd store svc).map Address.serverName =
      ((etcd.range store (underPrefix svc)).map Prod.fst).map
        fun k => trimPrefix k (servicePrefix svc) := by
    simp [fetch]
  rw [hname]
  refine List.Nodup.map_on (fun k hk k' hk' heq => ?_) (hetcd.nodup_range _ _)
  obtain ⟨⟨_, v⟩, hv, rfl⟩ := List.mem_map.mp hk
  obtain ⟨⟨_, v'⟩, hv', rfl⟩ := List.mem_map.mp hk'
  exact trimPrefix_inj (of_decide_eq_true ((hetcd.mem_range ..).mp hv).1)
    (of_decide_eq_true ((hetcd.mem_range ..).mp hv').1) heq

theorem alive_of_listed (h : Inv etcd d c) (hi : Listed etcd d c i) :
    ∃ l, (c.phase i).lease = some l ∧ etcd.alive c.store l := by
  obtain ⟨⟨_, l⟩, he, rfl, hl⟩ := hi
  exact ⟨l, (h.keyed _ _ l he).2, hl⟩

theorem listed_of_alive (h : Inv etcd d c) (hown : ∀ j, d.key j = d.key i → j = i)
    (hi : (c.phase i).lease = some l) (hl : etcd.alive c.store l) : Listed etcd d c i := by
  obtain ⟨-, ⟨j, l'⟩, he⟩ := h.taken i l hi
  obtain ⟨hkey, hj⟩ := h.keyed _ j l' he
  obtain rfl := hown j hkey.symm
  obtain rfl := Option.some.inj (hi.symm.trans hj)
  exact ⟨_, he, rfl, hl⟩

/-- What is read for a service is its listed instances, each id once. One is listed
only while the lease its key went in with is there, however the instance ended, and
until then if nobody else has its key; and never after its lease was revoked. -/
theorem fetched_iff [DecidableEq ι] (hetcd : etcd.Laws) (hnames : ∀ i, '/' ∉ (d.name i).toList)
    (hsvc : '/' ∉ svc.toList) (hr : run (step etcd d) (init etcd) es = some c) :
    (∀ a, a ∈ fetch etcd c.store svc ↔
      ∃ i, Listed etcd d c i ∧ d.name i = svc ∧ a = ⟨d.addr i, d.id i⟩) ∧
    ((fetch etcd c.store svc).map Address.serverName).Nodup ∧
    ∀ i, (Listed etcd d c i → ∃ l, (c.phase i).lease = some l ∧ etcd.alive c.store l) ∧
      ((∀ j, d.key j = d.key i → j = i) →
        ∀ l, (c.phase i).lease = some l → etcd.alive c.store l → Listed etcd d c i) ∧
      ∀ l, c.phase i = .stopped (some l) true → ¬ Listed etcd d c i := by
  have h := inv_run hetcd hr
  refine ⟨mem_fetch hetcd h hnames hsvc, nodup_fetch hetcd c.store svc, fun i => ?_⟩
  refine ⟨alive_of_listed h, fun hown l => listed_of_alive h hown, fun l hl hlisted => ?_⟩
  obtain ⟨l', hl', halive⟩ := alive_of_listed h hlisted
  rw [hl] at hl'
  cases hl'
  exact h.revoked i l hl halive

end

-- Two instances of the user service. The first is stopped, the second crashes.
def userServices : Deployment Bool where
  server i := ⟨"user-service", if i then ":50051" else ":50052", "", ["localhost:2379"]⟩
  random i := if i then "00c0ffee" else "0badcafe"

def leasedEtcd :
    LeaseService (LeasedStore String String) Nat ((String → Bool) × Nat) String String :=
  LeasedStore.service (· ≤ ·)

theorem leasedEtcd_laws : leasedEtcd.Laws := LeasedStore.laws _

def stopAndCrash : List (Event Bool Nat) :=
  [.connect true true, .connect false true, .grant false true true, .grant true true true,
    .put true true true, .keepAlive true true, .put false true true, .keepAlive false true,
    .gracefulStop true true, .crash false]

theorem stopAndCrash_fetched :
    ∃ c, run (step leasedEtcd userServices) (init leasedEtcd) stopAndCrash = some c ∧
      ∀ a, a ∈ fetch leasedEtcd c.store "user-service" ↔
        a = ⟨":50052", "user-service-0badcafe"⟩ := by
  have hrun : ∃ c ∈ run (step leasedEtcd userServices) (init leasedEtcd) stopAndCrash,
      ∀ i, Listed leasedEtcd userServices c i ↔ i = false := by
    decide +kernel
  obtain ⟨c, hc, hlisted⟩ := hrun
  refine ⟨c, hc, fun a => ?_⟩
  rw [(fetched_iff leasedEtcd_laws (by decide) (by decide) hc).1 a]
  simp only [hlisted, exists_eq_left]
  exact and_iff_right rfl

end Cardwar.Etcdutil
