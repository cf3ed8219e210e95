import Cardwar.Pkg.Pool

/-!
# Reconnect loops and the connections they make

OnDisconnect starts a loop only if the entry is not reconnecting, and a loop
clears that flag when it stores a connection, so an entry has at most one loop
(`one_reconnectLoop`). It has at most one connection as long as no client
connects when nobody waits for it any more, and OnDisconnect is not called on
behalf of a connection the entry has already replaced (`one_open_connection`).
-/

namespace Cardwar.Pkg

open Conf (ServerNode)
open Run (run Along)

-- ---------------------------------------------------------------------------
-- The entries of a pool
-- ---------------------------------------------------------------------------

def EachEntry (ok : Entry → Event → Prop) (pool : Pool) : PoolEvent → Prop
  | .entry i ev => ∀ pe ∈ pool.conns[i]?, ok pe.entry ev
  | _ => True

instance {ok : Entry → Event → Prop} [∀ e ev, Decidable (ok e ev)] (pool : Pool) :
    ∀ ev, Decidable (EachEntry ok pool ev)
  | .entry i ev => inferInstanceAs (Decidable (∀ pe ∈ pool.conns[i]?, ok pe.entry ev))
  | .addServer .. => inferInstanceAs (Decidable True)
  | .setRouteFn _ => inferInstanceAs (Decidable True)

section
variable {P : Entry → Prop} {ok : Entry → Event → Prop}

theorem entries_step (hadd : ∀ srv, P (adding srv))
    (keep : ∀ e ev e', P e → ok e ev → step e ev = some e' → P e')
    (h : ∀ pe ∈ pool.conns, P pe.entry) (hok : EachEntry ok pool ev)
    (hs : poolStep pool ev = some pool') :
    ∀ pe ∈ pool'.conns, P pe.entry := by
  intro pe hpe
  cases ev with
  | entry i ev =>
    simp only [poolStep] at hs
    split at hs
    next => cases hs
    next qe hi =>
      obtain ⟨e', hstep, rfl⟩ := Option.map_eq_some_iff.mp hs
      rcases List.mem_or_eq_of_mem_set hpe with hold | rfl
      · exact h pe hold
      · exact keep qe.entry ev e' (h qe (List.mem_of_getElem? hi)) (hok qe hi) hstep
  | addServer srv f =>
    cases hs
    rcases List.mem_append.mp hpe with hold | hnew
    · exact h pe hold
    · obtain rfl := List.mem_singleton.mp hnew
      exact hadd srv
  | setRouteFn f =>
    cases hs
    exact h pe hpe

/-- What the entries of Dial and AddServer start with and every step keeps,
every entry of a pool has. -/
theorem entries_invariant (hdial : ∀ srv, P (dialing srv)) (hadd : ∀ srv, P (adding srv))
    (keep : ∀ e ev e', P e → ok e ev → step e ev = some e' → P e')
    (ha : Along poolStep (EachEntry ok) (dialPool servers f) evs)
    (hr : run poolStep (dialPool servers f) evs = some pool) : ∀ pe ∈ pool.conns, P pe.entry := by
  refine Run.invariant (P := fun pool => ∀ pe ∈ pool.conns, P pe.entry)
    (fun _ _ _ h hok hs => entries_step hadd keep h hok hs) ?_ ha hr
  intro pe hpe
  obtain ⟨srv, -, rfl⟩ := List.mem_map.mp hpe
  exact hdial srv

end

theorem eachEntry_trivial (pool : Pool) (evs : List PoolEvent) :
    Along poolStep (EachEntry fun _ _ => True) pool evs := by
  refine Run.along_of_forall (fun ev _ pool => ?_) pool
  cases ev with
  | entry i ev => exact fun _ _ => trivial
  | addServer srv f => trivial
  | setRouteFn f => trivial

-- ---------------------------------------------------------------------------
-- One loop
-- ---------------------------------------------------------------------------

inductive LoopsChange (e e' : Entry) : Prop
  | same (loops : e'.loops = e.loops) (next : e'.nextLoop = e.nextLoop)
      (flag : e'.reconnecting = e.reconnecting)
  | moved (hl : e.loops.load l = some pc) (loops : e'.loops = e.loops.store l pc')
      (next : e'.nextLoop = e.nextLoop) (flag : e'.reconnecting = e.reconnecting)
  | ended (hl : e.loops.load l = some pc) (loops : e'.loops = e.loops.delete l)
      (next : e'.nextLoop = e.nextLoop)
  | started (hidle : e.reconnecting = false) (hstop : e.stopped = false)
      (loops : e'.loops = e.loops.store e.nextLoop .sleeping) (next : e'.nextLoop = e.nextLoop + 1)
      (flag : e'.reconnecting = true)

theorem loopsChange_onDisconnect (hl : e₁.loops = e.loops) (hn : e₁.nextLoop = e.nextLoop)
    (hf : e₁.reconnecting = e.reconnecting) (hs : e₁.stopped = e.stopped) :
    LoopsChange e (onDisconnect e₁) := by
  unfold onDisconnect
  split
  next => exact .same hl hn hf
  next hno =>
    rw [hf, hs, Bool.or_eq_true, not_or, Bool.not_eq_true, Bool.not_eq_true] at hno
    exact .started hno.1 hno.2 (by simp only [hl, hn]) (by simp only [hn]) rfl

theorem loopsChange_requestStop (e : Entry) (k : Nat) :
    (requestStop e k).loops = e.loops ∧ (requestStop e k).nextLoop = e.nextLoop ∧
      (requestStop e k).reconnecting = e.reconnecting := by
  unfold requestStop
  split <;> exact ⟨rfl, rfl, rfl⟩

theorem loopsChange (hs : step e ev = some e') : LoopsChange e e' := by
  cases stepped hs with
  | startDial hk hp hkind => exact .same rfl rfl rfl
  | startAdd hk hp hkind hstop => exact .same rfl rfl rfl
  | startStopped hk hp hkind hstop => exact .same rfl rfl rfl
  | startLoop hk hp hkind => exact .same rfl rfl rfl
  | setServerID hk hp hnone hkind => exact .same rfl rfl rfl
  | connStop hk hp => exact loopsChange_onDisconnect rfl rfl rfl rfl
  | nilSend hk => exact .same rfl rfl rfl
  | onDisconnect => exact loopsChange_onDisconnect rfl rfl rfl rfl
  | addTimeout =>
    obtain ⟨hl, hn, hf⟩ := loopsChange_requestStop e 0
    exact .same hl hn hf
  | dial hl => exact .moved hl rfl rfl rfl
  | recvConn hl hk hslot => exact .moved hl rfl rfl rfl
  | recvNil hl hk => exact .moved hl rfl rfl rfl
  | @timeout l k hl =>
    obtain ⟨hloops, hn, hf⟩ := loopsChange_requestStop e k
    exact .moved hl (congrArg (SyncMap.store · l _) hloops) hn hf
  | install hl => exact .ended hl rfl rfl
  | fail hl =>
    unfold fail
    split
    · exact .ended hl rfl rfl
    · exact .moved hl rfl rfl rfl
  | stop =>
    unfold stop
    split
    next => exact .same rfl rfl rfl
    next k _ =>
      obtain ⟨hl, hn, hf⟩ := loopsChange_requestStop e k
      exact .same hl hn hf

structure OneLoop (e : Entry) : Prop where
  one : ∀ l l' pc pc', e.loops.load l = some pc → e.loops.load l' = some pc' → l = l'
  busy : ∀ l pc, e.loops.load l = some pc → e.reconnecting = true
  old : ∀ l pc, e.loops.load l = some pc → l < e.nextLoop

theorem oneLoop_of_none (h : ∀ l, e.loops.load l = none) : OneLoop e := by
  have hno : ∀ l pc, e.loops.load l ≠ some pc := fun l pc hl => by simp [h l] at hl
  exact ⟨fun l _ pc _ hl _ => absurd hl (hno l pc), fun l pc hl => absurd hl (hno l pc),
    fun l pc hl => absurd hl (hno l pc)⟩

theorem OneLoop.none_of_idle (h : OneLoop e) (hidle : e.reconnecting = false) (l : Nat) :
    e.loops.load l = none := by
  cases hl : e.loops.load l with
  | none => rfl
  | some pc => simp [h.busy l pc hl] at hidle

theorem OneLoop.none_of_delete (h : OneLoop e) (hl : e.loops.load l = some pc) (j : Nat) :
    (e.loops.delete l).load j = none := by
  cases hj : (e.loops.delete l).load j with
  | none => rfl
  | some pc' =>
    obtain ⟨hne, hold⟩ := SyncMap.of_load_delete hj
    exact absurd (h.one j l pc' pc hold hl) hne

theorem load_of_moved {loops : SyncMap Nat Pc} (hl : loops.load l = some pc)
    (hj : (loops.store l pc').load j = some p) : ∃ p₀, loops.load j = some p₀ := by
  rw [SyncMap.load_store] at hj
  split at hj
  next heq => exact ⟨pc, heq ▸ hl⟩
  next => exact ⟨p, hj⟩

theorem oneLoop_step (h : OneLoop e) (hs : step e ev = some e') : OneLoop e' := by
  cases loopsChange hs with
  | same loops next flag => exact ⟨loops ▸ h.one, loops ▸ flag ▸ h.busy, loops ▸ next ▸ h.old⟩
  | @moved l pc pc' hl loops next flag =>
    have hback : ∀ j p, e'.loops.load j = some p → ∃ p₀, e.loops.load j = some p₀ :=
      fun j p hj => load_of_moved hl (loops ▸ hj)
    refine ⟨fun i j p q hi hj => ?_, fun j p hj => ?_, fun j p hj => ?_⟩
    · obtain ⟨p₀, hi⟩ := hback i p hi
      obtain ⟨q₀, hj⟩ := hback j q hj
      exact h.one i j p₀ q₀ hi hj
    · obtain ⟨p₀, hj⟩ := hback j p hj
      exact flag.trans (h.busy j p₀ hj)
    · obtain ⟨p₀, hj⟩ := hback j p hj
      exact next ▸ h.old j p₀ hj
  | ended hl loops next => exact oneLoop_of_none fun j => loops ▸ h.none_of_delete hl j
  | started hidle hstop loops next flag =>
    have honly : ∀ j p, e'.loops.load j = some p → j = e.nextLoop := by
      intro j p hj
      rw [loops, SyncMap.load_store, h.none_of_idle hidle] at hj
      split at hj
      next heq => exact heq
      next => cases hj
    refine ⟨fun i j p q hi hj => ?_, fun _ _ _ => flag, fun j p hj => ?_⟩
    · rw [honly i p hi, honly j q hj]
    · rw [honly j p hj, next]
      exact Nat.lt_succ_self _

theorem loops_of_stopped (hstop : e.stopped = true) (hs : step e ev = some e')
    (hl : e'.loops.load l = some pc) : ∃ pc₀, e.loops.load l = some pc₀ := by
  cases loopsChange hs with
  | same loops next flag => exact ⟨pc, loops ▸ hl⟩
  | moved hj loops next flag => exact load_of_moved hj (loops ▸ hl)
  | ended hj loops next => exact ⟨pc, (SyncMap.of_load_delete (loops ▸ hl)).2⟩
  | started hidle hrun => simp [hstop] at hrun

/-- Whatever the order of drops, loop steps, removals and additions: an entry
has at most one reconnect loop, it is marked as reconnecting while it has one,
and once stopped it gets no new one. -/
theorem one_reconnectLoop (hr : run poolStep (dialPool servers f) evs = some pool) :
    ∀ pe ∈ pool.conns,
      (∀ l l' pc pc', pe.entry.loops.load l = some pc → pe.entry.loops.load l' = some pc' →
        l = l') ∧
      (∀ l pc, pe.entry.loops.load l = some pc → pe.entry.reconnecting = true) ∧
      (pe.entry.stopped = true → ∀ ev e', step pe.entry ev = some e' →
        ∀ l pc, e'.loops.load l = some pc → ∃ pc₀, pe.entry.loops.load l = some pc₀) := by
  intro pe hpe
  have h : OneLoop pe.entry := by
    have hstep : ∀ e ev e', OneLoop e → True → step e ev = some e' → OneLoop e' :=
      fun _ _ _ h _ hs => oneLoop_step h hs
    exact entries_invariant (fun srv => oneLoop_of_none fun _ => rfl)
      (fun srv => oneLoop_of_none fun _ => rfl) hstep (eachEntry_trivial _ _) hr pe hpe
  exact ⟨h.one, h.busy, fun hstop ev e' hs l pc hl => loops_of_stopped hstop hs hl⟩

def poolAfter (evs : List PoolEvent) : Pool :=
  (run poolStep (dialPool [node] .hash) evs).getD ⟨[], .hash⟩

-- Two calls of OnDisconnect, and a removal while the loop dials.
def reportedTwice : List PoolEvent :=
  [.connStart 0, .setServerID 0, .connStop 0, .onDisconnect, .dial 0, .stop].map (.entry 0)

theorem reportedTwice_one_loop :
    (poolAfter reportedTwice).conns.length = 1 ∧ ∀ pe ∈ (poolAfter reportedTwice).conns,
      pe.entry.loops.load 0 = some (.waiting 1) ∧ ∀ l pc, pe.entry.loops.load l = some pc →
        l = 0 := by
  have hloop :
      ∀ pe ∈ (poolAfter reportedTwice).conns, pe.entry.loops.load 0 = some (.waiting 1) := by decide
  refine ⟨by decide, fun pe hpe => ⟨hloop pe hpe, fun l pc hl => ?_⟩⟩
  have hr : run poolStep (dialPool [node] .hash) reportedTwice = some (poolAfter reportedTwice) :=
    rfl
  exact (one_reconnectLoop hr pe hpe).1 l 0 pc _ hl (hloop pe hpe)

-- ---------------------------------------------------------------------------
-- Open connections
-- ---------------------------------------------------------------------------

/-- OnConnStart has fired, OnConnStop has not, and its Stop was not requested. -/
def Open (e : Entry) (k : Nat) : Prop :=
  ∃ a, e.attempts.load k = some a ∧ a.phase = .live ∧ a.stopRequested = false

instance (e : Entry) (k : Nat) : Decidable (Open e k) :=
  decidable_of_iff (∃ a ∈ e.attempts.load k, a.phase = .live ∧ a.stopRequested = false) Iff.rfl

theorem open_setAttempt : Open (setAttempt e k a) j ↔
    if j = k then a.phase = .live ∧ a.stopRequested = false else Open e j := by
  unfold Open setAttempt
  simp only [SyncMap.load_store]
  split
  next => simp
  next => rfl

theorem open_of_setAttempt (hk : e.attempts.load k = some a)
    (hp : a'.phase = .live → a.phase = .live)
    (hs : a'.stopRequested = a.stopRequested) (ho : Open (setAttempt e k a') j) : Open e j := by
  rw [open_setAttempt] at ho
  split at ho
  next hjk => exact ⟨a, hjk ▸ hk, hp ho.1, hs ▸ ho.2⟩
  next => exact ho

theorem open_requestStop (ho : Open (requestStop e k) j) : Open e j ∧ j ≠ k := by
  unfold requestStop at ho
  split at ho
  next hnone =>
    refine ⟨ho, ?_⟩
    rintro rfl
    obtain ⟨a, ha, -⟩ := ho
    simp [hnone] at ha
  next a ha =>
    rw [open_setAttempt] at ho
    split at ho
    next => simp at ho
    next hne => exact ⟨ho, hne⟩

theorem open_onDisconnect : Open (onDisconnect e) j ↔ Open e j := by
  unfold Open
  rw [attempts_onDisconnect]

theorem open_connStop (ho : Open (connStop e k a) j) : Open e j ∧ j ≠ k := by
  rw [connStop, open_onDisconnect, open_setAttempt] at ho
  split at ho
  next => simp at ho
  next hne => exact ⟨ho, hne⟩

theorem open_dial (ho : Open (dial e l) j) : Open e j := by
  obtain ⟨a, ha, hlive⟩ := ho
  simp only [dial, setLoop, setAttempt, SyncMap.load_store] at ha
  split at ha
  next =>
    cases ha
    simp at hlive
  next => exact ⟨a, ha, hlive⟩

-- ---------------------------------------------------------------------------
-- What holds without a condition
-- ---------------------------------------------------------------------------

def NilDropped (e : Entry) : Prop :=
  ∀ k a, e.attempts.load k = some a → a.slot = .nil ∨ a.nilPending = true → a.phase = .dropped

theorem NilDropped.setAttempt (h : NilDropped e)
    (ha : a.slot = .nil ∨ a.nilPending = true → a.phase = .dropped) :
    NilDropped (setAttempt e k a) := by
  intro j b hb hnil
  rw [Pkg.setAttempt, SyncMap.load_store] at hb
  split at hb
  next =>
    cases hb
    exact ha hnil
  next => exact h j b hb hnil

theorem NilDropped.requestStop (h : NilDropped e) : NilDropped (requestStop e k) := by
  unfold Pkg.requestStop
  split
  next => exact h
  next a ha => exact h.setAttempt (h k a ha)

theorem NilDropped.started (h : NilDropped e) (hk : e.attempts.load k = some a)
    (hp : a.phase = .dialing) :
    a.slot ≠ .nil ∧ a.nilPending = false := by
  refine ⟨fun hnil => ?_, Bool.eq_false_iff.mpr fun hnil => ?_⟩
  · simpa [hp] using h k a hk (.inl hnil)
  · simpa [hp] using h k a hk (.inr hnil)

theorem NilDropped.onDisconnect (h : NilDropped e) : NilDropped (onDisconnect e) := by
  unfold NilDropped
  rw [attempts_onDisconnect]
  exact h

theorem nilDropped_step (h : NilDropped e) (hs : step e ev = some e') : NilDropped e' := by
  have hstart : ∀ k a a', e.attempts.load k = some a → a.phase = .dialing →
      a'.slot ≠ .nil ∨ a'.slot = a.slot → a'.nilPending = a.nilPending →
      NilDropped (setAttempt e k a') := by
    intro k a a' hk hp hslot hpend
    obtain ⟨hnil, hnone⟩ := h.started hk hp
    refine h.setAttempt fun hor => ?_
    rw [hpend, hnone] at hor
    exact absurd hor (by simpa using hslot.elim id fun heq => heq ▸ hnil)
  cases stepped hs with
  | startDial hk hp hkind => exact hstart _ _ _ hk hp (.inr rfl) rfl
  | startAdd hk hp hkind hstop => exact hstart _ _ _ hk hp (.inr rfl) rfl
  | startStopped hk hp hkind hstop => exact hstart _ _ _ hk hp (.inr rfl) rfl
  | startLoop hk hp hkind => exact hstart _ _ _ hk hp (.inl (by simp)) rfl
  | @setServerID k a sid hk hp hnone hkind => exact h.setAttempt (h k a hk)
  | connStop hk hp => exact (h.setAttempt fun _ => rfl).onDisconnect
  | @nilSend k a hk =>
    refine h.setAttempt fun _ => ?_
    -- OnConnStop had still to send it.
    simp only [step, hk] at hs
    split at hs
    next hpend => exact h k a hk (.inr hpend)
    next => cases hs
  | onDisconnect => exact h.onDisconnect
  | addTimeout => exact h.requestStop
  | dial hl => exact h.setAttempt fun hor => by simp at hor
  | @recvConn l k a hl hk hslot => exact h.setAttempt fun hor => h k a hk (hor.imp (by simp) id)
  | @recvNil l k a hl hk => exact h.setAttempt fun hor => h k a hk (hor.imp (by simp) id)
  | timeout hl => exact h.requestStop
  | install hl => exact h
  | fail hl =>
    unfold fail
    split <;> exact h
  | stop =>
    unfold stop
    split
    · exact h
    · exact h.requestStop

theorem recv_failed (hs : step e (.recv l) = some e') (hl : e'.loops.load l = some .failed) :
    ∃ k a, e.loops.load l = some (.waiting k) ∧ e.attempts.load k = some a ∧ a.slot = .nil := by
  simp only [step] at hs
  split at hs
  next k hw =>
    split at hs
    next a hk =>
      split at hs
      next =>
        cases hs
        simp [setLoop] at hl
      next hslot => exact ⟨k, a, hw, hk, hslot⟩
      next => cases hs
    next => cases hs
  next => cases hs

structure Regular (e : Entry) : Prop where
  loops : OneLoop e
  nils : NilDropped e
  tracks : Tracks (· ≠ .dialing) e
  first : e.nextLoop = 0 → e.nextAttempt = 1

theorem Regular.attempt_first (h : Regular e) (h0 : e.nextLoop = 0)
    (hk : e.attempts.load k = some a) :
    k = 0 := by
  have hlt := h.tracks.fresh k a hk
  have hone := h.first h0
  omega

theorem nextAttempt_requestStop (e : Entry) (k : Nat) :
    (requestStop e k).nextAttempt = e.nextAttempt := by
  unfold requestStop
  split <;> rfl

theorem nextAttempt_onDisconnect (e : Entry) : (onDisconnect e).nextAttempt = e.nextAttempt := by
  unfold onDisconnect
  split <;> rfl

theorem nextAttempt_step (hs : step e ev = some e') :
    e'.nextAttempt = e.nextAttempt ∨ ∃ l pc, e.loops.load l = some pc := by
  cases stepped hs with
  | connStop hk hp => exact .inl (nextAttempt_onDisconnect _)
  | onDisconnect => exact .inl (nextAttempt_onDisconnect e)
  | addTimeout => exact .inl (nextAttempt_requestStop e 0)
  | timeout hl => exact .inl (nextAttempt_requestStop e _)
  | dial hl => exact .inr ⟨_, _, hl⟩
  | fail hl => exact .inr ⟨_, _, hl⟩
  | stop =>
    unfold stop
    split
    · exact .inl rfl
    · exact .inl (nextAttempt_requestStop e _)
  -- The other steps do not touch it.
  | _ => exact .inl rfl

theorem nextLoop_le (hs : step e ev = some e') : e.nextLoop ≤ e'.nextLoop := by
  cases loopsChange hs with
  | same loops next flag => exact next.ge
  | moved hl loops next flag => exact next.ge
  | ended hl loops next => exact next.ge
  | started hidle hstop loops next flag => exact next ▸ Nat.le_succ _

theorem regular_step (h : Regular e) (hs : step e ev = some e') : Regular e' := by
  refine ⟨oneLoop_step h.loops hs, nilDropped_step h.nils hs,
    tracks_step (by simp) h.tracks (fun _ _ => .inl (by simp)) hs, fun h0 => ?_⟩
  have hzero : e.nextLoop = 0 := Nat.le_zero.mp (h0 ▸ nextLoop_le hs)
  rcases nextAttempt_step hs with heq | ⟨l, pc, hl⟩
  · exact heq.trans (h.first hzero)
  · have hlt := h.loops.old l pc hl
    omega

theorem nilDropped_first (h : e.attempts = (∅ : SyncMap Nat Attempt).store 0 { kind }) :
    NilDropped e := by
  intro k a hk hnil
  rw [h, SyncMap.load_store] at hk
  split at hk
  next =>
    cases hk
    simp at hnil
  next => simp at hk

theorem regular_dialing (srv : ServerNode) : Regular (dialing srv) :=
  ⟨oneLoop_of_none fun _ => rfl, nilDropped_first rfl, tracks_dialing srv, fun _ => rfl⟩

theorem regular_adding (srv : ServerNode) : Regular (adding srv) :=
  ⟨oneLoop_of_none fun _ => rfl, nilDropped_first rfl, tracks_adding srv, fun _ => rfl⟩

-- ---------------------------------------------------------------------------
-- One open connection
-- ---------------------------------------------------------------------------

/-- A client of Dial connects before a reconnect loop was started for the entry;
one of AddServer before that, or after AddServer gave up on it; one of a loop
while the loop waits for it, or after the loop gave up on it. -/
def InTime (e : Entry) (k : Nat) (a : Attempt) : Prop :=
  match a.kind with
  | .dial _ => e.nextLoop = 0
  | .add _ => e.nextLoop = 0 ∨ e.stopped = true ∧ a.stopRequested = true
  | .loop => a.stopRequested = true ∨ ∃ l ∈ e.loops.keys, e.loops.load l = some (.waiting k)

instance (e : Entry) (k : Nat) (a : Attempt) : Decidable (InTime e k a) := by
  unfold InTime
  split <;> infer_instance

/-- No client connects when nobody waits for it, and OnDisconnect runs for the
entry's own connection or when it has none. -/
def Timely (e : Entry) : Event → Prop
  | .connStart k => ∀ a ∈ e.attempts.load k, InTime e k a
  | .connStop k => e.conn = some k ∨ e.conn = none
  | .onDisconnect => e.conn = none
  | _ => True

instance (e : Entry) : ∀ ev, Decidable (Timely e ev)
  | .connStart k => inferInstanceAs (Decidable (∀ a ∈ e.attempts.load k, InTime e k a))
  | .connStop k => inferInstanceAs (Decidable (e.conn = some k ∨ e.conn = none))
  | .onDisconnect => inferInstanceAs (Decidable (e.conn = none))
  | .setServerID _ | .nilSend _ | .addTimeout | .dial _ | .recv _ | .timeout _ | .install _
  | .fail _ | .stop =>
    inferInstanceAs (Decidable True)

/-- The loop has this connection, or is about to get it. -/
def Pc.Holds (pc : Pc) (k : Nat) : Prop := pc = .waiting k ∨ pc = .received k

structure Owned (e : Entry) : Prop where
  one : ∀ j k, Open e j → Open e k → j = k
  conn : ∀ j k, e.conn = some k → Open e j → j = k
  healthy : e.conn = none → e.healthy = false
  idle : ∀ l pc, e.loops.load l = some pc → e.conn = none
  loop : ∀ l pc j, e.loops.load l = some pc → Open e j → pc.Holds j
  rest : e.conn = none → e.reconnecting = false → e.stopped = false → ∀ j, ¬ Open e j

theorem Owned.of_le (h : Owned e) (hconn : e'.conn = e.conn) (hhealthy : e'.healthy = e.healthy)
    (hrec : e'.reconnecting = e.reconnecting) (hstop : e'.stopped = false → e.stopped = false)
    (hopen : ∀ j, Open e' j → Open e j)
    (hloops : ∀ l pc, e'.loops.load l = some pc →
      (∃ l₀ pc₀, e.loops.load l₀ = some pc₀) ∧ ∀ j, Open e' j → pc.Holds j) : Owned e' where
  one j k hj hk := h.one j k (hopen j hj) (hopen k hk)
  conn j k hc hj := h.conn j k (hconn ▸ hc) (hopen j hj)
  healthy hc := hhealthy.trans (h.healthy (hconn ▸ hc))
  idle l pc hl := by
    obtain ⟨⟨l₀, pc₀, hl₀⟩, -⟩ := hloops l pc hl
    exact hconn.trans (h.idle l₀ pc₀ hl₀)
  loop l pc j hl hj := (hloops l pc hl).2 j hj
  rest hc hr hs j hj := h.rest (hconn ▸ hc) (hrec ▸ hr) (hstop hs) j (hopen j hj)

theorem Owned.of_open (h : Owned e) (hconn : e'.conn = e.conn) (hhealthy : e'.healthy = e.healthy)
    (hrec : e'.reconnecting = e.reconnecting) (hstop : e'.stopped = false → e.stopped = false)
    (hloops : e'.loops = e.loops) (hopen : ∀ j, Open e' j → Open e j) : Owned e' :=
  h.of_le hconn hhealthy hrec hstop hopen fun l pc hl =>
    have hl : e.loops.load l = some pc := hloops ▸ hl
    ⟨⟨l, pc, hl⟩, fun j hj => h.loop l pc j hl (hopen j hj)⟩

theorem Owned.of_moved (h : Owned e) (hl : e.loops.load l = some pc) (hconn : e'.conn = e.conn)
    (hhealthy : e'.healthy = e.healthy) (hrec : e'.reconnecting = e.reconnecting)
    (hstop : e'.stopped = e.stopped) (hloops : e'.loops = e.loops.store l pc')
    (hopen : ∀ j, Open e' j → Open e j) (hnew : ∀ j, Open e' j → pc'.Holds j) : Owned e' := by
  refine h.of_le hconn hhealthy hrec (fun hs => hstop ▸ hs) hopen fun i p hi =>
    ⟨⟨l, pc, hl⟩, fun j hj => ?_⟩
  rw [hloops, SyncMap.load_store] at hi
  split at hi
  next => exact Option.some.inj hi ▸ hnew j hj
  next => exact h.loop i p j hi (hopen j hj)

theorem conn_requestStop (e : Entry) (k : Nat) :
    (requestStop e k).conn = e.conn ∧ (requestStop e k).healthy = e.healthy := by
  unfold requestStop
  split <;> exact ⟨rfl, rfl⟩

theorem owned_requestStop (h : Owned e) : Owned { requestStop e k with stopped := true } := by
  obtain ⟨hconn, hhealthy⟩ := conn_requestStop e k
  obtain ⟨hloops, -, hrec⟩ := loopsChange_requestStop e k
  exact h.of_open hconn hhealthy hrec (fun hs => by simp at hs) hloops fun j hj =>
    (open_requestStop hj).1

theorem owned_onDisconnect (hone : ∀ j k, Open e j → Open e k → j = k)
    (hloop : ∀ l pc j, e.loops.load l = some pc → Open e j → pc.Holds j)
    (hrest : e.reconnecting = false → e.stopped = false → ∀ j, ¬ Open e j) :
    Owned (onDisconnect e) := by
  have hsame : (onDisconnect e).conn = none ∧ (onDisconnect e).healthy = false := by
    unfold onDisconnect
    split <;> exact ⟨rfl, rfl⟩
  refine ⟨fun j k hj hk => hone j k (open_onDisconnect.mp hj) (open_onDisconnect.mp hk),
    fun j k hc _ => by simp [hsame.1] at hc, fun _ => hsame.2, fun _ _ _ => hsame.1, ?_, ?_⟩
  · intro l pc j hl hj
    have hj : Open e j := open_onDisconnect.mp hj
    unfold onDisconnect at hl
    split at hl
    next => exact hloop l pc j hl hj
    next hno =>
      rw [Bool.or_eq_true, not_or, Bool.not_eq_true, Bool.not_eq_true] at hno
      exact absurd hj (hrest hno.1 hno.2 j)
  · intro _ hr hs j hj
    unfold onDisconnect at hr hs
    split at hr
    next hor =>
      rw [if_pos hor] at hs
      exact hrest hr hs j (open_onDisconnect.mp hj)
    next => simp at hr

theorem owned_first (hreg : Regular e) (h0 : e.nextLoop = 0)
    (hhealthy : e.conn = none → e.healthy = false)
    (hrest : e.conn = none → e.stopped = true) : Owned e := by
  have hopen : ∀ j, Open e j → j = 0 := fun j ⟨a, ha, _⟩ => hreg.attempt_first h0 ha
  have hloops : ∀ l pc, e.loops.load l ≠ some pc := by
    intro l pc hl
    have hlt := hreg.loops.old l pc hl
    omega
  refine ⟨fun j k hj hk => (hopen j hj).trans (hopen k hk).symm, fun j k hc hj => ?_, hhealthy,
    fun l pc hl => absurd hl (hloops l pc), fun l pc _ hl => absurd hl (hloops l pc), ?_⟩
  · obtain ⟨a, ha, -⟩ := hreg.tracks.conn k hc
    exact (hopen j hj).trans (hreg.attempt_first h0 ha).symm
  · intro hc _ hs
    simp [hrest hc] at hs

theorem owned_startLoop {a : Attempt} (h : Owned e) (hreg : Regular e)
    (hin : a.stopRequested = true ∨ ∃ l ∈ e.loops.keys, e.loops.load l = some (.waiting k)) :
    Owned (setAttempt e k { a with phase := .live, slot := .conn }) := by
  rcases hin with hstop | ⟨l, -, hl⟩
  · refine h.of_open rfl rfl rfl id rfl fun j hj => ?_
    rw [open_setAttempt] at hj
    split at hj
    next => simp [hstop] at hj
    next => exact hj
  · -- Whatever was open is the connection the loop waits for.
    have hopen : ∀ j, Open (setAttempt e k { a with phase := .live, slot := .conn }) j → j = k := by
      intro j hj
      rw [open_setAttempt] at hj
      split at hj
      next heq => exact heq
      next =>
        exact (h.loop l _ j hl hj).elim (fun hw => (Pc.waiting.inj hw).symm) fun hw => by cases hw
    have hnone : e.conn = none := h.idle l _ hl
    refine ⟨fun i j hi hj => (hopen i hi).trans (hopen j hj).symm, fun _ _ hc _ => ?_,
      h.healthy, h.idle,
      fun i pc j hi hj => ?_, fun _ hr => ?_⟩
    · exact absurd (hnone.symm.trans hc) (by simp)
    · obtain rfl := hreg.loops.one i l _ _ hi hl
      obtain rfl := Option.some.inj (hi.symm.trans hl)
      exact .inl (hopen j hj ▸ rfl)
    · exact absurd ((hreg.loops.busy l _ hl).symm.trans hr) (by simp)

theorem owned_connStop (h : Owned e) (hin : e.conn = some k ∨ e.conn = none) :
    Owned (connStop e k a) := by
  have hopen :
      ∀ j, Open (setAttempt e k { a with phase := .dropped, nilPending := a.kind = .loop }) j →
      Open e j ∧ j ≠ k := fun j hj => open_connStop (open_onDisconnect.mpr hj)
  refine owned_onDisconnect (fun i j hi hj => h.one i j (hopen i hi).1 (hopen j hj).1)
    (fun l pc j hl hj => h.loop l pc j hl (hopen j hj).1) fun hr hs j hj => ?_
  obtain ⟨hj, hne⟩ := hopen j hj
  rcases hin with hc | hc
  · exact hne (h.conn j k hc hj)
  · exact h.rest hc hr hs j hj

theorem owned_install (h : Owned e) (hreg : Regular e) (hl : e.loops.load l = some (.received k)) :
    Owned (install e l k) := by
  have hheld : ∀ j, Open e j → j = k := fun j hj =>
    (h.loop l _ j hl hj).elim (fun hw => by cases hw) fun hw => (Pc.received.inj hw).symm
  have hloops : ∀ i pc, (install e l k).loops.load i ≠ some pc := by
    intro i pc hi
    simp [install, hreg.loops.none_of_delete hl] at hi
  exact ⟨h.one, fun j i hc hj => (hheld j hj).trans (Option.some.inj hc), (fun hc => by cases hc),
    fun i pc hi => absurd hi (hloops i pc), fun i pc _ hi => absurd hi (hloops i pc),
      fun hc => by cases hc⟩

theorem owned_step (hreg : Regular e) (h : Owned e) (hok : Timely e ev) (hs : step e ev = some e') :
    Owned e' := by
  have hreg' : Regular e' := regular_step hreg hs
  cases stepped hs with
  | @startDial k a sid hk hp hkind =>
    have h0 : e.nextLoop = 0 := by
      have hin := hok a hk
      rwa [InTime, hkind] at hin
    exact owned_first hreg' h0 (fun hc => by cases hc) fun hc => by cases hc
  | @startAdd k a sid hk hp hkind hstop =>
    have h0 : e.nextLoop = 0 := by
      have hin := hok a hk
      rw [InTime, hkind] at hin
      exact hin.resolve_right fun hboth => by simp [hstop] at hboth
    exact owned_first hreg' h0 (fun hc => by cases hc) fun hc => by cases hc
  | @startStopped k a sid hk hp hkind hstop =>
    have hin := hok a hk
    rw [InTime, hkind] at hin
    rcases hin with h0 | ⟨-, hreq⟩
    · exact owned_first hreg' h0 h.healthy fun _ => hstop
    · refine h.of_open rfl rfl rfl id rfl fun j hj => ?_
      rw [open_setAttempt] at hj
      split at hj
      next => simp [hreq] at hj
      next => exact hj
  | @startLoop k a hk hp hkind =>
    have hin := hok a hk
    rw [InTime, hkind] at hin
    exact owned_startLoop h hreg hin
  | setServerID hk hp hnone hkind =>
    exact h.of_open rfl rfl rfl id rfl fun j => open_of_setAttempt hk id rfl
  | connStop hk hp => exact owned_connStop h hok
  | nilSend hk => exact h.of_open rfl rfl rfl id rfl fun j => open_of_setAttempt hk id rfl
  | onDisconnect => exact owned_onDisconnect h.one h.loop fun hr hst => h.rest hok hr hst
  | addTimeout => exact owned_requestStop h
  | @dial l hl =>
    refine h.of_moved hl rfl rfl rfl rfl rfl (fun j => open_dial) fun j hj => ?_
    exact absurd (h.loop l _ j hl (open_dial hj)) (by simp [Pc.Holds])
  | @recvConn l k a hl hk hslot =>
    have hopen : ∀ j, Open (setAttempt e k { a with slot := .empty }) j → Open e j :=
      fun j => open_of_setAttempt hk id rfl
    refine h.of_moved hl rfl rfl rfl rfl rfl hopen fun j hj => .inr ?_
    rcases h.loop l _ j hl (hopen j hj) with hw | hw
    · rw [Pc.waiting.inj hw]
    · cases hw
  | @recvNil l k a hl hk =>
    have hopen : ∀ j, Open (setAttempt e k { a with slot := .empty }) j → Open e j :=
      fun j => open_of_setAttempt hk id rfl
    refine h.of_moved hl rfl rfl rfl rfl rfl hopen fun j hj => ?_
    -- The connection the loop waited for has dropped.
    obtain ⟨k', b, hl', hb, hnil⟩ := recv_failed hs (SyncMap.load_store_self ..)
    obtain rfl : k = k' := Pc.waiting.inj (Option.some.inj (hl.symm.trans hl'))
    obtain ⟨c, hc, hlive, -⟩ := hopen j hj
    have hkj : k = j :=
      (h.loop l _ j hl (hopen j hj)).elim (fun hw => Pc.waiting.inj hw) fun hw => by cases hw
    subst hkj
    obtain rfl : b = c := Option.some.inj (hb.symm.trans hc)
    rw [hreg.nils k b hb (.inl hnil)] at hlive
    cases hlive
  | @timeout l k hl =>
    obtain ⟨hconn, hhealthy⟩ := conn_requestStop e k
    obtain ⟨hloops, -, hrec⟩ := loopsChange_requestStop e k
    have hopen : ∀ j, Open (requestStop e k) j → Open e j ∧ j ≠ k := fun j => open_requestStop
    refine h.of_moved hl hconn hhealthy hrec (stopped_requestStop e k)
      (congrArg (SyncMap.store · l _) hloops) (fun j hj => (hopen j hj).1) fun j hj => ?_
    obtain ⟨hj, hne⟩ := hopen j hj
    rcases h.loop l _ j hl hj with hw | hw
    · exact absurd (Pc.waiting.inj hw).symm hne
    · cases hw
  | install hl => exact owned_install h hreg hl
  | @fail l hl =>
    have hnone : ∀ j, ¬ Open e j := fun j hj => absurd (h.loop l _ j hl hj) (by simp [Pc.Holds])
    unfold fail
    split
    · refine h.of_le rfl rfl rfl id (fun j => id) fun i pc hi => ⟨⟨l, _, hl⟩, fun j hj => ?_⟩
      exact absurd hj (hnone j)
    · exact h.of_moved hl rfl rfl rfl rfl rfl (fun j => id) fun j hj => absurd hj (hnone j)
  | stop =>
    unfold stop
    split
    · exact h.of_open rfl rfl rfl (fun hst => by simp at hst) rfl fun j => id
    · exact owned_requestStop h

theorem owned_start (hhealthy : e.healthy = false) (hloops : e.loops = ∅)
    (hattempts : e.attempts = (∅ : SyncMap Nat Attempt).store 0 { kind }) : Owned e := by
  have hopen : ∀ j, ¬ Open e j := by
    rintro j ⟨a, ha, hlive, -⟩
    rw [hattempts, SyncMap.load_store] at ha
    split at ha
    next =>
      cases ha
      cases hlive
    next => simp at ha
  have hnone : ∀ l pc, e.loops.load l ≠ some pc := fun l pc hl => by simp [hloops] at hl
  exact ⟨fun j _ hj => absurd hj (hopen j), fun j _ _ hj => absurd hj (hopen j), fun _ => hhealthy,
    fun l pc hl => absurd hl (hnone l pc), fun l pc _ hl => absurd hl (hnone l pc),
      fun _ _ _ => hopen⟩

/-- If no client connects when nobody waits for it, and OnDisconnect is not
called for a connection the entry has replaced: an entry has at most one open
connection, and a drop of another connection leaves the current one and the
entry's health alone. -/
theorem one_open_connection (ha : Along poolStep (EachEntry Timely) (dialPool servers f) evs)
    (hr : run poolStep (dialPool servers f) evs = some pool) :
    ∀ pe ∈ pool.conns,
      (∀ j k, Open pe.entry j → Open pe.entry k → j = k) ∧
      (∀ k e', Timely pe.entry (.connStop k) → pe.entry.conn ≠ some k →
        step pe.entry (.connStop k) = some e' →
          e'.conn = pe.entry.conn ∧ e'.healthy = pe.entry.healthy) := by
  intro pe hpe
  obtain ⟨hreg, h⟩ : Regular pe.entry ∧ Owned pe.entry := by
    refine entries_invariant (P := fun e => Regular e ∧ Owned e)
      (fun srv => ⟨regular_dialing srv, owned_start rfl rfl rfl⟩)
      (fun srv => ⟨regular_adding srv, owned_start rfl rfl rfl⟩) ?_ ha hr pe hpe
    exact fun _ _ _ h hok hs => ⟨regular_step h.1 hs, owned_step h.1 h.2 hok hs⟩
  refine ⟨h.one, fun k e' hok hne hs => ?_⟩
  have hnone : pe.entry.conn = none := hok.resolve_left hne
  rw [hnone, h.healthy hnone]
  cases stepped hs with
  | connStop hk hp =>
    unfold connStop onDisconnect
    split <;> exact ⟨rfl, rfl⟩

-- A reconnect attempt times out and connects late, after the next one.
def slowRetry : List PoolEvent :=
  [.connStart 0, .setServerID 0, .connStop 0, .dial 0, .timeout 0, .fail 0, .dial 0, .connStart 2,
    .recv 0, .install 0, .connStart 1].map (.entry 0)

theorem slowRetry_one_connection :
    (poolAfter slowRetry).conns.length = 1 ∧
      ∀ pe ∈ (poolAfter slowRetry).conns, Open pe.entry 2 ∧ ∀ j, Open pe.entry j → j = 2 := by
  have hopen : ∀ pe ∈ (poolAfter slowRetry).conns, Open pe.entry 2 := by decide +kernel
  have ha : Along poolStep (EachEntry Timely) (dialPool [node] .hash) slowRetry := by decide +kernel
  have hr : run poolStep (dialPool [node] .hash) slowRetry = some (poolAfter slowRetry) := rfl
  refine ⟨by decide +kernel, fun pe hpe => ⟨hopen pe hpe, fun j hj => ?_⟩⟩
  exact (one_open_connection ha hr pe hpe).1 j 2 hj (hopen pe hpe)

-- Dial's client connects after the reconnect loop's.
def slowDial : List PoolEvent :=
  [.onDisconnect, .dial 0, .connStart 1, .recv 0, .install 0, .connStart 0, .setServerID 0].map
    (.entry 0)

/-- Both connections stay open, and a drop of the one that was replaced marks
the entry as disconnected. -/
theorem slowDial_two_connections :
    run poolStep (dialPool [node] .hash) slowDial = some (poolAfter slowDial) ∧
      (poolAfter slowDial).conns.length = 1 ∧
      ∀ pe ∈ (poolAfter slowDial).conns, Open pe.entry 0 ∧ Open pe.entry 1 ∧
        pe.entry.conn = some 0 ∧ pe.entry.healthy = true ∧
        (step pe.entry (.connStop 1)).map (fun e => (e.conn, e.healthy)) = some (none, false) := by
  refine ⟨rfl, by decide +kernel, by decide +kernel⟩

end Cardwar.Pkg
