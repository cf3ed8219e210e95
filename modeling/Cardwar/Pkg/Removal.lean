import Cardwar.Pkg.Reconnects

/-!
# Removed servers

RemoveServer, Close and AddServer's time-out mark an entry as stopped and ask
the connection it has to stop. What was on its way then still arrives:
OnConnStart of Dial and the success path of `reconnectLoop` do not look at the
mark, and AddServer's OnConnStart looks at it and leaves the connection open.
`removed_closed` says when a stopped entry keeps nothing.
-/

namespace Cardwar.Pkg

open Conf (ServerNode)
open Run (run Along)

/-- Nothing is on its way to the entry, only `target` is open, and a healthy
entry has a live connection. -/
structure Settled (e : Entry) (target : Option Nat) : Prop where
  opened : ∀ k, Open e k → target = some k
  handover : ∀ k, ¬ InHandover e k
  live : e.healthy = true → ∃ k, e.conn = some k ∧ Live e k

/-- The entry is stopped when it is settled, and what connects later has been
given up: its Stop was requested and no loop waits for it. -/
def Removable (e : Entry) : Event → Prop
  | .stop => e.stopped = false → Settled e e.conn
  | .addTimeout => e.stopped = false → Settled e (some 0)
  | .connStart k => e.stopped = true → ∀ a ∈ e.attempts.load k,
      a.stopRequested = true ∧ ∀ l, e.loops.load l ≠ some (.waiting k)
  | _ => True

/-- No loop is left and no callback is due: neither a nil nor the OnConnStop of
a connection that was asked to stop. -/
def Quiet (e : Entry) : Prop :=
  e.loops = ∅ ∧ ∀ k ∈ e.attempts.keys, ∀ a ∈ e.attempts.load k,
    a.nilPending = false ∧ (a.stopRequested = true → a.phase ≠ .live)

instance (e : Entry) : Decidable (Quiet e) := by
  unfold Quiet
  infer_instance

theorem inHandover_setAttempt (hk : e.attempts.load k = some a)
    (h : InHandover (setAttempt e k a') j)
    (hslot : a'.slot = .conn → a.slot = .conn ∨ ∀ l, e.loops.load l ≠ some (.waiting k)) :
    InHandover e j := by
  obtain ⟨l, hl | ⟨hl, b, hb, hbs⟩⟩ := h
  · exact ⟨l, .inl hl⟩
  · rw [setAttempt, SyncMap.load_store] at hb
    split at hb
    next hjk =>
      cases hb
      subst hjk
      rcases hslot hbs with hs | hno
      · exact ⟨l, .inr ⟨hl, a, hk, hs⟩⟩
      · exact absurd hl (hno l)
    next => exact ⟨l, .inr ⟨hl, b, hb, hbs⟩⟩

theorem inHandover_requestStop (h : InHandover (requestStop e k) j) : InHandover e j := by
  unfold requestStop at h
  split at h
  next => exact h
  next a ha => exact inHandover_setAttempt ha h .inl

theorem inHandover_onDisconnect (h : InHandover (onDisconnect e) j) : InHandover e j := by
  unfold onDisconnect at h
  split at h
  next => exact h
  next =>
    obtain ⟨l, hl | ⟨hl, hslot⟩⟩ := h
    · simp only [SyncMap.load_store] at hl
      split at hl
      · cases hl
      · exact ⟨l, .inl hl⟩
    · simp only [SyncMap.load_store] at hl
      split at hl
      · cases hl
      · exact ⟨l, .inr ⟨hl, hslot⟩⟩

theorem inHandover_setLoop (hw : ∀ k, ¬ pc.Holds k) (h : InHandover (setLoop e l pc) j) :
    InHandover e j := by
  obtain ⟨i, hi | ⟨hi, hslot⟩⟩ := h
  · simp only [setLoop, SyncMap.load_store] at hi
    split at hi
    · exact absurd (.inr (Option.some.inj hi)) (hw j)
    · exact ⟨i, .inl hi⟩
  · simp only [setLoop, SyncMap.load_store] at hi
    split at hi
    · exact absurd (.inl (Option.some.inj hi)) (hw j)
    · exact ⟨i, .inr ⟨hi, hslot⟩⟩

theorem inHandover_dial (h : InHandover (dial e l) j) : InHandover e j := by
  obtain ⟨i, hi | ⟨hi, a, ha, hslot⟩⟩ := h
  · simp only [dial, setLoop, setAttempt, SyncMap.load_store] at hi
    split at hi
    · cases hi
    · exact ⟨i, .inl hi⟩
  · simp only [dial, setLoop, setAttempt, SyncMap.load_store] at hi ha
    -- The slot of the new attempt is empty.
    split at ha
    next =>
      cases ha
      cases hslot
    next hne =>
      split at hi
      · exact absurd (Pc.waiting.inj (Option.some.inj hi)).symm hne
      · exact ⟨i, .inr ⟨hi, a, ha, hslot⟩⟩

theorem inHandover_delete (h : InHandover { e with loops := e.loops.delete l } j) :
    InHandover e j := by
  obtain ⟨i, hi | ⟨hi, hslot⟩⟩ := h
  · exact ⟨i, .inl (SyncMap.of_load_delete hi).2⟩
  · exact ⟨i, .inr ⟨(SyncMap.of_load_delete hi).2, hslot⟩⟩

theorem live_setAttempt (hk : e.attempts.load k = some a) (hp : a.phase = .live → a'.phase = .live)
    (h : Live e j) : Live (setAttempt e k a') j := by
  rw [Live, has_setAttempt]
  split
  next hjk =>
    obtain ⟨b, hb, hlive⟩ := h
    subst hjk
    obtain rfl := Option.some.inj (hk.symm.trans hb)
    exact hp hlive
  next => exact h

theorem live_requestStop (h : Live e j) : Live (requestStop e k) j := by
  unfold requestStop
  split
  next => exact h
  next a ha => exact live_setAttempt ha id h

theorem settled_requestStop (h : Settled e target) (ht : ∀ k, target = some k → k = j) :
    Settled { requestStop e j with stopped := true } none := by
  obtain ⟨hconn, hhealthy⟩ := conn_requestStop e j
  refine ⟨fun k hk => ?_, fun k hk => h.handover k (inHandover_requestStop hk), fun hh => ?_⟩
  · obtain ⟨hopen, hne⟩ := open_requestStop hk
    exact absurd (ht k (h.opened k hopen)) hne
  · obtain ⟨k, hk, hlive⟩ := h.live (hhealthy ▸ hh)
    exact ⟨k, hconn.trans hk, live_requestStop hlive⟩

theorem settled_stop (h : Settled e target) (ht : target = none ∨ target = e.conn) :
    Settled (stop e) none := by
  unfold stop
  split
  next hc =>
    have hnone : target = none := ht.elim id (·.trans hc)
    subst hnone
    exact ⟨h.opened, h.handover, h.live⟩
  next j hc =>
    refine settled_requestStop h fun k hk => ?_
    rcases ht with rfl | rfl
    · cases hk
    · exact Option.some.inj (hk.symm.trans hc)

theorem settled_onDisconnect (hopen : ∀ k, ¬ Open e k) (hhand : ∀ k, ¬ InHandover e k) :
    Settled (onDisconnect e) none := by
  refine ⟨fun k hk => absurd (open_onDisconnect.mp hk) (hopen k),
    fun k hk => hhand k (inHandover_onDisconnect hk), fun hh => ?_⟩
  unfold onDisconnect at hh
  split at hh <;> cases hh

theorem Settled.started {a' : Attempt} (h : Settled e none) (hk : e.attempts.load k = some a)
    (hlive : a'.phase = .live) (hstop : a'.stopRequested = true)
    (hwait : ∀ l, e.loops.load l ≠ some (.waiting k)) : Settled (setAttempt e k a') none := by
  refine ⟨fun j hj => ?_, fun j hj =>
    h.handover j (inHandover_setAttempt hk hj fun _ => .inr hwait), fun hh => ?_⟩
  · rw [open_setAttempt] at hj
    split at hj
    next => simp [hstop] at hj
    next => exact h.opened j hj
  · obtain ⟨j, hc, hl⟩ := h.live hh
    exact ⟨j, hc, live_setAttempt hk (fun _ => hlive) hl⟩

theorem Settled.setAttempt (h : Settled e none) (hk : e.attempts.load k = some a)
    (hphase : a'.phase = a.phase) (hstop : a'.stopRequested = a.stopRequested)
    (hslot : a'.slot = .conn → a.slot = .conn) : Settled (setAttempt e k a') none := by
  refine ⟨fun j hj => h.opened j (open_of_setAttempt hk (hphase ▸ ·) hstop hj),
    fun j hj => h.handover j (inHandover_setAttempt hk hj fun hs => .inl (hslot hs)), fun hh => ?_⟩
  obtain ⟨j, hc, hl⟩ := h.live hh
  exact ⟨j, hc, live_setAttempt hk (hphase ▸ ·) hl⟩

theorem Settled.setLoop (h : Settled e none) (hw : ∀ k, ¬ pc.Holds k) :
    Settled (setLoop e l pc) none :=
  ⟨h.opened, fun k hk => h.handover k (inHandover_setLoop hw hk), h.live⟩

theorem settled_step (ht : Tracks (· ≠ .dialing) e) (h : Settled e none) (hstop : e.stopped = true)
    (hok : Removable e ev) (hs : step e ev = some e') : Settled e' none := by
  cases stepped hs with
  | @startDial k a sid hk hp hkind =>
    obtain ⟨hreq, hwait⟩ := hok hstop a hk
    have hset : Settled (setAttempt e k { a with phase := .live }) none :=
      h.started hk rfl hreq hwait
    refine ⟨hset.opened, hset.handover, fun _ => ⟨k, rfl, ?_⟩⟩
    exact ⟨_, SyncMap.load_store_self .., rfl⟩
  | startAdd hk hp hkind hrun => simp [hstop] at hrun
  | @startStopped k a sid hk hp hkind _ =>
    obtain ⟨hreq, hwait⟩ := hok hstop a hk
    exact h.started hk rfl hreq hwait
  | @startLoop k a hk hp hkind =>
    obtain ⟨hreq, hwait⟩ := hok hstop a hk
    exact h.started hk rfl hreq hwait
  | setServerID hk hp hnone hkind => exact h.setAttempt hk rfl rfl id
  | @connStop k a hk hp =>
    refine settled_onDisconnect (fun j hj => ?_) fun j hj =>
      h.handover j (inHandover_setAttempt hk hj .inl)
    cases h.opened j (open_connStop (open_onDisconnect.mpr hj)).1
  | @nilSend k a hk =>
    refine h.setAttempt hk rfl rfl fun hslot => ?_
    split at hslot
    · cases hslot
    · exact hslot
  | onDisconnect => exact settled_onDisconnect (fun k hk => by cases h.opened k hk) h.handover
  | addTimeout => exact settled_requestStop h fun k hk => by cases hk
  | @dial l hl =>
    refine ⟨fun k hk => h.opened k (open_dial hk), fun k hk => h.handover k (inHandover_dial hk),
      fun hh => ?_⟩
    obtain ⟨k, hc, a, ha, hlive⟩ := h.live hh
    have hne : k ≠ e.nextAttempt := Nat.ne_of_lt (ht.fresh k a ha)
    exact ⟨k, hc, a, by simp [dial, setLoop, setAttempt, hne, ha], hlive⟩
  | @recvConn l k a hl hk hslot => exact absurd ⟨l, .inr ⟨hl, a, hk, hslot⟩⟩ (h.handover k)
  | @recvNil l k a hl hk =>
    have hset : Settled (setAttempt e k { a with slot := .empty }) none :=
      h.setAttempt hk rfl rfl fun hslot => by cases hslot
    exact hset.setLoop (by simp [Pc.Holds])
  | @timeout l k hl =>
    have hreq := settled_requestStop (j := k) h fun _ hk => by cases hk
    exact Settled.setLoop ⟨hreq.opened, hreq.handover, hreq.live⟩ (by simp [Pc.Holds])
  | @install l k hl => exact absurd ⟨l, .inl hl⟩ (h.handover k)
  | fail hl =>
    unfold fail
    rw [if_pos hstop]
    exact ⟨h.opened, fun k hk => h.handover k (inHandover_delete hk), h.live⟩
  | stop => exact settled_stop h (.inl rfl)

theorem removed_step (ht : Tracks (· ≠ .dialing) e) (h : e.stopped = true → Settled e none)
    (hok : Removable e ev) (hs : step e ev = some e') (hstop : e'.stopped = true) :
    Settled e' none := by
  cases hwas : e.stopped with
  | true => exact settled_step ht (h hwas) hwas hok hs
  | false =>
    -- The entry was running: this step stops it.
    cases stepped hs with
    | @connStop k a hk hp =>
      have hsame : (connStop e k a).stopped = e.stopped := stopped_onDisconnect _
      simp [hsame, hwas] at hstop
    | onDisconnect => simp [stopped_onDisconnect, hwas] at hstop
    | addTimeout => exact settled_requestStop (hok hwas) fun k hk => (Option.some.inj hk).symm
    | timeout hl => simp [setLoop, stopped_requestStop, hwas] at hstop
    | fail hl => simp [fail, setLoop, hwas] at hstop
    | stop => exact settled_stop (hok hwas) (.inr rfl)
    -- The other steps do not touch the mark.
    | _ => simp_all [setAttempt, setLoop, nilSend, dial, install]

/-- If entries are stopped only when nothing is on its way to them, and nothing
connects afterwards but what was given up: every connection of a stopped entry
has dropped or was asked to stop, and once all callbacks and loop steps have
run the entry is not healthy. -/
theorem removed_closed (ha : Along poolStep (EachEntry Removable) (dialPool servers f) evs)
    (hr : run poolStep (dialPool servers f) evs = some pool) :
    ∀ pe ∈ pool.conns, pe.entry.stopped = true →
      (∀ k a, pe.entry.attempts.load k = some a → a.phase = .live → a.stopRequested = true) ∧
      (Quiet pe.entry → pe.entry.healthy = false) := by
  intro pe hpe hstop
  obtain ⟨-, hset⟩ : Tracks (· ≠ .dialing) pe.entry ∧
    (pe.entry.stopped = true → Settled pe.entry none) := by
    refine entries_invariant
      (P := fun e => Tracks (· ≠ .dialing) e ∧ (e.stopped = true → Settled e none))
      (fun srv => ⟨tracks_dialing srv, fun hst => by cases hst⟩)
      (fun srv => ⟨tracks_adding srv, fun hst => by cases hst⟩) ?_ ha hr pe hpe
    exact fun e ev e' h hok hs =>
      ⟨tracks_step (by simp) h.1 (fun _ _ => .inl (by simp)) hs, removed_step h.1 h.2 hok hs⟩
  have h := hset hstop
  have hreq : ∀ k a, pe.entry.attempts.load k = some a → a.phase = .live →
      a.stopRequested = true := by
    intro k a hk hlive
    by_contra hno
    cases h.opened k ⟨a, hk, hlive, by simpa using hno⟩
  refine ⟨hreq, fun hq => Bool.eq_false_iff.mpr fun hh => ?_⟩
  obtain ⟨k, -, a, hk, hlive⟩ := h.live hh
  exact (hq.2 k (by simp [hk]) a hk).2 (hreq k a hk hlive) hlive

-- The server is removed, and its connection stops.
def removedConnected : List PoolEvent :=
  [.connStart 0, .setServerID 0, .stop, .connStop 0].map (.entry 0)

theorem settled_connected : Settled connected connected.conn := by
  refine ⟨?_, ?_, fun _ => ⟨0, rfl, _, SyncMap.load_store_self .., rfl⟩⟩
  · rintro k ⟨a, hk, -⟩
    have hzero : k = 0 := by
      by_contra hne
      simp [connected, setAttempt, dialing, hne] at hk
    rw [hzero, connected]
  · rintro k ⟨l, hl | ⟨hl, -⟩⟩
    · simp [connected, setAttempt, dialing] at hl
    · simp [connected, setAttempt, dialing] at hl

theorem removedConnected_closed :
    (poolAfter removedConnected).conns.length = 1 ∧
      ∀ pe ∈ (poolAfter removedConnected).conns, pe.entry.stopped = true ∧ Quiet pe.entry ∧
        pe.entry.healthy = false := by
  have hstate :
      ∀ pe ∈ (poolAfter removedConnected).conns, pe.entry.stopped = true ∧ Quiet pe.entry := by
    decide +kernel
  have ha : Along poolStep (EachEntry Removable) (dialPool [node] .hash) removedConnected := by
    refine ⟨fun pe hpe hstop => ?_, fun pool hpool => ⟨fun _ _ => trivial, fun pool' hpool' =>
      ⟨fun pe hpe _ => ?_, fun _ _ => ⟨fun _ _ => trivial, fun _ _ => trivial⟩⟩⟩⟩
    · cases hpe
      cases hstop
    · cases hpool
      cases hpool'
      cases hpe
      exact settled_connected
  have hr : run poolStep (dialPool [node] .hash) removedConnected =
      some (poolAfter removedConnected) := rfl
  refine ⟨by decide +kernel, fun pe hpe => ?_⟩
  obtain ⟨hstop, hquiet⟩ := hstate pe hpe
  exact ⟨hstop, hquiet, (removed_closed ha hr pe hpe hstop).2 hquiet⟩

-- The server is removed while the reconnect loop dials.
def removedDialing : List PoolEvent :=
  [.connStart 0, .setServerID 0, .connStop 0, .dial 0, .stop, .connStart 1, .recv 0, .install 0].map
    (.entry 0)

/-- The loop's connection is stored and stays open in the stopped entry. -/
theorem removedDialing_open :
    run poolStep (dialPool [node] .hash) removedDialing = some (poolAfter removedDialing) ∧
      (poolAfter removedDialing).conns.length = 1 ∧
      ∀ pe ∈ (poolAfter removedDialing).conns, pe.entry.stopped = true ∧ Quiet pe.entry ∧
        pe.entry.healthy = true ∧ pe.entry.conn = some 1 ∧ Open pe.entry 1 := by
  refine ⟨rfl, by decide +kernel, by decide +kernel⟩

end Cardwar.Pkg
