import Cardwar.Gateway.Reconnect
import Cardwar.Lib.Slots

/-!
# Waiting for SessionSvr

Every `CheckReconnect` of a player puts its channel into the same entry of
`pendingSessionGets`, and deletes the entry on its way out. `HandleSessionGet`
takes the channel that is there and closes it. Here each of these operations is
one step, and the steps of all calls and handlers interleave. As long as the calls
of a player leave each other's entry alone, every answer wakes the call that asked
(`answered_wakes`). What a call or a handler does without interruption is what
`Reconnect` has (`checkReconnect_alone`, `handleSessionGet_alone`, `endWait_alone`).
-/

namespace Cardwar.Gateway.Waiters

open Conf Protocol
open Run (run Along)
open Slots (getElem?_snoc getElem?_of_set getElem?_set_of mem_or_mem_eraseIdx)

inductive Pc
  | stored
  | sent
  | woken
  | timedOut
  | left (timedOut : Bool)
  deriving DecidableEq

structure Call where
  player : Int64
  pc : Pc
  deriving DecidableEq

/-- The channel of a call is its number. -/
structure State where
  pendingSessionGets : SyncMap Int64 Nat := ∅
  calls : List Call := []
  /-- The players of the SessionGets and of the answers in flight. -/
  gets : List Int64 := []
  answers : List Int64 := []
  closing : List Nat := []
  closed : List Nat := []

inductive Event
  /-- `CheckReconnect` up to the `Store`, the `SendMsg`, the two ends of its wait,
  and its deferred `Delete`. -/
  | start (p : Int64)
  | send (i : Nat)
  | wake (i : Nat)
  | timeout (i : Nat)
  | exit (i : Nat)
  /-- SessionSvr answers a SessionGet, or a SessionReconnect. -/
  | answer (k : Nat)
  | reconnected (p : Int64)
  /-- `HandleSessionGet`: the `LoadAndDelete`, and the deferred close. -/
  | handle (k : Nat)
  | close (j : Nat)

def State.move (s : State) (i : Nat) (call : Call) (pc : Pc) : State :=
  { s with calls := s.calls.set i { call with pc } }

def State.exit (s : State) (i : Nat) (call : Call) (timedOut : Bool) : State :=
  { s.move i call (.left timedOut) with
    pendingSessionGets := s.pendingSessionGets.delete call.player }

def State.handle (s : State) (k : Nat) (p : Int64) : State :=
  let (ch, pendingSessionGets) := s.pendingSessionGets.loadAndDelete p
  { s with pendingSessionGets, answers := s.answers.eraseIdx k, closing := s.closing ++ ch.toList }

def step (s : State) : Event → Option State
  | .start p => some { s with
      pendingSessionGets := s.pendingSessionGets.store p s.calls.length
      calls := s.calls ++ [⟨p, .stored⟩] }
  | .send i => match s.calls[i]? with
    | some ⟨p, .stored⟩ => some { s.move i ⟨p, .stored⟩ .sent with gets := s.gets ++ [p] }
    | _ => none
  | .wake i => match s.calls[i]? with
    | some ⟨p, .sent⟩ => if i ∈ s.closed then some (s.move i ⟨p, .sent⟩ .woken) else none
    | _ => none
  | .timeout i => match s.calls[i]? with
    | some ⟨p, .sent⟩ => some (s.move i ⟨p, .sent⟩ .timedOut)
    | _ => none
  | .exit i => match s.calls[i]? with
    | some ⟨p, .woken⟩ => some (s.exit i ⟨p, .woken⟩ false)
    | some ⟨p, .timedOut⟩ => some (s.exit i ⟨p, .timedOut⟩ true)
    | _ => none
  | .answer k => s.gets[k]?.map fun p =>
      { s with gets := s.gets.eraseIdx k, answers := s.answers ++ [p] }
  | .reconnected p => some { s with answers := s.answers ++ [p] }
  | .handle k => s.answers[k]?.map (s.handle k)
  | .close j => s.closing[j]?.map fun ch =>
      { s with closing := s.closing.eraseIdx j, closed := s.closed ++ [ch] }

/-- The SessionGet is sent, and the wait has not timed out. -/
def Pc.Asked : Pc → Prop
  | .sent | .woken | .left false => True
  | .stored | .timedOut | .left true => False

/-- When nothing is in flight, every call that asked has had its channel closed. -/
def Woken (s : State) : Prop :=
  s.gets = [] → s.answers = [] → s.closing = [] →
    ∀ i call, s.calls[i]? = some call → call.pc.Asked → i ∈ s.closed

/-- A call stores its channel when the player has none there, and a call that
leaves finds no other call's there. -/
def Apart (s : State) : Event → Prop
  | .start p => s.pendingSessionGets.load p = none
  | .exit i => ∀ call ∈ s.calls[i]?, ∀ ch ∈ s.pendingSessionGets.load call.player, ch = i
  | _ => True

instance (s : State) : ∀ e, Decidable (Apart s e)
  | .start p => inferInstanceAs (Decidable (s.pendingSessionGets.load p = none))
  | .exit i => inferInstanceAs (Decidable
      (∀ call ∈ s.calls[i]?, ∀ ch ∈ s.pendingSessionGets.load call.player, ch = i))
  | .send _ | .wake _ | .timeout _ | .answer _ | .reconnected _ | .handle _ | .close _ =>
    .isTrue trivial

-- ---------------------------------------------------------------------------
-- The steps
-- ---------------------------------------------------------------------------

inductive Stepped (s : State) : Event → State → Prop
  | start (p : Int64) : Stepped s (.start p) { s with
      pendingSessionGets := s.pendingSessionGets.store p s.calls.length
      calls := s.calls ++ [⟨p, .stored⟩] }
  | send (hi : s.calls[i]? = some ⟨p, .stored⟩) :
      Stepped s (.send i) { s.move i ⟨p, .stored⟩ .sent with gets := s.gets ++ [p] }
  | wake (hi : s.calls[i]? = some ⟨p, .sent⟩) (hclosed : i ∈ s.closed) :
      Stepped s (.wake i) (s.move i ⟨p, .sent⟩ .woken)
  | timeout (hi : s.calls[i]? = some ⟨p, .sent⟩) :
      Stepped s (.timeout i) (s.move i ⟨p, .sent⟩ .timedOut)
  | exit (hi : s.calls[i]? = some ⟨p, pc⟩) (hpc : pc = .woken ∧ b = false ∨ pc = .timedOut ∧
      b = true) :
      Stepped s (.exit i) (s.exit i ⟨p, pc⟩ b)
  | answer (hk : s.gets[k]? = some p) :
      Stepped s (.answer k) { s with gets := s.gets.eraseIdx k, answers := s.answers ++ [p] }
  | reconnected (p : Int64) : Stepped s (.reconnected p) { s with answers := s.answers ++ [p] }
  | handle (hk : s.answers[k]? = some p) : Stepped s (.handle k) (s.handle k p)
  | close (hj : s.closing[j]? = some ch) :
      Stepped s (.close j) { s with closing := s.closing.eraseIdx j, closed := s.closed ++ [ch] }

theorem stepped (hs : step s e = some s') : Stepped s e s' := by
  cases e <;> simp only [step] at hs
  case start p => exact Option.some.inj hs ▸ .start p
  case send i =>
    split at hs <;> cases hs
    next hi => exact .send hi
  case wake i =>
    split at hs
    next hi =>
      split at hs <;> cases hs
      next hclosed => exact .wake hi hclosed
    next => cases hs
  case timeout i =>
    split at hs <;> cases hs
    next hi => exact .timeout hi
  case exit i =>
    split at hs <;> cases hs
    next hi => exact .exit hi (.inl ⟨rfl, rfl⟩)
    next hi => exact .exit hi (.inr ⟨rfl, rfl⟩)
  case answer k =>
    obtain ⟨p, hk, rfl⟩ := Option.map_eq_some_iff.mp hs
    exact .answer hk
  case reconnected p => exact Option.some.inj hs ▸ .reconnected p
  case handle k =>
    obtain ⟨p, hk, rfl⟩ := Option.map_eq_some_iff.mp hs
    exact .handle hk
  case close j =>
    obtain ⟨ch, hj, rfl⟩ := Option.map_eq_some_iff.mp hs
    exact .close hj

-- ---------------------------------------------------------------------------
-- Where a channel is
-- ---------------------------------------------------------------------------

def State.taken (s : State) : List Nat := s.closing ++ s.closed

/-- A channel is in the map under its call's player, or it was taken once. -/
structure Channels (s : State) : Prop where
  nodup : s.taken.Nodup
  made : ∀ ch ∈ s.taken, ch < s.calls.length
  pending : ∀ p ch, s.pendingSessionGets.load p = some ch →
    ch ∉ s.taken ∧ ∃ call, s.calls[ch]? = some call ∧ call.player = p

theorem Channels.move (h : Channels s) (hi : s.calls[i]? = some call) (pc : Pc) :
    Channels (s.move i call pc) := by
  refine ⟨h.nodup, fun ch hch => ?_, fun p ch hp => ?_⟩
  · simpa [State.move] using h.made ch hch
  · obtain ⟨hnot, other, hother, hplayer⟩ := h.pending p ch hp
    refine ⟨hnot, ?_⟩
    by_cases heq : ch = i
    · subst heq
      obtain rfl := Option.some.inj (hi.symm.trans hother)
      exact ⟨_, getElem?_set_of hi _, hplayer⟩
    · exact ⟨other, (List.getElem?_set_ne (Ne.symm heq)).trans hother, hplayer⟩

theorem Channels.exit (h : Channels s) (hi : s.calls[i]? = some call) (timedOut : Bool) :
    Channels (s.exit i call timedOut) := by
  have hmove := h.move hi (.left timedOut)
  exact ⟨hmove.nodup, hmove.made, fun p ch hp => hmove.pending p ch (SyncMap.of_load_delete hp).2⟩

theorem Channels.start (h : Channels s) (p : Int64) : Channels { s with
    pendingSessionGets := s.pendingSessionGets.store p s.calls.length
    calls := s.calls ++ [⟨p, .stored⟩] } := by
  refine ⟨h.nodup, fun ch hch => ?_, fun q ch hq => ?_⟩
  · have hlt := h.made ch hch
    simp only [List.length_append, List.length_singleton]
    omega
  · dsimp only at hq ⊢
    rw [SyncMap.load_store] at hq
    split at hq
    next heq =>
      obtain rfl := Option.some.inj hq
      refine ⟨fun hold => Nat.lt_irrefl _ (h.made _ hold), ⟨p, .stored⟩, ?_, heq.symm⟩
      simp
    next =>
      obtain ⟨hnot, call, hcall, hplayer⟩ := h.pending q ch hq
      refine ⟨hnot, call, ?_, hplayer⟩
      rw [List.getElem?_append_left (List.getElem?_eq_some_iff.mp hcall).1, hcall]

theorem Channels.handle (h : Channels s) (k : Nat) (p : Int64) : Channels (s.handle k p) := by
  have hrest : ∀ q ch, (s.pendingSessionGets.delete p).load q = some ch →
      q ≠ p ∧ s.pendingSessionGets.load q = some ch := fun q ch hq => SyncMap.of_load_delete hq
  cases hp : s.pendingSessionGets.load p with
  | none =>
    have hhandle : s.handle k p =
        { s with
          pendingSessionGets := s.pendingSessionGets.delete p
          answers := s.answers.eraseIdx k } := by
      simp [State.handle, SyncMap.loadAndDelete, hp]
    rw [hhandle]
    exact ⟨h.nodup, h.made, fun q ch hq => h.pending q ch (hrest q ch hq).2⟩
  | some ch =>
    obtain ⟨hnot, call, hcall, hplayer⟩ := h.pending p ch hp
    have htaken : (s.handle k p).taken.Perm (ch :: s.taken) := by
      simp only [State.handle, SyncMap.loadAndDelete, hp, State.taken, Option.toList_some,
        List.append_assoc]
      exact List.perm_middle
    refine ⟨htaken.nodup_iff.mpr (List.nodup_cons.mpr ⟨hnot, h.nodup⟩), fun d hd => ?_,
      fun q d hq => ?_⟩
    · rcases List.mem_cons.mp (htaken.mem_iff.mp hd) with rfl | hd
      · exact (List.getElem?_eq_some_iff.mp hcall).1
      · exact h.made d hd
    · obtain ⟨hne, hq⟩ := hrest q d hq
      obtain ⟨hnotd, calld, hcalld, hplayerd⟩ := h.pending q d hq
      refine ⟨fun hd => ?_, calld, hcalld, hplayerd⟩
      rcases List.mem_cons.mp (htaken.mem_iff.mp hd) with rfl | hd
      · -- One channel has one player.
        obtain rfl := Option.some.inj (hcall.symm.trans hcalld)
        exact hne (hplayerd.symm.trans hplayer)
      · exact hnotd hd

theorem taken_close {s : State} (hj : s.closing[j]? = some ch) :
    (State.taken { s with closing := s.closing.eraseIdx j, closed := s.closed ++ [ch] }).Perm
      s.taken := by
  obtain ⟨hlt, rfl⟩ := List.getElem?_eq_some_iff.mp hj
  have hlast : (s.closing.eraseIdx j ++ (s.closed ++ [s.closing[j]])).Perm
      (s.closing[j] :: (s.closing.eraseIdx j ++ s.closed)) := by
    rw [← List.append_assoc]
    exact List.perm_append_singleton _ _
  exact hlast.trans ((List.getElem_cons_eraseIdx_perm hlt).append_right s.closed)

theorem channels_step (h : Channels s) (hs : step s e = some s') : Channels s' := by
  cases stepped hs with
  | start p => exact h.start p
  | send hi => exact ⟨(h.move hi .sent).nodup, (h.move hi .sent).made, (h.move hi .sent).pending⟩
  | wake hi => exact h.move hi _
  | timeout hi => exact h.move hi _
  | exit hi => exact h.exit hi _
  | answer => exact ⟨h.nodup, h.made, h.pending⟩
  | reconnected => exact ⟨h.nodup, h.made, h.pending⟩
  | handle hk => exact h.handle _ _
  | close hj =>
    have hperm := taken_close hj
    refine ⟨hperm.nodup_iff.mpr h.nodup, fun d hd => h.made d (hperm.mem_iff.mp hd),
      fun q d hq => ?_⟩
    obtain ⟨hnot, hcall⟩ := h.pending q d hq
    exact ⟨fun hd => hnot (hperm.mem_iff.mp hd), hcall⟩

-- ---------------------------------------------------------------------------
-- Every answer finds its channel
-- ---------------------------------------------------------------------------

/-- The channel of a call that waits is in the map or was taken. While it is in the
map, something that will take it is in flight. -/
structure Inv (s : State) : Prop extends Channels s where
  kept : ∀ i call, s.calls[i]? = some call → call.pc = .stored ∨ call.pc = .sent →
    s.pendingSessionGets.load call.player = some i ∨ i ∈ s.taken
  asked : ∀ i call, s.calls[i]? = some call → call.pc = .sent →
    s.pendingSessionGets.load call.player = some i → call.player ∈ s.gets ++ s.answers
  woken : ∀ i call, s.calls[i]? = some call → call.pc = .woken ∨ call.pc = .left false →
    i ∈ s.closed

theorem Inv.awake (h : Inv s) : Woken s := by
  intro hgets hanswers hclosing i call hi hpc
  rcases call with ⟨p, pc⟩
  match pc, hpc with
  | .woken, _ => exact h.woken i _ hi (.inl rfl)
  | .left false, _ => exact h.woken i _ hi (.inr rfl)
  | .sent, _ =>
    rcases h.kept i _ hi (.inr rfl) with hp | htaken
    · have hflight := h.asked i _ hi rfl hp
      rw [hgets, hanswers] at hflight
      cases hflight
    · rwa [State.taken, hclosing, List.nil_append] at htaken

theorem Inv.flight (h : Inv s) (hmore : ∀ p ∈ s.gets ++ s.answers, p ∈ gets ++ answers) :
    Inv { s with gets, answers } :=
  ⟨⟨h.nodup, h.made, h.pending⟩, h.kept, fun i call hi hpc hp => hmore _ (h.asked i call hi hpc hp),
    h.woken⟩

theorem Inv.move (h : Inv s) (hi : s.calls[i]? = some call) (hpc : pc ≠ .stored)
    (hkept : pc = .sent → s.pendingSessionGets.load call.player = some i ∨ i ∈ s.taken)
    (hasked : pc = .sent → call.player ∈ s.gets ++ s.answers)
    (hwoken : pc = .woken ∨ pc = .left false → i ∈ s.closed) : Inv (s.move i call pc) := by
  refine ⟨h.toChannels.move hi pc, fun j other hj hother => ?_, fun j other hj hother hp => ?_,
    fun j other hj hother => ?_⟩
  · rcases getElem?_of_set hj with ⟨rfl, rfl⟩ | ⟨-, hj⟩
    · exact hkept (hother.resolve_left hpc)
    · exact h.kept j other hj hother
  · rcases getElem?_of_set hj with ⟨rfl, rfl⟩ | ⟨-, hj⟩
    · exact hasked hother
    · exact h.asked j other hj hother hp
  · rcases getElem?_of_set hj with ⟨rfl, rfl⟩ | ⟨-, hj⟩
    · exact hwoken hother
    · exact h.woken j other hj hother

theorem Inv.start (h : Inv s) (hp : s.pendingSessionGets.load p = none) : Inv { s with
    pendingSessionGets := s.pendingSessionGets.store p s.calls.length
    calls := s.calls ++ [⟨p, .stored⟩] } := by
  refine ⟨h.toChannels.start p, fun i call hi hpc => ?_, fun i call hi hpc hload => ?_,
    fun i call hi hpc => ?_⟩
  · rcases getElem?_snoc hi with hi | ⟨rfl, rfl⟩
    · refine (h.kept i call hi hpc).imp_left fun hload => ?_
      have hne : call.player ≠ p := fun heq => by cases hp.symm.trans (heq ▸ hload)
      exact (SyncMap.load_store_ne _ _ hne).trans hload
    · exact .inl (SyncMap.load_store_self ..)
  · rcases getElem?_snoc hi with hi | ⟨rfl, rfl⟩
    · dsimp only at hload
      rw [SyncMap.load_store] at hload
      split at hload
      next =>
        obtain rfl := Option.some.inj hload
        exact absurd (List.getElem?_eq_some_iff.mp hi).1 (Nat.lt_irrefl _)
      next => exact h.asked i call hi hpc hload
    · cases hpc
  · rcases getElem?_snoc hi with hi | ⟨rfl, rfl⟩
    · exact h.woken i call hi hpc
    · rcases hpc with hpc | hpc <;> cases hpc

theorem Inv.delete (h : Inv s)
    (hfree : ∀ i call, s.calls[i]? = some call → call.pc = .stored ∨ call.pc = .sent →
      s.pendingSessionGets.load call.player = some i → call.player ≠ p) :
    Inv { s with pendingSessionGets := s.pendingSessionGets.delete p } := by
  refine ⟨⟨h.nodup, h.made, fun q ch hq => h.pending q ch (SyncMap.of_load_delete hq).2⟩,
    fun i call hi hpc => ?_, fun i call hi hpc hload => ?_, h.woken⟩
  · refine (h.kept i call hi hpc).imp_left fun hload => ?_
    exact (SyncMap.load_delete_ne _ (hfree i call hi hpc hload)).trans hload
  · exact h.asked i call hi hpc (SyncMap.of_load_delete hload).2

theorem Inv.exit (h : Inv s) (hi : s.calls[i]? = some ⟨p, pc⟩)
    (hpc : pc = .woken ∧ b = false ∨ pc = .timedOut ∧ b = true)
    (hown : ∀ ch, s.pendingSessionGets.load p = some ch → ch = i) : Inv (s.exit i ⟨p, pc⟩ b) := by
  have hleft : Inv (s.move i ⟨p, pc⟩ (.left b)) := by
    refine h.move hi (by simp) (by simp) (by simp) fun hb => ?_
    rcases hpc with ⟨rfl, rfl⟩ | ⟨rfl, rfl⟩
    · exact h.woken i _ hi (.inl rfl)
    · simp at hb
  refine hleft.delete fun j call hj hwaits hload heq => ?_
  -- The entry is the leaving call's own, and that call does not wait any more.
  rw [heq] at hload
  obtain rfl : j = i := hown j hload
  rcases getElem?_of_set hj with ⟨-, rfl⟩ | ⟨hne, -⟩
  · rcases hwaits with hwaits | hwaits <;> cases hwaits
  · exact hne rfl

theorem Inv.handle (h : Inv s) (hk : s.answers[k]? = some p) : Inv (s.handle k p) := by
  have htaken :
      ∀ i, i ∈ (s.handle k p).taken ↔ s.pendingSessionGets.load p = some i ∨ i ∈ s.taken := by
    intro i
    simp only [State.handle, SyncMap.loadAndDelete, State.taken, List.mem_append, Option.mem_toList]
    tauto
  refine ⟨h.toChannels.handle k p, fun i call hi hpc => ?_, fun i call hi hpc hload => ?_, h.woken⟩
  · rw [htaken]
    rcases h.kept i call hi hpc with hload | hold
    · by_cases hp : call.player = p
      · exact .inr (.inl (hp ▸ hload))
      · exact .inl ((SyncMap.load_delete_ne _ hp).trans hload)
    · exact .inr (.inr hold)
  · obtain ⟨hne, hload⟩ := SyncMap.of_load_delete hload
    rcases List.mem_append.mp (h.asked i call hi hpc hload) with hget | hanswer
    · exact List.mem_append_left _ hget
    · exact List.mem_append_right _ ((mem_or_mem_eraseIdx hk hanswer).resolve_left hne)

theorem inv_step (h : Inv s) (hok : Apart s e) (hs : step s e = some s') : Inv s' := by
  cases stepped hs with
  | start p => exact h.start hok
  | @send i p hi =>
    have hget : Inv { s with gets := s.gets ++ [p] } := by
      refine h.flight fun q hq => ?_
      rcases List.mem_append.mp hq with hget | hanswer
      · simp [hget]
      · simp [hanswer]
    exact hget.move hi (by simp) (fun _ => h.kept i _ hi (.inl rfl)) (fun _ => by simp) (by simp)
  | wake hi hclosed => exact h.move hi (by simp) (by simp) (by simp) fun _ => hclosed
  | timeout hi => exact h.move hi (by simp) (by simp) (by simp) (by simp)
  | exit hi hpc => exact h.exit hi hpc (hok _ hi)
  | answer hk =>
    refine h.flight fun q hq => ?_
    rcases List.mem_append.mp hq with hget | hanswer
    · rcases mem_or_mem_eraseIdx hk hget with rfl | hget
      · simp
      · exact List.mem_append_left _ hget
    · simp [hanswer]
  | reconnected p =>
    exact h.flight fun q hq => by rw [← List.append_assoc]; exact List.mem_append_left _ hq
  | handle hk => exact h.handle hk
  | @close j ch hj =>
    have hperm := taken_close hj
    refine ⟨channels_step h.toChannels hs, fun i call hi hpc => ?_, h.asked,
      fun i call hi hpc => ?_⟩
    · exact (h.kept i call hi hpc).imp_right hperm.mem_iff.mpr
    · exact List.mem_append_left _ (h.woken i call hi hpc)

-- ---------------------------------------------------------------------------
-- Every run
-- ---------------------------------------------------------------------------

/-- No channel is closed twice, however the calls overlap. -/
theorem closed_once (hr : run step {} es = some s) : s.closed.Nodup := by
  have hempty : Channels {} := ⟨by simp [State.taken], by simp [State.taken], by simp⟩
  have hall : Along step (fun _ _ => True) {} es := Run.along_of_forall (fun _ _ _ => trivial) _
  have hchannels := Run.invariant (fun _ _ _ h _ hs => channels_step h hs) hempty hall hr
  exact (List.nodup_append.mp hchannels.nodup).2.1

/-- In every state of a run in which the calls of a player leave each other's entry
alone. -/
theorem answered_wakes (ha : Along step Apart {} es) (hr : run step {} es = some s) :
    Woken s ∧ s.closed.Nodup := by
  have hempty : Inv {} :=
    ⟨⟨by simp [State.taken], by simp [State.taken], by simp⟩, by simp, by simp, by simp⟩
  exact ⟨(Run.invariant (fun _ _ _ h hok hs => inv_step h hok hs) hempty ha hr).awake,
    closed_once hr⟩

-- Two players ask at the same time, and one of them again later.
def inTurn : List Event :=
  [.start 7, .start 8, .send 0, .send 1, .answer 1, .answer 0, .handle 0, .handle 0,
    .close 1, .close 0,
   .wake 0, .exit 0, .wake 1, .start 7, .send 2, .reconnected 8, .answer 0, .handle 1,
   .handle 0, .close 0, .exit 1]

theorem inTurn_wakes :
    ∃ s, run step {} inTurn = some s ∧ s.closed = [0, 1, 2] ∧ Woken s ∧ s.closed.Nodup := by
  obtain ⟨s, hs⟩ := Option.isSome_iff_exists.mp (show (run step {} inTurn).isSome by decide +kernel)
  have hclosed : (run step {} inTurn).map State.closed = some [0, 1, 2] := by decide +kernel
  rw [hs] at hclosed
  exact ⟨s, hs, Option.some.inj hclosed, answered_wakes (by decide +kernel) hs⟩

-- Two connections of player 7 start together; the second channel replaces the first.
def together : List Event :=
  [.start 7, .send 0, .start 7, .send 1, .answer 0, .answer 0, .handle 0, .handle 0, .close 0]

-- The second call stores its channel before the first one leaves, which deletes it.
def behind : List Event :=
  [.start 7, .send 0, .answer 0, .handle 0, .close 0, .wake 0, .start 7, .exit 0, .send 1,
    .answer 0, .handle 0]

theorem not_woken
    (hr : (run step {} es).map (fun s => (s.gets, s.answers, s.closing, s.closed, s.calls)) =
      some ([], [], [], closed, calls)) (hi :
      calls[i]? = some call) (hpc : call.pc.Asked) (hnot : i ∉ closed) :
    ∃ s, run step {} es = some s ∧ s.closed = closed ∧ ¬ Woken s := by
  obtain ⟨s, hs, hfields⟩ := Option.map_eq_some_iff.mp hr
  obtain ⟨hgets, hanswers, hclosing, rfl, rfl⟩ : s.gets = [] ∧ s.answers = [] ∧ s.closing = [] ∧
      s.closed = closed ∧ s.calls = calls := by simpa using hfields
  exact ⟨s, hs, rfl, fun h => hnot (h hgets hanswers hclosing i call hi hpc)⟩

theorem never_woken :
    (∃ s, run step {} together = some s ∧ s.closed = [1] ∧ ¬ Woken s) ∧
      ∃ s, run step {} behind = some s ∧ s.closed = [0] ∧ ¬ Woken s := by
  have htogether :
      (run step {} together).map (fun s => (s.gets, s.answers, s.closing, s.closed, s.calls)) =
      some ([], [], [], [1], [⟨7, .sent⟩, ⟨7, .sent⟩]) := by decide +kernel
  have hbehind :
      (run step {} behind).map (fun s => (s.gets, s.answers, s.closing, s.closed, s.calls)) =
      some ([], [], [], [0], [⟨7, .left false⟩, ⟨7, .sent⟩]) := by decide +kernel
  exact ⟨not_woken htogether (i := 0) rfl trivial (by decide),
    not_woken hbehind (i := 1) rfl trivial (by decide)⟩

-- ---------------------------------------------------------------------------
-- Without interruption
-- ---------------------------------------------------------------------------

/-- The calls of a gateway in `Reconnect`, where a call is known by its channel. -/
structure Shows (s : State) (gw : Reconnect.State) : Prop where
  pending : s.pendingSessionGets = gw.pendingSessionGets
  chans : s.calls.length = gw.chans
  closed : ∀ ch, ch ∈ s.closed ↔ ch ∈ gw.closed

theorem checkReconnect_alone (h : Shows s gw) (hup : svcSessionSvr ∈ up) (c : UInt64) (p : Int64) :
    ∃ s', run step s [.start p, .send s.calls.length] = some s' ∧
      Shows s' (Reconnect.checkReconnect gw c p up) := by
  have hnew : (s.calls ++ [⟨p, .stored⟩])[s.calls.length]? = some ⟨p, .stored⟩ := by simp
  refine ⟨_, by simp only [run, step, hnew, Option.bind_some]; rfl, ?_⟩
  rw [Reconnect.checkReconnect, if_pos hup]
  refine ⟨?_, ?_, h.closed⟩
  · simp only [State.move, h.pending, h.chans]
  · simp [State.move, h.chans]

theorem endWait_alone (h : Shows s gw) (hi : s.calls[i]? = some ⟨p, pc⟩)
    (hpc : pc = .woken ∨ pc = .timedOut)
    (c : UInt64) : ∃ s', run step s [.exit i] = some s' ∧ Shows s' (Reconnect.endWait gw c p) := by
  have hshows : ∀ timedOut, Shows (s.exit i ⟨p, pc⟩ timedOut) (Reconnect.endWait gw c p) := by
    intro timedOut
    refine ⟨?_, ?_, h.closed⟩
    · simp only [State.exit, State.move, Reconnect.endWait, h.pending]
    · simp [State.exit, State.move, Reconnect.endWait, h.chans]
  rcases hpc with rfl | rfl
  · exact ⟨_, by simp only [run, step, hi, Option.bind_some], hshows false⟩
  · exact ⟨_, by simp only [run, step, hi, Option.bind_some], hshows true⟩

theorem handleSessionGet_signals (gw : Reconnect.State) (data : SessionData) (up : List String) :
    (Reconnect.handleSessionGet gw data up).pendingSessionGets =
      gw.pendingSessionGets.delete data.playerId ∧
      (Reconnect.handleSessionGet gw data up).chans = gw.chans ∧
      (Reconnect.handleSessionGet gw data up).closed =
        (gw.pendingSessionGets.load data.playerId).toList ++ gw.closed := by
  have hanswered := Reconnect.answered gw data up
  generalize Reconnect.handleSessionGet gw data up = gw' at hanswered
  cases hanswered <;> exact ⟨rfl, rfl, rfl⟩

theorem handleSessionGet_alone (h : Shows s gw) (hk : s.answers[k]? = some data.playerId)
    (hidle : s.closing = []) (up : List String) :
    ∃ es s', run step s (.handle k :: es) = some s' ∧ s'.closing = [] ∧
      Shows s' (Reconnect.handleSessionGet gw data up) := by
  obtain ⟨hpending, hchans, hclosed⟩ := handleSessionGet_signals gw data up
  have hstep : step s (.handle k) = some (s.handle k data.playerId) := by
    simp only [step, hk, Option.map_some]
  have hclosing :
      (s.handle k data.playerId).closing = (gw.pendingSessionGets.load data.playerId).toList := by
    rw [State.handle, h.pending, hidle]
    rfl
  have hdelete :
      (s.handle k data.playerId).pendingSessionGets = gw.pendingSessionGets.delete
        data.playerId := by
    rw [State.handle, h.pending]
    rfl
  cases hp : gw.pendingSessionGets.load data.playerId with
  | none =>
    rw [hp] at hclosing hclosed
    refine ⟨[], _, by simp only [run, hstep, Option.bind_some], hclosing,
      hdelete.trans hpending.symm,
      h.chans.trans hchans.symm, fun ch => ?_⟩
    rw [hclosed]
    exact h.closed ch
  | some ch =>
    rw [hp] at hclosing hclosed
    have hclose : step (s.handle k data.playerId) (.close 0) = some { s.handle k data.playerId with
        closing := [], closed := s.closed ++ [ch] } := by
      simp only [step, hclosing]
      rfl
    refine ⟨[.close 0], { s.handle k data.playerId with closing := [], closed := s.closed ++ [ch] },
      by simp only [run, hstep, hclose, Option.bind_some], rfl,
      hdelete.trans hpending.symm, h.chans.trans hchans.symm, fun d => ?_⟩
    rw [hclosed, List.mem_append, List.mem_append, h.closed]
    exact or_comm

end Cardwar.Gateway.Waiters
