import Cardwar.Pkg.Pool
import Cardwar.SessionSvr.Router

/-!
# Expiry of sessions

The handlers and the expiry scanner share the sessions map, which holds pointers
to sessions. A map operation is one step, and so is a section under a session's
lock: a handler looks its session up in one step and updates it in another, the
scanner reads a session in one step and rechecks and deletes it in another.

The recheck sees what a handler has written, but not that a handler has looked
the session up and is about to write. Without such a handler at that moment, a
finished save or reconnect is never lost (`written_kept`).
-/

namespace Cardwar.SessionSvr.Expiry

open Protocol Conf Pkg
open Run (run Along)

/-- `SessionTTL`, in seconds. -/
def sessionTTL : Int := 120

abbrev Ptr := Nat

inductive Call
  | save (data : SessionData)
  /-- `now` is the clock in the section under the lock. -/
  | disconnect (data : SessionData) (now : Int)
  | reconnect (data : SessionData)
  deriving DecidableEq

def Call.data : Call → SessionData
  | .save data => data
  | .disconnect data _ => data
  | .reconnect data => data

def Call.playerId (call : Call) : Int64 := call.data.playerId

def Call.update (s : Session) : Call → Session
  | .save data => s.save data
  | .disconnect data now => if s.Stale data.gatewayId then s else s.disconnect data now
  | .reconnect data => s.reconnect data

inductive Pc
  | found (ptr : Ptr)
  | updated
  | done
  deriving DecidableEq

structure Handler where
  call : Call
  pc : Pc
  deriving DecidableEq

inductive Scanner
  | idle
  | ranging (now : Int)
  | visiting (now : Int) (player : Int64) (ptr : Ptr)
  /-- The read under the read lock found the session expired. -/
  | candidate (now : Int) (player : Int64) (ptr : Ptr)
  deriving DecidableEq

structure State where
  sessions : SyncMap Int64 Ptr := ∅
  objects : SyncMap Ptr Session := ∅
  nextPtr : Ptr := 0
  handlers : List Handler := []
  scanner : Scanner := .idle
  /-- The deleted sessions, as they were when the scanner took the tags out. -/
  expired : List Session := []
  /-- The handler whose section for a player was the last one. Not part of the
  program. -/
  last : SyncMap Int64 Nat := ∅

inductive Event
  | lookup (call : Call)
  | locked (i : Nat)
  | finish (i : Nat)
  | tick (now : Int)
  | visit (player : Int64)
  | read
  | recheck
  | rangeDone

-- ---------------------------------------------------------------------------
-- Steps
-- ---------------------------------------------------------------------------

def loadOrStore (st : State) (player : Int64) : Ptr × State :=
  let (ptr, sessions) := st.sessions.loadOrStore player st.nextPtr
  (ptr, { st with
    sessions
    objects := st.objects.store st.nextPtr { playerID := player }
    nextPtr := st.nextPtr + 1 })

def addHandler (st : State) (call : Call) (pc : Pc) : State :=
  { st with handlers := st.handlers ++ [⟨call, pc⟩] }

/-- A reconnect without a session is over: it is not answered. -/
def lookup (st : State) (call : Call) : State :=
  match call with
  | .reconnect data => match st.sessions.load data.playerId with
    | some ptr => addHandler st call (.found ptr)
    | none => addHandler st call .done
  | _ => addHandler (loadOrStore st call.playerId).2 call (.found (loadOrStore st call.playerId).1)

def update (st : State) (i : Nat) (call : Call) (ptr : Ptr) (s : Session) : State :=
  { st with
    objects := st.objects.store ptr (call.update s)
    handlers := st.handlers.set i ⟨call, .updated⟩
    last := st.last.store call.playerId i }

def Expired (s : Session) (now : Int) : Prop :=
  s.disconnectedAt ≠ 0 ∧ now - s.disconnectedAt ≥ sessionTTL

instance (s : Session) (now : Int) : Decidable (Expired s now) :=
  inferInstanceAs (Decidable (_ ∧ _))

def step (st : State) : Event → Option State
  | .lookup call => some (lookup st call)
  | .locked i => match st.handlers[i]? with
    | some ⟨call, .found ptr⟩ => (st.objects.load ptr).map (update st i call ptr)
    | _ => none
  | .finish i => match st.handlers[i]? with
    | some ⟨call, .updated⟩ => some { st with handlers := st.handlers.set i ⟨call, .done⟩ }
    | _ => none
  | .tick now => match st.scanner with
    | .idle => some { st with scanner := .ranging now }
    | _ => none
  | .visit player => match st.scanner, st.sessions.load player with
    | .ranging now, some ptr => some { st with scanner := .visiting now player ptr }
    | _, _ => none
  | .read => match st.scanner with
    | .visiting now player ptr => (st.objects.load ptr).map fun s =>
      if s.disconnectedAt = 0 then { st with scanner := .ranging now }
      else if now - s.disconnectedAt < sessionTTL then { st with scanner := .ranging now }
      else { st with scanner := .candidate now player ptr }
    | _ => none
  | .recheck => match st.scanner with
    | .candidate now player ptr => (st.objects.load ptr).map fun s =>
      if Expired s now then
        { st with
          scanner := .ranging now
          sessions := st.sessions.delete player
          expired := st.expired ++ [s] }
      else { st with scanner := .ranging now }
    | _ => none
  | .rangeDone => match st.scanner with
    | .ranging _ => some { st with scanner := .idle }
    | _ => none

/-- The handlers the recheck is meant to guard against. -/
def Call.Writes : Call → Prop
  | .disconnect _ _ => False
  | _ => True

instance (call : Call) : Decidable call.Writes := by
  unfold Call.Writes
  split <;> infer_instance

def Pc.between : Pc → Bool
  | .found _ => true
  | _ => false

/-- The scanner deletes a session only while no save or reconnect of that
player is between its lookup and its section. -/
def NoWriterBetween (st : State) : Event → Prop
  | .recheck => match st.scanner with
    | .candidate now player ptr => ∀ s ∈ st.objects.load ptr, Expired s now →
      ∀ h ∈ st.handlers, h.call.Writes → h.call.playerId = player → h.pc.between = false
    | _ => True
  | _ => True

instance (st : State) (ev : Event) : Decidable (NoWriterBetween st ev) := by
  unfold NoWriterBetween
  split
  · split <;> infer_instance
  · infer_instance

-- ---------------------------------------------------------------------------
-- The invariant
-- ---------------------------------------------------------------------------

def Holds (st : State) (player : Int64) (gatewayID : String) : Prop :=
  ∃ ptr s, st.sessions.load player = some ptr ∧ st.objects.load ptr = some s ∧
    s.disconnectedAt = 0 ∧ s.gatewayID = gatewayID

def IsFor (st : State) (player : Int64) (ptr : Ptr) : Prop :=
  ∃ s, st.objects.load ptr = some s ∧ s.playerID = player

inductive Scanner.At (player : Int64) (ptr : Ptr) : Scanner → Prop
  | visiting : At player ptr (.visiting now player ptr)
  | candidate : At player ptr (.candidate now player ptr)

structure Inv (st : State) : Prop where
  fresh : ∀ ptr s, st.objects.load ptr = some s → ptr < st.nextPtr
  mapped : ∀ player ptr, st.sessions.load player = some ptr → IsFor st player ptr
  found : ∀ h ∈ st.handlers, ∀ ptr, h.pc = .found ptr → IsFor st h.call.playerId ptr
  /-- A writing handler found the session that is still in the map. -/
  current : ∀ h ∈ st.handlers, ∀ ptr, h.pc = .found ptr → h.call.Writes →
    st.sessions.load h.call.playerId = some ptr
  scanner : ∀ player ptr, st.scanner.At player ptr → st.sessions.load player = some ptr
  handled : ∀ player i, st.last.load player = some i → i < st.handlers.length
  kept : ∀ player i h, st.last.load player = some i → st.handlers[i]? = some h → h.call.Writes →
    Holds st player h.call.data.gatewayId

/-- After a restart: sessions in the map, no handler running. -/
structure Start (st : State) : Prop where
  fresh : ∀ ptr s, st.objects.load ptr = some s → ptr < st.nextPtr
  mapped : ∀ player ptr, st.sessions.load player = some ptr → IsFor st player ptr
  handlers : st.handlers = []
  scanner : st.scanner = .idle
  last : st.last = ∅

theorem inv_start (h : Start st) : Inv st where
  fresh := h.fresh
  mapped := h.mapped
  found := by simp [h.handlers]
  current := by simp [h.handlers]
  scanner := by
    intro player ptr hat
    rw [h.scanner] at hat
    cases hat
  handled := by simp [h.last]
  kept := by simp [h.last]

-- What a lookup leaves as it was: the map's entries and the objects.
structure Grows (st st' : State) : Prop where
  sessions : ∀ player ptr, st.sessions.load player = some ptr → st'.sessions.load player = some ptr
  objects : ∀ ptr s, st.objects.load ptr = some s → st'.objects.load ptr = some s

theorem Grows.isFor (g : Grows st st') (h : IsFor st player ptr) : IsFor st' player ptr := by
  obtain ⟨s, hs, hp⟩ := h
  exact ⟨s, g.objects ptr s hs, hp⟩

theorem Grows.holds (g : Grows st st') (h : Holds st player gw) : Holds st' player gw := by
  obtain ⟨ptr, s, hm, hs, hd, hg⟩ := h
  exact ⟨ptr, s, g.sessions player ptr hm, g.objects ptr s hs, hd, hg⟩

theorem grows_loadOrStore (h : Inv st) (player : Int64) : Grows st (loadOrStore st player).2 := by
  constructor
  · intro q ptr hq
    simp only [loadOrStore, SyncMap.loadOrStore]
    split
    next => exact hq
    next hn =>
      rw [SyncMap.load_store_ne _ _ (by rintro rfl; simp [hq] at hn)]
      exact hq
  · intro ptr s hs
    have hne : ptr ≠ st.nextPtr := (h.fresh ptr s hs).ne
    exact (SyncMap.load_store_ne _ _ hne).trans hs

theorem loadOrStore_mapped (st : State) (player : Int64) :
    (loadOrStore st player).2.sessions.load player = some (loadOrStore st player).1 :=
  SyncMap.load_loadOrStore _ _ _

theorem inv_loadOrStore (h : Inv st) (player : Int64) : Inv (loadOrStore st player).2 := by
  have g := grows_loadOrStore h player
  constructor
  · intro ptr s hs
    simp only [loadOrStore, SyncMap.load_store] at hs ⊢
    split at hs
    next heq => exact heq ▸ Nat.lt_succ_self _
    next => exact (h.fresh ptr s hs).trans (Nat.lt_succ_self _)
  · intro q ptr hq
    cases hold : st.sessions.load q with
    | some ptr' =>
      obtain rfl := Option.some.inj (hq.symm.trans (g.sessions q ptr' hold))
      exact g.isFor (h.mapped q _ hold)
    | none =>
      -- The only new entry is the new object under its own player.
      have hnew : q = player ∧ ptr = st.nextPtr := by
        simp only [loadOrStore, SyncMap.loadOrStore] at hq
        split at hq
        next => rw [hold] at hq; cases hq
        next =>
          rw [SyncMap.load_store] at hq
          split at hq
          next heq => exact ⟨heq, (Option.some.inj hq).symm⟩
          next => rw [hold] at hq; cases hq
      obtain ⟨rfl, rfl⟩ := hnew
      exact ⟨_, SyncMap.load_store_self _ _ _, rfl⟩
  · exact fun k hk ptr hpc => g.isFor (h.found k hk ptr hpc)
  · exact fun k hk ptr hpc hw => g.sessions _ _ (h.current k hk ptr hpc hw)
  · exact fun q ptr hat => g.sessions _ _ (h.scanner q ptr hat)
  · exact h.handled
  · exact fun q i k hl hi hw => g.holds (h.kept q i k hl hi hw)

theorem inv_addHandler (h : Inv st)
    (hf : ∀ ptr, pc = .found ptr → st.sessions.load call.playerId = some ptr) :
    Inv (addHandler st call pc) := by
  have hmem : ∀ k ∈ st.handlers ++ [⟨call, pc⟩], k ∈ st.handlers ∨ k = ⟨call, pc⟩ := by simp
  refine { h with found := ?_, current := ?_, handled := ?_, kept := ?_ }
  · intro k hk ptr hpc
    rcases hmem k hk with hk | rfl
    · exact h.found k hk ptr hpc
    · exact h.mapped _ ptr (hf ptr hpc)
  · intro k hk ptr hpc hw
    rcases hmem k hk with hk | rfl
    · exact h.current k hk ptr hpc hw
    · exact hf ptr hpc
  · intro q i hl
    have hlt := h.handled q i hl
    simp only [addHandler, List.length_append, List.length_singleton]
    omega
  · intro q i k hl hi hw
    rw [addHandler, List.getElem?_append_left (h.handled q i hl)] at hi
    exact h.kept q i k hl hi hw

theorem inv_lookup (h : Inv st) (call : Call) : Inv (lookup st call) := by
  have hstored : Inv (addHandler (loadOrStore st call.playerId).2 call
      (.found (loadOrStore st call.playerId).1)) := by
    refine inv_addHandler (inv_loadOrStore h _) fun ptr hpc => ?_
    rw [← Pc.found.inj hpc]
    exact loadOrStore_mapped st _
  cases call with
  | save data => exact hstored
  | disconnect data now => exact hstored
  | reconnect data =>
    simp only [lookup]
    split
    next ptr hp => exact inv_addHandler h fun ptr' hpc => Pc.found.inj hpc ▸ hp
    next => exact inv_addHandler h fun ptr hpc => (by cases hpc)

-- ---------------------------------------------------------------------------
-- The sections
-- ---------------------------------------------------------------------------

@[simp] theorem Call.update_playerID (call : Call) (s : Session) :
    (call.update s).playerID = s.playerID := by
  cases call with
  | save data => rfl
  | disconnect data now =>
    simp only [Call.update]
    split <;> rfl
  | reconnect data => rfl

theorem Call.update_writes (hw : Call.Writes call) (s : Session) :
    (call.update s).disconnectedAt = 0 ∧ (call.update s).gatewayID = call.data.gatewayId := by
  cases call with
  | save data => exact ⟨rfl, rfl⟩
  | disconnect data now => cases hw
  | reconnect data => exact ⟨rfl, rfl⟩

theorem handlers_set {hs : List Handler} {i j : Nat} {k : Handler} (hi : hs[i]? = some ⟨call, pc⟩)
    (hj : (hs.set i ⟨call, pc'⟩)[j]? = some k) : ∃ k₀, hs[j]? = some k₀ ∧ k₀.call = k.call := by
  rcases Slots.getElem?_of_set hj with ⟨rfl, rfl⟩ | ⟨-, hj⟩
  · exact ⟨_, hi, rfl⟩
  · exact ⟨k, hj, rfl⟩

theorem found_of_set {hs : List Handler} (hk : k ∈ hs.set i ⟨call, pc⟩) (hpc : pc.between = false)
    (hf : k.pc = .found ptr) : k ∈ hs := by
  rcases List.mem_or_eq_of_mem_set hk with hk | rfl
  · exact hk
  · obtain rfl : pc = .found ptr := hf
    cases hpc

theorem isFor_update (hs : st.objects.load ptr = some s) (h : IsFor st player q) (i : Nat)
    (call : Call) :
    IsFor (update st i call ptr s) player q := by
  obtain ⟨t, ht, hp⟩ := h
  by_cases hq : q = ptr
  · obtain rfl : t = s := Option.some.inj (ht.symm.trans (hq ▸ hs))
    exact ⟨call.update t, hq ▸ SyncMap.load_store_self _ _ _, (call.update_playerID t).trans hp⟩
  · exact ⟨t, (SyncMap.load_store_ne _ _ hq).trans ht, hp⟩

theorem inv_update (h : Inv st) (hi : st.handlers[i]? = some ⟨call, .found ptr⟩)
    (hs : st.objects.load ptr = some s) : Inv (update st i call ptr s) := by
  have hmem := List.mem_of_getElem? hi
  constructor
  · intro q t ht
    simp only [update, SyncMap.load_store] at ht
    split at ht
    next heq => exact heq ▸ h.fresh ptr s hs
    next => exact h.fresh q t ht
  · exact fun player q hq => isFor_update hs (h.mapped player q hq) i call
  · exact fun k hk q hpc => isFor_update hs (h.found k (found_of_set hk rfl hpc) q hpc) i call
  · exact fun k hk q hpc hw => h.current k (found_of_set hk rfl hpc) q hpc hw
  · exact h.scanner
  · intro player j hj
    simp only [update, SyncMap.load_store] at hj
    rw [update, List.length_set]
    split at hj
    next => exact Option.some.inj hj ▸ (List.getElem?_eq_some_iff.mp hi).1
    next => exact h.handled player j hj
  · intro player j k hl hj hw
    obtain ⟨k₀, hj₀, hcall⟩ := handlers_set hi hj
    simp only [update, SyncMap.load_store] at hl
    split at hl
    next heq =>
      -- This handler's own section, on the session that is in the map.
      obtain rfl := Option.some.inj hl
      obtain rfl := Option.some.inj (hi.symm.trans hj₀)
      rw [← hcall] at hw ⊢
      obtain ⟨hd, hg⟩ := Call.update_writes hw s
      exact ⟨ptr, call.update s, heq ▸ h.current _ hmem ptr rfl hw,
        SyncMap.load_store_self _ _ _, hd, hg⟩
    next hne =>
      -- Another player's session is another object.
      obtain ⟨q, t, hq, ht, hd, hg⟩ := h.kept player j k₀ hl hj₀ (hcall ▸ hw)
      refine ⟨q, t, hq, (SyncMap.load_store_ne _ _ ?_).trans ht, hd, hcall ▸ hg⟩
      rintro rfl
      obtain ⟨t₁, ht₁, hp₁⟩ := h.mapped player _ hq
      obtain ⟨t₂, ht₂, hp₂⟩ := h.found _ hmem _ rfl
      obtain rfl := Option.some.inj (ht₁.symm.trans ht₂)
      exact hne (hp₁.symm.trans hp₂)

theorem inv_finish (h : Inv st) (hi : st.handlers[i]? = some ⟨call, .updated⟩) :
    Inv { st with handlers := st.handlers.set i ⟨call, .done⟩ } := by
  refine { h with found := ?_, current := ?_, handled := ?_, kept := ?_ }
  · exact fun k hk q hpc => h.found k (found_of_set hk rfl hpc) q hpc
  · exact fun k hk q hpc hw => h.current k (found_of_set hk rfl hpc) q hpc hw
  · intro player j hj
    rw [List.length_set]
    exact h.handled player j hj
  · intro player j k hl hj hw
    obtain ⟨k₀, hj₀, hcall⟩ := handlers_set hi hj
    exact hcall ▸ h.kept player j k₀ hl hj₀ (hcall ▸ hw)

theorem inv_scanner (h : Inv st)
    (hat : ∀ player ptr, sc.At player ptr → st.sessions.load player = some ptr) :
    Inv { st with scanner := sc } :=
  { h with scanner := hat }

theorem inv_delete (h : Inv st) (hsc : st.scanner = .candidate now player ptr)
    (hs : st.objects.load ptr = some s) (hexp : Expired s now)
    (hok : ∀ k ∈ st.handlers, k.call.Writes → k.call.playerId = player → k.pc.between = false) :
    Inv { st with scanner := .ranging now, sessions := st.sessions.delete player,
                  expired := st.expired ++ [s] } := by
  have hmap : st.sessions.load player = some ptr := h.scanner player ptr (hsc ▸ .candidate)
  constructor
  · exact h.fresh
  · intro q r hq
    obtain ⟨-, hq⟩ := SyncMap.of_load_delete hq
    exact h.mapped q r hq
  · exact h.found
  · intro k hk r hpc hw
    have hne : k.call.playerId ≠ player := by
      intro heq
      have hb := hok k hk hw heq
      rw [hpc] at hb
      cases hb
    exact (SyncMap.load_delete_ne _ hne).trans (h.current k hk r hpc hw)
  · intro q r hat
    cases hat
  · exact h.handled
  · intro q i k hl hi hw
    obtain ⟨r, t, hr, ht, hd, hg⟩ := h.kept q i k hl hi hw
    refine ⟨r, t, (SyncMap.load_delete_ne _ ?_).trans hr, ht, hd, hg⟩
    -- An expired session is not one a finished write left.
    rintro rfl
    obtain rfl := Option.some.inj (hmap.symm.trans hr)
    obtain rfl := Option.some.inj (hs.symm.trans ht)
    exact hexp.1 hd

theorem inv_step (h : Inv st) (hok : NoWriterBetween st ev) (hs : step st ev = some st') :
    Inv st' := by
  cases ev with
  | lookup call => exact Option.some.inj hs ▸ inv_lookup h call
  | locked i =>
    simp only [step] at hs
    split at hs
    next call ptr hi =>
      obtain ⟨s, hload, rfl⟩ := Option.map_eq_some_iff.mp hs
      exact inv_update h hi hload
    next => cases hs
  | finish i =>
    simp only [step] at hs
    split at hs
    next call hi => exact Option.some.inj hs ▸ inv_finish h hi
    next => cases hs
  | tick now =>
    simp only [step] at hs
    split at hs <;> cases hs
    exact inv_scanner h fun _ _ hat => (by cases hat)
  | visit player =>
    simp only [step] at hs
    split at hs <;> cases hs
    next hload =>
      refine inv_scanner h fun q r hat => ?_
      cases hat
      exact hload
  | read =>
    simp only [step] at hs
    split at hs
    next now player ptr hsc =>
      obtain ⟨s, hload, rfl⟩ := Option.map_eq_some_iff.mp hs
      have hranging : Inv { st with scanner := .ranging now } :=
        inv_scanner h fun _ _ hat => (by cases hat)
      split
      · exact hranging
      split
      · exact hranging
      · refine inv_scanner h fun q r hat => ?_
        cases hat
        exact h.scanner player ptr (hsc ▸ .visiting)
    next => cases hs
  | recheck =>
    simp only [step] at hs
    split at hs
    next now player ptr hsc =>
      obtain ⟨s, hload, rfl⟩ := Option.map_eq_some_iff.mp hs
      simp only [NoWriterBetween, hsc] at hok
      split
      next hexp => exact inv_delete h hsc hload hexp (hok s hload hexp)
      next => exact inv_scanner h fun _ _ hat => (by cases hat)
    next => cases hs
  | rangeDone =>
    simp only [step] at hs
    split at hs <;> cases hs
    exact inv_scanner h fun _ _ hat => (by cases hat)

/-- A save or answered reconnect that has finished, and whose section was the
last one for its player, is what the sessions map has for that player. -/
theorem written_kept (h0 : Start st₀) (ha : Along step NoWriterBetween st₀ es)
    (hr : run step st₀ es = some st) (hdone : st.handlers[i]? = some ⟨call, .done⟩)
    (hw : call.Writes) (hlast : st.last.load call.playerId = some i) :
    Holds st call.playerId call.data.gatewayId := by
  have h : Inv st := Run.invariant (fun _ _ _ h hok hs => inv_step h hok hs) (inv_start h0) ha hr
  exact h.kept _ i _ hlast hdone hw

-- ---------------------------------------------------------------------------
-- An uninterrupted handler
-- ---------------------------------------------------------------------------

def Views (st : State) (sessions : Sessions) : Prop :=
  ∀ player, (st.sessions.load player).bind st.objects.load = sessions.load player

def Call.handle (sessions : Sessions) : Call → Handled
  | .save data => handleSave sessions data
  | .disconnect data now => handleDisconnect sessions data now
  | .reconnect data => handleReconnect sessions data

def alone (st : State) (call : Call) : List Event :=
  match call, st.sessions.load call.playerId with
  | .reconnect _, none => [.lookup call]
  | _, _ => [.lookup call, .locked st.handlers.length, .finish st.handlers.length]

theorem views_loadOrStore (h : Inv st) (hv : Views st sessions) (player : Int64) :
    Views (loadOrStore st player).2 (sessions.loadOrStore player { playerID := player }).2 := by
  have g := grows_loadOrStore h player
  intro q
  cases hq : st.sessions.load q with
  | some ptr =>
    obtain ⟨s, hs, -⟩ := h.mapped q ptr hq
    have hload : sessions.load q = some s := by rw [← hv q, hq, Option.bind_some, hs]
    rw [g.sessions q ptr hq, Option.bind_some, g.objects ptr s hs]
    simp only [SyncMap.loadOrStore]
    split
    next => exact hload.symm
    next hn => rw [SyncMap.load_store_ne _ _ (by rintro rfl; simp [hload] at hn), hload]
  | none =>
    have hload : sessions.load q = none := by rw [← hv q, hq, Option.bind_none]
    by_cases heq : q = player
    · subst heq
      simp [loadOrStore, SyncMap.loadOrStore, hq, hload]
    · have hst : (loadOrStore st player).2.sessions.load q = none := by
        simp only [loadOrStore, SyncMap.loadOrStore]
        split
        next => exact hq
        next => rw [SyncMap.load_store_ne _ _ heq, hq]
      rw [hst, Option.bind_none]
      simp only [SyncMap.loadOrStore]
      split
      next => exact hload.symm
      next => rw [SyncMap.load_store_ne _ _ heq, hload]

theorem views_update (h : Inv st) (hv : Views st sessions) (hm : st.sessions.load player = some ptr)
    (hsessions : st'.sessions = st.sessions) (hobjects : st'.objects = st.objects.store ptr t) :
    Views st' (sessions.store player t) := by
  intro q
  rw [hsessions, hobjects, SyncMap.load_store]
  split
  next heq => rw [heq, hm, Option.bind_some, SyncMap.load_store_self]
  next hne =>
    rw [← hv q]
    cases hq : st.sessions.load q with
    | none => rfl
    | some r =>
      refine SyncMap.load_store_ne _ _ ?_
      rintro rfl
      obtain ⟨s₁, hs₁, hp₁⟩ := h.mapped q _ hq
      obtain ⟨s₂, hs₂, hp₂⟩ := h.mapped _ _ hm
      obtain rfl := Option.some.inj (hs₁.symm.trans hs₂)
      exact hne (hp₁.symm.trans hp₂)

theorem run_found (hf : lookup st call = addHandler st₁ call (.found ptr))
    (hh : st₁.handlers = st.handlers) (hs : st₁.objects.load ptr = some s) :
    ∃ st', run step st [.lookup call, .locked st.handlers.length, .finish st.handlers.length] =
      some st' ∧
      st'.sessions = st₁.sessions ∧ st'.objects = st₁.objects.store ptr (call.update s) := by
  refine ⟨{ update (addHandler st₁ call (.found ptr)) st.handlers.length call ptr s with
    handlers := st.handlers ++ [⟨call, .done⟩] }, ?_, rfl, rfl⟩
  simp [run, step, hf, addHandler, hh, hs, update]

theorem handleDisconnect_sessions (sessions : Sessions) (data : SessionData) (now : Int) :
    (handleDisconnect sessions data now).sessions =
      (sessions.loadOrStore data.playerId { playerID := data.playerId }).2.store data.playerId
        (Call.update (sessions.loadOrStore data.playerId { playerID := data.playerId }).1
          (.disconnect data now)) := by
  simp only [handleDisconnect, Call.update]
  split
  next => exact ((SyncMap.store_eq_self _).mpr (SyncMap.load_loadOrStore sessions _ _)).symm
  next => rfl

theorem handle_stored (sessions : Sessions) (hcall : ∀ data, call ≠ Call.reconnect data) :
    (call.handle sessions).sessions =
      (sessions.loadOrStore call.playerId { playerID := call.playerId }).2.store call.playerId
        (call.update (sessions.loadOrStore call.playerId { playerID := call.playerId }).1) := by
  cases call with
  | save data => rfl
  | reconnect data => exact absurd rfl (hcall data)
  | disconnect data now =>
    exact handleDisconnect_sessions sessions data now

theorem alone_handled_stored (h : Inv st) (hv : Views st sessions)
    (hcall : ∀ data, call ≠ Call.reconnect data) :
    ∃ st', run step st (alone st call) = some st' ∧ Views st' (call.handle sessions).sessions := by
  have hv₁ := views_loadOrStore h hv call.playerId
  have hm := loadOrStore_mapped st call.playerId
  obtain ⟨s, hs, -⟩ := (inv_loadOrStore h call.playerId).mapped _ _ hm
  have hload : (sessions.loadOrStore call.playerId { playerID := call.playerId }).1 = s := by
    have hq := hv₁ call.playerId
    rw [hm, Option.bind_some, hs, SyncMap.load_loadOrStore] at hq
    exact (Option.some.inj hq).symm
  have hf : lookup st call = addHandler (loadOrStore st call.playerId).2 call
      (.found (loadOrStore st call.playerId).1) := by
    cases call with
    | reconnect data => exact absurd rfl (hcall data)
    | _ => rfl
  have hes : alone st call =
      [.lookup call, .locked st.handlers.length, .finish st.handlers.length] := by
    cases call with
    | reconnect data => exact absurd rfl (hcall data)
    | _ => rfl
  obtain ⟨st', hrun, hsessions, hobjects⟩ := run_found hf rfl hs
  refine ⟨st', hes ▸ hrun, ?_⟩
  rw [handle_stored sessions hcall, hload]
  exact views_update (inv_loadOrStore h _) hv₁ hm hsessions hobjects

/-- A handler that nothing interrupts does to the sessions what the handler of
one message at a time does. -/
theorem alone_handled (h : Inv st) (hv : Views st sessions) (call : Call) :
    ∃ st', run step st (alone st call) = some st' ∧ Views st' (call.handle sessions).sessions := by
  cases call with
  | save data => exact alone_handled_stored h hv (by simp)
  | disconnect data now => exact alone_handled_stored h hv (by simp)
  | reconnect data =>
    have hv' := hv data.playerId
    cases hm : st.sessions.load data.playerId with
    | none =>
      rw [hm, Option.bind_none] at hv'
      refine ⟨addHandler st (.reconnect data) .done, ?_, ?_⟩
      · simp [alone, Call.playerId, Call.data, hm, run, step, lookup]
      · simp only [Call.handle, handleReconnect, ← hv']
        exact hv
    | some ptr =>
      obtain ⟨s, hs, -⟩ := h.mapped _ ptr hm
      rw [hm, Option.bind_some, hs] at hv'
      have hf : lookup st (.reconnect data) = addHandler st (.reconnect data) (.found ptr) := by
        simp [lookup, hm]
      obtain ⟨st', hrun, hsessions, hobjects⟩ := run_found hf rfl hs
      refine ⟨st', ?_, ?_⟩
      · simpa [alone, Call.playerId, Call.data, hm] using hrun
      · simp only [Call.handle, handleReconnect, ← hv']
        exact views_update h hv hm hsessions hobjects

-- One disconnected session.
def offline (s : Session) : State where
  sessions := (∅ : SyncMap Int64 Ptr).store s.playerID 0
  objects := (∅ : SyncMap Ptr Session).store 0 s
  nextPtr := 1

theorem start_offline (s : Session) : Start (offline s) where
  fresh := by
    intro ptr t ht
    simp only [offline, SyncMap.load_store, SyncMap.load_empty] at ht
    split at ht
    next heq => exact heq ▸ Nat.one_pos
    next => cases ht
  mapped := by
    intro player ptr hp
    simp only [offline, SyncMap.load_store, SyncMap.load_empty] at hp
    split at hp <;> cases hp
    next heq => exact ⟨s, SyncMap.load_store_self _ _ _, heq.symm⟩
  handlers := rfl
  scanner := rfl
  last := rfl

def session7 : Session := { playerID := 7, gatewayID := "gw-1", disconnectedAt := 1000 }

def reconnect7 : Call := .reconnect { playerId := 7, gatewayId := "gw-2" }

def save7 : Call := .save { playerId := 7, gatewayId := "gw-2" }

-- The handler's section is before the recheck, which leaves the session alone.
def inTime (call : Call) : List Event :=
  [.tick 1200, .visit 7, .read, .lookup call, .locked 0, .recheck, .finish 0]

-- The handler has only looked the session up when the recheck deletes it.
def tooLate (call : Call) : List Event :=
  [.tick 1200, .visit 7, .read, .lookup call, .recheck, .locked 0, .finish 0]

theorem inTime_kept :
    ∃ st, run step (offline session7) (inTime reconnect7) = some st ∧ Holds st 7 "gw-2" := by
  have ha : Along step NoWriterBetween (offline session7) (inTime reconnect7) := by decide
  exact ⟨_, rfl, written_kept (i := 0) (start_offline _) ha rfl rfl trivial rfl⟩

def outcome7 (st : State) : List Handler × Option Nat × Option Ptr :=
  (st.handlers, st.last.load 7, st.sessions.load 7)

theorem tooLate_lost :
    (run step (offline session7) (tooLate reconnect7)).map outcome7 =
      some ([⟨reconnect7, .done⟩], some 0, none) ∧
    (run step (offline session7) (tooLate save7)).map outcome7 =
      some ([⟨save7, .done⟩], some 0, none) := by
  decide

-- ---------------------------------------------------------------------------
-- Forced leaves
-- ---------------------------------------------------------------------------

structure Sent where
  conn : Conn
  msgID : UInt32
  data : SessionData
  deriving DecidableEq

def notifyForceLeaveRoom (reg : Registry) (intn : Nat) (playerID : Int64)
    (matchID serverID : String) :
    Option Sent :=
  let key := if serverID = "" then matchID else serverID
  (reg.routeTo intn svcRoomSvr key).map fun conn =>
    ⟨conn, msgIdSessionForceLeave, { playerId := playerID, connTags := tag tagMatchID matchID }⟩

def notifyForceLeaveQueue (reg : Registry) (intn : Nat) (playerID : Int64) (matchType : String) :
    Option Sent :=
  (reg.routeTo intn svcMatchSvr matchType).map fun conn =>
    ⟨conn, msgIdSessionForceLeaveQueue,
      { playerId := playerID, connTags := tag tagMatchType matchType }⟩

def connTag (s : Session) (key : String) : String := (s.connTags.getD ∅).get key

def notifyExpired (reg : Registry) (intn : Nat) (s : Session) : List Sent :=
  let matchID := connTag s tagMatchID
  let matchType := connTag s tagMatchType
  let roomSvrID := connTag s tagRoomSvrID
  (if matchID ≠ "" then (notifyForceLeaveRoom reg intn s.playerID matchID roomSvrID).toList
    else []) ++
    (if matchType ≠ "" then (notifyForceLeaveQueue reg intn s.playerID matchType).toList else [])

/-- The registry of `main`. Its pools are never synced with a new configuration. -/
def registry (rooms matchSvrs : List ServerNode) : Registry :=
  (({ identity := svcSessionSvr } : Registry).dial svcRoomSvr rooms .hash).dial svcMatchSvr
    matchSvrs .hash

def withRooms (reg : Registry) (rooms : Pool) : Registry :=
  { reg with backends := reg.backends.store svcRoomSvr rooms }

/-- Every healthy connection carries the id of its server, as those of Dial do. -/
def CarryIDs (pool : Pool) : Prop := ∀ c ∈ healthyConns pool, c.serverID = some c.server.id

theorem directRoute_carry (hc : CarryIDs pool)
    (hr : directRoute key (healthyConns pool) = some conn) :
    conn.server.id = key := by
  obtain ⟨hmem, hid⟩ := directRoute_some hr
  exact Option.some.inj ((hc conn hmem).symm.trans hid)

theorem mem_notifyExpired_room (hmatch : connTag s tagMatchID ≠ "")
    (hserver : connTag s tagRoomSvrID ≠ "") :
    (sent ∈ notifyExpired reg intn s ∧ sent.msgID = msgIdSessionForceLeave) ↔
      ∃ conn, reg.routeTo intn svcRoomSvr (connTag s tagRoomSvrID) = some conn ∧
        sent = ⟨conn, msgIdSessionForceLeave,
          { playerId := s.playerID, connTags := tag tagMatchID (connTag s tagMatchID) }⟩ := by
  have hqueue : ∀ q ∈ notifyForceLeaveQueue reg intn s.playerID (connTag s tagMatchType),
      q.msgID ≠ msgIdSessionForceLeave := by
    intro q hq
    obtain ⟨conn, -, rfl⟩ := Option.map_eq_some_iff.mp hq
    simp [msgIdSessionForceLeaveQueue, msgIdSessionForceLeave]
  have hroom :
      sent ∈ notifyForceLeaveRoom reg intn s.playerID (connTag s tagMatchID)
        (connTag s tagRoomSvrID) ↔
      ∃ conn, reg.routeTo intn svcRoomSvr (connTag s tagRoomSvrID) = some conn ∧
        sent = ⟨conn, msgIdSessionForceLeave,
          { playerId := s.playerID, connTags := tag tagMatchID (connTag s tagMatchID) }⟩ := by
    simp only [notifyForceLeaveRoom, if_neg hserver, Option.mem_def, Option.map_eq_some_iff]
    exact exists_congr fun conn => and_congr_right fun _ => eq_comm
  simp only [notifyExpired, if_pos hmatch, List.mem_append, Option.mem_toList]
  constructor
  · rintro ⟨hs | hs, hid⟩
    · exact hroom.mp hs
    · split at hs
      next => exact absurd hid (hqueue sent (Option.mem_toList.mp hs))
      next => cases hs
  · intro h
    refine ⟨.inl (hroom.mpr h), ?_⟩
    obtain ⟨conn, -, rfl⟩ := h
    rfl

theorem hashRoute_reaches_iff {healthy : List Conn} (hnodup : (healthy.map (·.server.id)).Nodup)
    (hmem : ∃ c ∈ healthy, c.server.id = key) :
    (∃ conn, hashRoute key healthy = some conn ∧ conn.server.id = key) ↔
      (healthy.map (·.server.id)).idxOf key = (fnv32a key).toNat % healthy.length := by
  obtain ⟨c, hc, hid⟩ := hmem
  have hpos : 0 < healthy.length := List.length_pos_of_mem hc
  have hlt := Nat.mod_lt (fnv32a key).toNat hpos
  have hroute : hashRoute key healthy = some healthy[(fnv32a key).toNat % healthy.length] := by
    rw [hashRoute, if_neg hpos.ne', List.getElem?_eq_getElem hlt]
  constructor
  · rintro ⟨conn, hconn, hkey⟩
    obtain rfl := Option.some.inj (hroute.symm.trans hconn)
    have hget := hnodup.idxOf_getElem ((fnv32a key).toNat % healthy.length) (by simpa using hlt)
    rwa [List.getElem_map, hkey] at hget
  · intro hidx
    refine ⟨_, hroute, ?_⟩
    have hin : key ∈ healthy.map (·.server.id) := List.mem_map.mpr ⟨c, hc, hid⟩
    have hget := List.getElem_idxOf (List.idxOf_lt_length_of_mem hin)
    simpa [hidx] using hget

/-- The forced leave goes to the server of the session's room, the one a gateway
sends the player's requests to, exactly if that server stands in the list of
healthy connections where the hash of its id points. -/
theorem forceLeave_reaches_iff (hids : (rooms.map (·.id)).Nodup)
    (hevs : ∀ ev ∈ evs, ∃ i e, ev = .entry i e)
    (hr : run poolStep (dialPool rooms .hash) evs = some pool)
    (hmatch : connTag s tagMatchID ≠ "") (hserver : connTag s tagRoomSvrID ≠ "")
    (hmem : ∃ c ∈ healthyConns pool, c.server.id = connTag s tagRoomSvrID) :
    (∃ sent ∈ notifyExpired (withRooms (registry rooms matchSvrs) pool) intn s,
      sent.msgID = msgIdSessionForceLeave ∧ sent.conn.server.id = connTag s tagRoomSvrID ∧
      ∀ gateway c, CarryIDs gateway →
        directRoute (connTag s tagRoomSvrID) (healthyConns gateway) = some c →
        c.server.id = sent.conn.server.id) ↔
    ((healthyConns pool).map (·.server.id)).idxOf (connTag s tagRoomSvrID) =
      (fnv32a (connTag s tagRoomSvrID)).toNat % (healthyConns pool).length := by
  obtain ⟨hinv, hf⟩ := poolInv_entries hids hevs hr
  have hroute : (withRooms (registry rooms matchSvrs) pool).routeTo intn svcRoomSvr
      (connTag s tagRoomSvrID) = hashRoute (connTag s tagRoomSvrID) (healthyConns pool) := by
    rw [Registry.routeTo, withRooms, SyncMap.load_store_self, Option.bind_some, route,
      hf, RouteFunc.apply]
  rw [← hashRoute_reaches_iff (healthyConns_nodup hinv) hmem, ← hroute]
  constructor
  · rintro ⟨sent, hsent, hid, hkey, -⟩
    obtain ⟨conn, hconn, rfl⟩ := (mem_notifyExpired_room hmatch hserver).mp ⟨hsent, hid⟩
    exact ⟨conn, hconn, hkey⟩
  · rintro ⟨conn, hconn, hkey⟩
    obtain ⟨hsent, hid⟩ := (mem_notifyExpired_room hmatch hserver).mpr ⟨conn, hconn, rfl⟩
    refine ⟨_, hsent, hid, hkey, fun gateway c hc hd => ?_⟩
    rw [hkey]
    exact directRoute_carry hc hd

def inRoom (roomSvrID : String) : Session :=
  { session7 with connTags := some ((tag tagMatchID "match-1").store tagRoomSvrID roomSvrID) }

-- Listed the other way round, both servers stand where their ids point.
theorem reversedRooms_reached :
    ∃ pool, run poolStep (dialPool shippedRoomSvrs.reverse .hash) dialed = some pool ∧
      (healthyConns pool).map (·.server.id) = ["roomsvr-2", "roomsvr-1"] ∧
      ∃ sent ∈ notifyExpired (withRooms (registry shippedRoomSvrs.reverse []) pool) 0
          (inRoom "roomsvr-1"),
        sent.msgID = msgIdSessionForceLeave ∧ sent.conn.server.id = "roomsvr-1" ∧
        ∀ gateway c, CarryIDs gateway → directRoute "roomsvr-1" (healthyConns gateway) = some c →
          c.server.id = sent.conn.server.id := by
  have hevs : ∀ ev ∈ dialed, ∃ i e, ev = .entry i e := by simp [dialed]
  refine ⟨_, rfl, by decide, (forceLeave_reaches_iff (by decide) hevs rfl ?_ ?_ ?_).mpr ?_⟩
  · decide
  · decide
  · decide
  · decide +kernel

theorem otherRoom_notified :
    (run poolStep (dialPool shippedRoomSvrs .hash) dialed).map (fun pool =>
      ((healthyConns pool).map (·.serverID),
        (notifyExpired (withRooms (registry shippedRoomSvrs []) pool) 0 (inRoom "roomsvr-1")).map
          fun sent =>
          (sent.msgID, sent.conn.server.id))) =
      some ([some "roomsvr-1", some "roomsvr-2"], [(msgIdSessionForceLeave, "roomsvr-2")]) := by
  decide +kernel

end Cardwar.SessionSvr.Expiry
