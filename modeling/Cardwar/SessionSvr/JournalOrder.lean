import Cardwar.Lib.Run
import Cardwar.SessionSvr.Replay

/-!
# The order of the journal

Handlers of one player's messages, from several gateways, run side by side. Each
changes the session under its lock and appends its journal entry after it has
released the lock, so another handler's section and append may come in between
and the entries may stand in another order than the changes were made in. Where
they stand in the order of the changes, replaying them gives the gateway and the
disconnect time the session has (`replayed_in_order`).
-/

namespace Cardwar.SessionSvr.JournalOrder

open Protocol
open Expiry (Call)
open Run (run Along)

/-- What the handler passes to `journalAppend` after its section; a stale
disconnect has returned by then. -/
def entry (s : Session) : Call → Option JournalEntry
  | .save data =>
    some
      { op := .save
        playerID := data.playerId
        gatewayID := data.gatewayId
        connTags := goTags data.connTags }
  | .disconnect data now =>
    if s.Stale data.gatewayId then none
    else some { op := .disconnect, playerID := data.playerId, gatewayID := data.gatewayId,
                connTags := goTags data.connTags, disconnectedAt := now }
  | .reconnect data =>
    some
      { op := .reconnect
        playerID := data.playerId
        gatewayID := data.gatewayId
        connTags := goTags data.connTags }

structure State where
  session : Session
  /-- The handlers that have found the session and are before their section. -/
  waiting : List Call := []
  /-- The entries of the handlers that are between their section and
  `journalAppend`, in the order of the sections. -/
  pending : List JournalEntry := []
  journal : List JournalLine := []

inductive Event
  | start (call : Call)
  | locked (i : Nat)
  /-- `journalAppend` by the i-th of those that have an entry to append. -/
  | append (i : Nat) (ts : Int)

def step (st : State) : Event → Option State
  | .start call =>
    if call.playerId = st.session.playerID then some { st with waiting := st.waiting ++ [call] }
    else none
  | .locked i => st.waiting[i]?.map fun call =>
    { st with
      session := call.update st.session
      waiting := st.waiting.eraseIdx i
      pending := st.pending ++ (entry st.session call).toList }
  | .append i ts => st.pending[i]?.map fun e =>
    { st with pending := st.pending.eraseIdx i, journal := st.journal ++ [journalAppend ts e] }

theorem handle_found (h : sessions.load (Call.playerId call) = some s) :
    (call.handle sessions).sessions = sessions.store call.playerId (call.update s) ∧
      (call.handle sessions).journal = (entry s call).toList := by
  cases call with
  | save data =>
    change sessions.load data.playerId = some s at h
    simp only [Call.handle, handleSave, SyncMap.loadOrStore_fst, SyncMap.store_loadOrStore,
      h, Option.getD_some]
    exact ⟨rfl, rfl⟩
  | disconnect data now =>
    change sessions.load data.playerId = some s at h
    refine ⟨?_, ?_⟩
    · rw [Call.handle, Expiry.handleDisconnect_sessions, SyncMap.store_loadOrStore,
        SyncMap.loadOrStore_fst, h]
      rfl
    · simp only [Call.handle, handleDisconnect, SyncMap.loadOrStore_fst, h, Option.getD_some, entry]
      split <;> rfl
  | reconnect data =>
    change sessions.load data.playerId = some s at h
    simp only [Call.handle, handleReconnect, h]
    exact ⟨rfl, rfl⟩

def Start (st : State) : Prop := st.waiting = [] ∧ st.pending = [] ∧ st.journal = []

def Done (st : State) : Prop := st.waiting = [] ∧ st.pending = []

/-- An accepted disconnect has a clock reading to write down: 0 stands for none
in the journal. -/
def Marks (s : Session) : Call → Prop
  | .disconnect data now => s.Stale data.gatewayId ∨ now ≠ 0 ∨ s.disconnectedAt = 0
  | _ => True

instance (s : Session) : (call : Call) → Decidable (Marks s call)
  | .save _ => inferInstanceAs (Decidable True)
  | .disconnect _ _ => inferInstanceAs (Decidable (_ ∨ _ ∨ _))
  | .reconnect _ => inferInstanceAs (Decidable True)

/-- Entries are appended in the order of the sections. -/
def InOrder (st : State) : Event → Prop
  | .append i _ => i = 0
  | .locked i => ∀ call ∈ st.waiting[i]?, Marks st.session call
  | .start _ => True

instance (st : State) : (ev : Event) → Decidable (InOrder st ev)
  | .append i _ => inferInstanceAs (Decidable (i = 0))
  | .locked i => inferInstanceAs (Decidable (∀ call ∈ st.waiting[i]?, Marks st.session call))
  | .start _ => inferInstanceAs (Decidable True)

@[simp] theorem leaseOp_journalAppend (ts : Int) (e : JournalEntry) :
    (journalAppend ts e).unmarshal.leaseOp = e.leaseOp := by
  simp [journalAppend, JournalEntry.marshal, JournalLine.unmarshal, JournalEntry.leaseOp,
    getD_omitEmpty]

theorem of_mem_entry (h : e ∈ entry s call) :
    e.playerID = call.playerId ∧ e.connTags = goTags call.data.connTags := by
  cases call with
  | save data => exact Option.some.inj h ▸ ⟨rfl, rfl⟩
  | reconnect data => exact Option.some.inj h ▸ ⟨rfl, rfl⟩
  | disconnect data now =>
    simp only [entry] at h
    split at h
    · cases h
    · exact Option.some.inj h ▸ ⟨rfl, rfl⟩

theorem lease_section (h : Marks s call) :
    (call.update s).lease = s.lease.applyAll "" 0
      ((entry s call).toList.map JournalEntry.leaseOp) := by
  cases call with
  | save data => rfl
  | reconnect data => rfl
  | disconnect data now =>
    by_cases hstale : s.Stale data.gatewayId
    · simp [entry, Call.update, hstale, Lease.applyAll]
    · have hmark : (if now ≠ 0 then now else s.disconnectedAt) = now := by
        rcases h with h | h | h
        · exact absurd h hstale
        · exact if_pos h
        · split <;> omega
      have hstamp : s.lease.apply "" 0 (.stamp data.gatewayId now) =
          ⟨if s.gatewayID = "" then data.gatewayId else s.gatewayID,
            if now ≠ 0 then now else s.disconnectedAt⟩ := if_neg hstale
      rw [hmark] at hstamp
      simp only [entry, Call.update, if_neg hstale]
      exact hstamp.symm

/-- The session has what replaying the journal and then the pending entries
makes of the first session. -/
structure Inv (s₀ : Session) (st : State) : Prop where
  player : st.session.playerID = s₀.playerID
  waiting : ∀ call ∈ st.waiting, call.playerId = s₀.playerID
  pending : ∀ e ∈ st.pending, e.playerID = s₀.playerID
  journal : ∀ line ∈ st.journal, line.playerID = s₀.playerID
  lease : st.session.lease = s₀.lease.applyAll "" 0
    ((st.journal.map JournalLine.unmarshal ++ st.pending).map JournalEntry.leaseOp)

theorem inv_locked (h : Inv s₀ st) (hcall : call ∈ st.waiting) (hm : Marks st.session call)
    (i : Nat) :
    Inv s₀ { st with
      session := call.update st.session
      waiting := st.waiting.eraseIdx i
      pending := st.pending ++ (entry st.session call).toList } where
  player := (call.update_playerID st.session).trans h.player
  waiting := fun c hc => h.waiting c (List.mem_of_mem_eraseIdx hc)
  pending := by
    intro e he
    rcases List.mem_append.mp he with he | he
    · exact h.pending e he
    · exact (of_mem_entry (Option.mem_toList.mp he)).1.trans (h.waiting call hcall)
  journal := h.journal
  lease := by
    dsimp only
    rw [lease_section hm, h.lease, ← Lease.applyAll_append, ← List.map_append, List.append_assoc]

theorem inv_append (h : Inv s₀ st) (he : st.pending = e :: es) (ts : Int) :
    Inv s₀ { st with pending := es, journal := st.journal ++ [journalAppend ts e] } where
  player := h.player
  waiting := h.waiting
  pending := fun f hf => h.pending f (he ▸ List.mem_cons_of_mem e hf)
  journal := by
    intro line hl
    rcases List.mem_append.mp hl with hl | hl
    · exact h.journal line hl
    · obtain rfl := List.mem_singleton.mp hl
      exact h.pending e (he ▸ List.mem_cons_self)
  lease := by
    rw [h.lease, he]
    simp

theorem inv_step (h : Inv s₀ st) (hok : InOrder st ev) (hs : step st ev = some st') :
    Inv s₀ st' := by
  cases ev with
  | start call =>
    simp only [step] at hs
    split at hs
    next hp =>
      cases hs
      refine { h with waiting := ?_ }
      intro c hc
      rcases List.mem_append.mp hc with hc | hc
      · exact h.waiting c hc
      · obtain rfl := List.mem_singleton.mp hc
        exact hp.trans h.player
    next => cases hs
  | locked i =>
    obtain ⟨call, hcall, rfl⟩ := Option.map_eq_some_iff.mp hs
    exact inv_locked h (List.mem_of_getElem? hcall) (hok call hcall) i
  | append i ts =>
    obtain ⟨e, he, rfl⟩ := Option.map_eq_some_iff.mp hs
    obtain rfl : i = 0 := hok
    cases hp : st.pending with
    | nil => simp [hp] at he
    | cons f es =>
      obtain rfl : f = e := by simpa [hp] using he
      exact inv_append h hp ts

theorem inv_start (h : Start st) : Inv st.session st where
  player := rfl
  waiting := by simp [h.1]
  pending := by simp [h.2.1]
  journal := by simp [h.2.2]
  lease := by simp [h.2.1, h.2.2, Lease.applyAll]

/-- When all handlers have finished, replaying what they appended over the
session as it was gives the gateway and the disconnect time it has now. -/
theorem replayed_in_order (h0 : Start st₀) (ha : Along step InOrder st₀ es)
    (hr : run step st₀ es = some st)
    (hdone : Done st) (hs : sessions.load st₀.session.playerID = some st₀.session) :
    ∃ s, (replayAll sessions st.journal).load st₀.session.playerID = some s ∧
      s.gatewayID = st.session.gatewayID ∧ s.disconnectedAt = st.session.disconnectedAt := by
  have h : Inv st₀.session st :=
    Run.invariant (fun _ _ _ h hok hs => inv_step h hok hs) (inv_start h0) ha hr
  have hentries :
      entriesOf st₀.session.playerID st.journal = st.journal.map JournalLine.unmarshal := by
    rw [entriesOf, List.filter_eq_self.mpr]
    exact fun line hl => decide_eq_true (h.journal line hl)
  have hlease :
      (st₀.session.updateAll (st.journal.map JournalLine.unmarshal)).lease = st.session.lease := by
    rw [lease_updateAll, h.lease, hdone.2, List.append_nil]
  obtain ⟨hgateway, hdisconnected⟩ := Lease.mk.inj hlease
  refine ⟨_, ?_, hgateway, hdisconnected⟩
  rw [load_replayAll, hs, placeAll_some, hentries]

def switching : List Event :=
  [.start (.save { playerId := 7, gatewayId := "gateway-1" }),
   .start (.reconnect { playerId := 7, gatewayId := "gateway-2" }),
   .locked 0, .locked 0]

def dropping : List Event :=
  [.start (.disconnect { playerId := 7, gatewayId := "gateway-1" } 1000),
   .start (.save { playerId := 7, gatewayId := "gateway-1" }),
   .locked 0, .locked 0]

def online7 : State := { session := { playerID := 7, gatewayID := "gateway-1" } }

def inTurn : List Event := [.append 0 1, .append 0 2]

def overtaking : List Event := [.append 1 1, .append 0 2]

def map7 : Sessions := (∅ : Sessions).store 7 online7.session

theorem switching_in_order :
    ∃ st, run step online7 (switching ++ inTurn) = some st ∧
      ∃ s, (replayAll map7 st.journal).load 7 = some s ∧
        s.gatewayID = st.session.gatewayID ∧ s.disconnectedAt = st.session.disconnectedAt := by
  have ha : Along step InOrder online7 (switching ++ inTurn) := by decide
  have h0 : Start online7 := ⟨rfl, rfl, rfl⟩
  exact ⟨_, rfl, replayed_in_order h0 ha rfl ⟨rfl, rfl⟩ (by decide)⟩

def outcome (st : State) : Nat × Nat × Lease String Int × Option (Lease String Int) :=
  (st.waiting.length, st.pending.length, st.session.lease,
    ((replayAll map7 st.journal).load 7).map Session.lease)

theorem overtaken_differs :
    (run step online7 (switching ++ overtaking)).map outcome =
        some (0, 0, ⟨"gateway-2", 0⟩, some ⟨"gateway-1", 0⟩) ∧
      (run step online7 (dropping ++ overtaking)).map outcome =
        some (0, 0, ⟨"gateway-1", 0⟩, some ⟨"gateway-1", 1000⟩) :=
  ⟨by decide, by decide⟩

end Cardwar.SessionSvr.JournalOrder
