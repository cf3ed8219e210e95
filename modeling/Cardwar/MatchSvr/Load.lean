import Cardwar.Lib.Run
import Cardwar.MatchSvr.Router

/-!
# Loads and the directory

`loadCounts` repeats what the directory says: how many matches a server has. A
match that is formed, allocated or destroyed changes both maps, and a counter
that gets to zero is deleted. They stay in step as long as a match formed from
the queue gets an id that is not in use (`loads_balanced`).
-/

namespace Cardwar.MatchSvr

open Protocol Codec Pkg
open Run (Along total)

def Matches.placed (st : Matches) (serverID : String) : Nat :=
  st.activeMatches.countVal fun dir => dir.serverID = serverID

structure Balanced (st : Matches) : Prop where
  count : ∀ serverID, (st.loadCounts.load serverID).getD 0 = st.placed serverID
  positive : ∀ serverID n, st.loadCounts.load serverID = some n → 1 ≤ n

/-- The id `matchPool` makes while the message is handled. -/
def generatedID (st : Matches) (request : Request) : Option String :=
  if request.msgID = msgIdMatchEnterReq then
    match decodeEnvelope request.data with
    | .error _ => none
    | .ok envelope => match decodeMatchEnterReq envelope.data with
      | .error _ => none
      | .ok req =>
        if requiredPlayers req.matchType ≤ (st.waiting req.matchType).length + 1 then
          some (formedID req.matchType request.env.now)
        else none
  else none

def NewID (st : Matches) (request : Request) : Prop :=
  ∀ m ∈ generatedID st request, st.activeMatches.load m = none

instance (st : Matches) (request : Request) : Decidable (NewID st request) :=
  inferInstanceAs (Decidable (∀ m ∈ generatedID st request, st.activeMatches.load m = none))

theorem load_incLoad (loadCounts : SyncMap String Int) (serverID other : String) :
    (incLoad loadCounts serverID).load other =
      if other = serverID then some ((loadCounts.load serverID).getD 0 + 1)
      else loadCounts.load other := by
  simp only [incLoad, SyncMap.loadOrStore_fst, SyncMap.store_loadOrStore, SyncMap.load_store]

theorem load_decLoad (h : loadCounts.load serverID = some n) (other : String) :
    (decLoad loadCounts serverID).load other =
      if other = serverID then (if n ≤ 1 then none else some (n - 1))
      else loadCounts.load other := by
  simp only [decLoad, h]
  by_cases hn : n ≤ 1
  · rw [if_pos (by omega), if_pos hn, SyncMap.load_delete]
  · rw [if_neg (by omega), if_neg hn, SyncMap.load_store]

theorem Balanced.placed (h : Balanced st) (hnew : st.activeMatches.load m = none)
    (hm : st'.activeMatches = st.activeMatches.store m dir)
    (hl : st'.loadCounts = incLoad st.loadCounts dir.serverID) : Balanced st' := by
  refine ⟨fun serverID => ?_, fun serverID n hn => ?_⟩
  · have hcount := h.count serverID
    simp only [Matches.placed] at hcount ⊢
    rw [hl, hm, load_incLoad, SyncMap.countVal_store _ _ _ hnew]
    split
    next heq =>
      subst heq
      simp [hcount]
    next hne => simp [hcount, Ne.symm hne]
  · rw [hl, load_incLoad] at hn
    split at hn
    next =>
      have hcount := h.count dir.serverID
      have hn := Option.some.inj hn
      omega
    next => exact h.positive serverID n hn

theorem Balanced.destroyed (h : Balanced st) (hdir : st.activeMatches.load m = some dir)
    (hm : st'.activeMatches = st.activeMatches.delete m)
    (hl : st'.loadCounts = decLoad st.loadCounts dir.serverID) : Balanced st' := by
  have hone :=
    SyncMap.countVal_delete (fun d : MatchDir => d.serverID = dir.serverID) st.activeMatches hdir
  rw [if_pos rfl] at hone
  have hself := h.count dir.serverID
  simp only [Matches.placed] at hself
  obtain ⟨n, hn⟩ : ∃ n, st.loadCounts.load dir.serverID = some n := by
    cases hload : st.loadCounts.load dir.serverID with
    | some n => exact ⟨n, rfl⟩
    | none =>
      rw [hload, Option.getD_none] at hself
      omega
  rw [hn, Option.getD_some] at hself
  refine ⟨fun serverID => ?_, fun serverID k hk => ?_⟩
  · have hcount := h.count serverID
    have hrest :=
      SyncMap.countVal_delete (fun d : MatchDir => d.serverID = serverID) st.activeMatches hdir
    simp only [Matches.placed] at hcount ⊢
    rw [hl, hm, load_decLoad hn]
    split
    next heq =>
      subst heq
      split
      · rw [Option.getD_none]
        omega
      · rw [Option.getD_some]
        omega
    next hne =>
      rw [if_neg (Ne.symm hne)] at hrest
      rw [hcount, ← hrest]
      rfl
  · rw [hl, load_decLoad hn] at hk
    split at hk
    next =>
      split at hk
      · cases hk
      · have hk := Option.some.inj hk
        omega
    next => exact h.positive serverID k hk

theorem generatedID_formed (hid : request.msgID = msgIdMatchEnterReq)
    (henv : decodeEnvelope request.data = .ok envelope)
    (hreq : decodeMatchEnterReq envelope.data = .ok req)
    (hfull : requiredPlayers req.matchType ≤ (Matches.waiting st req.matchType).length + 1) :
    generatedID st request = some (formedID req.matchType request.env.now) := by
  simp only [generatedID, if_pos hid, henv, hreq, if_pos hfull]

theorem balanced_handle (h : Balanced st) (hnew : NewID st request) :
    Balanced (handle st request).1 := by
  cases directed st request with
  | kept hm hl =>
    refine ⟨fun serverID => ?_, fun serverID n hn => h.positive serverID n (hl ▸ hn)⟩
    rw [hl, Matches.placed, hm]
    exact h.count serverID
  | allocated hnone hm hl => exact h.placed hnone hm hl
  | formed hid henv hreq hfull hm hl =>
    exact h.placed (hnew _ (generatedID_formed hid henv hreq hfull)) hm hl
  | destroyed hid hname hdir hm hl => exact h.destroyed hdir hm hl

/-- After any messages from the empty state, each server's counter is the number
of its matches in the directory, and no counter is below 1. -/
theorem loads_balanced
    (ha : Along (total fun st request => (handle st request).1) NewID {} requests) :
    Balanced (requests.foldl (fun st request => (handle st request).1) {}) := by
  have h0 : Balanced {} := ⟨fun _ => by simp [Matches.placed], by simp⟩
  exact Run.total_invariant (fun _ _ h hnew => balanced_handle h hnew) h0 ha

def placing (msgID : UInt32) (data : Wire.Bytes) (now : Int) : Request :=
  ⟨msgID, marshalEnvelope 3 data [], 1,
    { reg := { identity := Conf.svcMatchSvr }, roomSvrs := Conf.shippedRoomSvrs, now }⟩

def entering (player : Int64) (conn connId : UInt64) (now : Int) : Request :=
  ⟨msgIdMatchEnterReq, marshalEnvelope connId (Wire.fields [(1, .len (utf8 "1v1"))])
    [(tagPlayerID, Strconv.formatInt player)], conn,
    { reg := { identity := Conf.svcMatchSvr }, roomSvrs := Conf.shippedRoomSvrs, now }⟩

-- Two players are matched between the allocation of m and its end.
def busy : List Request :=
  [placing msgIdMatchAllocateReq (marshalMatchId "m") 1,
   placing msgIdMatchEnterReq (Wire.fields [(1, .len (utf8 "1v1"))]) 2,
   placing msgIdMatchEnterReq (Wire.fields [(1, .len (utf8 "1v1"))]) 3,
   placing msgIdMatchAllocateReq (marshalMatchId "n") 4,
   placing msgIdRoomDestroyedPush (marshalMatchId "m") 5,
   placing msgIdRoomDestroyedPush (marshalMatchId "m") 6]

theorem busy_balanced :
    Balanced (busy.foldl (fun st request => (handle st request).1) {}) ∧
      (busy.foldl (fun st request => (handle st request).1) {}).loadCounts =
        ((∅ : SyncMap String Int).store "roomsvr-1" 1).store "roomsvr-2" 1 :=
  ⟨loads_balanced (by decide +kernel), by decide +kernel⟩

end Cardwar.MatchSvr
