import Cardwar.RoomSvr.Members

/-!
# What members are told

A join or a removal sends a RoomEventPush with the new size of the room to the
other members, at the address their entries have at that moment. A run is kept
with its history here: the rooms before and after each message and everything
that was sent. Since they joined, a member was sent one event for every change
of their room and none besides, and the size in the last one is the size of the
room (`members_informed`).
-/

namespace Cardwar.RoomSvr.Events

open Protocol Codec Pkg Conf
open Concurrent (members ids)

structure Handled where
  before : Rooms
  outs : List Outgoing
  after : Rooms

structure State where
  rooms : Rooms := ∅
  /-- Newest first; no code reads it. -/
  history : List Handled := []

def step (st : State) (request : Request) : State where
  rooms := (handle st.rooms request).1
  history := ⟨st.rooms, (handle st.rooms request).2, (handle st.rooms request).1⟩ :: st.history

def eventRoom (out : Outgoing) : Option String :=
  match out.content with
  | .envelope _ (.roomEventPush m _ _ _) _ => some m
  | _ => none

def eventsOf (m : String) (outs : List Outgoing) : List Outgoing :=
  outs.filter (eventRoom · = some m)

/-- The RoomEventPush to one entry, at the entry's address. -/
def eventTo (m playerID event : String) (count : Nat) (entry : RoomPlayer) : Outgoing where
  target := .conn entry.conn
  msgID := msgIdRoomEventPush
  content := .envelope entry.senderID (.roomEventPush m playerID event count) ∅

/-- A player joined the room or was removed from it. -/
def Handled.changes (r : Handled) (m : String) : Prop := ids r.after m ≠ ids r.before m

instance (r : Handled) (m : String) : Decidable (r.changes m) := inferInstanceAs (Decidable (_ ≠ _))

def Handled.joins (r : Handled) (m playerID : String) : Bool :=
  playerID ∉ ids r.before m ∧ playerID ∈ ids r.after m

/-- What was handled since the player's latest join, newest first. -/
def since (m playerID : String) (history : List Handled) : List Handled :=
  history.takeWhile fun r => !r.joins m playerID

/-- A change that is another player's. The events sent for it are one to each of
the `recipients`, and one of these is the entry the player had. -/
def Handled.Told (r : Handled) (m playerID : String) : Prop :=
  ∃ (other event : String) (recipients : List RoomPlayer), ∃ entry ∈ members r.before m,
    other ≠ playerID ∧ recipients.filter (·.playerID = playerID) = [entry] ∧
    eventsOf m r.outs = recipients.map (eventTo m other event (members r.after m).length)

structure Informed (st : State) (m playerID : String) : Prop where
  /-- Without a change since then, the room has the size it had at the join. -/
  joined : ∃ r, st.history.find? (·.joins m playerID) = some r ∧
    ((∀ r' ∈ since m playerID st.history, ¬ r'.changes m) →
      (members st.rooms m).length = (members r.after m).length)
  told : ∀ r ∈ since m playerID st.history, r.changes m → r.Told m playerID
  quiet : ∀ r ∈ since m playerID st.history, ¬ r.changes m → eventsOf m r.outs = []
  latest : ∀ r, (since m playerID st.history).find? (·.changes m) = some r →
    (members st.rooms m).length = (members r.after m).length

section Message

variable {r : Handled} {rooms rooms' : Rooms} {m n playerID : String}

inductive Moved (playerID : String) (old new : List String) : String → Prop
  | joined (hnot : playerID ∉ old) (hnew : new = old ++ [playerID]) :
      Moved playerID old new "joined"
  | left (hnew : new = old.filter (· ≠ playerID)) : Moved playerID old new "left"

/-- Those who stay are told of a change, and nobody of anything else. -/
structure Announced (r : Handled) (m : String) : Prop where
  quiet : ¬ r.changes m → eventsOf m r.outs = []
  changed : r.changes m → ∃ other event, Moved other (ids r.before m) (ids r.after m) event ∧
    eventsOf m r.outs = ((members r.before m).filter (·.playerID ≠ other)).map
      (eventTo m other event (members r.after m).length)

section Outs

variable (m)

theorem eventsOf_append (outs outs' : List Outgoing) :
    eventsOf m (outs ++ outs') = eventsOf m outs ++ eventsOf m outs' := List.filter_append ..

theorem eventsOf_cons_other (h : eventRoom out ≠ some m) (outs : List Outgoing) :
    eventsOf m (out :: outs) = eventsOf m outs := List.filter_cons_of_neg (by simpa using h)

theorem eventsOf_broadcast (players : List RoomPlayer) (playerID event : String) (count : Nat) :
    eventsOf m (broadcastRoomEvent m players playerID event count) =
      players.map (eventTo m playerID event count) := by
  have hall : broadcastRoomEvent m players playerID event count =
      players.map (eventTo m playerID event count) := rfl
  rw [hall, eventsOf, List.filter_eq_self]
  intro out hout
  obtain ⟨p, -, rfl⟩ := List.mem_map.mp hout
  simp [eventRoom, eventTo]

theorem eventsOf_broadcast_other (hn : n ≠ m) (players : List RoomPlayer) (playerID event : String)
    (count : Nat) :
    eventsOf m (broadcastRoomEvent n players playerID event count) = [] := by
  rw [eventsOf, List.filter_eq_nil_iff]
  intro out hout
  obtain ⟨p, -, rfl⟩ := List.mem_map.mp hout
  simp [eventRoom, hn]

@[simp] theorem eventsOf_leaveResp (conn senderID : UInt64) :
    eventsOf m [leaveResp conn senderID] = [] := rfl

theorem eventsOf_notice (env : Env) (n : String) : eventsOf m (notifyMatchSvr env n) = [] := by
  unfold notifyMatchSvr
  split <;> rfl

end Outs

theorem announced_quiet (hids : ids r.after m = ids r.before m) (houts : eventsOf m r.outs = []) :
    Announced r m :=
  ⟨fun _ => houts, fun hchanges => absurd hids hchanges⟩

theorem ids_others (h : ∀ n ≠ m, rooms'.load n = rooms.load n) :
    ∀ n ≠ m, ids rooms' n = ids rooms n := by
  intro n hn
  rw [ids, members, h n hn, ids, members]

theorem announced_removed (hload : rooms.load n = some players)
    (hnodup : (players.map (·.playerID)).Nodup) (hin : playerID ∈ players.map (·.playerID))
    (hself : members rooms' n = players.eraseP (·.playerID = playerID))
    (hothers : ∀ k ≠ n, rooms'.load k = rooms.load k)
    (houts : ∀ m, eventsOf m outs =
      eventsOf m (broadcastRoomEvent n (players.eraseP (·.playerID = playerID))
      playerID "left" (players.eraseP (·.playerID = playerID)).length)) (m : String) :
    Announced ⟨rooms, outs, rooms'⟩ m := by
  by_cases hm : m = n
  · subst hm
    have hrest := eraseP_eq_filter hnodup playerID
    have hbefore : members rooms m = players := by rw [members, hload, Option.getD_some]
    have hids : ids rooms' m = (ids rooms m).filter (· ≠ playerID) := by
      rw [ids, hself, hrest, ids, hbefore, List.filter_map]
      rfl
    refine ⟨fun hsame => ?_, fun _ => ⟨playerID, "left", .left hids, ?_⟩⟩
    · -- The player was there and is not any more.
      have hgone : playerID ∉ ids rooms' m := by simp [hids]
      exact absurd (not_not.mp hsame ▸ ids_of_load hload ▸ hin) hgone
    · rw [houts, eventsOf_broadcast, hself, hbefore, hrest]
  · refine announced_quiet (ids_others hothers m hm) ?_
    rw [houts, eventsOf_broadcast_other m (Ne.symm hm)]

theorem announced_changed (hr : Represented rooms) (hc : Changed rooms request rooms' outs)
    (m : String) :
    Announced ⟨rooms, outs, rooms'⟩ m := by
  cases hc with
  | refused hmsg ho =>
    refine announced_quiet rfl (List.filter_eq_nil_iff.mpr fun out hout => ?_)
    obtain ⟨conn, senderID, matchID, error, rfl⟩ := ho out hout
    simp [eventRoom, sendJoinResp]
  | @joined n player hmsg hnew =>
    obtain ⟨hself, hothers⟩ := load_store_others rooms n (members rooms n ++ [player])
    have houts : ∀ outs, eventsOf m (sendJoinResp player.conn player.senderID n true "" :: outs) =
        eventsOf m outs :=
      eventsOf_cons_other m (by simp [eventRoom, sendJoinResp])
    by_cases hm : m = n
    · subst hm
      have hids : ids (rooms.store m (members rooms m ++ [player])) m = ids rooms m ++
          [player.playerID] := by
        rw [ids, hself, List.map_append, ids, List.map_singleton]
      refine ⟨fun hsame => ?_, fun _ => ⟨player.playerID, "joined", .joined hnew hids, ?_⟩⟩
      · exact absurd (hids.symm.trans (not_not.mp hsame)) (by simp)
      · have hothers : (members rooms m).filter (·.playerID ≠ player.playerID) =
            members rooms m := by
          refine List.filter_eq_self.mpr fun p hp => ?_
          have hne : p.playerID ≠ player.playerID := fun heq => hnew (List.mem_map.mpr ⟨p, hp, heq⟩)
          simpa using hne
        rw [houts, eventsOf_broadcast, hothers, hself, List.length_append, List.length_singleton]
    · refine announced_quiet (ids_others hothers m hm) ?_
      rw [houts, eventsOf_broadcast_other m (Ne.symm hm)]
  | @left n playerID players senderID hmsg hload hin hrest =>
    obtain ⟨hself, hothers⟩ := load_store_others rooms n (players.eraseP (·.playerID = playerID))
    refine announced_removed hload (hr.distinct n players hload) hin hself hothers (fun m => ?_) m
    rw [eventsOf_append, eventsOf_leaveResp, List.append_nil]
  | @emptied n playerID players senderID hmsg hload hin hrest =>
    have hself : members (rooms.delete n) n = players.eraseP (·.playerID = playerID) := by
      rw [members, SyncMap.load_delete_self, hrest]
      rfl
    refine announced_removed hload (hr.distinct n players hload) hin hself
      (fun k hk => SyncMap.load_delete_ne _ hk) (fun m => ?_) m
    rw [eventsOf_append, eventsOf_leaveResp, eventsOf_notice, hrest]
    rfl
  | @readdressed n playerID conn senderID players i hmsg hload hi =>
    obtain ⟨hself, hothers⟩ :=
      load_store_others rooms n (players.modify i fun p => { p with conn, senderID })
    refine announced_quiet ?_ rfl
    by_cases hm : m = n
    · subst hm
      rw [ids, hself, modify_playerID, ids_of_load hload]
    · exact ids_others hothers m hm

end Message

theorem filter_entry {players : List RoomPlayer} (h : (players.map (·.playerID)).Nodup)
    (hin : playerID ∈ players.map (·.playerID)) :
    ∃ entry ∈ players, players.filter (·.playerID = playerID) = [entry] := by
  induction players with
  | nil => cases hin
  | cons p players ih =>
    obtain ⟨hnot, hnodup⟩ := List.nodup_cons.mp h
    by_cases hp : p.playerID = playerID
    · subst hp
      refine ⟨p, List.mem_cons_self, ?_⟩
      rw [List.filter_cons_of_pos (by simp), List.filter_eq_nil_iff.mpr]
      intro q hq heq
      exact hnot (List.mem_map.mpr ⟨q, hq, of_decide_eq_true heq⟩)
    · rw [List.filter_cons_of_neg (by simpa using hp)]
      rcases List.mem_cons.mp hin with heq | hin
      · exact absurd heq.symm hp
      · obtain ⟨entry, hentry, hfilter⟩ := ih hnodup hin
        exact ⟨entry, List.mem_cons_of_mem p hentry, hfilter⟩

theorem nodup_ids (h : Represented rooms) (m : String) : (ids rooms m).Nodup := by
  rw [ids, members]
  cases hload : rooms.load m with
  | none => exact List.nodup_nil
  | some players => exact h.distinct m players hload

theorem Moved.ne (h : Moved other old new event) (hold : playerID ∈ old) (hnew : playerID ∈ new) :
    other ≠ playerID := by
  rintro rfl
  cases h with
  | joined hnot => exact hnot hold
  | left heq => simp [heq] at hnew

theorem told_member {r : Handled} (hr : Represented r.before) (ha : Announced r m)
    (hchanges : r.changes m)
    (hbefore : playerID ∈ ids r.before m) (hafter : playerID ∈ ids r.after m) :
    r.Told m playerID := by
  obtain ⟨other, event, hmoved, houts⟩ := ha.changed hchanges
  have hne := hmoved.ne hbefore hafter
  have hsub : ((members r.before m).filter (·.playerID ≠ other)).Sublist (members r.before m) :=
    List.filter_sublist
  obtain ⟨p, hp, hid⟩ := List.mem_map.mp hbefore
  have hin : playerID ∈ ((members r.before m).filter (·.playerID ≠ other)).map (·.playerID) := by
    refine List.mem_map.mpr ⟨p, List.mem_filter.mpr ⟨hp, ?_⟩, hid⟩
    simpa [hid] using hne.symm
  obtain ⟨entry, hentry, hfilter⟩ := filter_entry ((nodup_ids hr m).sublist (hsub.map _)) hin
  exact ⟨other, event, _, entry, hsub.mem hentry, hne, hfilter, houts⟩

structure Inv (st : State) : Prop where
  represented : Represented st.rooms
  informed : ∀ m playerID, playerID ∈ ids st.rooms m → Informed st m playerID

section Step

variable {st : State} {request : Request} {m playerID : String}

theorem informed_joined (hnew : playerID ∉ ids st.rooms m)
    (hin : playerID ∈ ids (step st request).rooms m) :
    Informed (step st request) m playerID := by
  have hjoins :
      Handled.joins ⟨st.rooms, (handle st.rooms request).2, (handle st.rooms request).1⟩
        m playerID = true := by
    simpa [Handled.joins] using ⟨hnew, hin⟩
  have hsince : since m playerID (step st request).history = [] := by simp [since, step, hjoins]
  refine ⟨⟨_, List.find?_cons_of_pos hjoins, fun _ => rfl⟩, ?_, ?_, ?_⟩
  · simp [hsince]
  · simp [hsince]
  · simp [hsince]

theorem Informed.step (h : Informed st m playerID) (hr : Represented st.rooms)
    (hbefore : playerID ∈ ids st.rooms m) (hafter : playerID ∈ ids (step st request).rooms m) :
    Informed (step st request) m playerID := by
  let r : Handled := ⟨st.rooms, (handle st.rooms request).2, (handle st.rooms request).1⟩
  have ha : Announced r m := announced_changed hr (changed st.rooms request) m
  have hnot : r.joins m playerID = false := by simp [r, Handled.joins, hbefore]
  have hsince :
      since m playerID (Events.step st request).history = r :: since m playerID st.history := by
    simp [since, Events.step, r, hnot]
  obtain ⟨j, hj, hsize⟩ := h.joined
  have hfind : (Events.step st request).history.find? (·.joins m playerID) = some j := by
    rw [← hj]
    exact List.find?_cons_of_neg (Bool.eq_false_iff.mp hnot)
  by_cases hchanges : r.changes m
  · refine ⟨⟨j, hfind, fun hnone => ?_⟩, ?_, ?_, fun r' hr' => ?_⟩
    · exact absurd hchanges (hnone r (hsince ▸ List.mem_cons_self))
    · rw [hsince]
      exact List.forall_mem_cons.mpr ⟨fun _ => told_member hr ha hchanges hbefore hafter, h.told⟩
    · rw [hsince]
      exact List.forall_mem_cons.mpr ⟨fun hno => absurd hchanges hno, h.quiet⟩
    · rw [hsince, List.find?_cons_of_pos (by simpa using hchanges)] at hr'
      exact Option.some.inj hr' ▸ rfl
  · -- The room has the players it had.
    have hlen : (members (Events.step st request).rooms m).length =
        (members st.rooms m).length := by
      have hids := congrArg List.length (not_not.mp hchanges)
      rwa [ids, ids, List.length_map, List.length_map] at hids
    refine ⟨⟨j, hfind, fun hnone => ?_⟩, ?_, ?_, fun r' hr' => ?_⟩
    · exact hlen.trans (hsize fun r' hr' => hnone r' (hsince ▸ List.mem_cons_of_mem r hr'))
    · rw [hsince]
      exact List.forall_mem_cons.mpr ⟨fun hyes => absurd hyes hchanges, h.told⟩
    · rw [hsince]
      exact List.forall_mem_cons.mpr ⟨ha.quiet, h.quiet⟩
    · rw [hsince, List.find?_cons_of_neg (by simpa using hchanges)] at hr'
      exact hlen.trans (h.latest r' hr')

theorem inv_step (h : Inv st) (request : Request) : Inv (step st request) := by
  refine ⟨represented_handle h.represented request, fun m playerID hin => ?_⟩
  by_cases hbefore : playerID ∈ ids st.rooms m
  · exact (h.informed m playerID hbefore).step h.represented hbefore hin
  · exact informed_joined hbefore hin

end Step

-- Player 7 joins as client 3 of gateway connection 1, then player 8 as client 4.
def sevenThenEight : List Request :=
  [fromGateway 1 3 msgIdRoomJoinReq "m" "7", fromGateway 1 4 msgIdRoomJoinReq "m" "8"]

end Cardwar.RoomSvr.Events
