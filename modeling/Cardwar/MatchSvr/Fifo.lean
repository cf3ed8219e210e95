import Cardwar.Lib.Ledger
import Cardwar.MatchSvr.Router

/-!
# Matchmaking in order of arrival

The queues of the router against a ledger of the requests that entered them.
The router stores who waits; in the ledger that follows from who arrived, who
was matched and who was forced to leave. Messages are handled one at a time;
`Queue` has what happens when handlers interleave.
-/

namespace Cardwar.MatchSvr.Fifo

open Protocol Codec Pkg
abbrev History := Ledger Queue.Entry

def queued (h : History) (matchType : String) : List Queue.Entry :=
  h.waiting Queue.Entry.matchType matchType

inductive Message
  | enter (matchType : String) (player : QueuedPlayer)
  | leave (matchType : String) (player : Int64)

def Message.matchType : Message → String
  | .enter matchType _ => matchType
  | .leave matchType _ => matchType

def message (request : Request) : Option Message :=
  if request.msgID = msgIdSessionForceLeaveQueue then
    match decodeSessionData request.data with
    | .error _ => none
    | .ok data => some (.leave (data.connTags.get tagMatchType) data.playerId)
  else if request.msgID = msgIdMatchEnterReq then
    match decodeEnvelope request.data with
    | .error _ => none
    | .ok envelope => match decodeMatchEnterReq envelope.data with
      | .error _ => none
      | .ok req => some (.enter req.matchType
          ⟨Strconv.parseInt (envelope.connTags.get tagPlayerID), req.elo, request.conn,
            envelope.connId⟩)
  else none

def entry (h : History) (matchType : String) (player : QueuedPlayer) : Queue.Entry :=
  ⟨h.arrived.length, matchType, player⟩

/-- What a matchmaking queue is for: the oldest entries are matched as soon as
they are enough, and a player who leaves takes back the oldest entry. -/
def record (h : History) (request : Request) : History :=
  match message request with
  | none => h
  | some (.enter matchType player) =>
    let h := h.arrive (entry h matchType player)
    if requiredPlayers matchType ≤ (queued h matchType).length then
      h.take Queue.Entry.matchType matchType (requiredPlayers matchType)
    else h
  | some (.leave matchType player) =>
    match (queued h matchType).find? (·.player.playerID = player) with
    | none => h
    | some e => h.remove e

-- ---------------------------------------------------------------------------
-- What the router does with a message
-- ---------------------------------------------------------------------------

def pushes (outs : List Outgoing) : List Outgoing := outs.filter (·.msgID = msgIdMatchResultPush)

def resultPush (matchID serverID matchType : String) (players : List Int64) (p : QueuedPlayer) :
    Outgoing :=
  ⟨.conn p.conn, msgIdMatchResultPush,
    .envelope p.senderID (.matchResultPush matchID serverID players matchType)
      ((tag tagRoomSvrID serverID).store tagMatchID matchID)⟩

theorem message_leave (hm : message request = some (.leave t p)) :
    request.msgID = msgIdSessionForceLeaveQueue ∧
    ∃ data, decodeSessionData request.data = .ok data ∧
      data.connTags.get tagMatchType = t ∧ data.playerId = p := by
  unfold message at hm
  split at hm
  next hid =>
    split at hm <;> cases hm
    next data hdata => exact ⟨hid, data, hdata, rfl, rfl⟩
  next =>
    split at hm
    next =>
      split at hm
      next => cases hm
      next => split at hm <;> cases hm
    next => cases hm

theorem message_enter (hm : message request = some (.enter t player)) :
    request.msgID = msgIdMatchEnterReq ∧ ∃ envelope req, decodeEnvelope request.data =
      .ok envelope ∧
      decodeMatchEnterReq envelope.data = .ok req ∧ req.matchType = t ∧
      player = ⟨Strconv.parseInt (envelope.connTags.get tagPlayerID), req.elo, request.conn,
        envelope.connId⟩ := by
  unfold message at hm
  split at hm
  next => split at hm <;> cases hm
  next =>
    split at hm
    next hid =>
      split at hm
      next => cases hm
      next envelope henv =>
        split at hm <;> cases hm
        next req hreq => exact ⟨hid, envelope, req, henv, hreq, rfl, rfl⟩
    next => cases hm

theorem handle_leave (hm : message request = some (.leave t p)) (st : Matches) :
    handle st request = (st.leaveQueue t p, []) := by
  obtain ⟨hid, data, hdata, rfl, rfl⟩ := message_leave hm
  simp [handle, hid, handleForceLeaveQueue, hdata]

theorem enterQueue_full (hfull : requiredPlayers t ≤ (q ++ [player]).length)
    (hq : (SyncMap.load queues t).getD [] = q) : enterQueue queues t player =
      ((queues.store t (q ++ [player])).store t ((q ++ [player]).drop (requiredPlayers t)),
        some ((q ++ [player]).take (requiredPlayers t))) := by
  simp only [enterQueue, SyncMap.loadOrStore_fst, SyncMap.store_loadOrStore, hq, if_pos hfull]

theorem enterQueue_short (hshort : (q ++ [player]).length < requiredPlayers t)
    (hq : (SyncMap.load queues t).getD [] = q) :
    enterQueue queues t player = (queues.store t (q ++ [player]), none) := by
  simp only [enterQueue, SyncMap.loadOrStore_fst, SyncMap.store_loadOrStore, hq,
    if_neg hshort.not_ge]

theorem handle_full (hm : message request = some (.enter t player)) (st : Matches)
    (hfull : requiredPlayers t ≤ (st.waiting t ++ [player]).length) :
    (∀ t', (handle st request).1.waiting t' =
      if t' = t then (st.waiting t ++ [player]).drop (requiredPlayers t) else st.waiting t') ∧
    ∃ matchID serverID, (handle st request).2 =
      ((st.waiting t ++ [player]).take (requiredPlayers t)).map
      (resultPush matchID serverID t
        (playerIDs ((st.waiting t ++ [player]).take (requiredPlayers t)))) := by
  obtain ⟨hid, envelope, req, henv, hreq, rfl, rfl⟩ := message_enter hm
  have hne : msgIdMatchEnterReq ≠ msgIdSessionForceLeaveQueue := by decide
  simp only [handle, hid, if_neg hne, henv, if_true, handleEnter, hreq, enterQueue_full hfull rfl]
  refine ⟨fun t' => ?_, _, _, rfl⟩
  simp only [Matches.waiting, matchPool, Matches.place]
  split <;> simp [*]

theorem handle_short (hm : message request = some (.enter t player)) (st : Matches)
    (hshort : (st.waiting t ++ [player]).length < requiredPlayers t) :
    (∀ t', (handle st request).1.waiting t' = if t' = t then st.waiting t ++ [player]
      else st.waiting t') ∧
    pushes (handle st request).2 = [] := by
  obtain ⟨hid, envelope, req, henv, hreq, rfl, rfl⟩ := message_enter hm
  have hne : msgIdMatchEnterReq ≠ msgIdSessionForceLeaveQueue := by decide
  simp only [handle, hid, if_neg hne, henv, if_true, handleEnter, hreq, enterQueue_short hshort rfl]
  refine ⟨fun t' => ?_, rfl⟩
  unfold Matches.waiting
  split <;> simp [*]

theorem handle_none (hm : message request = none) (st : Matches) :
    (handle st request).1.queues = st.queues ∧ pushes (handle st request).2 = [] := by
  unfold message at hm
  unfold handle
  split
  next hid =>
    rw [if_pos hid] at hm
    unfold handleForceLeaveQueue
    cases hdata : decodeSessionData request.data with
    | error => exact ⟨rfl, rfl⟩
    | ok => simp [hdata] at hm
  next hforce =>
    rw [if_neg hforce] at hm
    split
    next => exact ⟨rfl, rfl⟩
    next envelope henv =>
      split
      next hid =>
        rw [if_pos hid, henv] at hm
        unfold handleEnter
        cases hreq : decodeMatchEnterReq envelope.data with
        | error => exact ⟨rfl, rfl⟩
        | ok => simp [hreq] at hm
      split
      next =>
        unfold handleAllocate
        split
        next => exact ⟨rfl, rfl⟩
        next =>
          dsimp only
          split
          next => exact ⟨rfl, rfl⟩
          next => split <;> exact ⟨rfl, rfl⟩
      split
      next =>
        unfold handleQuery
        split <;> exact ⟨rfl, rfl⟩
      split
      next =>
        unfold handleDestroyed
        split
        next => exact ⟨rfl, rfl⟩
        next => split <;> exact ⟨rfl, rfl⟩
      next => exact ⟨rfl, rfl⟩

-- ---------------------------------------------------------------------------
-- The queues follow the ledger
-- ---------------------------------------------------------------------------

/-- The router's queues hold who waits by the ledger, and no queue is full. -/
structure Follows (st : Matches) (h : History) : Prop where
  sound : h.Sound
  numbered : ∀ e ∈ h.arrived, e.request < h.arrived.length
  queue : ∀ t, st.waiting t = (queued h t).map (·.player)
  short : ∀ t, (st.waiting t).length < requiredPlayers t

/-- What a request does to the ledger and which MatchResultPush it sends. -/
inductive Turn (h : History) (request : Request) : History → List Outgoing → Prop
  | ignored (hm : message request = none) : Turn h request h []
  | waits (hm : message request = some (.enter t player))
      (hshort : (queued h t ++ [entry h t player]).length < requiredPlayers t) :
      Turn h request ⟨h.arrived ++ [entry h t player], h.taken, h.removed⟩ []
  | forms (hm : message request = some (.enter t player))
      (hlen : (queued h t ++ [entry h t player]).length = requiredPlayers t)
      (matchID serverID : String) :
      Turn h request
        ⟨h.arrived ++ [entry h t player], h.taken ++ [queued h t ++ [entry h t player]], h.removed⟩
        ((queued h t ++ [entry h t player]).map fun e => resultPush matchID serverID t
          ((queued h t ++ [entry h t player]).map (·.player.playerID)) e.player)
  | leaves (hm : message request = some (.leave t p)) (hq : queued h t = before ++ e :: after)
      (hfirst : ∀ x ∈ before, x.player.playerID ≠ p) (he : e.player.playerID = p) :
      Turn h request ⟨h.arrived, h.taken, h.removed ++ [e]⟩ []
  | absent (hm : message request = some (.leave t p)) (hnot : ∀ x ∈ queued h t,
      x.player.playerID ≠ p) :
      Turn h request h []

theorem requiredPlayers_pos (t : String) : 0 < requiredPlayers t := by
  unfold requiredPlayers
  split <;> decide

theorem follows_empty : Follows {} {} where
  sound := Ledger.sound_empty
  numbered _ he := absurd he List.not_mem_nil
  queue _ := by simp [Matches.waiting, queued, Ledger.waiting]
  short t := by simpa [Matches.waiting] using requiredPlayers_pos t

section Arrival

variable {st : Matches} {h : History} (hf : Follows st h) (t : String) (player : QueuedPlayer)

include hf

theorem Follows.entry_new : entry h t player ∉ h.arrived := fun hm =>
  Nat.lt_irrefl _ (hf.numbered _ hm)

theorem Follows.sound_arrive : (h.arrive (entry h t player)).Sound :=
  hf.sound.arrive (hf.entry_new t player)

theorem Follows.queued_arrive (j : String) : queued (h.arrive (entry h t player)) j =
    if j = t then queued h t ++ [entry h t player] else queued h j := by
  have harrive : queued (h.arrive (entry h t player)) j =
      if t = j then queued h j ++ [entry h t player] else queued h j :=
    Ledger.waiting_arrive Queue.Entry.matchType hf.sound (hf.entry_new t player) j
  rw [harrive]
  by_cases hj : j = t
  · rw [if_pos hj.symm, if_pos hj, hj]
  · rw [if_neg (Ne.symm hj), if_neg hj]

theorem Follows.queued_arrive_self :
    queued (h.arrive (entry h t player)) t = queued h t ++ [entry h t player] := by
  rw [hf.queued_arrive, if_pos rfl]

theorem Follows.numbered_arrive :
    ∀ e ∈ h.arrived ++ [entry h t player],
      e.request < (h.arrived ++ [entry h t player]).length := by
  intro e he
  rw [List.length_append, List.length_singleton]
  rcases List.mem_append.mp he with hold | hnew
  · exact Nat.lt_succ_of_lt (hf.numbered e hold)
  · rw [List.mem_singleton.mp hnew]
    exact Nat.lt_succ_self _

theorem Follows.queue_append :
    st.waiting t ++ [player] = (queued h t ++ [entry h t player]).map (·.player) := by
  simp [hf.queue t, entry]

theorem Follows.length_append :
    (st.waiting t ++ [player]).length = (queued h t ++ [entry h t player]).length := by
  rw [hf.queue_append, List.length_map]

end Arrival

theorem filter_first {l : List α} [DecidableEq α] (hl : l.Nodup) (hfind : l.find? p = some a) :
    ∃ before after, l = before ++ a :: after ∧ (∀ x ∈ before, ¬p x) ∧ p a ∧
      l.filter (· ≠ a) = l.eraseP p := by
  obtain ⟨ha, before, after, rfl, hbefore⟩ := List.find?_eq_some_iff_append.mp hfind
  have hbefore : ∀ x ∈ before, ¬p x := fun x hx => by simpa using hbefore x hx
  refine ⟨before, after, rfl, hbefore, ha, ?_⟩
  rw [List.eraseP_append_right _ hbefore, List.eraseP_cons_of_pos ha]
  obtain ⟨-, hcons, hdisjoint⟩ := List.nodup_append.mp hl
  have hafter : a ∉ after := (List.nodup_cons.mp hcons).1
  have hnot : a ∉ before := fun hm => hdisjoint a hm a List.mem_cons_self rfl
  have hkeep : ∀ m : List α, a ∉ m → m.filter (· ≠ a) = m := fun m hm =>
    List.filter_eq_self.mpr fun x hx => by simpa using ne_of_mem_of_not_mem hx hm
  rw [List.filter_append, hkeep before hnot, List.filter_cons_of_neg (by simp), hkeep after hafter]

theorem waiting_leaveQueue (st : Matches) (t : String) (p : Int64) (j : String) :
    (st.leaveQueue t p).waiting j = if j = t then (st.waiting t).eraseP (·.playerID = p)
      else st.waiting j := by
  unfold Matches.leaveQueue
  split
  next hq =>
    split
    next hj => simp [Matches.waiting, hj, hq]
    next => rfl
  next pool hq =>
    have hwaiting : st.waiting t = pool := by simp [Matches.waiting, hq]
    rw [hwaiting]
    split
    next => split <;> simp [Matches.waiting, *]
    next hany =>
      have hnot : ∀ x ∈ pool, ¬x.playerID = p := by simpa using hany
      have herase : pool.eraseP (·.playerID = p) = pool :=
        List.eraseP_of_forall_not (by simpa using hnot)
      split
      next hj => rw [hj, herase, hwaiting]
      next => rfl

theorem short_handle (h : ∀ t, (Matches.waiting st t).length < requiredPlayers t)
    (request : Request) (t : String) :
    ((handle st request).1.waiting t).length < requiredPlayers t := by
  match hm : message request with
  | none =>
    rw [Matches.waiting, (handle_none hm st).1]
    exact h t
  | some (.leave j p) =>
    rw [handle_leave hm, waiting_leaveQueue]
    split
    next ht =>
      rw [ht]
      exact List.length_eraseP_le.trans_lt (h j)
    next => exact h t
  | some (.enter j player) =>
    by_cases hfull : requiredPlayers j ≤ (st.waiting j ++ [player]).length
    · rw [(handle_full hm st hfull).1]
      split
      next ht =>
        have hj := h j
        rw [ht, List.length_drop, List.length_append, List.length_singleton]
        omega
      next => exact h t
    · rw [(handle_short hm st (not_le.mp hfull)).1]
      split
      next ht =>
        rw [ht]
        exact not_le.mp hfull
      next => exact h t

theorem follows_full (hf : Follows st h) (hm : message request = some (.enter t player))
    (hfull : requiredPlayers t ≤ (queued h t ++ [entry h t player]).length) :
    Follows (handle st request).1
        ((h.arrive (entry h t player)).take Queue.Entry.matchType t (requiredPlayers t)) ∧
      Turn h request
        ((h.arrive (entry h t player)).take Queue.Entry.matchType t (requiredPlayers t))
        (pushes (handle st request).2) := by
  have happend := hf.queue_append t player
  have hlen := hf.length_append t player
  -- The queue was short before, so the batch is the whole queue.
  have hexact : (queued h t ++ [entry h t player]).length = requiredPlayers t := by
    refine le_antisymm ?_ hfull
    rw [← hlen, List.length_append]
    exact hf.short t
  have hself := hf.queued_arrive_self t player
  obtain ⟨hqueues, matchID, serverID, hpush⟩ := handle_full hm st (hlen ▸ hfull)
  rw [List.drop_of_length_le (hlen.trans hexact).le] at hqueues
  rw [List.take_of_length_le (hlen.trans hexact).le, happend] at hpush
  have htake : (h.arrive (entry h t player)).take Queue.Entry.matchType t (requiredPlayers t) =
      ⟨h.arrived ++ [entry h t player], h.taken ++ [queued h t ++ [entry h t player]],
        h.removed⟩ := by
    rw [← List.take_of_length_le hexact.le, ← hself]
    rfl
  refine ⟨⟨(hf.sound_arrive t player).take _ t _, hf.numbered_arrive t player, fun j => ?_,
    short_handle hf.short request⟩, ?_⟩
  · rw [hqueues]
    split
    next hj =>
      have hdrop := Ledger.waiting_take_self Queue.Entry.matchType (hf.sound_arrive t player) t
        (requiredPlayers t)
      rw [hj, queued, hdrop, ← queued, hself, List.drop_of_length_le hexact.le]
      rfl
    next hj =>
      rw [queued, Ledger.waiting_take_ne _ hj, ← queued, hf.queued_arrive, if_neg hj, hf.queue]
  · have hpushes : pushes (handle st request).2 = (handle st request).2 := by
      rw [hpush]
      exact List.filter_eq_self.mpr fun out hout => by
        obtain ⟨e, -, rfl⟩ := List.mem_map.mp hout
        rfl
    rw [hpushes, hpush, htake, List.map_map, playerIDs, List.map_map]
    exact .forms hm hexact matchID serverID

theorem follows_short (hf : Follows st h) (hm : message request = some (.enter t player))
    (hshort : (queued h t ++ [entry h t player]).length < requiredPlayers t) :
    Follows (handle st request).1 (h.arrive (entry h t player)) ∧
      Turn h request (h.arrive (entry h t player)) (pushes (handle st request).2) := by
  have happend := hf.queue_append t player
  have hlen := hf.length_append t player
  obtain ⟨hqueues, hpush⟩ := handle_short hm st (hlen ▸ hshort)
  refine ⟨⟨hf.sound_arrive t player, hf.numbered_arrive t player, fun j => ?_,
    short_handle hf.short request⟩, ?_⟩
  · rw [hqueues, hf.queued_arrive]
    split
    next => exact happend
    next => exact hf.queue j
  · rw [hpush]
    exact .waits hm hshort

theorem follows_leave (hf : Follows st h) (hm : message request = some (.leave t p)) :
    Follows (handle st request).1 (record h request) ∧
      Turn h request (record h request) (pushes (handle st request).2) := by
  -- The router's queue without the player's first entry.
  have herase : (st.waiting t).eraseP (·.playerID = p) =
      ((queued h t).eraseP (·.player.playerID = p)).map (·.player) := by
    rw [hf.queue, List.eraseP_map]
    rfl
  have hshort := short_handle hf.short request
  rw [handle_leave hm] at hshort ⊢
  simp only [record, hm]
  split
  next hnone =>
    have hnot : ∀ x ∈ queued h t, ¬x.player.playerID = p := by simpa using hnone
    refine ⟨⟨hf.sound, hf.numbered, fun j => ?_, hshort⟩, .absent hm hnot⟩
    rw [waiting_leaveQueue]
    split
    next hj => rw [herase, List.eraseP_of_forall_not (by simpa using hnot), hj]
    next => exact hf.queue j
  next e hfind =>
    obtain ⟨before, after, hq, hfirst, he, hfilter⟩ :=
      filter_first (hf.sound.waiting_nodup _ t) hfind
    have hfirst : ∀ x ∈ before, x.player.playerID ≠ p := fun x hx => by simpa using hfirst x hx
    have hmem : e ∈ queued h t := List.mem_of_find?_eq_some hfind
    refine ⟨⟨hf.sound.remove _ hmem, hf.numbered, fun j => ?_, hshort⟩,
      .leaves hm hq hfirst (by simpa using he)⟩
    rw [waiting_leaveQueue]
    split
    next hj =>
      rw [herase, hj, queued, queued, Ledger.waiting_remove, hfilter]
    next hj =>
      have hkind : e.matchType = t := ((Ledger.mem_waiting _).mp hmem).2.1
      rw [queued, Ledger.waiting_remove_ne _ _ (hkind ▸ Ne.symm hj), ← queued, hf.queue]

theorem follows_record (hf : Follows st h) (request : Request) :
    Follows (handle st request).1 (record h request) ∧
      Turn h request (record h request) (pushes (handle st request).2) := by
  match hm : message request with
  | none =>
    obtain ⟨hqueues, hpush⟩ := handle_none hm st
    have hwaiting : (handle st request).1.waiting = st.waiting := by
      unfold Matches.waiting
      rw [hqueues]
    rw [hpush]
    simp only [record, hm]
    exact ⟨⟨hf.sound, hf.numbered, hwaiting ▸ hf.queue, short_handle hf.short request⟩, .ignored hm⟩
  | some (.enter t player) =>
    simp only [record, hm, hf.queued_arrive_self]
    split
    next hfull => exact follows_full hf hm hfull
    next hshort => exact follows_short hf hm (not_le.mp hshort)
  | some (.leave t p) => exact follows_leave hf hm

-- ---------------------------------------------------------------------------
-- Every sequence of messages
-- ---------------------------------------------------------------------------

def after (requests : List Request) : Matches × History :=
  requests.foldl (fun s request => ((handle s.1 request).1, record s.2 request)) ({}, {})

theorem follows_after (requests : List Request) : Follows (after requests).1 (after requests).2 :=
  List.foldlRecOn (motive := fun s : Matches × History => Follows s.1 s.2) requests _ follows_empty
    fun _ h request _ => (follows_record h request).1

theorem waiting_other (hm : ∀ m, message request = some m → m.matchType ≠ t) (st : Matches) :
    (handle st request).1.waiting t = st.waiting t := by
  match hr : message request with
  | none => rw [Matches.waiting, (handle_none hr st).1, Matches.waiting]
  | some (.enter j player) =>
    have hne : t ≠ j := Ne.symm (hm _ hr)
    by_cases hfull : requiredPlayers j ≤ (st.waiting j ++ [player]).length
    · rw [(handle_full hr st hfull).1, if_neg hne]
    · rw [(handle_short hr st (not_le.mp hfull)).1, if_neg hne]
  | some (.leave j p) =>
    have hne : t ≠ j := Ne.symm (hm _ hr)
    rw [handle_leave hr, waiting_leaveQueue, if_neg hne]

/-- The router's queues are exact: after any requests they hold the entries that
were neither matched nor removed, too few for a match; every entry is in one
place; and the next request does one of the things in `Turn`, to the queue of its
own type. -/
theorem queue_exact (requests : List Request) :
    (∀ t, (after requests).1.waiting t = (queued (after requests).2 t).map (·.player) ∧
      (queued (after requests).2 t).length < requiredPlayers t) ∧
    (∀ e ∈ (after requests).2.arrived, (after requests).2.places Queue.Entry.matchType e = 1) ∧
    ∀ request, Turn (after requests).2 request (after (requests ++ [request])).2
        (pushes (handle (after requests).1 request).2) ∧
      ∀ t, (∀ m, message request = some m → m.matchType ≠ t) →
        (after (requests ++ [request])).1.waiting t = (after requests).1.waiting t := by
  have hf := follows_after requests
  have hnext : ∀ request, after (requests ++ [request]) =
      ((handle (after requests).1 request).1, record (after requests).2 request) :=
    fun request => by
    rw [after, List.foldl_append]
    rfl
  refine ⟨fun t => ⟨hf.queue t, ?_⟩, fun e he => hf.sound.places_eq_one _ he, fun request => ?_⟩
  · have hshort := hf.short t
    rwa [hf.queue, List.length_map] at hshort
  · rw [hnext]
    exact ⟨(follows_record hf request).2, fun t ht => waiting_other ht _⟩

end Cardwar.MatchSvr.Fifo
