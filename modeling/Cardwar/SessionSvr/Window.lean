import Cardwar.SessionSvr.JournalOrder

/-!
# A crash between rename and rotation

`Snapshot` puts the sessions in place and then rotates the journal. After a
crash in between the journal still has the entries whose effect the snapshot
has, and `OpenStore` replays them over it. Replaying a journal is idempotent,
but the sessions in the snapshot are not the outcome of a replay: a save without
tags clears the tags of the live session, and its replay keeps them. So the
crash changes nothing exactly if no player's last save in the journal is one
without tags after one with tags (`replay_window_iff`).
-/

namespace Cardwar.SessionSvr.Window

open Protocol
open Expiry (Call)
open JournalOrder (entry Marks lease_section)

/-- What a gateway sends: no tags but in saves. The clock is not at 0, which
stands for no time in the journal. -/
def Sent (request : Request) : Prop :=
  ∀ data ∈ request.data,
    (request.msgID = msgIdSessionDisconnect → data.connTags = ∅ ∧ request.now ≠ 0) ∧
    (request.msgID = msgIdSessionReconnect → data.connTags = ∅)

instance (request : Request) : Decidable (Sent request) :=
  inferInstanceAs (Decidable (∀ data ∈ _, _))

def SentEvent : Event → Prop
  | .request request => Sent request
  | .snapshot => True

instance : (e : Event) → Decidable (SentEvent e)
  | .request request => inferInstanceAs (Decidable (Sent request))
  | .snapshot => inferInstanceAs (Decidable True)

/-- What a crash between rename and rotation leaves. The sessions were
serialised in state `s`, and `rest` was appended since. -/
def window (s : Server) (rest : List JournalLine) : Server where
  snapshot := some (snapshotSessions s.sessions)
  journal := s.journal ++ rest

def lastSave (es : List JournalEntry) : Option JournalEntry := es.reverse.find? (·.op = .save)

/-- If the last save has no tags, no entry has. -/
def TagsLast (es : List JournalEntry) : Prop :=
  ∀ e ∈ lastSave es, e.connTags = none → lastTags es = none

instance (es : List JournalEntry) : Decidable (TagsLast es) :=
  inferInstanceAs (Decidable (∀ e ∈ _, _))

theorem lastSave_snoc (es : List JournalEntry) (e : JournalEntry) :
    lastSave (es ++ [e]) = if e.op = .save then some e else lastSave es := by
  rw [lastSave, List.reverse_append, List.reverse_singleton, List.singleton_append]
  by_cases hop : e.op = .save
  · rw [if_pos hop, List.find?_cons_of_pos (by simpa using hop)]
  · rw [if_neg hop, List.find?_cons_of_neg (by simpa using hop), lastSave]

theorem lastTags_snoc (es : List JournalEntry) (e : JournalEntry) :
    lastTags (es ++ [e]) = e.connTags.or (lastTags es) := by
  rw [lastTags, List.reverse_append, List.reverse_singleton, List.singleton_append,
    List.findSome?_cons]
  cases e.connTags <;> rfl

theorem lastTags_lastSave (h : ∀ e ∈ es, JournalEntry.Bare e) :
    (lastSave es = none → lastTags es = none) ∧
      ∀ e tags, lastSave es = some e → e.connTags = some tags → lastTags es = some tags := by
  induction es using List.reverseRecOn with
  | nil => exact ⟨fun _ => rfl, fun e tags he => by cases he⟩
  | append_singleton es e ih =>
    have he : e.Bare := h e (by simp)
    obtain ⟨hnone, hsome⟩ := ih fun d hd => h d (by simp [hd])
    rw [lastSave_snoc, lastTags_snoc]
    by_cases hop : e.op = .save
    · rw [if_pos hop]
      refine ⟨fun hlast => (by cases hlast), fun d tags hd htags => ?_⟩
      obtain rfl := Option.some.inj hd
      rw [htags, Option.some_or]
    · rw [if_neg hop, he hop, Option.none_or]
      exact ⟨hnone, hsome⟩

/-- The session is what came of the entries: their lease, and the tags of the
last save. -/
structure Follows (s : Session) (es : List JournalEntry) : Prop where
  lease : ∃ l : Lease String Int, s.lease = l.applyAll "" 0 (es.map JournalEntry.leaseOp)
  tags : ∀ e, lastSave es = some e → s.connTags = e.connTags

theorem follows_nil (s : Session) : Follows s [] := ⟨⟨s.lease, rfl⟩, fun e he => by cases he⟩

def BareCall (call : Call) : Prop := (∀ data, call ≠ .save data) → call.data.connTags = ∅

theorem follows_section (h : Follows s es) (hb : BareCall call) (hm : Marks s call) (ts : Int) :
    Follows (call.update s) (es ++ ((entry s call).map ({ · with ts })).toList) := by
  obtain ⟨l, hl⟩ := h.lease
  have hops : ((entry s call).map ({ · with ts })).toList.map JournalEntry.leaseOp =
      (entry s call).toList.map JournalEntry.leaseOp := by
    cases entry s call <;> rfl
  refine ⟨⟨l, ?_⟩, fun e he => ?_⟩
  · rw [lease_section hm, hl, List.map_append, Lease.applyAll_append, hops]
  · cases call with
    | save data =>
      rw [entry, Option.map_some, Option.toList_some, lastSave_snoc, if_pos rfl] at he
      obtain rfl := Option.some.inj he
      rfl
    | reconnect data =>
      have htags : data.connTags = ∅ := hb (by simp)
      rw [entry, Option.map_some, Option.toList_some, lastSave_snoc, if_neg (by simp)] at he
      rw [← h.tags e he, Call.update, Session.reconnect, if_pos htags]
    | disconnect data now =>
      have htags : goTags data.connTags = none := (goTags_eq_none _).mpr (hb (by simp))
      rw [Call.update]
      by_cases hstale : s.Stale data.gatewayId
      · rw [entry, if_pos hstale, Option.map_none, Option.toList_none, List.append_nil] at he
        rw [if_pos hstale, h.tags e he]
      · rw [entry, if_neg hstale, Option.map_some, Option.toList_some, lastSave_snoc,
          if_neg (by simp)] at he
        rw [if_neg hstale, ← h.tags e he, Session.disconnect]
        dsimp only
        split
        next hnone => rw [htags, hnone]
        next => rfl

theorem updateAll_follows (h : Follows s es) (hb : ∀ e ∈ es, JournalEntry.Bare e) :
    s.updateAll es = s ↔ TagsLast es := by
  have hlease : (s.updateAll es).lease = s.lease := by
    obtain ⟨l, hl⟩ := h.lease
    rw [lease_updateAll, hl, Lease.applyAll_idem]
  have htags : s.updateAll es = s ↔ (lastTags es).or s.connTags = s.connTags := by
    rw [← connTags_updateAll hb]
    exact ⟨congrArg Session.connTags,
      fun ht => Session.ext_lease (playerID_updateAll s es) ht hlease⟩
  obtain ⟨hnone, hsome⟩ := lastTags_lastSave hb
  rw [htags]
  cases hlast : lastSave es with
  | none => simp [TagsLast, hlast, hnone hlast]
  | some e =>
    rw [h.tags e hlast]
    cases he : e.connTags with
    | none => simp [TagsLast, hlast, he]
    | some tags => simp [TagsLast, hlast, he, hsome e tags hlast he]

structure Inv (s : Server) : Prop where
  wellFormed : WellFormed s.sessions
  bare : ∀ line ∈ s.journal, line.Bare
  stored : ∀ p, entriesOf p s.journal ≠ [] → (s.sessions.load p).isSome
  follows : ∀ p, Follows (s.sessions.session p) (entriesOf p s.journal)

theorem handle_call (h : Sent request) (sessions : Sessions) :
    ((handle sessions request).sessions = sessions ∧ (handle sessions request).journal = []) ∨
    ∃ call : Call, BareCall call ∧ Marks (sessions.session call.playerId) call ∧
      (handle sessions request).sessions =
        sessions.store call.playerId (call.update (sessions.session call.playerId)) ∧
      (handle sessions request).journal = (entry (sessions.session call.playerId) call).toList := by
  obtain ⟨msgID, data, now, ts⟩ := request
  cases data with
  | none => exact .inl ⟨rfl, rfl⟩
  | some data =>
    obtain ⟨hdisc, hrec⟩ := h data rfl
    simp only [handle]
    split
    next =>
      refine .inr ⟨.save data, fun hno => absurd rfl (hno data), trivial, ?_, rfl⟩
      simp only [handleSave, SyncMap.loadOrStore_fst, SyncMap.store_loadOrStore]
      rfl
    split
    next => exact .inl ⟨rfl, rfl⟩
    split
    next hid =>
      obtain ⟨htags, hnow⟩ := hdisc hid
      refine .inr ⟨.disconnect data now, fun _ => htags, .inr (.inl hnow), ?_, ?_⟩
      · rw [Expiry.handleDisconnect_sessions, SyncMap.store_loadOrStore, SyncMap.loadOrStore_fst]
        rfl
      · simp only [handleDisconnect, SyncMap.loadOrStore_fst, entry]
        change Handled.journal (if (sessions.session data.playerId).Stale data.gatewayId then _
          else _) =
          Option.toList (if (sessions.session data.playerId).Stale data.gatewayId then _ else _)
        split <;> rfl
    split
    next hid =>
      unfold handleReconnect
      cases hload : sessions.load data.playerId with
      | none => exact .inl ⟨rfl, rfl⟩
      | some s =>
        refine .inr ⟨.reconnect data, fun _ => hrec hid, trivial, ?_, rfl⟩
        simp [Call.playerId, Call.data, Sessions.session, hload, Call.update]
    next => exact .inl ⟨rfl, rfl⟩

theorem bare_entry (hb : BareCall call) (h : e ∈ entry s call) (ts : Int) :
    (journalAppend ts e).Bare := by
  intro hop
  have htags : e.connTags = none := by
    rw [(JournalOrder.of_mem_entry h).2, goTags_eq_none]
    refine hb fun data hcall => ?_
    subst hcall
    obtain rfl := Option.some.inj h
    exact hop rfl
  simp [journalAppend, JournalEntry.marshal, htags]

theorem entriesOf_append (p : Int64) (journal : List JournalLine) (ts : Int) (s : Session)
    (call : Call) :
    entriesOf p (journal ++ (entry s call).toList.map (journalAppend ts)) =
      entriesOf p journal ++ if call.playerId = p then ((entry s call).map ({ · with ts })).toList
        else [] := by
  cases he : entry s call with
  | none => simp
  | some e =>
    have htags : e.connTags ≠ some ∅ := (JournalOrder.of_mem_entry he).2 ▸ goTags_ne _
    have hline : (journalAppend ts e).unmarshal = { e with ts } := unmarshal_marshal htags
    have hplayer : (journalAppend ts e).playerID = call.playerId :=
      (JournalOrder.of_mem_entry he).1
    by_cases heq : call.playerId = p
    · simp [entriesOf, hplayer, hline, heq]
    · simp [entriesOf, hplayer, heq]

theorem session_store (sessions : Sessions) (p q : Int64) (s : Session) :
    Sessions.session (sessions.store p s) q = if p = q then s else sessions.session q := by
  rw [Sessions.session, SyncMap.load_store]
  by_cases h : p = q
  · rw [if_pos h, if_pos h.symm, Option.getD_some]
  · rw [if_neg h, if_neg (Ne.symm h), Sessions.session]

section Runs

variable {s : Server} {es : List Event}

theorem inv_request (h : Inv s) (hsent : Sent request) : Inv (step s (.request request)) := by
  have hw : WellFormed (step s (.request request)).sessions :=
    wellFormed_handle h.wellFormed request
  rcases handle_call hsent s.sessions with ⟨hs, hj⟩ | ⟨call, hb, hm, hs, hj⟩
  · have hsame : (step s (.request request)).sessions = s.sessions := hs
    have hjournal : (step s (.request request)).journal = s.journal := by
      simp [step, hj]
    exact ⟨hw, hjournal ▸ h.bare, fun p => hjournal ▸ hsame ▸ h.stored p,
      fun p => hjournal ▸ hsame ▸ h.follows p⟩
  · have hsessions : (step s (.request request)).sessions =
        s.sessions.store call.playerId (call.update (s.sessions.session call.playerId)) := hs
    have hjournal : (step s (.request request)).journal = s.journal ++
        (entry (s.sessions.session call.playerId) call).toList.map (journalAppend request.ts) := by
      simp only [step, hj]
    refine ⟨hw, fun line hl => ?_, fun p hne => ?_, fun p => ?_⟩
    · rw [hjournal] at hl
      rcases List.mem_append.mp hl with hl | hl
      · exact h.bare line hl
      · obtain ⟨e, he, rfl⟩ := List.mem_map.mp hl
        exact bare_entry hb (Option.mem_toList.mp he) request.ts
    · rw [hsessions, SyncMap.load_store]
      split
      next => rfl
      next hp =>
        rw [hjournal, entriesOf_append, if_neg (Ne.symm hp), List.append_nil] at hne
        exact h.stored p hne
    · rw [hsessions, hjournal, entriesOf_append, session_store]
      by_cases hp : call.playerId = p
      · subst hp
        rw [if_pos rfl, if_pos rfl]
        exact follows_section (h.follows _) hb hm request.ts
      · rw [if_neg hp, if_neg hp, List.append_nil]
        exact h.follows p

theorem inv_started (hw : WellFormed s.sessions) (hj : s.journal = []) : Inv s := by
  refine ⟨hw, by simp [hj], fun p hne => ?_, fun p => ?_⟩
  · simp [hj, entriesOf] at hne
  · rw [hj]
    exact follows_nil _

theorem inv_run (hw : WellFormed s.sessions) (hj : s.journal = []) (hes : ∀ e ∈ es, SentEvent e) :
    Inv (es.foldl step s) := by
  refine List.foldlRecOn es step (inv_started hw hj) fun s h e he => ?_
  cases e with
  | request request => exact inv_request h (hes _ he)
  | snapshot => exact inv_started h.wellFormed rfl

theorem replayAll_live (h : Inv s) :
    replayAll s.sessions s.journal = s.sessions ↔ ∀ p, TagsLast (entriesOf p s.journal) := by
  have hload (p : Int64) : (replayAll s.sessions s.journal).load p = s.sessions.load p ↔
      TagsLast (entriesOf p s.journal) := by
    rw [load_replayAll]
    by_cases hnil : entriesOf p s.journal = []
    · rw [hnil]
      exact iff_of_true rfl fun e he => by cases he
    · obtain ⟨sess, hsess⟩ := Option.isSome_iff_exists.mp (h.stored p hnil)
      have hfollows := h.follows p
      rw [Sessions.session, hsess, Option.getD_some] at hfollows
      have hbare : ∀ e ∈ entriesOf p s.journal, e.Bare := by
        intro e he
        obtain ⟨line, hline, rfl⟩ := List.mem_map.mp he
        exact h.bare line (List.mem_of_mem_filter hline)
      rw [hsess, placeAll_some, Option.some_inj]
      exact updateAll_follows hfollows hbare
  refine ⟨fun heq p => (hload p).mp (by rw [heq]), fun hall => SyncMap.ext fun p =>
    (hload p).mpr (hall p)⟩

theorem recovered_window (h : Inv s) (rest : List JournalLine) :
    recovered (window s rest) = replayAll (replayAll s.sessions s.journal) rest := by
  have hsnapshot : recovered (window s rest) =
      replayAll (loadSnapshot (snapshotSessions s.sessions)) (s.journal ++ rest) := rfl
  rw [hsnapshot, load_snapshot h.wellFormed, replayAll_append]

/-- Replaying a journal twice is replaying it once, also when only its first
entries are there already. A crash in the window recovers what the snapshot and
the entries after it give exactly if every player's tags were saved last. -/
theorem replay_window_iff (hw : WellFormed s.sessions) (hj : s.journal = [])
    (hes : ∀ e ∈ es, SentEvent e) :
    (∀ sessions done rest, (∀ line ∈ done ++ rest, JournalLine.Bare line) →
      replayAll (replayAll sessions (done ++ rest)) (done ++ rest) = replayAll sessions
        (done ++ rest) ∧
      replayAll (replayAll sessions done) (done ++ rest) = replayAll sessions (done ++ rest)) ∧
    ((∀ rest, recovered (window (es.foldl step s) rest) =
      replayAll (es.foldl step s).sessions rest) ↔
      ∀ p, TagsLast (entriesOf p (es.foldl step s).journal)) := by
  refine ⟨fun sessions done rest h => ⟨replayAll_again h sessions, replayAll_prefix h sessions⟩, ?_⟩
  have hinv := inv_run hw hj hes
  rw [← replayAll_live hinv]
  refine ⟨fun h => ?_, fun h rest => by rw [recovered_window hinv, h]⟩
  have hnone := h []
  rwa [recovered_window hinv] at hnone

end Runs

def saveOf (tags : Tags) : Event :=
  .request
    { msgID := msgIdSessionSave
      data := some { playerId := 7, gatewayId := "gateway-1", connTags := tags } }

-- Player 7 is saved in a match, disconnects, comes back and is saved again.
def saved : List Event :=
  [saveOf (tag tagMatchID "m"),
   .request
     { msgID := msgIdSessionDisconnect
       data := some { playerId := 7, gatewayId := "gateway-1" }
       now := 100 },
   .request
     { msgID := msgIdSessionReconnect
       data := some { playerId := 7, gatewayId := "gateway-2" } },
   saveOf (tag tagMatchID "n")]

theorem saved_window :
    (saved.foldl step {}).journal.length = 4 ∧ ∀ rest,
      recovered (window (saved.foldl step {}) rest) =
        replayAll (saved.foldl step {}).sessions rest := by
  have hw : WellFormed ({} : Server).sessions := fun p s hp => by simp at hp
  have hall : ∀ line ∈ (saved.foldl step {}).journal, line.playerID = 7 := by decide
  refine ⟨rfl, (replay_window_iff hw rfl (by decide : ∀ e ∈ saved, SentEvent e)).2.mpr fun p => ?_⟩
  by_cases hp : p = 7
  · subst hp
    decide
  · have hnil : entriesOf p (saved.foldl step {}).journal = [] := by
      rw [entriesOf, List.filter_eq_nil_iff.mpr fun line hl => ?_]
      · rfl
      · simpa [hall line hl] using Ne.symm hp
    rw [hnil]
    decide

-- Player 7 is saved with a match, then without.
def cleared : List Event := [saveOf (tag tagMatchID "m"), saveOf ∅]

/-- The sessions and the snapshot have no tags, and recovery brings them back. -/
theorem cleared_window :
    ((cleared.foldl step {}).sessions.load 7).map Session.connTags = some none ∧
      ((recovered (step (cleared.foldl step {}) .snapshot)).load 7).map Session.connTags =
        some none ∧
      ((recovered (window (cleared.foldl step {}) [])).load 7).map Session.connTags =
        some (some (tag tagMatchID "m")) ∧
      recovered (window (cleared.foldl step {}) []) ≠ (cleared.foldl step {}).sessions := by
  decide

end Cardwar.SessionSvr.Window
