import Cardwar.MatchSvr.Fifo
import Cardwar.MatchSvr.Load

/-!
# Players who enter twice

`handleEnter` appends a player without a look at who waits already, `matchPool`
takes the oldest entries, whoever made them, and `handleForceLeaveQueue` stops
at the first entry it removes. So a player is in a queue or a match once exactly
if no player enters a queue that they are in (`once_iff_notWaiting`).
-/

namespace Cardwar.MatchSvr.Repeats

open Protocol Codec Pkg Fifo
open Run (Along total)

/-- After the message nobody is in a queue twice, in a match twice, or still in
the queue they are forced to leave. -/
structure Once (st : Matches) (request : Request) : Prop where
  queues : ∀ t, (playerIDs ((handle st request).1.waiting t)).Nodup
  matched : ∀ out ∈ pushes (handle st request).2, ∀ senderID m server players t tags,
    out.content = .envelope senderID (.matchResultPush m server players t) tags → players.Nodup
  left : ∀ t p, message request = some (.leave t p) →
    p ∉ playerIDs ((handle st request).1.waiting t)

def NotWaiting (st : Matches) (request : Request) : Prop :=
  ∀ t player, message request = some (.enter t player) → player.playerID ∉ playerIDs (st.waiting t)

structure Distinct (st : Matches) : Prop where
  queues : ∀ t, (playerIDs (st.waiting t)).Nodup
  short : ∀ t, (st.waiting t).length < requiredPlayers t

theorem nodup_enter (h : (playerIDs q).Nodup) (player : QueuedPlayer) :
    (playerIDs (q ++ [player])).Nodup ↔ player.playerID ∉ playerIDs q := by
  rw [playerIDs, List.map_append, List.map_singleton, ← List.concat_eq_append, List.nodup_concat]
  exact and_iff_left h

theorem nodup_erase (h : (playerIDs q).Nodup) (p : Int64) :
    (playerIDs (q.eraseP (·.playerID = p))).Nodup ∧ p ∉ playerIDs (q.eraseP (·.playerID = p)) := by
  have hmap : playerIDs (q.eraseP (·.playerID = p)) = (playerIDs q).erase p := by
    rw [playerIDs, playerIDs, List.erase_eq_eraseP, List.eraseP_map]
    congr 2
    funext x
    simp [eq_comm, beq_eq_decide]
  rw [hmap]
  exact ⟨h.erase p, h.not_mem_erase⟩

theorem once_leave (h : Distinct st) (hm : message request = some (.leave t p)) :
    Once st request := by
  have hwaiting := waiting_leaveQueue st t p
  constructor
  · intro j
    rw [handle_leave hm, hwaiting]
    split
    · exact (nodup_erase (h.queues t) p).1
    · exact h.queues j
  · intro out hout
    rw [handle_leave hm] at hout
    cases hout
  · intro j q hj
    obtain ⟨rfl, rfl⟩ := Message.leave.inj (Option.some.inj (hm.symm.trans hj))
    rw [handle_leave hm, hwaiting, if_pos rfl]
    exact (nodup_erase (h.queues t) p).2

theorem once_enter (h : Distinct st) (hm : message request = some (.enter t player)) :
    Once st request ↔ (playerIDs (st.waiting t ++ [player])).Nodup := by
  have hleft : ∀ j p, message request = some (.leave j p) →
      p ∉ playerIDs ((handle st request).1.waiting j) := by
    intro j p hj
    cases hm.symm.trans hj
  by_cases hfull : requiredPlayers t ≤ (st.waiting t ++ [player]).length
  · -- The queue was short before, so everybody who waits is in the match.
    have hle : (st.waiting t ++ [player]).length ≤ requiredPlayers t := by
      rw [List.length_append]
      exact h.short t
    obtain ⟨hqueues, m, server, hpush⟩ := handle_full hm st hfull
    rw [List.drop_of_length_le hle] at hqueues
    rw [List.take_of_length_le hle] at hpush
    constructor
    · intro honce
      refine honce.matched (resultPush m server t _ player) ?_ _ _ _ _ _ _ rfl
      rw [pushes, hpush]
      exact List.mem_filter.mpr ⟨List.mem_map_of_mem (by simp), rfl⟩
    · intro hnodup
      refine ⟨fun j => ?_, fun out hout => ?_, hleft⟩
      · rw [hqueues]
        split
        · exact List.nodup_nil
        · exact h.queues j
      · rw [pushes, hpush] at hout
        obtain ⟨x, -, rfl⟩ := List.mem_map.mp (List.mem_of_mem_filter hout)
        rintro _ _ _ _ _ _ ⟨⟩
        exact hnodup
  · obtain ⟨hqueues, hpush⟩ := handle_short hm st (not_le.mp hfull)
    constructor
    · intro honce
      have ht := honce.queues t
      rwa [hqueues, if_pos rfl] at ht
    · intro hnodup
      refine ⟨fun j => ?_, fun out hout => ?_, hleft⟩
      · rw [hqueues]
        split
        · exact hnodup
        · exact h.queues j
      · rw [hpush] at hout
        cases hout

theorem once_iff (h : Distinct st) (request : Request) :
    Once st request ↔ NotWaiting st request := by
  match hm : message request with
  | none =>
    obtain ⟨hqueues, hpush⟩ := handle_none hm st
    refine iff_of_true ⟨fun t => ?_, ?_, ?_⟩ ?_
    · rw [Matches.waiting, hqueues]
      exact h.queues t
    · simp [hpush]
    · simp [hm]
    · simp [NotWaiting, hm]
  | some (.leave t p) => exact iff_of_true (once_leave h hm) (by simp [NotWaiting, hm])
  | some (.enter t player) =>
    rw [once_enter h hm, nodup_enter (h.queues t), NotWaiting, hm]
    simp

/-- In every run from the empty state. -/
theorem once_iff_notWaiting (requests : List Request) :
    Along (total fun st request => (handle st request).1) Once {} requests ↔
      Along (total fun st request => (handle st request).1) NotWaiting {} requests := by
  have hempty : Distinct {} :=
    ⟨fun t => by simp [Matches.waiting, playerIDs],
      fun t => by simpa [Matches.waiting] using requiredPlayers_pos t⟩
  refine Run.along_iff (I := Distinct) ?_ (fun st request h => once_iff h request) hempty
  rintro st request _ h honce ⟨⟩
  exact ⟨honce.queues, short_handle h.short request⟩

def selfMatch : Outgoing := resultPush "match-1v1-20" "roomsvr-1" "1v1" [7, 7] ⟨7, 0, 1, 3⟩

/-- Player 7 asks again, from another gateway. -/
theorem matched_with_oneself :
    selfMatch ∈ pushes (handle (handle {} (entering 7 1 3 10)).1 (entering 7 2 5 20)).2 ∧
      ¬ Along (total fun st request => (handle st request).1) Once {}
        [entering 7 1 3 10, entering 7 2 5 20] := by
  have hpush :
      selfMatch ∈ pushes (handle (handle {} (entering 7 1 3 10)).1 (entering 7 2 5 20)).2 := by
    decide +kernel
  refine ⟨hpush, fun h => ?_⟩
  obtain ⟨-, hsecond⟩ := Run.along_total_cons.mp h
  have hnodup := (Run.along_total_cons.mp hsecond).1.matched selfMatch hpush _ _ _ _ _ _ rfl
  exact absurd hnodup (by decide)

end Cardwar.MatchSvr.Repeats
