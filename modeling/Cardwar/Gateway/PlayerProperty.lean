import Cardwar.Gateway.PlayerConns

/-!
# The type of the player property

OnConnStart sets the property `playerId` to an int64. ForwardRouter and
OnConnStop ask for that type, SyncSessionTags takes a string as well. A backend
may tag the connection with a `playerId`, which `applyConnTags` stores as a
string. The readers agree exactly if no answer to the connection does so
(`served_iff`).
-/

namespace Cardwar.Gateway.PlayerProperty

open Conf Protocol Codec Reconnect Client PlayerConns
open Wire (Bytes)
open Strconv (parseInt formatInt)

structure Answer where
  msgID : UInt32
  data : Bytes := []
  connTags : Tags
  up : List String := []

def respond (c : UInt64) (s : State) (a : Answer) : State :=
  (handleResponse s a.msgID ⟨c, a.data, a.connTags⟩ a.up).1

/-- The `playerId` tag, if the tags are for the connection: `target_player_id`
sends the answer elsewhere, and an Envelope for connection 0 is a broadcast. -/
def playerTag (c : UInt64) (a : Answer) : Option String :=
  if c = 0 ∨ a.connTags.get tagTargetPlayerID ≠ "" then none else a.connTags.load propPlayerID

theorem respond_plain (hc : s.conns.load c = some conn) (h : playerTag c a = none) :
    ∃ conn', (respond c s a).conns.load c = some conn' ∧
      conn'.properties.load propPlayerID = conn.properties.load propPlayerID ∧
      (respond c s a).playerConns = s.playerConns := by
  unfold respond handleResponse
  dsimp only
  split
  next => exact ⟨conn, hc, rfl, rfl⟩
  next htarget =>
    split
    next hne =>
      rw [playerTag, if_neg (not_or.mpr ⟨hne, htarget⟩)] at h
      rw [hc]
      dsimp only
      unfold applyConnTags
      split
      next => exact ⟨conn, hc, rfl, rfl⟩
      next => exact ⟨_, SyncMap.load_store_self .., load_restore conn h, by rw [h]⟩
    next => exact ⟨conn, hc, rfl, rfl⟩

theorem respond_tagged (hc : s.conns.load c = some conn) (h : playerTag c a = some pid) :
    ∃ conn', (respond c s a).conns.load c = some conn' ∧
      conn'.properties.load propPlayerID = some (.string pid) := by
  unfold playerTag at h
  split at h
  next => cases h
  next hmine =>
    obtain ⟨hne, htarget⟩ := not_or.mp hmine
    have htags : a.connTags ≠ ∅ := by
      rintro hempty
      rw [hempty] at h
      cases h
    refine ⟨conn.restore a.connTags, ?_, ?_⟩
    · simp only [respond, handleResponse, if_neg htarget, if_pos hne, hc, applyConnTags,
        if_neg htags]
      exact SyncMap.load_store_self ..
    · simp [Conn.restore, SyncMap.load_storeAll, h]

theorem foldl_plain {answers : List Answer} (hc : s.conns.load c = some conn)
    (h : ∀ a ∈ answers, playerTag c a = none) :
    ∃ conn', (answers.foldl (respond c) s).conns.load c = some conn' ∧
      conn'.properties.load propPlayerID = conn.properties.load propPlayerID ∧
      (answers.foldl (respond c) s).playerConns = s.playerConns := by
  induction answers generalizing s conn with
  | nil => exact ⟨conn, hc, rfl, rfl⟩
  | cons a answers ih =>
    obtain ⟨mid, hmid, hprop, hplayers⟩ := respond_plain hc (h a List.mem_cons_self)
    obtain ⟨conn', hc', hprop', hplayers'⟩ := ih hmid fun b hb => h b (List.mem_cons_of_mem a hb)
    exact ⟨conn', hc', hprop'.trans hprop, hplayers'.trans hplayers⟩

theorem foldl_string {answers : List Answer} (hc : s.conns.load c = some conn)
    (h : (∃ pid, conn.properties.load propPlayerID = some (.string pid)) ∨ ∃ a ∈ answers,
      playerTag c a ≠ none) :
    ∃ conn' pid, (answers.foldl (respond c) s).conns.load c = some conn' ∧
      conn'.properties.load propPlayerID = some (.string pid) := by
  induction answers generalizing s conn with
  | nil =>
    obtain ⟨pid, hpid⟩ | ⟨a, ha, -⟩ := h
    · exact ⟨conn, pid, hc, hpid⟩
    · cases ha
  | cons a answers ih =>
    cases htag : playerTag c a with
    | some pid =>
      obtain ⟨mid, hmid, hpid⟩ := respond_tagged hc htag
      exact ih hmid (.inl ⟨pid, hpid⟩)
    | none =>
      obtain ⟨mid, hmid, hprop, -⟩ := respond_plain hc htag
      refine ih hmid (h.imp (fun ⟨pid, hpid⟩ => ⟨pid, hprop.trans hpid⟩) ?_)
      rintro ⟨b, hb, hne⟩
      rcases List.mem_cons.mp hb with rfl | hb
      · exact absurd htag hne
      · exact ⟨b, hb, hne⟩

/-- The connection `c` of player `p`, opened in state `s`, as it is in state `s'`.
PlayerConns keeps no entry for it that was not there before it was opened. -/
structure Served (s s' : State) (c : UInt64) (p : Int64) (conn : Conn) : Prop where
  forwarded : ∀ data, wrap c conn data = some (marshalEnvelope c data [(tagPlayerID, formatInt p)])
  synced : (conn.properties.load propPlayerID).map toPlayerID = some p
  removed : ∀ up q, (connStop s' c conn up).playerConns.load q = some c →
    s.playerConns.load q = some c
  reported : ∀ up, if svcSessionSvr ∈ up then DisconnectSent (connStop s' c conn up).outbox p
    else Queued (connStop s' c conn up) p

theorem served_int64 (hprop : conn.properties.load propPlayerID = some (.int64 p))
    (hplayers : s'.playerConns = s.playerConns.store p c) : Served s s' c p conn where
  forwarded data := by rw [wrap, hprop]
  synced := by rw [hprop, Option.map_some, toPlayerID]
  removed up q hq := by
    have hdelete : (connStop s' c conn up).playerConns = s'.playerConns.delete p := by
      simp only [connStop, hprop, markDisconnected]
      split <;> rfl
    rw [hdelete, hplayers] at hq
    obtain ⟨hne, hq⟩ := SyncMap.of_load_delete hq
    rwa [SyncMap.load_store_ne _ _ hne] at hq
  reported up := by
    simp only [connStop, hprop, markDisconnected]
    split
    next hup =>
      exact ⟨_, by rw [sendSession, send, if_pos hup]; exact List.mem_singleton_self _, rfl, rfl⟩
    next => exact SyncMap.load_store_self ..

theorem wrap_string (hprop : conn.properties.load propPlayerID = some (.string pid))
    (data : Bytes) :
    wrap c conn data = none := by
  rw [wrap, hprop]

/-- For every connection of a player, in every state, and all answers to it. -/
theorem served_iff (s : State) (c : UInt64) (p : Int64) (answers : List Answer) :
    (∃ conn, (answers.foldl (respond c) (connStart s c (some p))).conns.load c = some conn ∧
      Served s (answers.foldl (respond c) (connStart s c (some p))) c p conn) ↔
    ∀ a ∈ answers, playerTag c a = none := by
  have hopen : (connStart s c (some p)).conns.load c = some
      { auth := some p,
        properties := (∅ : SyncMap String Property).store propPlayerID (.int64 p) } :=
    SyncMap.load_store_self ..
  constructor
  · rintro ⟨conn, hc, hserved⟩
    by_contra hcon
    push Not at hcon
    obtain ⟨conn', pid, hc', hpid⟩ := foldl_string hopen (.inr hcon)
    obtain rfl := Option.some.inj (hc.symm.trans hc')
    exact absurd ((wrap_string hpid []).symm.trans (hserved.forwarded [])) (by simp)
  · intro h
    obtain ⟨conn, hc, hprop, hplayers⟩ := foldl_plain hopen h
    exact ⟨conn, hc, served_int64 (hprop.trans (SyncMap.load_store_self ..)) hplayers⟩

-- A backend tags connection 3 of player 7 with the id of that player.
def tagged : State :=
  respond 3 (connStart (init "gateway-1") 3 (some 7))
    { msgID := msgIdChatResp, connTags := tag propPlayerID "7" }

/-- The next message of the client panics, and the stop of the connection neither
removes its entry nor reports the player. -/
theorem tagged_unserved :
    ∃ conn, tagged.conns.load 3 = some conn ∧ wrap 3 conn [1] = none ∧
      (connStop tagged 3 conn [svcSessionSvr]).playerConns.load 7 = some 3 ∧
      (connStop tagged 3 conn [svcSessionSvr]).outbox = [] ∧
      ¬ Served (init "gateway-1") tagged 3 7 conn := by
  refine ⟨_, rfl, by decide +kernel, by decide +kernel, by decide +kernel, fun h => ?_⟩
  exact absurd (h.removed [] 7 (by decide +kernel)) (by decide +kernel)

end Cardwar.Gateway.PlayerProperty
