import Cardwar.Lib.Lease
import Cardwar.SessionSvr.Expiry
import Cardwar.SessionSvr.Persist

/-!
# Replaying the journal again

A session's gateway and disconnect time are a lease that a save or reconnect
claims and a disconnect stamps, its tags are those of the last entry with tags,
and neither changes when the journal is replayed a second time
(`replayAll_again`).
-/

namespace Cardwar.SessionSvr

open Protocol

/-- The gateway that has the player, and since when the player is away. -/
def Session.lease (s : Session) : Lease String Int := ⟨s.gatewayID, s.disconnectedAt⟩

def JournalEntry.leaseOp (e : JournalEntry) : Lease.Op String Int :=
  match e.op with
  | .save | .reconnect => .claim e.gatewayID
  | .disconnect => .stamp e.gatewayID e.disconnectedAt

/-- What replaying the entry makes of a session there is. -/
def JournalEntry.update (e : JournalEntry) (s : Session) : Session :=
  match e.op with
  | .save => s.replaySave e
  | .disconnect => if s.Stale e.gatewayID then s else s.replayDisconnect e
  | .reconnect => s.replayReconnect e

/-- Disconnects and reconnects have no tags, as the gateways send them. -/
def JournalEntry.Bare (e : JournalEntry) : Prop := e.op ≠ .save → e.connTags = none

theorem lease_update (e : JournalEntry) (s : Session) :
    (e.update s).lease = s.lease.apply "" 0 e.leaseOp := by
  unfold JournalEntry.update JournalEntry.leaseOp
  cases e.op with
  | save => rfl
  | reconnect => rfl
  | disconnect =>
    dsimp only [Lease.apply]
    by_cases hstale : s.Stale e.gatewayID
    · rw [if_pos hstale]
      exact (if_pos hstale).symm
    · rw [if_neg hstale]
      exact (if_neg hstale).symm

theorem playerID_update (e : JournalEntry) (s : Session) : (e.update s).playerID = s.playerID := by
  unfold JournalEntry.update
  cases e.op with
  | save => rfl
  | reconnect => rfl
  | disconnect =>
    dsimp only
    split <;> rfl

theorem connTags_update (h : JournalEntry.Bare e) (s : Session) :
    (e.update s).connTags = e.connTags.or s.connTags := by
  unfold JournalEntry.update
  cases hop : e.op with
  | save => cases ht : e.connTags <;> simp [Session.replaySave, ht]
  | reconnect => simp [Session.replayReconnect, h (by simp [hop])]
  | disconnect =>
    have ht : e.connTags = none := h (by simp [hop])
    dsimp only
    split
    · simp [ht]
    · cases hs : s.connTags <;> simp [Session.replayDisconnect, ht, hs]

def Session.updateAll (s : Session) (es : List JournalEntry) : Session :=
  es.foldl (fun s e => e.update s) s

theorem lease_updateAll (s : Session) (es : List JournalEntry) :
    (s.updateAll es).lease = s.lease.applyAll "" 0 (es.map JournalEntry.leaseOp) := by
  induction es generalizing s with
  | nil => rfl
  | cons e es ih =>
    rw [List.map_cons, Lease.applyAll_cons, ← lease_update]
    exact ih _

theorem playerID_updateAll (s : Session) (es : List JournalEntry) :
    (s.updateAll es).playerID = s.playerID := by
  induction es generalizing s with
  | nil => rfl
  | cons e es ih => exact (ih _).trans (playerID_update e s)

def lastTags (es : List JournalEntry) : Option Tags := es.reverse.findSome? JournalEntry.connTags

theorem lastTags_cons (e : JournalEntry) (es : List JournalEntry) :
    lastTags (e :: es) = (lastTags es).or e.connTags := by
  rw [lastTags, List.reverse_cons, List.findSome?_append, List.findSome?_singleton]
  rfl

theorem connTags_updateAll (h : ∀ e ∈ es, JournalEntry.Bare e) (s : Session) :
    (s.updateAll es).connTags = (lastTags es).or s.connTags := by
  induction es generalizing s with
  | nil => rfl
  | cons e es ih =>
    obtain ⟨he, hes⟩ := List.forall_mem_cons.mp h
    calc (s.updateAll (e :: es)).connTags = (lastTags es).or (e.update s).connTags := ih hes _
      _ = (lastTags es).or (e.connTags.or s.connTags) := by rw [connTags_update he]
      _ = (lastTags (e :: es)).or s.connTags := by rw [lastTags_cons, Option.or_assoc]

theorem Session.ext_lease (hplayer : Session.playerID s = s'.playerID)
    (htags : s.connTags = s'.connTags) (hlease : s.lease = s'.lease) : s = s' := by
  obtain ⟨hgateway, hdisconnected⟩ := Lease.mk.inj hlease
  cases s
  cases s'
  simp_all

theorem updateAll_idem (h : ∀ e ∈ es, JournalEntry.Bare e) (s : Session) :
    (s.updateAll es).updateAll es = s.updateAll es := by
  refine Session.ext_lease (playerID_updateAll _ es) ?_ ?_
  · rw [connTags_updateAll h, connTags_updateAll h, ← Option.or_assoc, Option.or_self]
  · rw [lease_updateAll, lease_updateAll, Lease.applyAll_idem]

/-- What replaying the entry makes of its player's place in the map. Only a save
creates a session. -/
def JournalEntry.place (e : JournalEntry) (o : Option Session) : Option Session :=
  match e.op with
  | .save => some (e.update (o.getD { playerID := e.playerID }))
  | _ => o.map e.update

def placeAll (o : Option Session) (es : List JournalEntry) : Option Session :=
  es.foldl (fun o e => e.place o) o

@[simp] theorem placeAll_cons (o : Option Session) (e : JournalEntry) (es : List JournalEntry) :
    placeAll o (e :: es) = placeAll (e.place o) es := rfl

theorem place_some (e : JournalEntry) (s : Session) : e.place (some s) = some (e.update s) := by
  unfold JournalEntry.place
  cases e.op <;> rfl

theorem place_none (hop : JournalEntry.op e ≠ .save) : e.place none = none := by
  unfold JournalEntry.place
  split
  next hsave => exact absurd hsave hop
  next => rfl

theorem placeAll_some (s : Session) (es : List JournalEntry) :
    placeAll (some s) es = some (s.updateAll es) := by
  induction es generalizing s with
  | nil => rfl
  | cons e es ih =>
    rw [placeAll_cons, place_some]
    exact ih _

theorem placeAll_saved (h : ∀ e ∈ es, JournalEntry.Bare e) (hes : ∀ e ∈ es, e.playerID = p)
    (hsave : ∃ e ∈ es, e.op = .save) {s : Session} (hp : s.playerID = p) (ht : s.connTags = none) :
    placeAll none es = placeAll (some s) es := by
  induction es generalizing s with
  | nil => simp at hsave
  | cons e es ih =>
    obtain ⟨hb, h⟩ := List.forall_mem_cons.mp h
    obtain ⟨he, hes⟩ := List.forall_mem_cons.mp hes
    simp only [placeAll_cons]
    by_cases hop : e.op = .save
    · have hfirst : e.place none = e.place (some s) := by
        simp [JournalEntry.place, JournalEntry.update, Session.replaySave, hop, he, hp, ht]
      rw [hfirst]
    · have ht' : (e.update s).connTags = none := by
        rw [connTags_update hb, hb hop, ht, Option.or_none]
      have hsave' : ∃ e ∈ es, e.op = .save := by simpa [hop] using hsave
      rw [place_none hop, place_some]
      exact ih h hes hsave' ((playerID_update e s).trans hp) ht'

theorem placeAll_none (es : List JournalEntry) :
    placeAll none es = none ↔ ∀ e ∈ es, e.op ≠ .save := by
  induction es with
  | nil => simp [placeAll]
  | cons e es ih =>
    rw [List.forall_mem_cons]
    by_cases hop : e.op = .save
    · have hfirst : e.place none = some (e.update { playerID := e.playerID }) := by
        simp [JournalEntry.place, hop]
      simp [hfirst, placeAll_some, hop]
    · simp [place_none hop, ih, hop]

theorem placeAll_idem (h : ∀ e ∈ es, JournalEntry.Bare e) (hes : ∀ e ∈ es, e.playerID = p)
    (o : Option Session) : placeAll (placeAll o es) es = placeAll o es := by
  have hsome : ∀ s : Session, placeAll (placeAll (some s) es) es = placeAll (some s) es := by
    intro s
    rw [placeAll_some, placeAll_some, updateAll_idem h]
  cases o with
  | some s => exact hsome s
  | none =>
    by_cases hsave : ∃ e ∈ es, e.op = .save
    · rw [placeAll_saved h hes hsave (s := { playerID := p }) rfl rfl]
      exact hsome _
    · have hnone : placeAll none es = none :=
        (placeAll_none es).mpr fun e he hop => hsave ⟨e, he, hop⟩
      rw [hnone, hnone]

theorem playerID_placeAll {o : Option Session} (h : ∀ s ∈ o, s.playerID = p)
    (hes : ∀ e ∈ es, JournalEntry.playerID e = p) : ∀ s ∈ placeAll o es, s.playerID = p := by
  induction es generalizing o with
  | nil => exact h
  | cons e es ih =>
    obtain ⟨he, hes⟩ := List.forall_mem_cons.mp hes
    rw [placeAll_cons]
    refine ih (fun s hs => ?_) hes
    cases o with
    | some t =>
      rw [place_some] at hs
      exact Option.some.inj hs ▸ (playerID_update e t).trans (h t rfl)
    | none =>
      by_cases hop : e.op = .save
      · simp only [JournalEntry.place, hop] at hs
        exact Option.some.inj hs ▸ (playerID_update e _).trans he
      · rw [place_none hop] at hs
        cases hs

theorem load_replayEntry (sessions : Sessions) (e : JournalEntry) (p : Int64) :
    (replayEntry sessions e).load p = if e.playerID = p then e.place (sessions.load p)
      else sessions.load p := by
  by_cases hp : e.playerID = p
  · subst hp
    rw [if_pos rfl]
    unfold replayEntry JournalEntry.place JournalEntry.update
    cases e.op with
    | save => simp [SyncMap.loadOrStore_fst]
    | disconnect =>
      cases hload : sessions.load e.playerID with
      | none => simp [hload]
      | some s =>
        dsimp only
        split <;> simp [*]
    | reconnect => cases hload : sessions.load e.playerID <;> simp [hload]
  · rw [if_neg hp]
    have hne : p ≠ e.playerID := Ne.symm hp
    unfold replayEntry
    cases e.op with
    | save => simp [SyncMap.store_loadOrStore, SyncMap.load_store_ne _ _ hne]
    | disconnect =>
      cases hload : sessions.load e.playerID with
      | none => rfl
      | some s =>
        dsimp only
        split
        · rfl
        · exact SyncMap.load_store_ne _ _ hne
    | reconnect =>
      cases hload : sessions.load e.playerID with
      | none => rfl
      | some s => exact SyncMap.load_store_ne _ _ hne

/-- `replayJournal` with every line accepted. -/
def replayAll (sessions : Sessions) (journal : List JournalLine) : Sessions :=
  journal.foldl replaySession sessions

def entriesOf (p : Int64) (journal : List JournalLine) : List JournalEntry :=
  (journal.filter (·.playerID = p)).map JournalLine.unmarshal

theorem playerID_entriesOf (he : e ∈ entriesOf p journal) : e.playerID = p := by
  obtain ⟨line, hline, rfl⟩ := List.mem_map.mp he
  exact of_decide_eq_true (List.mem_filter.mp hline).2

theorem load_replayAll (sessions : Sessions) (journal : List JournalLine) (p : Int64) :
    (replayAll sessions journal).load p = placeAll (sessions.load p) (entriesOf p journal) := by
  induction journal generalizing sessions with
  | nil => rfl
  | cons line journal ih =>
    have hfirst : (replayAll sessions (line :: journal)).load p =
        placeAll ((replayEntry sessions line.unmarshal).load p) (entriesOf p journal) := ih _
    rw [hfirst, load_replayEntry]
    by_cases hp : line.playerID = p
    · simp [entriesOf, hp, placeAll, JournalLine.unmarshal]
    · simp [entriesOf, hp, JournalLine.unmarshal]

def JournalLine.Bare (line : JournalLine) : Prop := line.op ≠ .save → line.connTags = none

instance (line : JournalLine) : Decidable line.Bare := inferInstanceAs (Decidable (_ → _))

theorem replayAll_again (h : ∀ line ∈ journal, JournalLine.Bare line) (sessions : Sessions) :
    replayAll (replayAll sessions journal) journal = replayAll sessions journal := by
  refine SyncMap.ext fun p => ?_
  rw [load_replayAll, load_replayAll]
  refine placeAll_idem (fun e he => ?_) (fun e he => playerID_entriesOf he) _
  obtain ⟨line, hline, rfl⟩ := List.mem_map.mp he
  exact h line (List.mem_of_mem_filter hline)

theorem replayAll_append (sessions : Sessions) (journal journal' : List JournalLine) :
    replayAll sessions (journal ++ journal') = replayAll (replayAll sessions journal) journal' :=
  List.foldl_append

/-- Replaying a journal over a state that has the effect of its first entries. -/
theorem replayAll_prefix (h : ∀ line ∈ done ++ rest, JournalLine.Bare line) (sessions : Sessions) :
    replayAll (replayAll sessions done) (done ++ rest) = replayAll sessions (done ++ rest) := by
  have hdone : ∀ line ∈ done, line.Bare := fun line hl => h line (List.mem_append_left _ hl)
  rw [replayAll_append, replayAll_append, replayAll_again hdone]

end Cardwar.SessionSvr
