import Cardwar.Lib.Json
import Cardwar.Persist.Journal
import Cardwar.SessionSvr.Persist

/-!
# SessionSvr's files

`journal.log` and `snapshot.json` byte by byte: the JSON that `journalAppend` and
`snapshotSessions` write, and what `InitStore` makes of any bytes it finds. For
the files of every run this is the recovery of the records themselves
(`initStore_files`), up to the first line that is too long for the scanner. A
line that a crash tore ends the recovery for good, wherever it was torn and
whatever is appended behind it (`initStore_torn`).
-/

namespace Cardwar.SessionSvr

open Protocol
open Json (Text Value Written decodeString decodeInt64 decodeMap decodeStruct)
open Persist.Journal
  (Bytes newline carriageReturn maxScanTokenSize written rawLines replayLines replayJournal)
open Run (Along total)

def Op.text : Op → String
  | .save => "save"
  | .disconnect => "disconnect"
  | .reconnect => "reconnect"

theorem formatInt_injective : Function.Injective Strconv.formatInt :=
  Function.LeftInverse.injective Strconv.parseInt_formatInt

instance fact_injective_id : Fact (Function.Injective (id : String → String)) :=
  ⟨Function.injective_id⟩

instance fact_injective_formatInt : Fact (Function.Injective Strconv.formatInt) :=
  ⟨formatInt_injective⟩

def tagsJson (tags : Tags) : Written := .map id .string tags

def JournalLine.json (l : JournalLine) : Written :=
  .object ([("op", .string l.op.text), ("player_id", .int l.playerID.toInt)] ++
    (l.gatewayID.map fun gatewayID => ("gateway_id", .string gatewayID)).toList ++
    (l.connTags.map fun tags => ("conn_tags", tagsJson tags)).toList ++
    (l.disconnectedAt.map fun time => ("disconnected_at", .int time)).toList ++
    [("ts", .int l.ts)])

def SessionPersist.json (sp : SessionPersist) : Written :=
  .object ([("player_id", .int sp.playerID.toInt), ("gateway_id", .string sp.gatewayID)] ++
    (sp.connTags.map fun tags => ("conn_tags", tagsJson tags)).toList ++
    [("disconnected_at", .int sp.disconnectedAt)])

def snapshotJson (state : SnapshotFile) : Written :=
  .map Strconv.formatInt SessionPersist.json state

-- ---------------------------------------------------------------------------
-- Reading
-- ---------------------------------------------------------------------------

/-- A `journalEntry` as `json.Unmarshal` fills it, with any text for its operation. -/
structure EntryFields where
  op : String := ""
  playerID : Int64 := 0
  gatewayID : String := ""
  connTags : Option Tags := none
  disconnectedAt : Int64 := 0
  ts : Int64 := 0

/-- `null` makes the map nil; members go into the map that is there. -/
def decodeTags (old : Option Tags) : Value → Option (Option Tags)
  | .null => some none
  | .object members => (decodeMap some (decodeString "") (old.getD ∅) members).map some
  | _ => none

def entryNames : List String :=
  ["op", "player_id", "gateway_id", "conn_tags", "disconnected_at", "ts"]

def setEntry (e : EntryFields) (name : String) (v : Value) : Option EntryFields :=
  if name = "op" then (decodeString e.op v).map fun op => { e with op }
  else if name = "player_id" then (decodeInt64 e.playerID v).map fun playerID => { e with playerID }
  else if name = "gateway_id" then (decodeString e.gatewayID v).map fun gatewayID =>
    { e with gatewayID }
  else if name = "conn_tags" then (decodeTags e.connTags v).map fun connTags => { e with connTags }
  else if name = "disconnected_at" then
    (decodeInt64 e.disconnectedAt v).map fun disconnectedAt => { e with disconnectedAt }
  else (decodeInt64 e.ts v).map fun ts => { e with ts }

def unmarshalEntry (entry : Text) : Option EntryFields :=
  (Json.parse entry).bind (decodeStruct entryNames setEntry {})

def Op.ofText (op : String) : Option Op := [Op.save, .disconnect, .reconnect].find? (·.text = op)

def EntryFields.entry (e : EntryFields) (op : Op) : JournalEntry :=
  ⟨op, e.playerID, e.gatewayID, e.connTags, e.disconnectedAt.toInt, e.ts.toInt⟩

/-- `replaySession` on an entry that was read. An operation it does not know does
nothing. -/
def replayFields (sessions : Sessions) (e : EntryFields) : Sessions :=
  match Op.ofText e.op with
  | none => sessions
  | some op => replayEntry sessions (e.entry op)

structure PersistFields where
  playerID : Int64 := 0
  gatewayID : String := ""
  connTags : Option Tags := none
  disconnectedAt : Int64 := 0

def persistNames : List String := ["player_id", "gateway_id", "conn_tags", "disconnected_at"]

def setPersist (sp : PersistFields) (name : String) (v : Value) : Option PersistFields :=
  if name = "player_id" then (decodeInt64 sp.playerID v).map fun playerID => { sp with playerID }
  else if name = "gateway_id" then (decodeString sp.gatewayID v).map fun gatewayID =>
    { sp with gatewayID }
  else if name = "conn_tags" then (decodeTags sp.connTags v).map fun connTags =>
    { sp with connTags }
  else (decodeInt64 sp.disconnectedAt v).map fun disconnectedAt => { sp with disconnectedAt }

def PersistFields.session (sp : PersistFields) : Session :=
  ⟨sp.playerID, sp.gatewayID, sp.connTags, sp.disconnectedAt.toInt⟩

/-- A `*sessionPersist`, which `null` leaves nil. -/
def decodePersist : Value → Option (Option PersistFields)
  | .null => some none
  | v => (decodeStruct persistNames setPersist {} v).map some

def snapshotKey (key : String) : Option Int64 := Strconv.parseInt? key.toList

def unmarshalSnapshot (data : Text) : Option (SyncMap Int64 (Option PersistFields)) :=
  (Json.parse data).bind fun
    | .null => some ∅
    | .object members => decodeMap snapshotKey decodePersist ∅ members
    | _ => none

inductive Loaded
  | ok (sessions : Sessions)
  | failed
  /-- A nil `*sessionPersist` is dereferenced. -/
  | panicked

/-- The body of the loop of `loadSnapshot`. -/
def loadEntry (state : SyncMap Int64 (Option PersistFields)) (sessions : Sessions) (k : Int64) :
    Option Sessions :=
  match state.load k with
  | none => some sessions
  | some none => none
  | some (some sp) => some (sessions.store sp.playerID sp.session)

/-- `loadSnapshot` on the bytes of the file, with the order in which it ranges over
the decoded map. Nothing is stored unless everything decodes. -/
def loadSnapshotBytes (order : List Int64) (data : Text) : Loaded :=
  match unmarshalSnapshot data with
  | none => .failed
  | some state => (order.foldlM (loadEntry state) ∅).elim .panicked .ok

/-- Every line `replayJournal` hands over, up to the first one that is refused. -/
def replayBytes (sessions : Sessions) (journal : Bytes) : Sessions :=
  ((replayJournal (fun entry => (unmarshalEntry entry).isSome) journal).entries.filterMap
    unmarshalEntry).foldl
    replayFields sessions

/-- The sessions after `InitStore`, `none` if it panics. A file that is not there is
`none`; a snapshot that does not load is logged and skipped. -/
def initStore (order : List Int64) (snapshot : Option Text) (journal : Bytes) : Option Sessions :=
  match snapshot.map (loadSnapshotBytes order) with
  | none | some .failed => some (replayBytes ∅ journal)
  | some .panicked => none
  | some (.ok sessions) => some (replayBytes sessions journal)

-- ---------------------------------------------------------------------------
-- Lines
-- ---------------------------------------------------------------------------

def Fits (n : Int) : Prop := (Int64.ofInt n).toInt = n

theorem decodeInt64_int (h : Fits n) (old : Int64) :
    decodeInt64 old (Written.int n).value = some (Int64.ofInt n) := by
  have hdecode := Json.decodeInt64_formatInt (Int64.ofInt n) old
  rwa [h] at hdecode

theorem decodeInt64_int64 (n old : Int64) : decodeInt64 old (Written.int n.toInt).value = some n :=
  Json.decodeInt64_formatInt n old

theorem decodeTags_tagsJson (tags : Tags) :
    decodeTags none (tagsJson tags).value = some (some tags) := by
  have hid : tags.mapVal id = tags :=
    SyncMap.ext fun k => by rw [SyncMap.load_mapVal, Option.map_id_fun, id]
  have hstring :
      ∀ k v, tags.load k = some v → decodeString "" (Written.string v).value = some (id v) :=
    fun _ _ _ => rfl
  obtain ⟨members, hvalue, hdecode⟩ :=
    Json.decodeMap_written id Written.string id (fun k => rfl) hstring
  rw [tagsJson, hvalue, decodeTags, Option.getD_none, hdecode, hid, Option.map_some]

def JournalLine.fields (l : JournalLine) : EntryFields where
  op := l.op.text
  playerID := l.playerID
  gatewayID := l.gatewayID.getD ""
  connTags := l.connTags
  disconnectedAt := Int64.ofInt (l.disconnectedAt.getD 0)
  ts := Int64.ofInt l.ts

def JournalLine.Fits (l : JournalLine) : Prop :=
  SessionSvr.Fits (l.disconnectedAt.getD 0) ∧ SessionSvr.Fits l.ts

theorem unmarshalEntry_json {l : JournalLine} (h : l.Fits) :
    unmarshalEntry l.json.text = some l.fields := by
  obtain ⟨op, p, gw, tags, time, ts⟩ := l
  obtain ⟨htime, hts⟩ := h
  have hop : setEntry {} "op" (Written.string op.text).value = some { op := op.text } := rfl
  have hplayer : setEntry { op := op.text } "player_id" (Written.int p.toInt).value =
      some { op := op.text, playerID := p } := congrArg (Option.map _) (decodeInt64_int64 p 0)
  have hts : setEntry ⟨op.text, p, gw.getD "", tags, Int64.ofInt (time.getD 0), 0⟩ "ts"
      (Written.int ts).value =
      some ⟨op.text, p, gw.getD "", tags, Int64.ofInt (time.getD 0), Int64.ofInt ts⟩ :=
    congrArg (Option.map _) (decodeInt64_int hts 0)
  rw [unmarshalEntry, Written.parse, Option.bind_some]
  simp only [JournalLine.json, Written.object, decodeStruct, List.cons_append, List.nil_append,
    List.append_assoc, List.map_cons]
  rw [Json.setMembers_cons (by decide) hop, Json.setMembers_cons (by decide) hplayer,
    Json.setMembers_option ⟨op.text, p, gw.getD "", none, 0, 0⟩ (by decide) (by rintro rfl; rfl)
      (by rintro g rfl; rfl),
    Json.setMembers_option ⟨op.text, p, gw.getD "", tags, 0, 0⟩ (by decide) (by rintro rfl; rfl)
      (by rintro t rfl; exact congrArg (Option.map _) (decodeTags_tagsJson t)),
    Json.setMembers_option ⟨op.text, p, gw.getD "", tags, Int64.ofInt (time.getD 0), 0⟩ (by decide)
      (by rintro rfl; rfl)
        (by rintro t rfl; exact congrArg (Option.map _) (decodeInt64_int htime 0)),
    List.map_cons, Json.setMembers_cons (by decide) hts]
  rfl

theorem ofText_text (op : Op) : Op.ofText op.text = some op := by
  cases op <;> decide

theorem replayFields_fields {l : JournalLine} (h : l.Fits) (sessions : Sessions) :
    replayFields sessions l.fields = replaySession sessions l := by
  have hop : Op.ofText l.fields.op = some l.op := ofText_text l.op
  have hentry : l.fields.entry l.op = l.unmarshal := by
    simp only [JournalLine.fields, EntryFields.entry, JournalLine.unmarshal]
    rw [h.1, h.2]
  rw [replayFields, hop, replaySession, ← hentry]

-- ---------------------------------------------------------------------------
-- Snapshots
-- ---------------------------------------------------------------------------

def SessionPersist.fields (sp : SessionPersist) : PersistFields :=
  ⟨sp.playerID, sp.gatewayID, sp.connTags, Int64.ofInt sp.disconnectedAt⟩

theorem decodePersist_json {sp : SessionPersist} (h : Fits sp.disconnectedAt) :
    decodePersist sp.json.value = some (some sp.fields) := by
  obtain ⟨p, gw, tags, time⟩ := sp
  have hplayer : setPersist {} "player_id" (Written.int p.toInt).value = some { playerID := p } :=
    congrArg (Option.map _) (decodeInt64_int64 p 0)
  have hgw : setPersist { playerID := p } "gateway_id" (Written.string gw).value =
      some { playerID := p, gatewayID := gw } := rfl
  have htime : setPersist ⟨p, gw, tags, 0⟩ "disconnected_at" (Written.int time).value =
      some ⟨p, gw, tags, Int64.ofInt time⟩ := congrArg (Option.map _) (decodeInt64_int h 0)
  simp only [SessionPersist.json, Written.object, decodePersist, decodeStruct, List.cons_append,
    List.nil_append, List.map_cons]
  rw [Json.setMembers_cons (by decide) hplayer, Json.setMembers_cons (by decide) hgw,
    Json.setMembers_option ⟨p, gw, tags, 0⟩ (by decide) (by rintro rfl; rfl)
      (by rintro t rfl; exact congrArg (Option.map _) (decodeTags_tagsJson t)),
    List.map_cons, Json.setMembers_cons (by decide) htime]
  rfl

/-- What a snapshot of sessions has: entries under their own player ids, with times
that fit. -/
def SnapshotFile.Fits (state : SnapshotFile) : Prop :=
  ∀ k sp, state.load k = some sp → sp.playerID = k ∧ SessionSvr.Fits sp.disconnectedAt

theorem unmarshalSnapshot_json {state : SnapshotFile} (h : state.Fits) :
    unmarshalSnapshot (snapshotJson state).text = some (state.mapVal fun sp => some sp.fields) := by
  have helem :
      ∀ k sp, state.load k = some sp → decodePersist sp.json.value = some (some sp.fields) :=
    fun k sp hk => decodePersist_json (h k sp hk).2
  have hkey : ∀ k, snapshotKey (Strconv.formatInt k) = some k := Strconv.parseInt?_formatInt
  obtain ⟨members, hvalue, hdecode⟩ := Json.decodeMap_written Strconv.formatInt SessionPersist.json
    (fun sp => some sp.fields) hkey helem
  rw [unmarshalSnapshot, Written.parse, Option.bind_some, snapshotJson, hvalue]
  exact hdecode

theorem loadEntry_mapVal {state : SnapshotFile} (h : state.Fits) (sessions : Sessions) (k : Int64) :
    loadEntry (state.mapVal fun sp => some sp.fields) sessions k =
      some (((loadSnapshot state).load k).elim sessions (sessions.store k)) := by
  simp only [loadEntry, loadSnapshot, SyncMap.load_mapVal]
  cases hk : state.load k with
  | none => rfl
  | some sp =>
    obtain ⟨rfl, hfits⟩ := h k sp hk
    simp only [Option.map_some, Option.elim_some, SessionPersist.fields, PersistFields.session]
    rw [hfits]

theorem foldlM_loadEntry {state : SnapshotFile} (h : state.Fits) (order : List Int64)
    (m : Sessions) :
    order.foldlM (loadEntry (state.mapVal fun sp => some sp.fields)) m =
      some ((order.filterMap fun k => ((loadSnapshot state).load k).map fun s => (k, s)).foldl
        (fun m e => m.store e.1 e.2) m) := by
  induction order generalizing m with
  | nil => rfl
  | cons k order ih =>
    rw [List.foldlM_cons, loadEntry_mapVal h, Option.bind_eq_bind, Option.bind_some,
      ih, List.filterMap_cons]
    cases (loadSnapshot state).load k <;> rfl

theorem loadSnapshotBytes_json {state : SnapshotFile} (h : state.Fits)
    (horder : ∀ k ∈ state.keys, k ∈ order) :
    loadSnapshotBytes order (snapshotJson state).text = .ok (loadSnapshot state) := by
  have hall : (order.filterMap fun k => ((loadSnapshot state).load k).map fun s => (k, s)).foldl
      (fun m e => m.store e.1 e.2) (∅ : Sessions) = loadSnapshot state := by
    refine SyncMap.foldl_store_eq (fun e he => ?_) fun k => ?_
    · obtain ⟨k, -, hk⟩ := List.mem_filterMap.mp he
      obtain ⟨s, hs, rfl⟩ := Option.map_eq_some_iff.mp hk
      exact hs
    · cases hk : (loadSnapshot state).load k with
      | none => exact .inr (SyncMap.load_empty k)
      | some s =>
        have hmem : k ∈ state.keys := by
          rw [loadSnapshot, SyncMap.load_mapVal] at hk
          obtain ⟨sp, hsp, -⟩ := Option.map_eq_some_iff.mp hk
          simp [hsp]
        refine .inl (List.mem_map.mpr ⟨(k, s), List.mem_filterMap.mpr ⟨k, horder k hmem, ?_⟩, rfl⟩)
        rw [hk, Option.map_some]
  rw [loadSnapshotBytes, unmarshalSnapshot_json h]
  dsimp only
  rw [foldlM_loadEntry h, hall]
  rfl

-- ---------------------------------------------------------------------------
-- Journals
-- ---------------------------------------------------------------------------

def JournalLine.Short (l : JournalLine) : Prop := l.json.text.length < maxScanTokenSize

instance (l : JournalLine) : Decidable l.Short := inferInstanceAs (Decidable (_ < _))

def journalText (lines : List JournalLine) : Bytes := written (lines.map fun l => l.json.text)

theorem framed_json (l : JournalLine) : Persist.Journal.Framed l.json.text := by
  have hcontrol : ∀ b < 32, b ∉ l.json.text :=
    fun b hb hmem => UInt8.not_le.mpr hb (l.json.le b hmem)
  refine ⟨hcontrol newline (by decide), ?_, fun hlast => ?_⟩
  · exact List.cons_ne_nil _ _
  · exact hcontrol carriageReturn (by decide) (List.mem_of_getLast? hlast)

theorem takeWhile_texts (lines : List JournalLine) :
    (lines.map fun l => l.json.text).takeWhile (·.length < maxScanTokenSize) =
      (lines.takeWhile (·.Short)).map fun l => l.json.text := by
  rw [List.takeWhile_map]
  rfl

theorem foldl_replayFields {lines : List JournalLine} (h : ∀ l ∈ lines, l.Fits)
    (sessions : Sessions) :
    ((lines.map fun l => l.json.text).filterMap unmarshalEntry).foldl replayFields sessions =
      lines.foldl replaySession sessions := by
  induction lines generalizing sessions with
  | nil => rfl
  | cons l lines ih =>
    obtain ⟨hl, h⟩ := List.forall_mem_cons.mp h
    rw [List.map_cons, List.filterMap_cons_some (unmarshalEntry_json hl), List.foldl_cons,
      List.foldl_cons, replayFields_fields hl, ih h]

theorem replayBytes_journalText {lines : List JournalLine} (h : ∀ l ∈ lines, l.Fits)
    (sessions : Sessions) :
    replayBytes sessions (journalText lines) = (lines.takeWhile (·.Short)).foldl replaySession
      sessions := by
  have hread :
      (replayJournal (fun entry => (unmarshalEntry entry).isSome) (journalText lines)).entries =
      (lines.takeWhile (·.Short)).map fun l => l.json.text := by
    rw [replayJournal, journalText, Persist.Journal.rawLines_written,
      Persist.Journal.replayLines_takeWhile, takeWhile_texts]
    · intro e he
      obtain ⟨l, hl, rfl⟩ := List.mem_map.mp he
      exact ⟨framed_json l, by rw [unmarshalEntry_json (h l hl), Option.isSome_some]⟩
    · intro e he
      obtain ⟨l, -, rfl⟩ := List.mem_map.mp he
      exact (framed_json l).newline
  rw [replayBytes, hread]
  exact foldl_replayFields (fun l hl => h l (List.takeWhile_subset _ hl)) sessions

-- ---------------------------------------------------------------------------
-- The files of a run
-- ---------------------------------------------------------------------------

def ClockFits : Event → Prop
  | .request request => Fits request.now ∧ Fits request.ts
  | .snapshot => True

structure ServerFits (s : Server) : Prop where
  wellFormed : WellFormed s.sessions
  times : ∀ p session, s.sessions.load p = some session → Fits session.disconnectedAt
  snapshot : ∀ state ∈ s.snapshot, SnapshotFile.Fits state
  journal : ∀ l ∈ s.journal, l.Fits

theorem fits_zero : Fits 0 := rfl

theorem times_store {sessions : Sessions}
    (h : ∀ p session, sessions.load p = some session → Fits session.disconnectedAt)
    (hs : Fits s.disconnectedAt) (k : Int64) :
    ∀ p session, (sessions.store k s).load p = some session → Fits session.disconnectedAt := by
  intro p session hp
  rw [SyncMap.load_store] at hp
  split at hp
  · exact Option.some.inj hp ▸ hs
  · exact h p session hp

theorem times_handle {sessions : Sessions}
    (h : ∀ p session, sessions.load p = some session → Fits session.disconnectedAt)
    (hnow : Fits request.now) :
    ∀ p session, (handle sessions request).sessions.load p = some session →
      Fits session.disconnectedAt := by
  obtain ⟨msgID, data, now, ts⟩ := request
  cases data with
  | none => exact h
  | some data =>
    have hserved := served sessions msgID data now ts
    generalize (handle sessions ⟨msgID, some data, now, ts⟩).sessions = sessions' at hserved
    cases hserved with
    | saved _ hs _ => exact hs ▸ times_store h fits_zero data.playerId
    | got _ hs _ => exact hs ▸ h
    | stale _ _ _ hs _ => exact hs ▸ h
    | disconnected _ _ hs _ => exact hs ▸ times_store h hnow data.playerId
    | unknown _ _ hs _ => exact hs ▸ h
    | reconnected _ _ hs _ => exact hs ▸ times_store h fits_zero data.playerId
    | dropped hs _ _ => exact hs ▸ h

theorem journal_handle (hnow : Fits request.now) (sessions : Sessions) :
    ∀ e ∈ (handle sessions request).journal, Fits e.disconnectedAt := by
  unfold handle
  split
  · simp
  · split
    · simpa [handleSave] using fits_zero
    · split
      · simp [handleGet]
      · split
        · simp only [handleDisconnect]
          split
          · simp
          · simpa using hnow
        · split
          · unfold handleReconnect
            split
            · simp
            · simpa using fits_zero
          · simp

theorem serverFits_step (h : ServerFits s) (hc : ClockFits e) : ServerFits (step s e) := by
  cases e with
  | snapshot =>
    refine { h with snapshot := ?_, journal := by simp [step] }
    rintro _ ⟨⟩ k sp hk
    rw [snapshotSessions, SyncMap.load_mapVal] at hk
    obtain ⟨session, hsession, rfl⟩ := Option.map_eq_some_iff.mp hk
    exact ⟨(h.wellFormed k session hsession).1, h.times k session hsession⟩
  | request request =>
    obtain ⟨hnow, hts⟩ := hc
    refine ⟨wellFormed_handle h.wellFormed request, times_handle h.times hnow, h.snapshot,
      fun l hl => ?_⟩
    rcases List.mem_append.mp hl with hl | hl
    · exact h.journal l hl
    · obtain ⟨e, he, rfl⟩ := List.mem_map.mp hl
      refine ⟨?_, hts⟩
      have hback : (journalAppend request.ts e).disconnectedAt.getD 0 = e.disconnectedAt :=
        getD_omitEmpty 0 _
      rw [hback]
      exact journal_handle hnow s.sessions e he

theorem serverFits_run {es : List Event} (h : ∀ e ∈ es, ClockFits e) :
    ServerFits (es.foldl step {}) := by
  refine Run.total_invariant (fun s e hs hc => serverFits_step hs hc) ?_
    (Run.along_of_forall (fun e he _ => h e he) _)
  exact ⟨fun p s hp => by simp at hp, fun p s hp => by simp at hp, by simp, by simp⟩

/-- What `InitStore` makes of the files a run leaves is what the records in them
give, up to the first line that is too long. -/
theorem initStore_files (es : List Event) (h : ∀ e ∈ es, ClockFits e) (order : List Int64)
    (horder : ∀ state ∈ (es.foldl step {}).snapshot, ∀ k ∈ SyncMap.keys state, k ∈ order) :
    let s := es.foldl step {}
    initStore order (s.snapshot.map fun state => (snapshotJson state).text)
      (journalText s.journal) =
      some (recovered { s with journal := s.journal.takeWhile (·.Short) }) := by
  intro s
  have hfits : ServerFits s := serverFits_run h
  have hjournal := replayBytes_journalText hfits.journal
  unfold initStore recovered
  cases hsnap : s.snapshot with
  | none => simp [hjournal]
  | some state =>
    have hload := loadSnapshotBytes_json (hfits.snapshot state hsnap) (horder state hsnap)
    simp [hload, hjournal]

def savedThenLeft : List Event :=
  [.request { msgID := msgIdSessionSave, ts := 1000,
              data := some
                { playerId := 7, gatewayId := "gateway-1", connTags := tag tagMatchID "m" } },
   .snapshot,
   .request { msgID := msgIdSessionDisconnect, now := 100, ts := 100000,
              data := some { playerId := 7, gatewayId := "gateway-1" } }]

theorem savedThenLeft_recovered :
    ∃ state sessions, (savedThenLeft.foldl step {}).snapshot = some state ∧
      initStore [7] (some (snapshotJson state).text)
      (journalText (savedThenLeft.foldl step {}).journal) =
        some sessions ∧
      sessions.load 7 = some ⟨7, "gateway-1", some (tag tagMatchID "m"), 100⟩ := by
  have hclock : ∀ e ∈ savedThenLeft, ClockFits e := by
    simp only [savedThenLeft, List.forall_mem_cons, ClockFits]
    exact ⟨⟨rfl, rfl⟩, trivial, ⟨rfl, rfl⟩, by simp⟩
  refine ⟨_, _, rfl, initStore_files savedThenLeft hclock [7] ?_, ?_⟩
  · rintro _ ⟨⟩
    decide
  · decide +kernel

-- ---------------------------------------------------------------------------
-- A crash in the middle of a line
-- ---------------------------------------------------------------------------

theorem text_eq (l : JournalLine) :
    ∃ text, l.json.text = Json.openBrace :: Json.quotationMark :: 111 :: text := by
  have hquote : Json.quote "op" = [Json.quotationMark, 111, 112, Json.quotationMark] := by
    decide +kernel
  simp only [JournalLine.json, Written.object, List.cons_append, List.map_cons, Json.object,
    Json.member, hquote]
  exact ⟨_, rfl⟩

theorem noEnd_letter : Json.NoEnd 111 := ⟨rfl, by decide, by decide, by decide, by decide⟩

section
variable {l : JournalLine} {n : Nat}

theorem take_ne_nil (hn : 0 < n) : l.json.text.take n ≠ [] := by
  obtain ⟨text, htext⟩ := text_eq l
  rw [htext, Ne, List.take_eq_nil_iff, not_or]
  exact ⟨hn.ne', List.cons_ne_nil _ _⟩

theorem isObject_take (l : JournalLine) (n : Nat) :
    Json.IsObject (l.json.text.take n ++ l.json.text.drop n) := by
  rw [List.take_append_drop]
  exact Json.isObject _

theorem unmarshalEntry_part (hn : 0 < n) (hcut : n < l.json.text.length) :
    unmarshalEntry (l.json.text.take n) = none := by
  have hrest : l.json.text.drop n ≠ [] := by simpa using hcut
  rw [unmarshalEntry, Json.parse_part (isObject_take l n) (take_ne_nil hn) hrest, Option.bind_none]

theorem unmarshalEntry_glued (hn : 0 < n) (next : JournalLine) :
    unmarshalEntry (l.json.text.take n ++ next.json.text) = none := by
  obtain ⟨text, htext⟩ := text_eq next
  have hreads := next.json.reads
  rw [htext] at hreads ⊢
  rw [unmarshalEntry, Json.parse_glued (isObject_take l n) (take_ne_nil hn) hreads noEnd_letter,
    Option.bind_none]

end

theorem newline_texts (lines : List JournalLine) :
    ∀ e ∈ lines.map fun l => l.json.text, newline ∉ e := by
  intro e he
  obtain ⟨l, -, rfl⟩ := List.mem_map.mp he
  exact (framed_json l).newline

theorem rawLines_torn (lines later : List JournalLine) (last : JournalLine) (hn : 0 < n)
    (hcut : n < last.json.text.length ∨ later ≠ []) :
    ∃ line after, rawLines (journalText lines ++ last.json.text.take n ++ journalText later) =
        (lines.map fun l => l.json.text) ++ line :: after ∧
      unmarshalEntry line = none ∧ line ≠ [] ∧ line.getLast? ≠ some carriageReturn := by
  have htorn : newline ∉ last.json.text.take n :=
    fun hmem => (framed_json last).newline (List.mem_of_mem_take hmem)
  cases later with
  | nil =>
    refine ⟨last.json.text.take n, [], ?_, unmarshalEntry_part hn (hcut.resolve_right (by simp)),
      take_ne_nil hn, ?_⟩
    · have hnil : journalText [] = [] := rfl
      rw [hnil, List.append_nil, journalText,
        Persist.Journal.rawLines_torn (newline_texts lines) htorn (take_ne_nil hn)]
    · intro hlast
      have hmem := List.mem_of_mem_take (List.mem_of_getLast? hlast)
      exact absurd (last.json.le _ hmem) (by decide)
  | cons next later =>
    refine ⟨last.json.text.take n ++ next.json.text, later.map fun l => l.json.text, ?_,
      unmarshalEntry_glued hn next, List.append_ne_nil_of_left_ne_nil (take_ne_nil hn) _, ?_⟩
    · have hbytes : journalText lines ++ last.json.text.take n ++ journalText (next :: later) =
          written ((lines.map fun l => l.json.text) ++
            (last.json.text.take n ++ next.json.text) :: later.map fun l => l.json.text) := by
        simp [journalText, written]
      rw [hbytes, Persist.Journal.rawLines_written]
      intro e he
      rcases List.mem_append.mp he with he | he
      · exact newline_texts lines e he
      · rcases List.mem_cons.mp he with rfl | he
        · rw [List.mem_append, not_or]
          exact ⟨htorn, (framed_json next).newline⟩
        · exact newline_texts later e he
    · rw [List.getLast?_append_of_ne_nil _ (framed_json next).nonempty]
      exact (framed_json next).ending

/-- A line is cut inside its record, or only its newline is lost and something is
appended behind it. Whatever is appended, the sessions after the next `InitStore` are
those of the lines before. (A record that lost only its newline, with nothing behind,
is replayed.) -/
theorem initStore_torn (order : List Int64) (snapshot : Option Text)
    (lines later : List JournalLine)
    (last : JournalLine) (n : Nat) (hn : 0 < n) (hcut : n < last.json.text.length ∨ later ≠ []) :
    initStore order snapshot (journalText lines ++ last.json.text.take n ++ journalText later) =
      initStore order snapshot (journalText lines) := by
  obtain ⟨line, after, hraw, hnone, hne, hcr⟩ := rawLines_torn lines later last hn hcut
  have hread :
      ∀ sessions, replayBytes sessions
        (journalText lines ++ last.json.text.take n ++ journalText later) =
      replayBytes sessions (journalText lines) := by
    intro sessions
    rw [replayBytes, replayBytes, replayJournal, replayJournal, hraw, journalText,
      Persist.Journal.rawLines_written (newline_texts lines),
      Persist.Journal.replayLines_append_refused (.inr (by rw [hnone]; rfl)) hne hcr]
  unfold initStore
  simp only [hread]

/-- Ten bytes of a disconnect, and a reconnect behind them. -/
theorem tenBytes_torn :
    initStore [] none
        (journalText
          [journalAppend 1000 { op := .save, playerID := 7, gatewayID := "gateway-1" }] ++
          (journalAppend 2000
            { op := .disconnect, playerID := 7, disconnectedAt := 2 }).json.text.take 10 ++
          journalText [journalAppend 3000
            { op := .reconnect, playerID := 7, gatewayID := "gateway-2" }]) =
      initStore [] none
        (journalText
          [journalAppend 1000 { op := .save, playerID := 7, gatewayID := "gateway-1" }]) :=
  initStore_torn [] none _ _ _ 10 (by decide) (.inr (by simp))

end Cardwar.SessionSvr
