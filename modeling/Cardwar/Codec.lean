import Cardwar.Lib.Strconv
import Cardwar.Lib.Wire
import Cardwar.Protocol

/-!
# Messages as bytes

The protobuf messages that handlers decode. `proto.Unmarshal` starts from the
empty message; when it fails, the fields read before the error stay in it, so a
decoder returns the message also with an error. Strings have to be UTF-8.

RoomSvr decodes every message as an `Envelope` first, also the `SessionData` of
the session messages: those bytes do decode as one (`decodeEnvelope_session`).
The round trips of the two messages would not say so, hence the bytes are those
of the proto3 encoding and not left open.
-/

namespace Cardwar.Codec

open Wire Protocol

structure Envelope where
  connId : UInt64 := 0
  data : Bytes := []
  connTags : Tags := ∅
  deriving DecidableEq

def utf8 (s : String) : Bytes := s.toUTF8.data.toList

def text (bs : Bytes) : Option String := String.fromUTF8? ⟨bs.toArray⟩

@[simp] theorem text_utf8 (s : String) : text (utf8 s) = some s := by
  have hbytes : (⟨(utf8 s).toArray⟩ : ByteArray) = s.toByteArray := by simp [utf8]
  rw [text, hbytes, String.fromUTF8?, dif_pos s.isValidUTF8]
  rfl

-- ---------------------------------------------------------------------------
-- Decoders
-- ---------------------------------------------------------------------------

def setEntry (entry : String × String) : Nat → Value → Option (String × String)
  | 1, .len bs => (text bs).map fun key => (key, entry.2)
  | 2, .len bs => (text bs).map fun value => (entry.1, value)
  | _, _ => some entry

def setTag (tags : Tags) (bs : Bytes) : Option Tags :=
  match decode setEntry ("", "") bs with
  | .ok (key, value) => some (tags.store key value)
  | .error _ => none

def setEnvelope (env : Envelope) : Nat → Value → Option Envelope
  | 1, .varint n => some { env with connId := n }
  | 2, .len bs => some { env with data := bs }
  | 3, .len bs => (setTag env.connTags bs).map fun connTags => { env with connTags }
  | _, _ => some env

def setSessionData (data : SessionData) : Nat → Value → Option SessionData
  | 1, .varint n => some { data with playerId := n.toInt64 }
  | 2, .len bs => (text bs).map fun gatewayId => { data with gatewayId }
  | 3, .len bs => (setTag data.connTags bs).map fun connTags => { data with connTags }
  | 4, .varint n => some { data with disconnectedAt := n.toInt64.toInt }
  | _, _ => some data

/-- RoomJoinReq, RoomLeaveReq, MatchAllocateReq, MatchQueryReq and
RoomDestroyedPush have one field, `match_id`. -/
def setMatchId (matchId : String) : Nat → Value → Option String
  | 1, .len bs => text bs
  | _, _ => some matchId

structure MatchEnterReq where
  matchType : String := ""
  elo : Int64 := 0
  deriving DecidableEq

def setMatchEnterReq (req : MatchEnterReq) : Nat → Value → Option MatchEnterReq
  | 1, .len bs => (text bs).map fun matchType => { req with matchType }
  | 2, .varint n => some { req with elo := n.toInt64 }
  | _, _ => some req

structure ChatReq where
  content : String := ""
  targetPlayerId : Int64 := 0
  deriving DecidableEq

def setChatReq (req : ChatReq) : Nat → Value → Option ChatReq
  | 1, .len bs => (text bs).map fun content => { req with content }
  | 2, .varint n => some { req with targetPlayerId := n.toInt64 }
  | _, _ => some req

structure ChatResp where
  senderPlayerId : Int64 := 0
  content : String := ""
  timestamp : Int64 := 0
  targetPlayerId : Int64 := 0
  deriving DecidableEq

def setChatResp (resp : ChatResp) : Nat → Value → Option ChatResp
  | 1, .varint n => some { resp with senderPlayerId := n.toInt64 }
  | 2, .len bs => (text bs).map fun content => { resp with content }
  | 3, .varint n => some { resp with timestamp := n.toInt64 }
  | 4, .varint n => some { resp with targetPlayerId := n.toInt64 }
  | _, _ => some resp

def decodeEnvelope (bs : Bytes) : Except Envelope Envelope := decode setEnvelope {} bs

def decodeSessionData (bs : Bytes) : Except SessionData SessionData :=
  decode setSessionData { playerId := 0 } bs

def decodeMatchId (bs : Bytes) : Except String String := decode setMatchId "" bs

def decodeMatchEnterReq (bs : Bytes) : Except MatchEnterReq MatchEnterReq :=
  decode setMatchEnterReq {} bs

def decodeChatReq (bs : Bytes) : Except ChatReq ChatReq := decode setChatReq {} bs

def decodeChatResp (bs : Bytes) : Except ChatResp ChatResp := decode setChatResp {} bs

-- ---------------------------------------------------------------------------
-- SessionData on the wire
-- ---------------------------------------------------------------------------

def entryFields (entry : String × String) : List Field :=
  [(1, .len (utf8 entry.1)), (2, .len (utf8 entry.2))]

/-- The fields of the message, its map in the given order. Zero values are not sent. -/
def sessionFields (data : SessionData) (order : List (String × String)) : List Field :=
  (if data.playerId = 0 then [] else [(1, .varint data.playerId.toUInt64)]) ++
  (if data.gatewayId = "" then [] else [(2, .len (utf8 data.gatewayId))]) ++
  order.map (fun entry => (3, .len (fields (entryFields entry)))) ++
  (if Int64.ofInt data.disconnectedAt = 0 then []
    else [(4, .varint (Int64.ofInt data.disconnectedAt).toUInt64)])

def Lists (order : List (String × String)) (tags : Tags) : Prop :=
  (order.map Prod.fst).Nodup ∧ order.foldl (fun tags entry => tags.store entry.1 entry.2) ∅ = tags

/-- Bytes `proto.Marshal` can give for the message: it visits the map in any
order. -/
def Marshals (data : SessionData) (bs : Bytes) : Prop :=
  ∃ order, Lists order data.connTags ∧ bs = fields (sessionFields data order) ∧ bs.length < 2 ^ 63

theorem setTag_entry (tags : Tags) (hlen : (fields (entryFields entry)).length < 2 ^ 64) :
    setTag tags (fields (entryFields entry)) = some (tags.store entry.1 entry.2) := by
  have hw : ∀ f ∈ entryFields entry, Writable f := by
    refine writable_of_length ?_ hlen
    simp [entryFields, maxFieldNumber]
  rw [setTag, decode_fields setEntry hw]
  simp [entryFields, setAll, setEntry]

theorem setAll_unless {set : M → Nat → Value → Option M} [Decidable zero] (hz : zero → m = m')
    (hs : set m num v = some m') : setAll set m (if zero then [] else [(num, v)]) = .ok m' := by
  split
  next h => rw [hz h, setAll]
  next => simp [setAll, hs]

theorem setAll_tags (set : M → Nat → Value → Option M) (put : Tags → M)
    (hset : ∀ tags bs, set (put tags) 3 (.len bs) = (setTag tags bs).map put)
    {order : List (String × String)}
    (hlen : ∀ entry ∈ order, (fields (entryFields entry)).length < 2 ^ 64) (tags : Tags) :
    setAll set (put tags) (order.map fun entry => (3, .len (fields (entryFields entry)))) =
      .ok (put (order.foldl (fun tags entry => tags.store entry.1 entry.2) tags)) := by
  induction order generalizing tags with
  | nil => rfl
  | cons entry order ih =>
    simp only [List.map_cons, setAll, hset, setTag_entry tags (hlen entry List.mem_cons_self),
      Option.map_some, List.foldl_cons]
    exact ih (fun e he => hlen e (List.mem_cons_of_mem _ he)) _

theorem sessionFields_writable (hlen : (fields (sessionFields data order)).length < 2 ^ 63) :
    (∀ f ∈ sessionFields data order, Writable f) ∧
      ∀ entry ∈ order, (fields (entryFields entry)).length < 2 ^ 64 := by
  refine ⟨writable_of_length ?_ (by omega), fun entry he => ?_⟩
  · rintro ⟨num, v⟩ hf
    have hnum : num = 1 ∨ num = 2 ∨ num = 3 ∨ num = 4 := by
      simp only [sessionFields, List.mem_append, List.mem_map] at hf
      grind
    have hmax : maxFieldNumber = 536870911 := rfl
    dsimp only
    omega
  · have hmem : (3, .len (fields (entryFields entry))) ∈ sessionFields data order := by
      simp only [sessionFields, List.mem_append, List.mem_map]
      exact .inl (.inr ⟨entry, he, rfl⟩)
    have hle := length_le_of_mem hmem
    omega

theorem decodeSessionData_marshal (h : Marshals data bs) :
    decodeSessionData bs =
      .ok { data with disconnectedAt := (Int64.ofInt data.disconnectedAt).toInt } := by
  obtain ⟨order, ⟨-, horder⟩, rfl, hlen⟩ := h
  obtain ⟨hw, hentries⟩ := sessionFields_writable hlen
  have hplayer : setAll setSessionData { playerId := 0 }
      (if data.playerId = 0 then [] else [(1, .varint data.playerId.toUInt64)]) =
        .ok { playerId := data.playerId } :=
    setAll_unless (fun hz => by rw [hz]) (by simp [setSessionData])
  have hgateway : setAll setSessionData { playerId := data.playerId }
      (if data.gatewayId = "" then [] else [(2, .len (utf8 data.gatewayId))]) =
        .ok { playerId := data.playerId, gatewayId := data.gatewayId } :=
    setAll_unless (fun hz => by rw [hz]) (by simp [setSessionData])
  have htags := setAll_tags setSessionData
    (fun connTags => { playerId := data.playerId, gatewayId := data.gatewayId, connTags })
    (fun _ _ => rfl) hentries ∅
  rw [decodeSessionData, decode_fields setSessionData hw, sessionFields, List.append_assoc,
    List.append_assoc, setAll_append _ hplayer, setAll_append _ hgateway,
    setAll_append _ htags, horder]
  exact setAll_unless (fun hz => by rw [hz]; rfl) (by simp [setSessionData])

/-- The player id is read as the connection id, the gateway id as the data. -/
theorem decodeEnvelope_session (h : Marshals data bs) :
    decodeEnvelope bs = .ok ⟨data.playerId.toUInt64, utf8 data.gatewayId, data.connTags⟩ := by
  obtain ⟨order, ⟨-, horder⟩, rfl, hlen⟩ := h
  obtain ⟨hw, hentries⟩ := sessionFields_writable hlen
  have hconn : setAll setEnvelope {}
      (if data.playerId = 0 then [] else [(1, .varint data.playerId.toUInt64)]) =
        .ok { connId := data.playerId.toUInt64 } :=
    setAll_unless (fun hz => by rw [hz]; rfl) rfl
  have hdata : setAll setEnvelope { connId := data.playerId.toUInt64 }
      (if data.gatewayId = "" then [] else [(2, .len (utf8 data.gatewayId))]) =
        .ok { connId := data.playerId.toUInt64, data := utf8 data.gatewayId } :=
    setAll_unless (fun hz => by rw [hz]; rfl) rfl
  have htags := setAll_tags setEnvelope
    (fun connTags => ⟨data.playerId.toUInt64, utf8 data.gatewayId, connTags⟩)
    (fun _ _ => rfl) hentries ∅
  rw [decodeEnvelope, decode_fields setEnvelope hw, sessionFields, List.append_assoc,
    List.append_assoc, setAll_append _ hconn, setAll_append _ hdata, setAll_append _ htags, horder]
  -- An envelope has no field 4.
  exact setAll_unless (fun _ => rfl) rfl

-- ---------------------------------------------------------------------------
-- Envelopes and chat messages on the wire
-- ---------------------------------------------------------------------------

def envelopeFields (connId : UInt64) (data : Bytes) (order : List (String × String)) : List Field :=
  (if connId = 0 then [] else [(1, .varint connId)]) ++
  (if data = [] then [] else [(2, .len data)]) ++
  order.map (fun entry => (3, .len (fields (entryFields entry))))

/-- `proto.Marshal` of an Envelope, its map in the given order. -/
def marshalEnvelope (connId : UInt64) (data : Bytes) (order : List (String × String)) : Bytes :=
  fields (envelopeFields connId data order)

def marshalChatResp (resp : ChatResp) : Bytes :=
  fields ((if resp.senderPlayerId = 0 then [] else [(1, .varint resp.senderPlayerId.toUInt64)]) ++
    (if resp.content = "" then [] else [(2, .len (utf8 resp.content))]) ++
    (if resp.timestamp = 0 then [] else [(3, .varint resp.timestamp.toUInt64)]) ++
    (if resp.targetPlayerId = 0 then [] else [(4, .varint resp.targetPlayerId.toUInt64)]))

theorem fieldNumber_ok (hnum : num ∈ [1, 2, 3, 4]) : 0 < num ∧ num ≤ maxFieldNumber := by
  simp only [List.mem_cons, List.not_mem_nil, or_false] at hnum
  rw [show maxFieldNumber = 536870911 from rfl]
  omega

theorem writable_varint (hnum : num ∈ [1, 2, 3, 4]) (n : UInt64) : Writable (num, .varint n) :=
  fieldNumber_ok hnum

theorem writable_len (hnum : num ∈ [1, 2, 3, 4]) (hlen : bs.length < 2 ^ 64) :
    Writable (num, .len bs) :=
  ⟨(fieldNumber_ok hnum).1, (fieldNumber_ok hnum).2, hlen⟩

theorem writable_unless [Decidable zero] (hw : Writable g) :
    ∀ f ∈ (if zero then [] else [g] : List Field), Writable f := by
  intro f hf
  split at hf
  · cases hf
  · exact List.mem_singleton.mp hf ▸ hw

theorem decodeEnvelope_marshal (hdata : data.length < 2 ^ 64)
    (hentries : ∀ entry ∈ order, (fields (entryFields entry)).length < 2 ^ 64) :
    decodeEnvelope (marshalEnvelope connId data order) =
      .ok ⟨connId, data, order.foldl (fun tags entry => tags.store entry.1 entry.2) ∅⟩ := by
  have hw : ∀ f ∈ envelopeFields connId data order, Writable f := by
    intro f hf
    simp only [envelopeFields, List.mem_append, List.mem_map] at hf
    rcases hf with (hf | hf) | ⟨entry, he, rfl⟩
    · exact writable_unless (writable_varint (by simp) _) f hf
    · exact writable_unless (writable_len (by simp) hdata) f hf
    · exact writable_len (by simp) (hentries entry he)
  have hconn : setAll setEnvelope {} (if connId = 0 then [] else [(1, .varint connId)]) =
      .ok { connId } :=
    setAll_unless (fun hz => by rw [hz]) rfl
  have hbytes : setAll setEnvelope { connId } (if data = [] then [] else [(2, .len data)]) =
      .ok { connId, data } :=
    setAll_unless (fun hz => by rw [hz]) rfl
  have htags := setAll_tags setEnvelope (fun connTags => ⟨connId, data, connTags⟩) (fun _ _ => rfl)
    hentries ∅
  rw [decodeEnvelope, marshalEnvelope, decode_fields setEnvelope hw, envelopeFields,
    List.append_assoc, setAll_append _ hconn, setAll_append _ hbytes, htags]

theorem decodeChatResp_marshal (hlen : (utf8 resp.content).length < 2 ^ 64) :
    decodeChatResp (marshalChatResp resp) = .ok resp := by
  have hsender : setAll setChatResp {}
      (if resp.senderPlayerId = 0 then [] else [(1, .varint resp.senderPlayerId.toUInt64)]) =
        .ok { senderPlayerId := resp.senderPlayerId } :=
    setAll_unless (fun hz => by rw [hz]) (by simp [setChatResp])
  have hcontent : setAll setChatResp { senderPlayerId := resp.senderPlayerId }
      (if resp.content = "" then [] else [(2, .len (utf8 resp.content))]) =
        .ok { senderPlayerId := resp.senderPlayerId, content := resp.content } :=
    setAll_unless (fun hz => by rw [hz]) (by simp [setChatResp])
  have htime : setAll setChatResp { senderPlayerId := resp.senderPlayerId, content := resp.content }
      (if resp.timestamp = 0 then [] else [(3, .varint resp.timestamp.toUInt64)]) =
        .ok { resp with targetPlayerId := 0 } :=
    setAll_unless (fun hz => by rw [hz]) (by simp [setChatResp])
  rw [decodeChatResp, marshalChatResp, decode_fields, List.append_assoc, List.append_assoc,
    setAll_append _ hsender, setAll_append _ hcontent, setAll_append _ htime]
  · exact setAll_unless (fun hz => by rw [← hz]) (by simp [setChatResp])
  · intro f hf
    simp only [List.mem_append] at hf
    rcases hf with ((hf | hf) | hf) | hf
    · exact writable_unless (writable_varint (by simp) _) f hf
    · exact writable_unless (writable_len (by simp) hlen) f hf
    · exact writable_unless (writable_varint (by simp) _) f hf
    · exact writable_unless (writable_varint (by simp) _) f hf

theorem length_utf8_le (s : String) : (utf8 s).length ≤ 4 * s.toList.length := by
  have hbytes : (utf8 s).length = s.toList.utf8Encode.size := by
    rw [String.utf8Encode_toList]
    rfl
  rw [hbytes]
  induction s.toList with
  | nil => rfl
  | cons c cs ih =>
    have hc := c.utf8Size_le_four
    rw [List.utf8Encode_cons, ByteArray.size_append, List.length_cons, List.utf8Encode_singleton,
      List.size_toByteArray, String.length_utf8EncodeChar]
    omega

theorem sum_unless_le (zero : Prop) [Decidable zero] (f : Field) :
    (((if zero then [] else [f]) : List Field).map fun f => 20 + f.2.length).sum ≤
      20 + f.2.length := by
  split <;> simp

theorem length_marshalChatResp (resp : ChatResp) :
    (marshalChatResp resp).length ≤ 80 + (utf8 resp.content).length := by
  refine Nat.le_trans (length_fields_le _) ?_
  simp only [List.map_append, List.sum_append]
  have hsender := sum_unless_le (resp.senderPlayerId = 0) (1, .varint resp.senderPlayerId.toUInt64)
  have hcontent := sum_unless_le (resp.content = "") (2, .len (utf8 resp.content))
  have htime := sum_unless_le (resp.timestamp = 0) (3, .varint resp.timestamp.toUInt64)
  have htarget := sum_unless_le (resp.targetPlayerId = 0) (4, .varint resp.targetPlayerId.toUInt64)
  simp only [Value.length] at hsender hcontent htime htarget ⊢
  omega

theorem utf8_text (h : text bs = some s) : utf8 s = bs := by
  unfold text String.fromUTF8? at h
  split at h <;> cases h
  simp [utf8, String.fromUTF8]

theorem length_decodeChatReq (h : decodeChatReq bs = .ok req) :
    (utf8 req.content).length ≤ bs.length := by
  refine decode_keeps setChatReq (P := fun req => (utf8 req.content).length ≤ bs.length) ?_
    (by simp [utf8]) h
  intro m num v m' hm hv hset
  unfold setChatReq at hset
  split at hset
  next w =>
    obtain ⟨content, hc, rfl⟩ := Option.map_eq_some_iff.mp hset
    rw [utf8_text hc]
    exact hv
  next => exact Option.some.inj hset ▸ hm
  next => exact Option.some.inj hset ▸ hm

theorem length_entry_formatInt (key : String) (n : Int64) :
    (fields (entryFields (key, Strconv.formatInt n))).length ≤ 120 + (utf8 key).length := by
  have hvalue := length_utf8_le (Strconv.formatInt n)
  have hdigits := Strconv.length_formatInt_le n
  refine Nat.le_trans (length_fields_le _) ?_
  simp only [entryFields, List.map_cons, List.map_nil, List.sum_cons, List.sum_nil, Value.length]
  omega

theorem decodeEnvelope_tag (connId : UInt64) (hdata : data.length < 2 ^ 64)
    (hkey : (utf8 key).length < 100)
    (n : Int64) : decodeEnvelope (marshalEnvelope connId data [(key, Strconv.formatInt n)]) =
      .ok ⟨connId, data, Protocol.tag key (Strconv.formatInt n)⟩ := by
  rw [decodeEnvelope_marshal hdata]
  · rfl
  · intro entry he
    obtain rfl := List.mem_singleton.mp he
    have hlen := length_entry_formatInt key n
    omega

-- ---------------------------------------------------------------------------
-- Messages with a match id
-- ---------------------------------------------------------------------------

def namedMatch (bs : Bytes) : Option String :=
  match decodeEnvelope bs with
  | .error _ => none
  | .ok env => match decodeMatchId env.data with
    | .error _ => none
    | .ok matchId => some matchId

theorem namedMatch_eq (henv : decodeEnvelope bs = .ok env) (hm : decodeMatchId env.data = .ok m) :
    namedMatch bs = some m := by
  simp only [namedMatch, henv, hm]

def marshalMatchId (matchId : String) : Bytes :=
  fields (if matchId = "" then [] else [(1, .len (utf8 matchId))])

theorem decodeMatchId_marshal (hlen : (utf8 matchId).length < 2 ^ 64) :
    decodeMatchId (marshalMatchId matchId) = .ok matchId := by
  rw [decodeMatchId, marshalMatchId,
    decode_fields setMatchId (writable_unless (writable_len (by simp) hlen))]
  exact setAll_unless (fun hz => hz.symm) (by simp [setMatchId])

theorem length_marshalMatchId (matchId : String) :
    (marshalMatchId matchId).length ≤ 20 + (utf8 matchId).length :=
  Nat.le_trans (length_fields_le _) (sum_unless_le (matchId = "") (1, .len (utf8 matchId)))

theorem length_decodeMatchId (h : decodeMatchId bs = .ok matchId) :
    (utf8 matchId).length ≤ bs.length := by
  refine decode_keeps setMatchId (P := fun matchId => (utf8 matchId).length ≤ bs.length) ?_
    (by simp [utf8]) h
  intro m num v m' hm hv hset
  unfold setMatchId at hset
  split at hset
  next w =>
    rw [utf8_text hset]
    exact hv
  next => exact Option.some.inj hset ▸ hm

theorem length_decodeEnvelope (h : decodeEnvelope bs = .ok env) : env.data.length ≤ bs.length := by
  refine decode_keeps setEnvelope (P := fun env => env.data.length ≤ bs.length) ?_ (Nat.zero_le _) h
  intro m num v m' hm hv hset
  unfold setEnvelope at hset
  split at hset
  next => exact Option.some.inj hset ▸ hm
  next => exact Option.some.inj hset ▸ hv
  next =>
    obtain ⟨connTags, -, rfl⟩ := Option.map_eq_some_iff.mp hset
    exact hm
  next => exact Option.some.inj hset ▸ hm

theorem length_namedMatch (h : namedMatch bs = some m) : (utf8 m).length ≤ bs.length := by
  unfold namedMatch at h
  split at h
  next => cases h
  next env henv =>
    split at h <;> cases h
    next hm => exact Nat.le_trans (length_decodeMatchId hm) (length_decodeEnvelope henv)

theorem length_marshalEnvelope (connId : UInt64) (data : Bytes) (order : List (String × String)) :
    (marshalEnvelope connId data order).length ≤
      40 + data.length + (order.map fun entry => 20 + (fields (entryFields entry)).length).sum := by
  refine Nat.le_trans (length_fields_le _) ?_
  have hconn := sum_unless_le (connId = 0) (1, .varint connId)
  have hdata := sum_unless_le (data = []) (2, .len data)
  have htags (bs : Bytes) : Value.length (.len bs) = bs.length := rfl
  have hid : Value.length (.varint connId) = 0 := rfl
  simp only [htags, hid] at hconn hdata
  simp only [envelopeFields, List.map_append, List.sum_append, List.map_map,
    Function.comp_def, htags]
  omega

end Cardwar.Codec
