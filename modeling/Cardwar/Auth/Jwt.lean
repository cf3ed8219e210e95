import Cardwar.Gateway.Handshake
import Cardwar.Lib.Float64

/-!
# Tokens

`GenerateJWT` puts the player id into the claims as a float64 and `ValidateJWT`
converts what it finds there back to an int64. The library signs the claims and
returns them as they were signed. So the players of a game are told apart by their
tokens exactly if float64 has their ids (`identified_iff`), and the gateway takes
a client for the player their token was made for under the same condition
(`identity_of_token`).
-/

namespace Cardwar.Auth

open Codec Protocol
open Rounding (Representable)
open Wire (Bytes)

inductive Claim
  | float64 (x : Float64)
  | int64 (n : Int64)
  /-- A string, a bool, null, an array or an object. -/
  | other (json : String)

abbrev MapClaims := SyncMap String Claim

/-- A claim that was written and read as JSON: every number is a float64. -/
def Claim.decoded : Claim → Claim
  | .int64 n => .float64 (.ofInt64 n)
  | claim => claim

inductive SigningMethod
  | hmac (alg : String)
  | other (alg : String)

def signingMethodHS256 : SigningMethod := .hmac "HS256"

structure Token where
  method : SigningMethod
  claims : MapClaims
  valid : Bool

/-- The JWT library. `parse` gets the key for a token it has not verified yet, and
refuses claims that are expired or not valid yet. -/
structure Jwt (Text : Type) where
  signedString : SigningMethod → MapClaims → Bytes → Except String Text
  parse : Text → (Token → Except String Bytes) → Except String Token
  parse_signedString : ∀ claims key keyFunc, claims.load "exp" = none → claims.load "nbf" = none →
    keyFunc ⟨signingMethodHS256, claims.mapVal .decoded, false⟩ = .ok key →
    ∃ text, signedString signingMethodHS256 claims key = .ok text ∧
      parse text keyFunc = .ok ⟨signingMethodHS256, claims.mapVal .decoded, true⟩

-- `outOfRange` is what the platform makes of a number that int64 does not have.
variable {Text : Type} (jwt : Jwt Text) (outOfRange : ℤ → Int64)

def generateJWT (now playerID : Int64) (secret : String) : Except String Text :=
  let claims :=
    (∅ : MapClaims).store "playerId" (.float64 (.ofInt64 playerID)) |>.store "iat" (.int64 now)
  jwt.signedString signingMethodHS256 claims (utf8 secret)

def keyFunc (secret : String) (t : Token) : Except String Bytes :=
  match t.method with
  | .hmac _ => .ok (utf8 secret)
  | .other alg => .error ("unexpected signing method: " ++ alg)

def float64Claim (claims : MapClaims) (name : String) : Option Float64 :=
  match claims.load name with
  | some (.float64 x) => some x
  | _ => none

/-- What `Parse` returns always has MapClaims. -/
def validateJWT (tokenString : Text) (secret : String) : Except String Int64 :=
  match jwt.parse tokenString (keyFunc secret) with
  | .error err => .error ("invalid token: " ++ err)
  | .ok token =>
    if token.valid = false then .error "invalid token claims"
    else match (float64Claim token.claims "playerId").or (float64Claim token.claims "user_id") with
      | none => .error "player_id not found in token"
      | some pid =>
        if pid.val = 0 then .error "player_id not found in token" else .ok (pid.toInt64 outOfRange)

def validated (now playerID : Int64) (secret : String) : Except String Int64 :=
  (generateJWT jwt now playerID secret).bind fun tokenString =>
    validateJWT jwt outOfRange tokenString secret

/-- Tokens of these players are validated to the player, so those of two are not
validated to the same id. -/
structure Identified (players : Set Int64) : Prop where
  returned : ∀ p ∈ players, ∀ now secret, validated jwt outOfRange now p secret = .ok p
  distinct : ∀ p ∈ players, ∀ q ∈ players, p ≠ q → ∀ now secret now' secret',
    validated jwt outOfRange now p secret ≠ validated jwt outOfRange now' q secret'

theorem validateJWT_generated (hp : p ≠ 0) (now : Int64) (secret : String) :
    ∃ text, generateJWT jwt now p secret = .ok text ∧
      validateJWT jwt outOfRange text secret = .ok (Float64.toInt64 outOfRange (.ofInt64 p)) := by
  obtain ⟨text, hsigned, hparsed⟩ := jwt.parse_signedString
    ((∅ : MapClaims).store "playerId" (.float64 (.ofInt64 p)) |>.store "iat" (.int64 now))
      (utf8 secret)
    (keyFunc secret) (by simp) (by simp) rfl
  refine ⟨text, hsigned, ?_⟩
  simp [validateJWT, hparsed, float64Claim, Claim.decoded, Float64.ofInt64_ne_zero hp]

theorem validated_eq (hp : p ≠ 0) (now : Int64) (secret : String) :
    validated jwt outOfRange now p secret = .ok (Float64.toInt64 outOfRange (.ofInt64 p)) := by
  obtain ⟨text, htext, hvalid⟩ := validateJWT_generated jwt outOfRange hp now secret
  rw [validated, htext]
  exact hvalid

/-- A set of players is identified exactly if each id has at most 53 significant
bits, or is rounded up to 2^63 and happens to be what the platform converts that to. -/
theorem identified_iff (players : Set Int64) (hzero : 0 ∉ players) :
    Identified jwt outOfRange players ↔ ∀ p ∈ players,
      Representable 53 p.toInt ∨ 2 ^ 63 - 512 ≤ p.toInt ∧ outOfRange (2 ^ 63) = p := by
  have hne : ∀ p ∈ players, p ≠ 0 := fun p hp => ne_of_mem_of_not_mem hp hzero
  constructor
  · intro h p hp
    have hreturned := h.returned p hp 0 ""
    rw [validated_eq jwt outOfRange (hne p hp)] at hreturned
    exact (Float64.toInt64_ofInt64 outOfRange p).mp (Except.ok.inj hreturned)
  · intro h
    have hreturned : ∀ p ∈ players, ∀ now secret, validated jwt outOfRange now p secret =
        .ok p := by
      intro p hp now secret
      rw [validated_eq jwt outOfRange (hne p hp),
        (Float64.toInt64_ofInt64 outOfRange p).mpr (h p hp)]
    refine ⟨hreturned, fun p hp q hq hpq now secret now' secret' heq => hpq ?_⟩
    rw [hreturned p hp, hreturned q hq] at heq
    exact Except.ok.inj heq

structure Signed where
  method : SigningMethod
  claims : MapClaims
  key : Bytes

def Signed.parse (signed : Signed) (keyFunc : Token → Except String Bytes) : Except String Token :=
  match keyFunc ⟨signed.method, signed.claims.mapVal .decoded, false⟩ with
  | .error err => .error err
  | .ok key =>
    if key = signed.key then .ok ⟨signed.method, signed.claims.mapVal .decoded, true⟩
    else .error "signature is invalid"

theorem Signed.parse_signed {keyFunc : Token → Except String Bytes} (signed : Signed)
    (h : keyFunc ⟨signed.method, signed.claims.mapVal .decoded, false⟩ = .ok signed.key) :
    signed.parse keyFunc = .ok ⟨signed.method, signed.claims.mapVal .decoded, true⟩ := by
  simp [Signed.parse, h]

def plain : Jwt Signed where
  signedString method claims key := .ok ⟨method, claims, key⟩
  parse := Signed.parse
  parse_signedString claims key _ _ _ h :=
    ⟨_, rfl, Signed.parse_signed ⟨signingMethodHS256, claims, key⟩ h⟩

def amd64 (_ : ℤ) : Int64 := Int64.minValue

theorem upTo53_identified : Identified plain amd64 {p | p ≠ 0 ∧ p.toInt.natAbs ≤ 2 ^ 53} := by
  refine (identified_iff plain amd64 _ fun h => h.1 rfl).mpr fun p hp => ?_
  exact .inl (Rounding.representable_of_le (by decide) hp.2)

/-- The token of player 2^53 + 1 is validated to player 2^53, and that of the last
player to the first. -/
theorem next_player_confused :
    validated plain amd64 0 9007199254740993 "secret" = .ok 9007199254740992 ∧
      validated plain amd64 0 9007199254740992 "secret" = .ok 9007199254740992 ∧
      validated plain amd64 0 Int64.maxValue "secret" = .ok Int64.minValue ∧
      ¬ Identified plain amd64 {p | p ≠ 0} := by
  have hnext : validated plain amd64 0 9007199254740993 "secret" = .ok 9007199254740992 := by
    rw [validated_eq plain amd64 (by decide)]
    exact congrArg _ (by decide +kernel)
  refine ⟨hnext, ?_, ?_, fun h => ?_⟩
  · rw [validated_eq plain amd64 (by decide)]
    exact congrArg _ (by decide +kernel)
  · rw [validated_eq plain amd64 (by decide)]
    exact congrArg _ (by decide +kernel)
  · have hreturned := h.returned 9007199254740993 (by decide) 0 "secret"
    exact absurd (Except.ok.inj (hnext.symm.trans hreturned)) (by decide)

open Gateway.Handshake
open Run (run)

/-- The callback of `SetWebsocketAuth` for a request, which may have no token. -/
def websocketAuth (jwtSecret addr : String) (token : Option Text) : Event :=
  .websocketAuth addr (token.bind fun text => (validateJWT jwt outOfRange text jwtSecret).toOption)

/-- In every state, a connection that is opened with a player's token has the
player's identity exactly if the id comes through. -/
theorem identity_of_token {s : State} (hfree : Free s c) (hp : p ≠ 0) (now : Int64)
    (jwtSecret addr : String) :
    ∃ text s', generateJWT jwt now p jwtSecret = .ok text ∧
      run step s [websocketAuth jwt outOfRange jwtSecret addr (some text),
        .wsStart s.requests.length c] = some s' ∧
      (identity s' c = some (.int64 p) ↔
        Representable 53 p.toInt ∨ 2 ^ 63 - 512 ≤ p.toInt ∧ outOfRange (2 ^ 63) = p) := by
  obtain ⟨text, htext, hvalid⟩ := validateJWT_generated jwt outOfRange hp now jwtSecret
  have hauth : websocketAuth jwt outOfRange jwtSecret addr (some text) =
      .websocketAuth addr (some (Float64.toInt64 outOfRange (.ofInt64 p))) := by
    rw [websocketAuth, Option.bind_some, hvalid]
    rfl
  obtain ⟨s', hrun, hid⟩ := opened_identity hfree addr (Float64.toInt64 outOfRange (.ofInt64 p))
  refine ⟨text, s', htext, hauth ▸ hrun, ?_⟩
  rw [hid, ← Float64.toInt64_ofInt64, Option.some_inj, Gateway.Reconnect.Property.int64.injEq]

end Cardwar.Auth
