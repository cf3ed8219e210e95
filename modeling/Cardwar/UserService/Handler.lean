import Cardwar.Lib.Run
import Cardwar.Lib.Strconv
import Cardwar.Lib.SyncMap

/-!
# The user service

An in-memory store of users behind gRPC. ListUsers writes the next offset into
the page token as a decimal number, and takes the length of a token for the
offset. Following the tokens therefore lists every user once only if there is
one page, or two pages of one user (`enumerates_iff`).
-/

namespace Cardwar.UserService

open Strconv

structure User where
  id : String
  username : String
  email : String
  createdAt : Int64
  updatedAt : Int64
  deriving DecidableEq

structure UserServiceServer where
  users : SyncMap String User := ∅
  nextID : Int64 := 0

inductive Status
  | invalidArgument (message : String)
  | notFound (message : String)
  deriving DecidableEq

def createUser (s : UserServiceServer) (username email : String) (now : Int64) :
    UserServiceServer × Except Status User :=
  if username = "" then (s, .error (.invalidArgument "username is required"))
  else if email = "" then (s, .error (.invalidArgument "email is required"))
  else
    let nextID := s.nextID + 1
    let u : User := ⟨formatInt nextID, username, email, now, now⟩
    ({ users := s.users.store u.id u, nextID }, .ok u)

def notFound (id : String) : Status := .notFound ("user " ++ id ++ " not found")

def getUser (s : UserServiceServer) (id : String) : Except Status User :=
  match s.users.load id with
  | none => .error (notFound id)
  | some u => .ok u

def updateUser (s : UserServiceServer) (id username email : String) (now : Int64) :
    UserServiceServer × Except Status User :=
  match s.users.load id with
  | none => (s, .error (notFound id))
  | some u =>
    let u := { u with
      username := if username = "" then u.username else username
      email := if email = "" then u.email else email
      updatedAt := now }
    ({ s with users := s.users.store id u }, .ok u)

def deleteUser (s : UserServiceServer) (id : String) : UserServiceServer :=
  { s with users := s.users.delete id }

structure ListUsersResponse where
  users : List (Option User)
  nextPageToken : String
  deriving DecidableEq

def pageSize (n : Int32) : Nat := if n ≤ 0 ∨ 100 < n then 10 else n.toInt.toNat

def startOf (pageToken : String) : Nat := if pageToken ≠ "" then pageToken.utf8ByteSize else 0

/-- `keys` are the keys of the map in the order of its iteration. -/
def listUsers (s : UserServiceServer) (keys : List String) (n : Int32) (pageToken : String) :
    ListUsersResponse :=
  let start := startOf pageToken
  let users := ((keys.drop start).take (pageSize n)).map s.users.load
  ⟨users, if start + users.length < keys.length then toString (start + users.length) else ""⟩

inductive Request
  | create (username email : String) (now : Int64)
  | update (id username email : String) (now : Int64)
  | delete (id : String)

def handle (s : UserServiceServer) : Request → UserServiceServer
  | .create username email now => (createUser s username email now).1
  | .update id username email now => (updateUser s id username email now).1
  | .delete id => deleteUser s id

def Keyed (s : UserServiceServer) : Prop := ∀ k u, s.users.load k = some u → u.id = k

theorem keyed_store (h : Keyed s) (hid : u.id = k) (n : Int64) : Keyed ⟨s.users.store k u, n⟩ := by
  intro j v hj
  rw [SyncMap.load_store] at hj
  split at hj
  next heq =>
    obtain rfl := Option.some.inj hj
    exact hid.trans heq.symm
  next => exact h j v hj

theorem keyed_handle (s : UserServiceServer) (request : Request) (h : Keyed s) :
    Keyed (handle s request) := by
  cases request with
  | create username email now =>
    simp only [handle, createUser]
    split
    · exact h
    · split
      · exact h
      · exact keyed_store (u := ⟨formatInt (s.nextID + 1), username, email, now, now⟩) h rfl _
  | update id username email now =>
    simp only [handle, updateUser]
    split
    next => exact h
    next u hu =>
      refine keyed_store h ?_ _
      exact h id u hu
  | delete id =>
    intro k u hu
    exact h k u (SyncMap.of_load_delete hu).2

/-- In every run GetUser returns the user of the id it is asked for. -/
theorem id_of_getUser (requests : List Request) (h : getUser (requests.foldl handle {}) k = .ok u) :
    u.id = k := by
  have hempty : Keyed {} := by
    intro k u hu
    cases hu
  have hkeyed : Keyed (requests.foldl handle {}) :=
    List.foldlRecOn requests handle (motive := Keyed) hempty fun s hs request _ =>
      keyed_handle s request hs
  unfold getUser at h
  split at h
  next => cases h
  next v hv =>
    obtain rfl := Except.ok.inj h
    exact hkeyed k v hv

/-- What the calls return together, from this token to the empty one; `none` if
that takes more calls. -/
def follow (s : UserServiceServer) (keys : List String) (n : Int32) :
    Nat → String → Option (List (Option User))
  | 0, _ => none
  | calls + 1, pageToken =>
    let response := listUsers s keys n pageToken
    if response.nextPageToken = "" then some response.users
    else (follow s keys n calls response.nextPageToken).map (response.users ++ ·)

def Ranges (keys : List String) (s : UserServiceServer) : Prop :=
  (keys : Multiset String) = s.users.keys.val

instance : Decidable (Ranges keys s) :=
  inferInstanceAs (Decidable ((keys : Multiset String) = s.users.keys.val))

/-- The tokens come to an end, and the pages hold every user once. -/
def Enumerates (s : UserServiceServer) (keys : List String) (n : Int32) : Prop :=
  ∃ calls listed, follow s keys n calls "" = some listed ∧
    (listed : Multiset (Option User)) = s.users.keys.val.map s.users.load

theorem pageSize_pos (n : Int32) : 0 < pageSize n := by
  unfold pageSize
  split
  · decide
  next h =>
    have hpos : ¬ n.toInt ≤ 0 := fun hle => h (.inl (Int32.le_iff_toInt_le.mpr hle))
    omega

theorem toString_ne_empty (m : Nat) : toString m ≠ "" := by
  intro h
  exact absurd (h ▸ utf8ByteSize_toString_pos m) (by decide)

theorem startOf_toString (m : Nat) : startOf (toString m) = (toString m).utf8ByteSize :=
  if_pos (toString_ne_empty m)

theorem startOf_toString_le (h : 0 < m) : startOf (toString m) ≤ m := by
  rw [startOf_toString]
  by_cases hm : m = 1
  · subst hm
    decide
  · exact Nat.le_of_lt (utf8ByteSize_toString_lt (by omega))

section Pages

variable {s : UserServiceServer} {keys : List String} {n : Int32} {pageToken : String}

theorem length_page : (listUsers s keys n pageToken).users.length =
    min (pageSize n) (keys.length - startOf pageToken) := by
  simp [listUsers]

theorem nextPageToken_eq : (listUsers s keys n pageToken).nextPageToken =
    if startOf pageToken + (listUsers s keys n pageToken).users.length < keys.length then
      toString (startOf pageToken + (listUsers s keys n pageToken).users.length) else "" := rfl

theorem follow_last (h : keys.length ≤ startOf pageToken + pageSize n) (calls : Nat) :
    follow s keys n (calls + 1) pageToken =
      some ((keys.drop (startOf pageToken)).map s.users.load) := by
  have hnext : ¬ startOf pageToken + (listUsers s keys n pageToken).users.length < keys.length := by
    rw [length_page]
    omega
  have htake : (keys.drop (startOf pageToken)).take (pageSize n) = keys.drop (startOf pageToken) :=
    List.take_of_length_le (by rw [List.length_drop]; omega)
  rw [follow, nextPageToken_eq, if_neg hnext, if_pos rfl, listUsers, htake]

theorem follow_more (h : startOf pageToken + pageSize n < keys.length) (calls : Nat) :
    follow s keys n (calls + 1) pageToken =
      (follow s keys n calls (toString (startOf pageToken + pageSize n))).map
        ((listUsers s keys n pageToken).users ++ ·) := by
  have hlen : (listUsers s keys n pageToken).users.length = pageSize n := by
    rw [length_page]
    omega
  have hnext :
      (listUsers s keys n pageToken).nextPageToken = toString (startOf pageToken + pageSize n) := by
    rw [nextPageToken_eq, hlen, if_pos h]
  rw [follow, hnext, if_neg (toString_ne_empty _)]

theorem le_length_follow (h : follow s keys n calls pageToken = some listed) :
    keys.length ≤ startOf pageToken + listed.length := by
  induction calls generalizing pageToken listed with
  | zero => cases h
  | succ calls ih =>
    by_cases hlast : keys.length ≤ startOf pageToken + pageSize n
    · rw [follow_last hlast] at h
      obtain rfl := Option.some.inj h
      simp only [List.length_map, List.length_drop]
      omega
    · rw [follow_more (by omega)] at h
      obtain ⟨rest, hrest, rfl⟩ := Option.map_eq_some_iff.mp h
      have hle := ih hrest
      have hstart := startOf_toString_le (m := startOf pageToken + pageSize n)
        (Nat.add_pos_right _ (pageSize_pos n))
      rw [List.length_append, length_page]
      omega

theorem length_listed {listed : List (Option User)} (hkeys : Ranges keys s)
    (h : (listed : Multiset (Option User)) = s.users.keys.val.map s.users.load) :
    listed.length = keys.length := by
  have hcard := congrArg Multiset.card h
  rw [← hkeys] at hcard
  simpa using hcard

theorem not_enumerates_pages (hkeys : Ranges keys s) (hpage : 1 < pageSize n)
    (hmore : pageSize n < keys.length) :
    ¬ Enumerates s keys n := by
  rintro ⟨calls, listed, hfollow, hall⟩
  have hlen := length_listed hkeys hall
  cases calls with
  | zero => cases hfollow
  | succ calls =>
    rw [follow_more (by rw [startOf]; simpa using hmore)] at hfollow
    obtain ⟨rest, hrest, rfl⟩ := Option.map_eq_some_iff.mp hfollow
    have hle := le_length_follow hrest
    have hstart := utf8ByteSize_toString_lt hpage
    rw [startOf_toString, show startOf "" = 0 from rfl, Nat.zero_add] at hle
    rw [List.length_append, length_page, show startOf "" = 0 from rfl] at hlen
    omega

theorem follow_forever (hpage : pageSize n = 1) (hmore : 2 < keys.length) (calls : Nat) :
    follow s keys n calls "" = none := by
  have hloop : ∀ calls, follow s keys n calls "2" = none := by
    intro calls
    induction calls with
    | zero => rfl
    | succ calls ih =>
      rw [follow_more (by rw [hpage]; exact hmore), hpage]
      exact congrArg _ ih
  cases calls with
  | zero => rfl
  | succ calls =>
    rw [follow_more (by rw [hpage]; exact Nat.lt_of_succ_lt hmore), hpage]
    cases calls with
    | zero => rfl
    | succ calls =>
      have hsecond : follow s keys n (calls + 1) "1" = none := by
        rw [follow_more (by rw [hpage]; exact hmore), hpage]
        exact congrArg _ (hloop calls)
      exact congrArg _ hsecond

theorem enumerates_of_follow (hkeys : Ranges keys s)
    (h : follow s keys n calls "" = some (keys.map s.users.load)) : Enumerates s keys n :=
  ⟨calls, _, h, by rw [← hkeys]; rfl⟩

end Pages

/-- For every store, page size and order of iteration. -/
theorem enumerates_iff (s : UserServiceServer) (keys : List String) (n : Int32)
    (hkeys : Ranges keys s) :
    Enumerates s keys n ↔
      s.users.keys.card ≤ pageSize n ∨ pageSize n = 1 ∧ s.users.keys.card ≤ 2 := by
  have hcard : s.users.keys.card = keys.length := (congrArg Multiset.card hkeys).symm
  have hpos := pageSize_pos n
  rw [hcard]
  constructor
  · intro h
    by_contra hcon
    rw [not_or, not_and_or] at hcon
    obtain ⟨hmore, hpage⟩ := hcon
    by_cases hone : pageSize n = 1
    · obtain ⟨calls, listed, hfollow, -⟩ := h
      rw [follow_forever hone (by omega)] at hfollow
      cases hfollow
    · exact not_enumerates_pages hkeys (by omega) (by omega) h
  · intro h
    by_cases hlast : keys.length ≤ pageSize n
    · exact enumerates_of_follow hkeys (follow_last (by rw [startOf]; simpa using hlast) 0)
    · -- Two users on two pages: the offset 1 is written as a token of length 1.
      obtain ⟨hpage, htwo⟩ := h.resolve_left hlast
      have hmore : startOf "" + pageSize n < keys.length := by
        rw [show startOf "" = 0 from rfl, Nat.zero_add]
        exact not_le.mp hlast
      have hfirst : follow s keys n 2 "" = _ := follow_more hmore 1
      rw [hpage] at hfirst
      have hsecond : follow s keys n 1 "1" = some ((keys.drop 1).map s.users.load) :=
        follow_last (by rw [hpage]; exact htwo) 0
      refine enumerates_of_follow hkeys (hfirst.trans ((congrArg _ hsecond).trans ?_))
      refine congrArg some ?_
      simp only [listUsers, hpage, ← List.map_append]
      exact congrArg _ (List.take_append_drop 1 keys)

def three : UserServiceServer :=
  [("ann", "a@x"), ("bob", "b@x"), ("cid", "c@x")].foldl (fun s u => (createUser s u.1 u.2 0).1) {}

theorem three_on_one_page : Enumerates three ["2", "3", "1"] 0 :=
  (enumerates_iff three ["2", "3", "1"] 0 (by decide +kernel)).mpr (.inl (by decide +kernel))

/-- In pages of two the second user is listed twice, in pages of one the listing
has no end. -/
theorem three_not_listed :
    (follow three ["1", "2", "3"] 2 2 "").map (·.map (·.map User.id)) =
      some [some "1", some "2", some "2", some "3"] ∧
      ¬ Enumerates three ["1", "2", "3"] 2 ∧
      ∀ calls, follow three ["1", "2", "3"] 1 calls "" = none :=
  ⟨by decide +kernel, not_enumerates_pages (by decide +kernel) (by decide) (by decide),
    follow_forever (by decide) (by decide)⟩

end Cardwar.UserService
