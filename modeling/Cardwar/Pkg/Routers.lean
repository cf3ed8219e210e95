import Cardwar.Pkg.PoolEntry
import Cardwar.Protocol

/-!
# The routers of an entry's clients

Each dial attempt has a client of its own, and the client gets the entry's
router list before it starts. A ServiceHello adds the ids it lists to the
client of the current connection and to the list, so that the next client gets
them too; but the next connection brings a ServiceHello of its own.
`AddRouter` panics on an id its client already has, with the entry's mutex
held, so nothing follows.
-/

namespace Cardwar.Pkg.Routers

open Conf (ServerNode)
open Run (run Along)

structure State where
  entry : Entry
  /-- The attempt whose client the entry keeps. -/
  client : Option Nat := none
  routers : List UInt32
  /-- The ids given to `AddRouter` of each attempt's client, in order. -/
  added : SyncMap Nat (List UInt32)
  locked : Bool := false

inductive Event
  | entry (ev : Pkg.Event)
  /-- `AddConnectionRouter` for the connection. -/
  | addRouter (k : Nat) (msgID : UInt32)

def start (e : Entry) (routers : List UInt32) : State :=
  { entry := e, routers, added := (∅ : SyncMap Nat (List UInt32)).store 0 routers }

def State.addedTo (s : State) (c : Nat) : List UInt32 := (s.added.load c).getD []

def addConnectionRouter (s : State) (k : Nat) (msgID : UInt32) : State :=
  match s.client with
  | none => s
  | some c =>
    if s.entry.conn = some k then
      let added := s.added.store c (s.addedTo c ++ [msgID])
      if msgID ∈ s.addedTo c then { s with added, locked := true }
      else { s with added, routers := s.routers ++ [msgID] }
    else s

/-- `client` is stored together with `conn`, and kept when `conn` is cleared. -/
def entryStep (s : State) (ev : Pkg.Event) (e : Entry) : State :=
  { s with
    entry := e
    client := e.conn.or s.client
    added := match ev with
      | .dial _ => s.added.store s.entry.nextAttempt s.routers
      | _ => s.added }

def step (s : State) (ev : Event) : Option State :=
  if s.locked then none
  else match ev with
    | .entry ev => (Pkg.step s.entry ev).map (entryStep s ev)
    | .addRouter k msgID => some (addConnectionRouter s k msgID)

/-- What a ServiceHello on the connection does with its `send_msg_ids`. -/
def hello (k : Nat) (sendMsgIds : List UInt32) : List Event := sendMsgIds.map (.addRouter k)

/-- No client has an id twice, nor has the entry's list. -/
def Distinct (s : State) : Prop := (∀ c, (s.addedTo c).Nodup) ∧ s.routers.Nodup

/-- A ServiceHello on the current connection lists no id that the entry's list has. -/
def FreshID (s : State) : Event → Prop
  | .entry _ => True
  | .addRouter k msgID => s.entry.conn = some k → msgID ∉ s.routers

instance (s : State) : ∀ ev, Decidable (FreshID s ev)
  | .entry _ => inferInstanceAs (Decidable True)
  | .addRouter k msgID => inferInstanceAs (Decidable (s.entry.conn = some k → msgID ∉ s.routers))

structure Inv (s : State) : Prop where
  client : ∀ k, s.entry.conn = some k → s.client = some k
  listed : ∀ c, ∀ id ∈ s.addedTo c, id ∈ s.routers
  locked : s.locked = true → ∃ c, ¬ (s.addedTo c).Nodup

theorem addedTo_store (s : State) (c j : Nat) (ids : List UInt32) :
    State.addedTo { s with added := s.added.store c ids } j = if j = c then ids
      else s.addedTo j := by
  simp only [State.addedTo, SyncMap.load_store]
  split <;> rfl

theorem addedTo_entryStep (s : State) (ev : Pkg.Event) (e : Entry) (j : Nat) :
    (entryStep s ev e).addedTo j = s.routers ∨ (entryStep s ev e).addedTo j = s.addedTo j := by
  cases ev with
  | dial l =>
    have hstore : (entryStep s (.dial l) e).addedTo j =
        if j = s.entry.nextAttempt then s.routers else s.addedTo j := addedTo_store s _ j _
    rw [hstore]
    split
    · exact .inl rfl
    · exact .inr rfl
  | _ => exact .inr rfl

theorem inv_entryStep (h : Inv s) (hl : s.locked = false) : Inv (entryStep s ev e) := by
  refine ⟨fun k hk => ?_, fun c id hid => ?_, fun hlocked => ?_⟩
  · have hconn : e.conn = some k := hk
    simp [entryStep, hconn]
  · rcases addedTo_entryStep s ev e c with heq | heq
    · exact heq ▸ hid
    · exact h.listed c id (heq ▸ hid)
  · exact absurd (hl.symm.trans hlocked) (by simp)

theorem addConnectionRouter_current (h : Inv s) (hc : s.entry.conn = some k) (msgID : UInt32) :
    addConnectionRouter s k msgID =
      if msgID ∈ s.addedTo k then
        { s with added := s.added.store k (s.addedTo k ++ [msgID]), locked := true }
      else
        { s with
          added := s.added.store k (s.addedTo k ++ [msgID])
          routers := s.routers ++ [msgID] } := by
  rw [addConnectionRouter, h.client k hc]
  simp only [hc, ↓reduceIte]

theorem addConnectionRouter_other (hc : s.entry.conn ≠ some k) (msgID : UInt32) :
    addConnectionRouter s k msgID = s := by
  unfold addConnectionRouter
  split
  next => rfl
  next => rw [if_neg hc]

theorem nodup_snoc {ids : List UInt32} {m : UInt32} : (ids ++ [m]).Nodup ↔ m ∉ ids ∧ ids.Nodup := by
  rw [← List.concat_eq_append, List.nodup_concat]

theorem inv_addConnectionRouter (h : Inv s) (hl : s.locked = false) (msgID : UInt32) :
    Inv (addConnectionRouter s k msgID) := by
  by_cases hc : s.entry.conn = some k
  · rw [addConnectionRouter_current h hc]
    -- What a client has now was in the list before, or is the new id.
    have hback :
        ∀ c, ∀ m ∈ State.addedTo { s with added := s.added.store k (s.addedTo k ++ [msgID]) } c,
        m ∈ s.routers ∨ m = msgID := by
      intro c m hm
      rw [addedTo_store] at hm
      split at hm
      next =>
        rcases List.mem_append.mp hm with hm | hm
        · exact .inl (h.listed k m hm)
        · exact .inr (List.mem_singleton.mp hm)
      next => exact .inl (h.listed c m hm)
    split
    next hmem =>
      refine ⟨h.client, fun c m hm => ?_, fun _ => ⟨k, fun hnodup => ?_⟩⟩
      · rcases hback c m hm with hold | rfl
        · exact hold
        · exact h.listed k m hmem
      · simp only [State.addedTo, SyncMap.load_store_self, Option.getD_some] at hnodup
        exact (nodup_snoc.mp hnodup).1 hmem
    next hnew =>
      refine ⟨h.client, fun c m hm => ?_, fun hlocked => ?_⟩
      · exact List.mem_append.mpr ((hback c m hm).imp id List.mem_singleton.mpr)
      · exact absurd (hl.symm.trans hlocked) (by simp)
  · rw [addConnectionRouter_other hc]
    exact h

theorem inv_step (h : Inv s) (hs : step s ev = some s') : Inv s' := by
  unfold step at hs
  split at hs
  next => cases hs
  next hl =>
    rw [Bool.not_eq_true] at hl
    cases ev with
    | entry ev =>
      obtain ⟨e, -, rfl⟩ := Option.map_eq_some_iff.mp hs
      exact inv_entryStep h hl
    | addRouter k msgID =>
      obtain rfl := Option.some.inj hs
      exact inv_addConnectionRouter h hl msgID

theorem inv_start (he : e.conn = none) (routers : List UInt32) : Inv (start e routers) := by
  refine ⟨fun k hk => ?_, fun c m hm => ?_, fun hl => by cases hl⟩
  · exact absurd (he.symm.trans hk) (by simp)
  · simp only [start, State.addedTo, SyncMap.load_store] at hm
    split at hm
    next => exact hm
    next => simp at hm

theorem distinct_entryStep (h : Distinct s) : Distinct (entryStep s ev e) := by
  refine ⟨fun c => ?_, h.2⟩
  rcases addedTo_entryStep s ev e c with heq | heq
  · exact heq ▸ h.2
  · exact heq ▸ h.1 c

/-- A hello on the current connection keeps the ids distinct exactly if its id
is new to the entry's list. -/
theorem distinct_addConnectionRouter (hi : Inv s) (h : Distinct s) (hc : s.entry.conn = some k) :
    Distinct (addConnectionRouter s k msgID) ↔ msgID ∉ s.routers := by
  rw [addConnectionRouter_current hi hc]
  split
  next hmem =>
    -- The client has it, so the list has it too.
    refine ⟨fun hd => ?_, fun hnot => absurd (hi.listed k msgID hmem) hnot⟩
    have hclient := hd.1 k
    simp only [State.addedTo, SyncMap.load_store_self, Option.getD_some] at hclient
    exact absurd hmem (nodup_snoc.mp hclient).1
  next hnew =>
    refine ⟨fun hd => (nodup_snoc.mp hd.2).1, fun hnot => ⟨fun c => ?_, nodup_snoc.mpr ⟨hnot, h.2⟩⟩⟩
    have hstore := addedTo_store s k c (s.addedTo k ++ [msgID])
    simp only [State.addedTo] at hstore ⊢
    rw [hstore]
    split
    next => exact nodup_snoc.mpr ⟨hnew, h.1 k⟩
    next => exact h.1 c

theorem distinct_step (hi : Inv s) (h : Distinct s) :
    (∀ s' ∈ step s ev, Distinct s') ↔ FreshID s ev := by
  have hl : s.locked = false := Bool.eq_false_iff.mpr fun hlocked => by
    obtain ⟨c, hc⟩ := hi.locked hlocked
    exact hc (h.1 c)
  simp only [step, hl, Bool.false_eq_true, ↓reduceIte]
  cases ev with
  | entry ev =>
    refine ⟨fun _ => trivial, fun _ s' hs => ?_⟩
    obtain ⟨e, -, rfl⟩ := Option.map_eq_some_iff.mp (Option.mem_def.mp hs)
    exact distinct_entryStep h
  | addRouter k msgID =>
    have hone : (∀ s' ∈ some (addConnectionRouter s k msgID), Distinct s') ↔
        Distinct (addConnectionRouter s k msgID) := by simp
    refine hone.trans ?_
    by_cases hc : s.entry.conn = some k
    · rw [distinct_addConnectionRouter hi h hc, FreshID, imp_iff_right hc]
    · rw [addConnectionRouter_other hc, FreshID]
      exact iff_of_true h fun hk => absurd hk hc

theorem distinct_start : Distinct (start e routers) ↔ routers.Nodup := by
  refine ⟨And.right, fun h => ⟨fun c => ?_, h⟩⟩
  simp only [start, State.addedTo, SyncMap.load_store]
  split
  next => exact h
  next => exact List.nodup_nil

/-- The ids stay distinct, in every state of a run, exactly if the list Dial or
AddServer gives is, and every id a ServiceHello on the current connection lists
is new to the entry's list. -/
theorem distinct_iff (he : e = dialing srv ∨ e = adding srv) (routers : List UInt32)
    (evs : List Event) :
    (∀ pre s, pre <+: evs → run step (start e routers) pre = some s → Distinct s) ↔
      routers.Nodup ∧ Along step FreshID (start e routers) evs := by
  have hconn : e.conn = none := by rcases he with rfl | rfl <;> rfl
  have hreached (h0 : routers.Nodup) :
      (∀ pre s, pre <+: evs → run step (start e routers) pre = some s → Distinct s) ↔
        Along step FreshID (start e routers) evs :=
    Run.reached_iff (A := fun _ => True) (fun _ _ _ h _ hs => inv_step h hs)
      (fun _ _ hi h _ => distinct_step hi h) (inv_start hconn routers) (distinct_start.mpr h0)
      (fun _ _ => trivial)
  constructor
  · intro h
    have h0 : routers.Nodup := distinct_start.mp (h [] _ List.nil_prefix rfl)
    exact ⟨h0, (hreached h0).mp h⟩
  · rintro ⟨h0, ha⟩
    exact (hreached h0).mpr ha

/-- `backendRouters`, the list the gateway gives. -/
def backendRouters : List UInt32 := [Protocol.msgIdPing, Protocol.msgIdServiceHello]

-- ChatSvr connects and announces itself, the connection drops and comes back.
def reconnect : List Event :=
  [Event.entry (.connStart 0), .entry (.setServerID 0)] ++ hello 0 [Protocol.msgIdChatResp] ++
    ([.connStop 0, .dial 0, .connStart 1, .recv 0, .install 0] : List Pkg.Event).map .entry

theorem reconnect_distinct :
    (run step (start (dialing node) backendRouters) reconnect).map (·.addedTo 1) =
        some [Protocol.msgIdPing, Protocol.msgIdServiceHello, Protocol.msgIdChatResp] ∧
      ∀ pre s, pre <+: reconnect → run step (start (dialing node) backendRouters) pre = some s →
        Distinct s := by
  have ha : Along step FreshID (start (dialing node) backendRouters) reconnect := by decide +kernel
  exact ⟨by decide +kernel, (distinct_iff (.inl rfl) backendRouters reconnect).mpr ⟨by decide, ha⟩⟩

/-- ChatSvr announces itself on the new connection too: its client has the id
twice, and the entry's mutex stays locked. -/
theorem reconnect_hello_repeats :
    ∃ s, run step (start (dialing node) backendRouters)
      (reconnect ++ hello 1 [Protocol.msgIdChatResp]) =
        some s ∧ s.addedTo 1 = backendRouters ++ [Protocol.msgIdChatResp, Protocol.msgIdChatResp] ∧
      s.locked = true ∧ ¬ Distinct s := by
  refine ⟨_, rfl, by decide +kernel, by decide +kernel, fun h => ?_⟩
  exact absurd (h.1 1) (by decide +kernel)

end Cardwar.Pkg.Routers
