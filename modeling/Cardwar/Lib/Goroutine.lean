import Cardwar.Lib.Run
import Cardwar.Lib.Slots

/-!
# Goroutines over one memory

Each request is handled by a goroutine of its own, and their atomic actions
interleave. The memory has regions. A frame says which memories are well formed and
when two of them agree on a region; `wp` is the weakest precondition of code that
owns some regions while other goroutines act on the rest. If no two goroutines that
run at the same time own the same region, the requests are handled as if one came
after the other, in the order they started in (`serializable`).
-/

namespace Cardwar.Goroutine

open Run (run Along)

/-- The code of a goroutine, one atomic action after another: it looks at the memory
and changes it, or sends something. -/
inductive Prog (S O α : Type)
  | ret (a : α)
  | act (next : S → S) (rest : S → Prog S O α)
  | emit (o : O) (rest : Prog S O α)

variable {S O K α β : Type}

def Prog.bind : Prog S O α → (α → Prog S O β) → Prog S O β
  | .ret a, f => f a
  | .act next rest, f => .act next fun s => (rest s).bind f
  | .emit o rest, f => .emit o (rest.bind f)

instance : Monad (Prog S O) where
  pure := .ret
  bind := .bind

def get (f : S → α) : Prog S O α := .act id fun s => .ret (f s)

def modifyGet (f : S → α × S) : Prog S O α := .act (fun s => (f s).2) fun s => .ret (f s).1

def send (o : O) : Prog S O Unit := .emit o (.ret ())

def sendAll : List O → Prog S O Unit
  | [] => .ret ()
  | o :: os => .emit o (sendAll os)

-- ---------------------------------------------------------------------------
-- Code that owns regions
-- ---------------------------------------------------------------------------

structure Frame (S K : Type) where
  Inv : S → Prop
  Same : K → S → S → Prop
  refl : ∀ k s, Same k s s
  trans : ∀ k s t u, Same k s t → Same k t u → Same k s u

variable {F : Frame S K} {R : K → Prop}

namespace Frame

/-- What the others do: the owned regions stay as they are. -/
structure Rely (F : Frame S K) (R : K → Prop) (s s' : S) : Prop where
  inv : F.Inv s'
  same : ∀ k, R k → F.Same k s s'

/-- What the owner may do: the other regions stay as they are. -/
structure Guarantee (F : Frame S K) (R : K → Prop) (s s' : S) : Prop where
  inv : F.Inv s'
  same : ∀ k, ¬ R k → F.Same k s s'

theorem Rely.refl (h : F.Inv s) : F.Rely R s s := ⟨h, fun k _ => F.refl k s⟩

theorem Guarantee.refl (h : F.Inv s) : F.Guarantee R s s := ⟨h, fun k _ => F.refl k s⟩

theorem Rely.trans (h : F.Rely R s t) (h' : F.Rely R t u) : F.Rely R s u :=
  ⟨h'.inv, fun k hk => F.trans k s t u (h.same k hk) (h'.same k hk)⟩

theorem Guarantee.rely {T : K → Prop} (h : F.Guarantee R s s') (hapart : ∀ k, R k → ¬ T k) :
    F.Rely T s s' :=
  ⟨h.inv, fun k hk => h.same k fun hr => hapart k hr hk⟩

end Frame

/-- Whatever the others do between the actions, the code has sent `sent` and more when it
ends, and then `Q` holds. -/
def wp (F : Frame S K) (R : K → Prop) : Prog S O α → (α → List O → S → Prop) → List O → S → Prop
  | .ret a, Q, sent, s => ∀ s', F.Rely R s s' → Q a sent s'
  | .act next rest, Q, sent, s =>
    ∀ s', F.Rely R s s' → F.Guarantee R s' (next s') ∧ wp F R (rest s') Q sent (next s')
  | .emit o rest, Q, sent, s => wp F R rest Q (sent ++ [o]) s

variable {Q Q' : α → List O → S → Prop} {sent : List O} {s s' : S}

theorem wp_stable {p : Prog S O α} (h : wp F R p Q sent s) (hrely : F.Rely R s s') :
    wp F R p Q sent s' := by
  induction p generalizing sent with
  | ret a => exact fun t ht => h t (hrely.trans ht)
  | act next rest => exact fun t ht => h t (hrely.trans ht)
  | emit o rest ih => exact ih h

theorem wp_bind {p : Prog S O β} {f : β → Prog S O α} (hs : F.Inv s)
    (h : wp F R p (fun b sent s => wp F R (f b) Q sent s) sent s) : wp F R (p >>= f) Q sent s := by
  induction p generalizing sent s with
  | ret b => exact h s (.refl hs)
  | act next rest ih =>
    intro t ht
    obtain ⟨hg, hrest⟩ := h t ht
    exact ⟨hg, ih t hg.inv hrest⟩
  | emit o rest ih => exact ih hs h

theorem wp_mono {p : Prog S O α} (h : wp F R p Q sent s)
    (himp : ∀ a sent s, F.Inv s → Q a sent s → Q' a sent s) :
    wp F R p Q' sent s := by
  induction p generalizing sent s with
  | ret a => exact fun t ht => himp a _ t ht.inv (h t ht)
  | act next rest ih => exact fun t ht => (h t ht).imp_right fun hrest => ih t hrest
  | emit o rest ih => exact ih h

theorem wp_get {f : S → α} (h : ∀ s', F.Rely R s s' → Q (f s) sent s')
    (hf : ∀ s', F.Rely R s s' → f s' = f s) :
    wp F R (get f) Q sent s := by
  intro t ht
  refine ⟨.refl ht.inv, fun u hu => ?_⟩
  rw [hf t ht]
  exact h u (ht.trans hu)

theorem wp_modifyGet {f : S → α × S}
    (h : ∀ t, F.Rely R s t → F.Guarantee R t (f t).2 ∧
      ∀ u, F.Rely R (f t).2 u → Q (f t).1 sent u) :
    wp F R (modifyGet f) Q sent s := h

theorem wp_sendAll {Q : Unit → List O → S → Prop} (os : List O)
    (h : ∀ s', F.Rely R s s' → Q () (sent ++ os) s') :
    wp F R (sendAll os) Q sent s := by
  induction os generalizing sent with
  | nil => rwa [List.append_nil] at h
  | cons o os ih =>
    refine ih fun s' hs => ?_
    rw [List.append_assoc]
    exact h s' hs

-- ---------------------------------------------------------------------------
-- Code on a part of the memory
-- ---------------------------------------------------------------------------

structure Part {M J : Type} (F : Frame S K) (G : Frame M J) where
  get : S → M
  set : M → S → S
  region : J → K
  get_set : ∀ m s, get (set m s) = m
  inv : ∀ s, F.Inv s → G.Inv (get s)
  inv_set : ∀ m s, F.Inv s → G.Inv m → F.Inv (set m s)
  same : ∀ j s s', F.Same (region j) s s' → G.Same j (get s) (get s')
  same_set : ∀ j m s, G.Same j (get s) m → F.Same (region j) s (set m s)
  other : ∀ k m s, (∀ j, k ≠ region j) → F.Same k s (set m s)

section Part

variable {M J : Type} {G : Frame M J}

def Part.code (π : Part F G) : Prog M O α → Prog S O α
  | .ret a => .ret a
  | .act next rest => .act (fun s => π.set (next (π.get s)) s) fun s => π.code (rest (π.get s))
  | .emit o rest => .emit o (π.code rest)

theorem Part.rely (π : Part F G) (h : F.Rely R s s') :
    G.Rely (fun j => R (π.region j)) (π.get s) (π.get s') :=
  ⟨π.inv _ h.inv, fun j hj => π.same j _ _ (h.same _ hj)⟩

theorem Part.guarantee (π : Part F G) (hs : F.Inv s)
    (h : G.Guarantee (fun j => R (π.region j)) (π.get s) m) :
    F.Guarantee R s (π.set m s) := by
  refine ⟨π.inv_set m s hs h.inv, fun k hk => ?_⟩
  by_cases hpart : ∃ j, k = π.region j
  · obtain ⟨j, rfl⟩ := hpart
    exact π.same_set j m s (h.same j hk)
  · exact π.other k m s (not_exists.mp hpart)

def Part.Outside (π : Part F G) (R : K → Prop) (s s' : S) : Prop :=
  ∀ k, R k → (∀ j, k ≠ π.region j) → F.Same k s s'

theorem Part.wp_code (π : Part F G) {p : Prog M O α} {P : α → List O → M → Prop}
    (h : wp G (fun j => R (π.region j)) p P sent (π.get s)) :
    wp F R (π.code p) (fun a sent s' => P a sent (π.get s') ∧ π.Outside R s s') sent s := by
  suffices hgen : ∀ s₀, π.Outside R s₀ s →
      wp F R (π.code p) (fun a sent s' => P a sent (π.get s') ∧ π.Outside R s₀ s') sent s from
    hgen s fun k _ _ => F.refl k s
  induction p generalizing s sent with
  | ret a =>
    intro s₀ hout u hu
    exact ⟨h _ (π.rely hu), fun k hk hj => F.trans k _ _ _ (hout k hk hj) (hu.same k hk)⟩
  | act next rest ih =>
    intro s₀ hout u hu
    obtain ⟨hg, hrest⟩ := h _ (π.rely hu)
    rw [← π.get_set (next (π.get u)) u] at hrest
    refine ⟨π.guarantee hu.inv hg, ih _ hrest s₀ fun k hk hj => ?_⟩
    exact F.trans k _ _ _ (F.trans k _ _ _ (hout k hk hj) (hu.same k hk)) (π.other k _ u hj)
  | emit o rest ih => exact ih h

theorem Part.wp_part (π : Part F G) {p : Prog M O α}
    (h : wp G (fun j => R (π.region j)) p (fun a sent m => ∀ s', F.Inv s' → π.get s' = m →
      π.Outside R s s' →
      Q a sent s') sent (π.get s)) : wp F R (π.code p) Q sent s :=
  wp_mono (π.wp_code h) fun _ _ s' hs' hpost => hpost.1 s' hs' rfl hpost.2

end Part

-- ---------------------------------------------------------------------------
-- Interleavings
-- ---------------------------------------------------------------------------

structure Thread (Req S O : Type) where
  request : Req
  prog : Prog S O Unit
  sent : List O := []

def Prog.finished : Prog S O α → Bool
  | .ret _ => true
  | .act _ _ | .emit _ _ => false

structure State (Req S O : Type) where
  mem : S
  threads : List (Thread Req S O) := []

inductive Event (Req : Type)
  | start (request : Req)
  | run (i : Nat)

variable {Req A V : Type}

def step (code : Req → Prog S O Unit) (s : State Req S O) : Event Req → Option (State Req S O)
  | .start request => some { s with threads := s.threads ++ [{ request, prog := code request }] }
  | .run i => match s.threads[i]? with
    | none => none
    | some t => match t.prog with
      | .ret _ => none
      | .act next rest => some ⟨next s.mem, s.threads.set i { t with prog := rest s.mem }⟩
      | .emit o rest =>
        some { s with threads := s.threads.set i { t with prog := rest, sent := t.sent ++ [o] } }

def after (seq : Req → A → A × List O) (a : A) (requests : List Req) : A :=
  requests.foldl (fun a request => (seq request a).1) a

def State.requests (s : State Req S O) : List Req := s.threads.map (·.request)

/-- The regions a request needs depend on what the requests before it have done. It
starts only while none that needs one of them is running. -/
def Apart (regions : A → Req → K → Prop) (seq : Req → A → A × List O) (a : A) (s : State Req S O) :
    Event Req → Prop
  | .start request => ∀ (i : Nat) (t : Thread Req S O), s.threads[i]? = some t →
    t.prog.finished = false → ∀ k, regions (after seq a s.requests) request k →
      ¬ regions (after seq a (s.requests.take i)) t.request k
  | .run _ => True

/-- The code does to its regions what `seq` does to their values. -/
structure Implements (F : Frame S K) (regions : A → Req → K → Prop) (code : Req → Prog S O Unit)
    (seq : Req → A → A × List O) (view : K → S → V) (val : K → A → V) : Prop where
  same : ∀ k s s', F.Inv s → F.Same k s s' → view k s' = view k s
  other : ∀ request a k, ¬ regions a request k → val k (seq request a).1 = val k a
  code : ∀ request a s, F.Inv s → (∀ k, regions a request k → view k s = val k a) →
    wp F (regions a request) (code request) (fun _ sent s' => sent = (seq request a).2 ∧
      ∀ k, regions a request k → view k s' = val k (seq request a).1) [] s

section Serializable

variable {regions : A → Req → K → Prop} {code : Req → Prog S O Unit} {seq : Req → A → A × List O}
  {view : K → S → V} {val : K → A → V} {a : A} {st : State Req S O}

theorem apart_start_iff : Apart regions seq a st (.start request) ↔
    ∀ i < st.threads.length, ∀ t ∈ st.threads[i]?, t.prog.finished = false →
      ∀ k, regions (after seq a st.requests) request k →
        ¬ regions (after seq a (st.requests.take i)) t.request k :=
  ⟨fun h i _ t ht => h i t ht, fun h i t hi => h i (List.getElem?_eq_some_iff.mp hi).1 t hi⟩

def Needs (regions : A → Req → K → Prop) (seq : Req → A → A × List O) (a : A) (requests : List Req)
    (i : Nat) (request : Req) : K → Prop :=
  regions (after seq a (requests.take i)) request

/-- The request ends with its answers sent, and its regions have the values they have
when all requests have come one after the other. -/
def Ends (regions : A → Req → K → Prop) (seq : Req → A → A × List O) (view : K → S → V)
    (val : K → A → V) (a : A) (requests : List Req) (i : Nat) (request : Req) (sent : List O)
    (mem : S) : Prop :=
  sent = (seq request (after seq a (requests.take i))).2 ∧
    ∀ k, Needs regions seq a requests i request k → view k mem = val k (after seq a requests)

structure Serial (F : Frame S K) (regions : A → Req → K → Prop) (seq : Req → A → A × List O)
    (view : K → S → V) (val : K → A → V) (a : A) (s : State Req S O) : Prop where
  inv : F.Inv s.mem
  done : ∀ (i : Nat) (t : Thread Req S O), s.threads[i]? = some t → t.prog.finished = true →
    t.sent = (seq t.request (after seq a (s.requests.take i))).2
  running : ∀ (i : Nat) (t : Thread Req S O), s.threads[i]? = some t → t.prog.finished = false →
    wp F (Needs regions seq a s.requests i t.request) t.prog
      (fun _ => Ends regions seq view val a s.requests i t.request) t.sent s.mem
  apart : ∀ (i j : Nat) (t u : Thread Req S O), s.threads[i]? = some t → s.threads[j]? = some u →
    i ≠ j → t.prog.finished = false → u.prog.finished = false →
    ∀ k, Needs regions seq a s.requests i t.request k →
      ¬ Needs regions seq a s.requests j u.request k
  idle : ∀ k, (∀ (i : Nat) (t : Thread Req S O), s.threads[i]? = some t → t.prog.finished = false →
    ¬ Needs regions seq a s.requests i t.request k) → view k s.mem = val k (after seq a s.requests)

theorem after_snoc (seq : Req → A → A × List O) (a : A) (requests : List Req) (request : Req) :
    after seq a (requests ++ [request]) = (seq request (after seq a requests)).1 := by
  rw [after, List.foldl_append]
  rfl

theorem wp_finished {p : Prog S O Unit} {Q : Unit → List O → S → Prop} (h : wp F R p Q sent s)
    (hs : F.Inv s) (hfin : p.finished = true) : Q () sent s := by
  cases p with
  | ret => exact h s (.refl hs)
  | act => cases hfin
  | emit => cases hfin

theorem Serial.set {t t' : Thread Req S O} (himp : Implements F regions code seq view val)
    (h : Serial F regions seq view val a st) (hi : st.threads[i]? = some t)
    (hrun : t.prog.finished = false) (hreq : t'.request = t.request)
    (hg : F.Guarantee (Needs regions seq a st.requests i t.request) st.mem mem)
    (hwp : wp F (Needs regions seq a st.requests i t.request) t'.prog
      (fun _ => Ends regions seq view val a st.requests i t.request) t'.sent mem) :
    Serial F regions seq view val a ⟨mem, st.threads.set i t'⟩ := by
  have hrequests : State.requests ⟨mem, st.threads.set i t'⟩ = st.requests :=
    Slots.map_set_eq hi hreq
  constructor
  · exact hg.inv
  · intro j u hj hfin
    rw [hrequests]
    rcases Slots.getElem?_of_set hj with ⟨rfl, rfl⟩ | ⟨-, hj⟩
    · rw [hreq]
      exact (wp_finished hwp hg.inv hfin).1
    · exact h.done j u hj hfin
  · intro j u hj hrunning
    rw [hrequests]
    rcases Slots.getElem?_of_set hj with ⟨rfl, rfl⟩ | ⟨hne, hj⟩
    · rw [hreq]
      exact hwp
    · exact wp_stable (h.running j u hj hrunning)
        (hg.rely (h.apart i j t u hi hj hne.symm hrun hrunning))
  · intro j l u v hj hl hne hu hv
    rw [hrequests]
    rcases Slots.getElem?_of_set hj with ⟨rfl, rfl⟩ | ⟨-, hjold⟩
    · rcases Slots.getElem?_of_set hl with ⟨rfl, -⟩ | ⟨-, hlold⟩
      · exact absurd rfl hne
      · rw [hreq]
        exact h.apart j l t v hi hlold hne hrun hv
    · rcases Slots.getElem?_of_set hl with ⟨rfl, rfl⟩ | ⟨-, hlold⟩
      · rw [hreq]
        exact h.apart j l u t hjold hi hne hu hrun
      · exact h.apart j l u v hjold hlold hne hu hv
  · intro k hidle
    rw [hrequests] at hidle ⊢
    by_cases hk : Needs regions seq a st.requests i t.request k
    · have hfin : t'.prog.finished = true := by
        by_contra hnot
        exact hidle i t' (Slots.getElem?_set_of hi t') (Bool.not_eq_true _ ▸ hnot) (hreq ▸ hk)
      exact (wp_finished hwp hg.inv hfin).2 k hk
    · rw [himp.same k st.mem mem h.inv (hg.same k hk)]
      refine h.idle k fun j u hj hrunning => ?_
      by_cases hji : j = i
      · subst hji
        obtain rfl := Option.some.inj (hi.symm.trans hj)
        exact hk
      · refine hidle j u ?_ hrunning
        rw [List.getElem?_set_ne (Ne.symm hji)]
        exact hj

theorem needs_snoc_lt (hi : i < requests.length) (r request : Req) :
    Needs regions seq a (requests ++ [r]) i request = Needs regions seq a requests i request := by
  rw [Needs, Needs, List.take_append_of_le_length hi.le]

theorem needs_snoc_self (requests : List Req) (r request : Req) :
    Needs regions seq a (requests ++ [r]) requests.length request =
      regions (after seq a requests) request := by
  rw [Needs, List.take_left' rfl]

/-- What a request has done stays right when another one comes for other regions. -/
theorem Ends.snoc (himp : Implements F regions code seq view val)
    (h : Ends regions seq view val a requests i request sent mem) (hi : i < requests.length)
    (hapart : ∀ k, regions (after seq a requests) r k →
      ¬ Needs regions seq a requests i request k) :
    Ends regions seq view val a (requests ++ [r]) i request sent mem := by
  refine ⟨?_, fun k hk => ?_⟩
  · rw [List.take_append_of_le_length hi.le]
    exact h.1
  · rw [needs_snoc_lt hi] at hk
    rw [after_snoc, himp.other r _ k fun hr => hapart k hr hk]
    exact h.2 k hk

theorem Serial.wp_code (himp : Implements F regions code seq view val)
    (h : Serial F regions seq view val a st) (hapart : Apart regions seq a st (.start request)) :
    wp F (Needs regions seq a (st.requests ++ [request]) st.requests.length request) (code request)
      (fun _ => Ends regions seq view val a (st.requests ++ [request]) st.requests.length request)
      [] st.mem := by
  unfold Ends
  rw [needs_snoc_self, List.take_left' rfl, after_snoc]
  exact himp.code request (after seq a st.requests) st.mem h.inv fun k hk =>
    h.idle k fun i t hi hrun => hapart i t hi hrun k hk

theorem Serial.start (himp : Implements F regions code seq view val)
    (h : Serial F regions seq view val a st) (hapart : Apart regions seq a st (.start request)) :
    Serial F regions seq view val a
      { st with threads := st.threads ++ [{ request, prog := code request }] } := by
  have hrequests :
      State.requests { st with threads := st.threads ++ [{ request, prog := code request }] } =
      st.requests ++ [request] := List.map_append
  have hlen : st.requests.length = st.threads.length := List.length_map _
  have hlt : ∀ {i : Nat} {t : Thread Req S O}, st.threads[i]? = some t → i < st.requests.length :=
    fun hi => hlen ▸ (List.getElem?_eq_some_iff.mp hi).1
  have hnew : Needs regions seq a (st.requests ++ [request]) st.threads.length request =
      regions (after seq a st.requests) request := hlen ▸ needs_snoc_self ..
  have hwp := h.wp_code himp hapart
  rw [hlen] at hwp
  constructor
  · exact h.inv
  · intro i t hi hfin
    rw [hrequests]
    rcases Slots.getElem?_snoc hi with hi | ⟨rfl, rfl⟩
    · rw [List.take_append_of_le_length (hlt hi).le]
      exact h.done i t hi hfin
    · exact (wp_finished hwp h.inv hfin).1
  · intro i t hi hrun
    rw [hrequests]
    rcases Slots.getElem?_snoc hi with hi | ⟨rfl, rfl⟩
    · rw [needs_snoc_lt (hlt hi)]
      refine wp_mono (h.running i t hi hrun) fun _ sent mem _ hends => ?_
      exact hends.snoc himp (hlt hi) (hapart i t hi hrun)
    · exact hwp
  · intro i j t u hi hj hne ht hu k hk
    rw [hrequests] at hk ⊢
    rcases Slots.getElem?_snoc hi with hi | ⟨rfl, rfl⟩
    · rw [needs_snoc_lt (hlt hi)] at hk
      rcases Slots.getElem?_snoc hj with hj | ⟨rfl, rfl⟩
      · rw [needs_snoc_lt (hlt hj)]
        exact h.apart i j t u hi hj hne ht hu k hk
      · rw [hnew]
        exact fun hr => hapart i t hi ht k hr hk
    · rw [hnew] at hk
      rcases Slots.getElem?_snoc hj with hj | ⟨rfl, rfl⟩
      · rw [needs_snoc_lt (hlt hj)]
        exact hapart j u hj hu k hk
      · exact absurd rfl hne
  · intro k hidle
    rw [hrequests] at hidle ⊢
    by_cases hk : Needs regions seq a (st.requests ++ [request]) st.threads.length request k
    · have hfin : (code request).finished = true := by
        by_contra hnot
        exact hidle st.threads.length ⟨request, code request, []⟩ (by simp)
          (Bool.not_eq_true _ ▸ hnot) hk
      exact (wp_finished hwp h.inv hfin).2 k hk
    · rw [hnew] at hk
      rw [after_snoc, himp.other request _ k hk]
      refine h.idle k fun i t hi hrun => ?_
      rw [← needs_snoc_lt (hlt hi) request]
      exact hidle i t ((List.getElem?_append_left (hlen ▸ hlt hi)).trans hi) hrun

theorem serial_step (himp : Implements F regions code seq view val)
    (h : Serial F regions seq view val a st)
    (hapart : Apart regions seq a st e) (hs : step code st e = some st') :
    Serial F regions seq view val a st' := by
  cases e with
  | start request => exact Option.some.inj hs ▸ h.start himp hapart
  | run i =>
    simp only [step] at hs
    split at hs
    next => cases hs
    next t hi =>
      split at hs <;> cases hs
      next next rest hprog =>
        have hrun : t.prog.finished = false := by rw [hprog]; rfl
        have hwp := h.running i t hi hrun
        rw [hprog] at hwp
        obtain ⟨hg, hrest⟩ := hwp st.mem (.refl h.inv)
        exact h.set himp hi hrun rfl hg hrest
      next o rest hprog =>
        have hrun : t.prog.finished = false := by rw [hprog]; rfl
        have hwp := h.running i t hi hrun
        rw [hprog] at hwp
        exact h.set himp hi hrun rfl (.refl h.inv) hwp

/-- A goroutine that is left alone ends. -/
theorem exists_finished (code : Req → Prog S O Unit) (st : State Req S O)
    (hi : st.threads[i]? = some t) :
    ∃ n st' t', run (step code) st (List.replicate n (.run i)) = some st' ∧
      st'.threads[i]? = some t' ∧
      t'.prog.finished = true := by
  obtain ⟨request, p, sent⟩ := t
  induction p generalizing st sent with
  | ret => exact ⟨0, st, _, rfl, hi, rfl⟩
  | act next rest ih =>
    obtain ⟨n, st', t', hrun, ht, hfin⟩ :=
      ih st.mem ⟨next st.mem, st.threads.set i ⟨request, rest st.mem, sent⟩⟩
      sent (Slots.getElem?_set_of hi _)
    refine ⟨n + 1, st', t', ?_, ht, hfin⟩
    rw [List.replicate_succ, run, step, hi]
    exact hrun
  | emit o rest ih =>
    obtain ⟨n, st', t', hrun, ht, hfin⟩ :=
      ih { st with threads := st.threads.set i ⟨request, rest, sent ++ [o]⟩ }
      (sent ++ [o]) (Slots.getElem?_set_of hi _)
    refine ⟨n + 1, st', t', ?_, ht, hfin⟩
    rw [List.replicate_succ, run, step, hi]
    exact hrun

theorem serializable (himp : Implements F regions code seq view val) (hmem : F.Inv mem)
    (hview : ∀ k, view k mem = val k a) (ha : Along (step code) (Apart regions seq a) { mem } es)
    (hr : run (step code) { mem } es = some st) : Serial F regions seq view val a st := by
  refine Run.invariant (fun _ _ _ h hapart hs => serial_step himp h hapart hs) ?_ ha hr
  exact ⟨hmem, by simp, by simp, by simp, fun k _ => hview k⟩

end Serializable

end Cardwar.Goroutine
