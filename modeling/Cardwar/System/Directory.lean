import Cardwar.System.Matchmaking

/-!
# One RoomSvr for a match

A client may act on an answer of MatchSvr after the room it names was destroyed,
and the RoomSvr then creates the room again without asking anybody. MatchSvr's
directory has every room in use, so a match is on one RoomSvr, when rooms are
created only while the directory names their server and no notice for them is
under way (`rooms_listed`).
-/

namespace Cardwar.System.Directory

open Conf Protocol Codec Matchmaking
open Pkg (Env)
open MatchSvr (formedID requiredPlayers)
open RoomSvr.Concurrent (members)
open Run (run Along)
open Wire (Bytes)

def enteredType (bs : Bytes) : Option String :=
  match decodeEnvelope bs with
  | .error _ => none
  | .ok env => match decodeMatchEnterReq env.data with
    | .error _ => none
    | .ok req => some req.matchType

/-- Clients leave the notices to the RoomSvrs. -/
def ByClients : Event → Prop
  | .send _ _ msg _ => msg.msgID ≠ msgIdRoomDestroyedPush
  | _ => True

/-- A client joins a match only on the server of the latest answer it got for it. -/
def Follows (s : State) : Event → Prop
  | .send client _ msg i => msg.msgID = msgIdRoomJoinReq → ∀ m ∈ (decodeMatchId msg.data).toOption,
      (s.known.load (client, m)).isSome ∧ s.known.load (client, m) = (s.roomSvrs[i]?).map (·.id)
  | _ => True

def InTime (s : State) (env : Env) (p : Packet) : Dest → Prop
  | .roomSvr i => p.msgID = msgIdRoomJoinReq → ∀ srv ∈ s.roomSvrs[i]?, ∀ m ∈ namedMatch p.data,
      members srv.st.app m = [] →
      (s.directory.load m).map (·.serverID) = some srv.id ∧ ∀ q ∈ s.net, q.destroys ≠ some m
  | .matchSvr => p.msgID = msgIdMatchEnterReq → ∀ matchType ∈ enteredType p.data,
      requiredPlayers matchType ≤ (s.matchSvr.app.waiting matchType).length + 1 →
      s.directory.load (formedID matchType env.now) = none

/-- A RoomSvr gets a join that creates a room only while the directory names
that server and no notice for the match is under way, and the id of a new match
is not in use. -/
def Timely (s : State) : Event → Prop
  | .deliver k env => ∀ p ∈ s.net[k]?, InTime s env p p.dest
  | _ => True

instance : DecidablePred ByClients
  | .send _ _ msg _ => inferInstanceAs (Decidable (msg.msgID ≠ msgIdRoomDestroyedPush))
  | .deliver _ _ | .answer _ => isTrue trivial

instance (s : State) : DecidablePred (Follows s)
  | .send _ _ _ _ => inferInstanceAs (Decidable (_ → _))
  | .deliver _ _ | .answer _ => isTrue trivial

instance (s : State) (env : Env) (p : Packet) (dest : Dest) : Decidable (InTime s env p dest) := by
  cases dest <;> unfold InTime <;> infer_instance

instance (s : State) : DecidablePred (Timely s)
  | .deliver k env => inferInstanceAs (Decidable (∀ p ∈ s.net[k]?, InTime s env p p.dest))
  | .send _ _ _ _ | .answer _ => isTrue trivial

structure Listed (s : State) : Prop where
  ids : (s.roomSvrs.map (·.id)).Nodup
  sent : ∀ p ∈ s.net, Sent p
  listed : ∀ srv ∈ s.roomSvrs, ∀ m, members srv.st.app m ≠ [] →
    (s.directory.load m).map (·.serverID) = some srv.id ∧ ∀ p ∈ s.net, p.destroys ≠ some m
  once : ∀ m, s.net.countP (·.destroys = some m) ≤ 1
  noticed : ∀ p ∈ s.net, ∀ m, p.destroys = some m → (s.directory.load m).isSome

theorem listed_fresh (hids : serverIDs.Nodup) : Listed (fresh serverIDs) := by
  refine ⟨?_, by simp [fresh], ?_, by simp [fresh], by simp [fresh]⟩
  · simpa [fresh, Function.comp_def] using hids
  · intro srv hsrv m hm
    obtain ⟨serverID, -, rfl⟩ := List.mem_map.mp hsrv
    simp [members] at hm

section MatchSvr

variable {s s' : State}

theorem listed_entries (h : Listed s) (hsvrs : s'.roomSvrs = s.roomSvrs)
    (hnet : s'.net.Sublist s.net) (hdir : ∀ m dir, s.directory.load m = some dir →
      (∃ srv ∈ s.roomSvrs, members srv.st.app m ≠ []) ∨ (∃ p ∈ s.net, p.destroys = some m) →
      s'.directory.load m = some dir) : Listed s' := by
  refine ⟨hsvrs ▸ h.ids, fun p hp => h.sent p (hnet.subset hp), ?_, ?_, ?_⟩
  · intro srv hsrv m hm
    rw [hsvrs] at hsrv
    obtain ⟨hload, hnone⟩ := h.listed srv hsrv m hm
    obtain ⟨dir, hload, hid⟩ := Option.map_eq_some_iff.mp hload
    rw [hdir m dir hload (.inl ⟨srv, hsrv, hm⟩)]
    exact ⟨congrArg some hid, fun p hp => hnone p (hnet.subset hp)⟩
  · exact fun m => Nat.le_trans (hnet.countP_le) (h.once m)
  · intro p hp m hm
    obtain ⟨dir, hload⟩ := Option.isSome_iff_exists.mp (h.noticed p (hnet.subset hp) m hm)
    rw [hdir m dir hload (.inr ⟨p, hnet.subset hp, hm⟩)]
    rfl

theorem listed_store (h : Listed s) (hnew : s.directory.load m = none)
    (hm : s'.directory = s.directory.store m dir) (hsvrs : s'.roomSvrs = s.roomSvrs)
    (hnet : s'.net = s.net) :
    Listed s' := by
  refine listed_entries h hsvrs (hnet ▸ List.Sublist.refl _) fun n old hload _ => ?_
  have hne : n ≠ m := by
    rintro rfl
    cases hnew.symm.trans hload
  rw [hm, SyncMap.load_store_ne _ _ hne]
  exact hload

theorem listed_delete (h : Listed s) (hnone : ∀ p ∈ s.net, p.destroys ≠ some m)
    (hempty : ∀ srv ∈ s.roomSvrs, members srv.st.app m = [])
    (hm : s'.directory = s.directory.delete m) (hsvrs : s'.roomSvrs = s.roomSvrs)
    (hnet : s'.net = s.net) :
    Listed s' := by
  refine listed_entries h hsvrs (hnet ▸ List.Sublist.refl _) fun n old hload hused => ?_
  have hne : n ≠ m := by
    rintro rfl
    rcases hused with ⟨srv, hsrv, hmem⟩ | ⟨p, hp, hdestroys⟩
    · exact hmem (hempty srv hsrv)
    · exact hnone p hp hdestroys
  rw [hm, SyncMap.load_delete_ne _ hne]
  exact hload

theorem listed_kept (h : Listed s) (hm : s'.directory = s.directory)
    (hsvrs : s'.roomSvrs = s.roomSvrs) (hnet : s'.net.Sublist s.net) : Listed s' :=
  listed_entries h hsvrs hnet fun _ _ hload _ => hm ▸ hload

theorem listed_matchSvr (h : Listed s) (hok : Timely s (.deliver k env)) (hp : s.net[k]? = some p)
    (hdest : p.dest = .matchSvr)
    (hm : s'.matchSvr = (MatchSvr.server.dispatch s.matchSvr ⟨p.msgID, p.data, p.conn, env⟩).1)
    (hsvrs : s'.roomSvrs = s.roomSvrs) (hnet : s'.net = s.net.eraseIdx k) : Listed s' := by
  have hrest : Listed { s with net := s.net.eraseIdx k } :=
    listed_kept h rfl rfl (List.eraseIdx_sublist s.net k)
  have hchange := matchChange s.matchSvr ⟨p.msgID, p.data, p.conn, env⟩
  rw [← hm] at hchange
  cases hchange with
  | kept hkept _ => exact listed_kept hrest hkept hsvrs (hnet ▸ List.Sublist.refl _)
  | allocated hnew hstore _ => exact listed_store hrest hnew hstore hsvrs hnet
  | @formed env' req dir hid henv hreq hfull hstore _ =>
    have htimely := hok p hp
    rw [hdest] at htimely
    have htype : enteredType p.data = some req.matchType := by simp only [enteredType, henv, hreq]
    exact listed_store hrest (htimely hid _ htype hfull) hstore hsvrs hnet
  | @destroyed m dir hid hname hdir hdelete _ =>
    have hdestroys : p.destroys = some m := by
      rw [Packet.destroys, if_pos ⟨hdest, hid⟩]
      exact hname
    refine listed_delete hrest ?_ ?_ hdelete hsvrs hnet
    · -- It was the only notice for the match.
      have honce := h.once m
      have hcount := Slots.countP_eraseIdx (f := (·.destroys = some m)) hp (by simp [hdestroys])
      have hzero : (s.net.eraseIdx k).countP (·.destroys = some m) = 0 := by omega
      intro q hq hqm
      exact absurd (by simpa using hqm) (List.countP_eq_zero.mp hzero q hq)
    · intro srv hsrv
      by_contra hne
      exact (h.listed srv hsrv m hne).2 p (List.mem_of_getElem? hp) hdestroys

end MatchSvr

section RoomSvr

variable {s s' : State} {srv : RoomServer}

theorem listed_room (h : Listed s) (hi : s.roomSvrs[i]? = some srv) (hid : srv'.id = srv.id)
    (hother : ∀ n ≠ m, members srv'.st.app n = members srv.st.app n)
    (hroom : members srv'.st.app m ≠ [] →
      (s.directory.load m).map (·.serverID) = some srv.id ∧ ∀ p ∈ s.net, p.destroys ≠ some m) :
    Listed { s with roomSvrs := s.roomSvrs.set i srv' } := by
  refine ⟨?_, h.sent, ?_, h.once, h.noticed⟩
  · rw [Slots.map_set_eq (f := RoomServer.id) (b := srv') hi hid]
    exact h.ids
  · intro other hmem n hn
    rcases Slots.mem_of_set (f := RoomServer.id) h.ids hi hmem with rfl | ⟨hold, -⟩
    · rw [hid]
      by_cases hnm : n = m
      · subst hnm
        exact hroom hn
      · rw [hother n hnm] at hn
        exact h.listed srv (List.mem_of_getElem? hi) n hn
    · exact h.listed other hold n hn

theorem listed_notice (h : Listed s) (hi : s.roomSvrs[i]? = some srv) (hid : srv'.id = srv.id)
    (hother : ∀ n ≠ m, members srv'.st.app n = members srv.st.app n)
    (hold : members srv.st.app m ≠ [])
    (hempty : members srv'.st.app m = []) (hp : p.destroys = some m) (hsent : Sent p) :
    Listed { s with roomSvrs := s.roomSvrs.set i srv', net := s.net ++ [p] } := by
  obtain ⟨hdir, hnone⟩ := h.listed srv (List.mem_of_getElem? hi) m hold
  have hroom : Listed { s with roomSvrs := s.roomSvrs.set i srv' } :=
    listed_room h hi hid hother fun hne => absurd hempty hne
  refine ⟨hroom.ids, ?_, ?_, ?_, ?_⟩
  · intro q hq
    rcases List.mem_append.mp hq with hq | hq
    · exact h.sent q hq
    · exact List.mem_singleton.mp hq ▸ hsent
  · intro other hmem n hn
    obtain ⟨hdir', hnone'⟩ := hroom.listed other hmem n hn
    refine ⟨hdir', fun q hq => ?_⟩
    rcases List.mem_append.mp hq with hq | hq
    · exact hnone' q hq
    · -- No server has members in `m` any more: it would have the id of server `i`.
      obtain rfl := List.mem_singleton.mp hq
      intro heq
      obtain rfl := Option.some.inj (hp.symm.trans heq)
      rcases Slots.mem_of_set (f := RoomServer.id) h.ids hi hmem with rfl | ⟨-, hne⟩
      · exact hn hempty
      · exact hne (Option.some.inj (hdir'.symm.trans hdir))
  · intro n
    rw [List.countP_append]
    by_cases hnm : n = m
    · subst hnm
      have hzero : s.net.countP (·.destroys = some n) = 0 :=
        List.countP_eq_zero.mpr fun q hq => by simpa using hnone q hq
      simp [hzero, hp]
    · have hle := h.once n
      have hne : p.destroys ≠ some n := fun heq => hnm (Option.some.inj (heq.symm.trans hp))
      simpa [hne] using hle
  · intro q hq n hn
    rcases List.mem_append.mp hq with hq | hq
    · exact h.noticed q hq n hn
    · obtain rfl := List.mem_singleton.mp hq
      obtain rfl := Option.some.inj (hp.symm.trans hn)
      show (s.directory.load m).isSome
      rw [← Option.isSome_map, hdir]
      rfl

theorem listed_roomSvr {p : Packet} (h : Listed s) (hok : Timely s (.deliver k env))
    (hp : s.net[k]? = some p) (hdest : p.dest = .roomSvr i) (hi : s.roomSvrs[i]? = some srv)
    (hd : RoomSvr.server.dispatch srv.st ⟨p.msgID, p.data, p.conn, env⟩ = d)
    (he : emptied = srv.emptied ∪ becameEmpty srv.st.app d.1.app) :
    Listed { s with
      roomSvrs := s.roomSvrs.set i { srv with st := d.1, emptied }
      net := s.net.eraseIdx k ++ (d.2.filterMap pushOf).map (packetOf i emptied) } := by
  have hrest : Listed { s with net := s.net.eraseIdx k } :=
    listed_kept h rfl rfl (List.eraseIdx_sublist s.net k)
  have hshort := (h.sent p (List.mem_of_getElem? hp)).short i hdest
  have hchange := roomChange srv.st ⟨p.msgID, p.data, p.conn, env⟩
  rw [hd] at hchange
  cases hchange with
  | kept hm ho =>
    rw [ho, List.map_nil, List.append_nil]
    refine listed_room (m := "") hrest hi rfl (fun n _ => hm n) fun hne => ?_
    rw [hm] at hne
    exact hrest.listed srv (List.mem_of_getElem? hi) "" hne
  | @joined m hid hname hother ho =>
    rw [ho, List.map_nil, List.append_nil]
    refine listed_room hrest hi rfl hother fun _ => ?_
    by_cases hold : members srv.st.app m = []
    · have htimely := hok p hp
      rw [hdest] at htimely
      obtain ⟨hdir, hnone⟩ := htimely hid srv hi m hname hold
      exact ⟨hdir, fun q hq => hnone q (List.mem_of_mem_eraseIdx hq)⟩
    · exact hrest.listed srv (List.mem_of_getElem? hi) m hold
  | left hold hm hother ho =>
    rw [ho, List.map_nil, List.append_nil]
    exact listed_room hrest hi rfl hother fun _ => hrest.listed srv (List.mem_of_getElem? hi) _ hold
  | @emptied m hname hold hm hother ho =>
    rcases ho with ho | ho
    · rw [ho, List.map_nil, List.append_nil]
      exact listed_room hrest hi rfl hother fun hne => absurd hm hne
    · have hsent : Sent (packetOf i emptied (msgIdRoomDestroyedPush, m)) :=
        sent_roomSvr (i := i) hshort hd he (by simp [ho])
      rw [ho]
      have hdestroys :=
        destroys_packetOf (Nat.lt_of_le_of_lt (length_namedMatch hname) hshort) i emptied
      exact listed_notice hrest hi rfl hother hold hm hdestroys hsent

theorem listed_sent (h : Listed s) (hp : Sent p) (hnone : p.destroys = none) :
    Listed { s with net := s.net ++ [p] } := by
  have hmem {P : Packet → Prop} (hold : ∀ q ∈ s.net, P q) (hnew : P p) :
      ∀ q ∈ s.net ++ [p], P q := by
    intro q hq
    rcases List.mem_append.mp hq with hq | hq
    · exact hold q hq
    · exact List.mem_singleton.mp hq ▸ hnew
  refine ⟨h.ids, hmem h.sent hp, fun srv hsrv m hm => ?_, fun m => ?_,
    hmem h.noticed (by simp [hnone])⟩
  · obtain ⟨hdir, hother⟩ := h.listed srv hsrv m hm
    exact ⟨hdir, hmem hother (by simp [hnone])⟩
  · have hle := h.once m
    simpa [List.countP_append, hnone] using hle

theorem listed_step (h : Listed s) (he : ByClients e) (hok : Timely s e) (hs : step s e = some s') :
    Listed s' := by
  cases stepped hs with
  | sent horigin hid hlen =>
    refine listed_sent h (sent_client horigin hlen) (if_neg fun hcond => ?_)
    exact he (hid.symm.trans hcond.2)
  | ignored => exact h
  | matchSvr env hp hdest hm => exact listed_matchSvr h hok hp hdest hm rfl rfl
  | roomSvr env hp hdest hi hd hemptied => exact listed_roomSvr h hok hp hdest hi hd hemptied
  | answered => exact listed_kept h rfl rfl (List.Sublist.refl _)

end RoomSvr

/-- Every room in use is listed with its server, so no match is in use on two of them. -/
theorem rooms_listed {s : State} (hids : serverIDs.Nodup) (hes : ∀ e ∈ es, ByClients e)
    (ha : Along step Timely (fresh serverIDs) es) (hr : run step (fresh serverIDs) es = some s) :
    (∀ m (i j : Nat), ∀ srv ∈ s.roomSvrs[i]?, ∀ srv' ∈ s.roomSvrs[j]?,
      members srv.st.app m ≠ [] → members srv'.st.app m ≠ [] → i = j) ∧
    (∀ m, ∀ srv ∈ s.roomSvrs, members srv.st.app m ≠ [] →
      (s.directory.load m).map (·.serverID) = some srv.id) := by
  have hok : Along step (fun s e => ByClients e ∧ Timely s e) (fresh serverIDs) es :=
    (Run.along_of_forall (fun e he _ => hes e he) _).and ha
  have h : Listed s :=
    Run.invariant (fun _ _ _ h hok hs => listed_step h hok.1 hok.2 hs) (listed_fresh hids) hok hr
  refine ⟨fun m i j srv hi srv' hj hm hm' => ?_, fun m srv hsrv hm => (h.listed srv hsrv m hm).1⟩
  rw [Option.mem_def] at hi hj
  have hdir := (h.listed srv (List.mem_of_getElem? hi) m hm).1
  have hdir' := (h.listed srv' (List.mem_of_getElem? hj) m hm').1
  have hid : srv.id = srv'.id := Option.some.inj (hdir.symm.trans hdir')
  have hlt : i < (s.roomSvrs.map (·.id)).length := by
    rw [List.length_map]
    exact (List.getElem?_eq_some_iff.mp hi).1
  exact (List.getElem?_inj hlt h.ids).mp (by simp [hi, hj, hid])

-- Client 1 allocates match "m" and joins it on the server of the answer.
def answered : List Event :=
  [clientSends 1 (aboutM msgIdMatchAllocateReq) 0, .deliver 0 services, .answer 0,
   clientSends 1 (aboutM msgIdRoomJoinReq) 0, .deliver 0 services]

theorem answered_listed :
    ∃ s, run step shipped answered = some s ∧
      (s.roomSvrs.map fun srv => (members srv.st.app "m").length) = [1, 0] ∧
      (∀ m, ∀ srv ∈ s.roomSvrs, members srv.st.app m ≠ [] →
        (s.directory.load m).map (·.serverID) = some srv.id) := by
  have hsome : ∃ s ∈ run step shipped answered,
      (s.roomSvrs.map fun srv => (members srv.st.app "m").length) = [1, 0] := by decide +kernel
  obtain ⟨s, hs, hlen⟩ := hsome
  exact ⟨s, hs, hlen, (rooms_listed (by decide) (by decide) (by decide +kernel) hs).2⟩

-- Clients 1 and 2 learn the server of "m". Client 1 joins and leaves, MatchSvr handles the
-- notice, and then client 2 joins.
def lateJoin : List Event :=
  [clientSends 1 (aboutM msgIdMatchAllocateReq) 0, .deliver 0 services, .answer 0,
   clientSends 2 (aboutM msgIdMatchQueryReq) 0, .deliver 0 services, .answer 0,
   clientSends 1 (aboutM msgIdRoomJoinReq) 0, .deliver 0 services,
   clientSends 1 (aboutM msgIdRoomLeaveReq) 0, .deliver 0 services, .deliver 0 services,
   clientSends 2 (aboutM msgIdRoomJoinReq) 0, .deliver 0 services]

-- Client 3 allocates another match and then "m", which now gets the other server.
def twice : List Event :=
  lateJoin ++
  [clientSends 3 ⟨msgIdMatchAllocateReq, marshalMatchId "n", by decide +kernel⟩ 0,
    .deliver 0 services, .answer 0,
   clientSends 3 (aboutM msgIdMatchAllocateReq) 0, .deliver 0 services, .answer 0,
   clientSends 3 (aboutM msgIdRoomJoinReq) 1, .deliver 0 services]

/-- The room in use is not in the directory, and then the match is in use on two servers. -/
theorem lateJoin_unlisted :
    Along step Follows shipped twice ∧ (∀ e ∈ twice, ByClients e) ∧
      (∃ s ∈ run step shipped lateJoin, s.net = [] ∧ s.answers = [] ∧
        (s.roomSvrs.map fun srv => (members srv.st.app "m").length) = [1, 0] ∧
        s.directory.load "m" = none) ∧
      (∃ s ∈ run step shipped twice, s.net = [] ∧ s.answers = [] ∧
        (s.roomSvrs.map fun srv => (members srv.st.app "m").length) = [1, 1]) := by
  refine ⟨by decide +kernel, by decide, by decide +kernel, by decide +kernel⟩

end Cardwar.System.Directory
