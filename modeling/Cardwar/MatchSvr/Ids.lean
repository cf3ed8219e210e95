import Cardwar.MatchSvr.Placement

/-!
# Match ids

The ids of the directory have two sources. A client chooses the id of a match it
allocates, and `handleAllocate` looks whether it is taken. `matchPool` makes an id
of the match type and the clock, and stores it without a look. An entry is never
overwritten, and no two groups of players are told the same id, exactly if the
made ids are of neither source yet (`keeps_iff_unused`).
-/

namespace Cardwar.MatchSvr.Ids

open Protocol Codec Pkg
open Run (Along total)

/-- The router with the ids that players were told in a MatchResultPush, and those
that were allocated and not destroyed since. -/
structure Seen where
  st : Matches := {}
  told : List String := []
  allocated : List String := []

def formedIDs (as : List Announcement) : List String :=
  as.filterMap fun
    | .formed m _ => some m
    | .allocated _ _ => none

def allocatedIDs (as : List Announcement) : List String :=
  as.filterMap fun
    | .formed _ _ => none
    | .allocated m _ => some m

def see (s : Seen) (request : Request) : Seen :=
  let (st, outs) := handle s.st request
  { st
    told := s.told ++ formedIDs (announced outs)
    allocated := s.allocated.filter (destroyedID request ≠ some ·) ++ allocatedIDs
      (announced outs) }

/-- Entries stay as they are until they are destroyed, and a match that is formed
gets an id that no entry has and nobody was told. -/
structure Keeps (s : Seen) (request : Request) : Prop where
  kept : ∀ m dir, s.st.activeMatches.load m = some dir → destroyedID request ≠ some m →
    (see s request).st.activeMatches.load m = some dir
  new : ∀ m ∈ formedIDs (announced (handle s.st request).2), s.st.activeMatches.load m = none ∧
    m ∉ s.told

/-- The type and the clock make an id that was made for no match before, and that
no client has allocated. -/
def Unused (s : Seen) (request : Request) : Prop :=
  ∀ m ∈ generatedID s.st request, m ∉ s.told ∧ m ∉ s.allocated

/-- Every entry has one of the two sources. -/
structure Sourced (s : Seen) : Prop where
  source : ∀ m, s.st.activeMatches.load m ≠ none → m ∈ s.told ∨ m ∈ s.allocated
  live : ∀ m ∈ s.allocated, s.st.activeMatches.load m ≠ none

theorem formedIDs_replicate (n : Nat) (m server : String) :
    formedIDs (List.replicate n (.formed m server)) = List.replicate n m := by
  simp [formedIDs]

theorem allocatedIDs_replicate (n : Nat) (m server : String) :
    allocatedIDs (List.replicate n (.formed m server)) = [] := by
  simp [allocatedIDs]

theorem mem_filter_destroyed {ids : List String} :
    m ∈ ids.filter (destroyedID request ≠ some ·) ↔ m ∈ ids ∧ destroyedID request ≠ some m := by
  simp

theorem Sourced.stored (h : Sourced s) (hm : st'.activeMatches = s.st.activeMatches.store m dir)
    (hnew : m ∈ told ∨ m ∈ allocated) (htold : ∀ j ∈ s.told, j ∈ told)
    (hold : ∀ j ∈ s.allocated, j ∈ allocated) (honly : ∀ j ∈ allocated, j ∈ s.allocated ∨ j = m) :
    Sourced ⟨st', told, allocated⟩ := by
  refine ⟨fun j hj => ?_, fun j hj => ?_⟩
  · dsimp only at hj
    rw [hm, SyncMap.load_store] at hj
    split at hj
    next heq => exact heq ▸ hnew
    next => exact (h.source j hj).imp (htold j) (hold j)
  · dsimp only
    rw [hm, SyncMap.load_store]
    split
    next => simp
    next hne => exact h.live j ((honly j hj).resolve_right hne)

theorem Sourced.removed (h : Sourced s) (hload : ∀ m, st'.activeMatches.load m ≠ none ↔
      s.st.activeMatches.load m ≠ none ∧ destroyedID request ≠ some m) :
    Sourced ⟨st', s.told ++ [], s.allocated.filter (destroyedID request ≠ some ·) ++ []⟩ := by
  rw [List.append_nil, List.append_nil]
  refine ⟨fun m hm => ?_, fun m hm => ?_⟩
  · obtain ⟨hold, hthere⟩ := (hload m).mp hm
    exact (h.source m hold).imp_right fun halloc => mem_filter_destroyed.mpr ⟨halloc, hthere⟩
  · obtain ⟨halloc, hthere⟩ := mem_filter_destroyed.mp hm
    exact (hload m).mpr ⟨h.live m halloc, hthere⟩

theorem sourced_see (h : Sourced s) (request : Request) : Sourced (see s request) := by
  have hsee : see s request =
      ⟨(handle s.st request).1, s.told ++ formedIDs (announced (handle s.st request).2),
      s.allocated.filter (destroyedID request ≠ some ·) ++ allocatedIDs
        (announced (handle s.st request).2)⟩ := rfl
  have hplace := placement s.st request
  rw [hsee]
  generalize (handle s.st request).1 = st' at hplace
  generalize announced (handle s.st request).2 = as at hplace
  cases hplace with
  | kept hgen hgone hm hl =>
    refine h.removed fun m => ?_
    rw [hm]
    exact ⟨fun hload => ⟨hload, fun hd => hload (hgone m hd)⟩, And.left⟩
  | @destroyed m dir hgen hgone hdir hm hl =>
    refine h.removed fun j => ?_
    rw [hm, SyncMap.load_delete, hgone]
    split
    next heq => simp [heq]
    next hne => simp [Ne.symm hne]
  | allocated hgen hgone hnone hserver hne hm hl =>
    refine h.stored hm (.inr (List.mem_append_right _ (List.mem_singleton_self _)))
      (fun j hj => List.mem_append_left _ hj) (fun j hj => ?_) (fun j hj => ?_)
    · exact List.mem_append_left _ (mem_filter_destroyed.mpr ⟨hj, by simp [hgone]⟩)
    · exact (List.mem_append.mp hj).imp (fun hold => (mem_filter_destroyed.mp hold).1)
        List.mem_singleton.mp
  | formed hgen hgone hserver n hm hl =>
    rw [formedIDs_replicate, allocatedIDs_replicate, List.append_nil]
    refine h.stored hm
      (.inl (List.mem_append_right _ (List.mem_replicate.mpr ⟨Nat.succ_ne_zero n, rfl⟩)))
      (fun j hj => List.mem_append_left _ hj) (fun j hj => ?_) (fun j hj => ?_)
    · exact mem_filter_destroyed.mpr ⟨hj, by simp [hgone]⟩
    · exact .inl (mem_filter_destroyed.mp hj).1

theorem keeps_iff (h : Sourced s) (request : Request) : Keeps s request ↔ Unused s request := by
  obtain ⟨st', as, hst, has⟩ : ∃ st' as, (handle s.st request).1 = st' ∧
    announced (handle s.st request).2 = as :=
    ⟨_, _, rfl, rfl⟩
  have hplace := placement s.st request
  have hsee : (see s request).st = st' := hst
  rw [hst, has] at hplace
  have hunused : generatedID s.st request = none → Unused s request := by
    intro hgen m hm
    cases hgen.symm.trans hm
  cases hplace with
  | kept hgen hgone hm hl =>
    refine iff_of_true ⟨fun m dir hdir _ => ?_, ?_⟩ (hunused hgen)
    · rw [hsee, hm]
      exact hdir
    · simp [has, formedIDs]
  | destroyed hgen hgone hdir hm hl =>
    refine iff_of_true ⟨fun m dir hdir hother => ?_, ?_⟩ (hunused hgen)
    · have hne : m ≠ _ := fun heq => hother (heq ▸ hgone)
      rw [hsee, hm, SyncMap.load_delete_ne _ hne]
      exact hdir
    · simp [has, formedIDs]
  | allocated hgen hgone hnone hserver hne hm hl =>
    refine iff_of_true ⟨fun m dir hdir _ => ?_, ?_⟩ (hunused hgen)
    · have hother : m ≠ _ := fun heq => by cases hnone.symm.trans (heq ▸ hdir)
      rw [hsee, hm, SyncMap.load_store_ne _ _ hother]
      exact hdir
    · simp [has, formedIDs]
  | @formed m serverID matchType hgen hgone hserver n hm hl =>
    have hids : ∀ j, j ∈ formedIDs (announced (handle s.st request).2) ↔ j = m := by
      intro j
      rw [has, formedIDs_replicate]
      simp
    constructor
    · intro hkeeps j hj
      obtain rfl := Option.some.inj (hgen.symm.trans hj)
      obtain ⟨hnone, htold⟩ := hkeeps.new m ((hids m).mpr rfl)
      exact ⟨htold, fun halloc => h.live m halloc hnone⟩
    · intro hun
      obtain ⟨htold, halloc⟩ := hun m hgen
      have hnone : s.st.activeMatches.load m = none := by
        by_contra hload
        exact (h.source m hload).elim htold halloc
      refine ⟨fun j dir hdir _ => ?_, fun j hj => ?_⟩
      · have hother : j ≠ m := fun heq => by cases hnone.symm.trans (heq ▸ hdir)
        rw [hsee, hm, SyncMap.load_store_ne _ _ hother]
        exact hdir
      · rw [(hids j).mp hj]
        exact ⟨hnone, htold⟩

theorem keeps_iff_unused (requests : List Request) :
    Along (total see) Keeps {} requests ↔ Along (total see) Unused {} requests := by
  have hempty : Sourced {} := ⟨by simp, by simp⟩
  refine Run.along_iff (I := Sourced) ?_ (fun s request h => keeps_iff h request) hempty
  rintro s request _ h - ⟨⟩
  exact sourced_see h request

-- A client allocates the id that a pool of two players gets when it is full.
def clash : List Request :=
  [placing msgIdMatchAllocateReq (marshalMatchId "match-1v1-20") 5, entering 7 1 3 10,
    entering 8 1 4 20]

theorem clash_overwrites :
    ((clash.take 2).foldl see {}).st.activeMatches.load "match-1v1-20" =
      some ⟨"roomsvr-1", "allocated"⟩ ∧
      (clash.foldl see {}).st.activeMatches.load "match-1v1-20" = some ⟨"roomsvr-2", "1v1"⟩ ∧
      ¬ Along (total see) Keeps {} clash := by
  have hbefore : ((clash.take 2).foldl see {}).st.activeMatches.load "match-1v1-20" =
      some ⟨"roomsvr-1", "allocated"⟩ := by decide +kernel
  have hafter :
      (clash.foldl see {}).st.activeMatches.load "match-1v1-20" = some ⟨"roomsvr-2", "1v1"⟩ := by
    decide +kernel
  refine ⟨hbefore, hafter, fun h => ?_⟩
  rw [clash, Run.along_total_cons, Run.along_total_cons, Run.along_total_cons] at h
  have hkept := h.2.2.1.kept _ _ hbefore (by decide +kernel)
  exact absurd (hkept.symm.trans hafter) (by decide)

end Cardwar.MatchSvr.Ids
