import Cardwar.Conf
import Cardwar.Lib.Run

/-!
# Watching the configuration file

`Load` replaces `GlobalConfig` by an empty configuration before it reads the
file, and decodes into it. When it fails, `Watch` logs the error and goes on,
with what `Load` left.
-/

namespace Cardwar.Conf

open Run (Along total)

/-- What reading and decoding the file gives. A file that does not decode leaves
the fields decoded up to there. -/
inductive File
  | unreadable
  | malformed (decoded : Config)
  | valid (cfg : Config)

def Config.empty : Config := ⟨∅, ⟨[], List.nodup_nil⟩⟩

/-- `Load`: the new `GlobalConfig`, and whether there was no error. -/
def load : File → Config × Bool
  | .unreadable => (.empty, false)
  | .malformed decoded => (decoded, false)
  | .valid cfg => (cfg, true)

def fsnotifyCreate : UInt32 := 1
def fsnotifyWrite : UInt32 := 2

inductive WatchEvent
  | event (op : UInt32) (file : File)
  | error

structure Watcher where
  globalConfig : Config
  /-- The configurations `onReload` was called with, in order. -/
  reloaded : List Config := []

/-- One turn of `Watch`'s loop. -/
def Watcher.step (w : Watcher) : WatchEvent → Watcher
  | .event op file =>
    if op &&& (fsnotifyWrite ||| fsnotifyCreate) = 0 then w
    else match load file with
      | (cfg, false) => { w with globalConfig := cfg }
      | (cfg, true) => { globalConfig := cfg, reloaded := w.reloaded ++ [cfg] }
  | .error => w

def WatchEvent.loads : WatchEvent → Option File
  | .event op file => if op &&& (fsnotifyWrite ||| fsnotifyCreate) = 0 then none else some file
  | .error => none

-- The watcher, and the configurations that loaded after the first one.
structure Watched where
  first : Config
  watcher : Watcher
  loaded : List Config := []

def watched (cfg : Config) : Watched := { first := cfg, watcher := { globalConfig := cfg } }

def Watched.step (s : Watched) (ev : WatchEvent) : Watched :=
  { s with
    watcher := s.watcher.step ev
    loaded := match ev.loads with
      | some (.valid cfg) => s.loaded ++ [cfg]
      | _ => s.loaded }

def Watched.last (s : Watched) : Config := s.loaded.getLastD s.first

/-- `GlobalConfig` is the last configuration that loaded, and `onReload` was
called for each that did. -/
def InForce (s : Watched) : Prop := s.watcher.globalConfig = s.last ∧ s.watcher.reloaded = s.loaded

/-- A reload that fails leaves the configuration there was. -/
def FailsAlike (s : Watched) (ev : WatchEvent) : Prop :=
  match ev.loads with
  | some .unreadable => s.watcher.globalConfig = .empty
  | some (.malformed decoded) => s.watcher.globalConfig = decoded
  | _ => True

theorem step_of_loads (w : Watcher) (ev : WatchEvent) :
    w.step ev = match ev.loads with
      | none => w
      | some (.valid cfg) => { globalConfig := cfg, reloaded := w.reloaded ++ [cfg] }
      | some file => { w with globalConfig := (load file).1 } := by
  cases ev with
  | error => rfl
  | event op file =>
    simp only [Watcher.step, WatchEvent.loads]
    split
    · rfl
    · cases file <;> rfl

theorem inForce_step (h : InForce s) : InForce (s.step ev) ↔ FailsAlike s ev := by
  obtain ⟨hlast, hcalls⟩ := h
  -- A failed load changes neither what loaded last nor the calls.
  have hfail :
      ∀ cfg, cfg = s.last ∧ s.watcher.reloaded = s.loaded ↔ s.watcher.globalConfig = cfg := by
    intro cfg
    rw [and_iff_left hcalls, hlast, eq_comm]
  unfold FailsAlike InForce Watched.step
  rw [step_of_loads]
  cases ev.loads with
  | none => exact iff_of_true ⟨hlast, hcalls⟩ trivial
  | some file =>
    cases file with
    | unreadable => exact hfail .empty
    | malformed decoded => exact hfail decoded
    | valid cfg =>
      refine iff_of_true ⟨?_, congrArg (· ++ [cfg]) hcalls⟩ trivial
      simp [Watched.last]

/-- After every event `GlobalConfig` is the last configuration that loaded, and
`onReload` was called for each that did, exactly if every reload that fails
leaves the configuration there was. -/
theorem inForce_iff (cfg : Config) (evs : List WatchEvent) :
    (∀ pre, pre <+: evs → InForce (pre.foldl Watched.step (watched cfg))) ↔
      Along (total Watched.step) FailsAlike (watched cfg) evs :=
  Run.prefixes_iff (I := fun _ => True) (fun _ _ _ => trivial)
    (fun _ _ _ h => inForce_step h) trivial
    ⟨rfl, rfl⟩

theorem reloaded_eq (cfg : Config) (evs : List WatchEvent) :
    (evs.foldl Watched.step (watched cfg)).watcher.reloaded =
      (evs.foldl Watched.step (watched cfg)).loaded := by
  refine List.foldlRecOn (motive := fun s : Watched => s.watcher.reloaded = s.loaded) evs _ rfl
    fun s h ev _ => ?_
  rw [Watched.step, step_of_loads]
  cases ev.loads with
  | none => exact h
  | some file =>
    cases file with
    | unreadable => exact h
    | malformed decoded => exact h
    | valid cfg => exact congrArg (· ++ [cfg]) h

def shipped : Config where
  services := (∅ : SyncMap String (List ServerNode)).store svcRoomSvr shippedRoomSvrs
  gateway := shippedGateway

/-- A write event finds the file gone: no RoomSvr is configured any more. -/
theorem unreadable_empties :
    let s := Watched.step (watched shipped) (.event fsnotifyWrite .unreadable)
    s.last.servers svcRoomSvr = shippedRoomSvrs ∧ s.watcher.globalConfig.servers svcRoomSvr = [] ∧
      ¬ InForce s := by
  have hlast :
      (Watched.step (watched shipped) (.event fsnotifyWrite .unreadable)).last.servers svcRoomSvr =
      shippedRoomSvrs := by decide
  have hnow : (Watched.step (watched shipped)
      (.event fsnotifyWrite .unreadable)).watcher.globalConfig.servers
      svcRoomSvr = [] := by decide
  refine ⟨hlast, hnow, fun h => ?_⟩
  rw [h.1, hlast] at hnow
  cases hnow

end Cardwar.Conf
