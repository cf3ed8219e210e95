import Cardwar.Persist.Store
import Mathlib

/-!
# The journal file

`replayJournal` reads `journal.log` with a `bufio.Scanner` line by line and stops
at the first line that is too long or that `Replay` refuses; `OpenStore` logs that
and opens the file for appending where it ends. A crash in the middle of a write
leaves a line without its end, and the next `Append` continues that line. So what
is appended after such a crash is lost with the torn entry (`torn_replayed_iff`).

What an entry is does not matter here: `parses` says on which lines `Replay`
returns nil.
-/

namespace Cardwar.Persist.Journal

abbrev Bytes := List UInt8

def newline : UInt8 := 10

def carriageReturn : UInt8 := 13

/-- `bufio.MaxScanTokenSize`. A line and its newline have to fit. -/
def maxScanTokenSize : Nat := 64 * 1024

/-- What `bufio.ScanLines` splits the data at. The data after the last newline
is a line if there is any. -/
def rawLines (data : Bytes) : List Bytes :=
  let pieces := data.splitOnP (· == newline)
  if pieces.getLast? = some [] then pieces.dropLast else pieces

def dropCR (line : Bytes) : Bytes :=
  if line.getLast? = some carriageReturn then line.dropLast else line

inductive ReplayError
  /-- "persist: journal scan: bufio.Scanner: token too long" -/
  | scan
  /-- "persist: replay entry %d: %w" -/
  | entry (count : Nat)
  deriving DecidableEq

structure Replayed where
  /-- The entries for which `Replay` returned nil. -/
  entries : List Bytes := []
  error : Option ReplayError := none
  deriving DecidableEq

section
variable (parses : Bytes → Bool)

/-- The loop of `replayJournal` over the lines that are left. -/
def replayLines (count : Nat) : List Bytes → Replayed
  | [] => {}
  | line :: lines =>
    if maxScanTokenSize ≤ line.length then { error := some .scan }
    else
      let token := dropCR line
      if token = [] then replayLines count lines
      else if parses token then
        let rest := replayLines (count + 1) lines
        { rest with entries := token :: rest.entries }
      else { error := some (.entry count) }

def replayJournal (journal : Bytes) : Replayed := replayLines parses 0 (rawLines journal)

structure Opened where
  replayed : Replayed
  journal : Bytes
  deriving DecidableEq

/-- An error of `replayJournal` is logged. The file is opened with `O_APPEND`:
what is in it stays. -/
def openStore (journal : Bytes) : Opened := ⟨replayJournal parses journal, journal⟩

/-- `Append`, the write going through. -/
def append (journal entry : Bytes) : Bytes := journal ++ (entry ++ [newline])

def written (entries : List Bytes) : Bytes := entries.flatMap (· ++ [newline])

/-- An entry that parses and that the scanner gives back as it was written. -/
structure Valid (entry : Bytes) : Prop where
  parses : parses entry = true
  newline : newline ∉ entry
  short : entry.length < maxScanTokenSize
  nonempty : entry ≠ []
  ending : entry.getLast? ≠ some carriageReturn

instance (entry : Bytes) : Decidable (Valid parses entry) :=
  decidable_of_iff
    (parses entry = true ∧ newline ∉ entry ∧ entry.length < maxScanTokenSize ∧ entry ≠ [] ∧
      entry.getLast? ≠ some carriageReturn)
    ⟨fun ⟨h, hn, hs, hne, he⟩ => ⟨h, hn, hs, hne, he⟩, fun ⟨h, hn, hs, hne, he⟩ =>
      ⟨h, hn, hs, hne, he⟩⟩

theorem foldl_append (journal : Bytes) (entries : List Bytes) :
    entries.foldl append journal = journal ++ written entries := by
  induction entries generalizing journal with
  | nil => simp [written]
  | cons e entries ih => simp [ih, append, written]

theorem splitOnP_written (h : ∀ e ∈ entries, newline ∉ e) (ht : newline ∉ rest) :
    (written entries ++ rest).splitOnP (· == newline) = entries ++ [rest] := by
  have hfree : ∀ e : Bytes, newline ∉ e → ∀ b ∈ e, (b == newline) = false := by
    intro e he b hb
    simp only [beq_eq_false_iff_ne]
    rintro rfl
    exact he hb
  induction entries with
  | nil => exact List.splitOnP_eq_singleton (hfree rest ht)
  | cons e entries ih =>
    obtain ⟨he, h⟩ := List.forall_mem_cons.mp h
    have hsplit : written (e :: entries) ++ rest = e ++ newline :: (written entries ++ rest) := by
      simp [written]
    rw [hsplit, List.splitOnP_append_cons_of_forall_mem (hfree e he) newline rfl, ih h]
    rfl

theorem rawLines_written (h : ∀ e ∈ entries, newline ∉ e) :
    rawLines (written entries) = entries := by
  have hsplit : (written entries ++ []).splitOnP (· == newline) = entries ++ [[]] :=
    splitOnP_written h List.not_mem_nil
  rw [List.append_nil] at hsplit
  simp [rawLines, hsplit]

theorem rawLines_torn (h : ∀ e ∈ entries, newline ∉ e) (ht : newline ∉ torn) (hne : torn ≠ []) :
    rawLines (written entries ++ torn) = entries ++ [torn] := by
  simp [rawLines, splitOnP_written h ht, hne]

variable {parses}

theorem replayLines_valid (h : ∀ e ∈ entries, Valid parses e) (count : Nat) (lines : List Bytes) :
    (replayLines parses count (entries ++ lines)).entries =
      entries ++ (replayLines parses (count + entries.length) lines).entries := by
  induction entries generalizing count with
  | nil => rfl
  | cons e entries ih =>
    obtain ⟨he, h⟩ := List.forall_mem_cons.mp h
    have hlen : ¬ maxScanTokenSize ≤ e.length := Nat.not_le.mpr he.short
    have hcr : dropCR e = e := if_neg he.ending
    simp only [List.cons_append, replayLines, hlen, ↓reduceIte, hcr, he.nonempty, he.parses]
    rw [ih h, List.length_cons, Nat.add_right_comm, Nat.add_assoc]

theorem replayJournal_written (h : ∀ e ∈ entries, Valid parses e) :
    (replayJournal parses (written entries)).entries = entries := by
  have hread := replayLines_valid h 0 []
  rw [List.append_nil] at hread
  rw [replayJournal, rawLines_written fun e he => (h e he).newline, hread]
  exact List.append_nil entries

/-- `OpenStore` on the files, with a `Replay` that decodes the line. -/
def recoverFile (app : Application σ ε β) (decode : Bytes → Option ε) (snapshot : Option β)
    (journal : Bytes) : σ :=
  (replayJournal (fun line => (decode line).isSome) journal).entries.foldl
    (fun s line => (decode line).elim s (app.replay s)) (loaded app { snapshot })

theorem foldl_decode {encode : ε → Bytes} {decode : Bytes → Option ε} (app : Application σ ε β)
    (ops : List (Op ε))
    (hdecode : ∀ op ∈ ops, decode (encode op.entry) = some op.entry) (s : σ) :
    (ops.map fun op => encode op.entry).foldl
      (fun s line => (decode line).elim s (app.replay s)) s =
      ops.foldl (fun s op => app.replay s op.entry) s := by
  induction ops generalizing s with
  | nil => rfl
  | cons op ops ih =>
    obtain ⟨hop, hops⟩ := List.forall_mem_cons.mp hdecode
    rw [List.map_cons, List.foldl_cons, List.foldl_cons, hop, Option.elim_some, ih hops]

/-- The lines of the store's journal are what `replayJournal` reads in the file, if
they all fit the scanner. -/
theorem recover_eq_recoverFile {encode : ε → Bytes} {decode : Bytes → Option ε}
    (app : Application σ ε β) (dir : Dir ε β)
    (hdecode : ∀ op ∈ dir.journal, decode (encode op.entry) = some op.entry)
    (hvalid : ∀ op ∈ dir.journal, Valid (fun line => (decode line).isSome) (encode op.entry)) :
    recover app dir =
      recoverFile app decode dir.snapshot
        (written (dir.journal.map fun op => encode op.entry)) := by
  rw [recoverFile, replayJournal_written, foldl_decode app _ hdecode]
  · rfl
  · intro line hline
    obtain ⟨op, hop, rfl⟩ := List.mem_map.mp hline
    exact hvalid op hop

/-- What the scanner gives back as it was written, if it is not too long. -/
structure Framed (entry : Bytes) : Prop where
  newline : newline ∉ entry
  nonempty : entry ≠ []
  ending : entry.getLast? ≠ some carriageReturn

theorem replayLines_eq_iff (hp : ∀ line, parses line = true) (h : ∀ e ∈ entries, Framed e)
    (count : Nat) :
    replayLines parses count entries = ⟨entries, none⟩ ↔
      ∀ e ∈ entries, e.length < maxScanTokenSize := by
  induction entries generalizing count with
  | nil => simp [replayLines]
  | cons e entries ih =>
    obtain ⟨he, h⟩ := List.forall_mem_cons.mp h
    have hcr : dropCR e = e := if_neg he.ending
    rw [List.forall_mem_cons, ← ih h (count + 1)]
    by_cases hlen : maxScanTokenSize ≤ e.length
    · simp [replayLines, hlen, Nat.not_lt.mpr hlen]
    · simp only [replayLines, hlen, hcr, he.nonempty, hp, ↓reduceIte, Nat.not_le.mp hlen, true_and]
      cases replayLines parses (count + 1) entries
      simp

/-- What is appended to a new store is replayed without an error exactly if every
entry fits the scanner's buffer with its newline. -/
theorem appended_replayed_iff (hp : ∀ line, parses line = true) (h : ∀ e ∈ entries, Framed e) :
    replayJournal parses (entries.foldl append (openStore parses []).journal) = ⟨entries, none⟩ ↔
      ∀ e ∈ entries, e.length < maxScanTokenSize := by
  have hfile : entries.foldl append (openStore parses []).journal = written entries :=
    foldl_append [] entries
  rw [hfile, replayJournal, rawLines_written fun e he => (h e he).newline]
  exact replayLines_eq_iff hp h 0

theorem replayLines_refused (h : maxScanTokenSize ≤ line.length ∨ parses line = false)
    (hne : line ≠ [])
    (hcr : line.getLast? ≠ some carriageReturn) (count : Nat) (lines : List Bytes) :
    (replayLines parses count (line :: lines)).entries = [] := by
  have hdrop : dropCR line = line := if_neg hcr
  simp only [replayLines, hdrop, hne, ↓reduceIte]
  rcases h with h | h
  · rw [if_pos h]
  · split
    · rfl
    · simp [h]

theorem replayLines_append_refused (h : maxScanTokenSize ≤ line.length ∨ parses line = false)
    (hne : line ≠ [])
    (hcr : line.getLast? ≠ some carriageReturn) (count : Nat) (before after : List Bytes) :
    (replayLines parses count (before ++ line :: after)).entries =
      (replayLines parses count before).entries := by
  induction before generalizing count with
  | nil => exact replayLines_refused h hne hcr count after
  | cons e before ih =>
    simp only [List.cons_append, replayLines]
    split
    · rfl
    · split
      · exact ih count
      · split
        · rw [ih]
        · rfl

theorem replayLines_takeWhile (h : ∀ e ∈ entries, Framed e ∧ parses e = true) (count : Nat) :
    (replayLines parses count entries).entries = entries.takeWhile
      (·.length < maxScanTokenSize) := by
  induction entries generalizing count with
  | nil => rfl
  | cons e entries ih =>
    obtain ⟨⟨he, hparses⟩, h⟩ := List.forall_mem_cons.mp h
    have hcr : dropCR e = e := if_neg he.ending
    by_cases hlen : maxScanTokenSize ≤ e.length
    · simp [replayLines, hlen]
    · simp [replayLines, hlen, hcr, he.nonempty, hparses, ih h, Nat.not_le.mp hlen]

/-- Complete entries, a torn one, and entries appended after it: the first of
these is read as one line with the torn one. -/
theorem rawLines_continued (h₁ : ∀ x ∈ E₁, Valid parses x) (ht : newline ∉ torn)
    (he : Valid parses e) (h₂ : ∀ x ∈ E₂, Valid parses x) :
    rawLines (written E₁ ++ torn ++ written (e :: E₂)) = E₁ ++ (torn ++ e) :: E₂ := by
  have hbytes : written E₁ ++ torn ++ written (e :: E₂) = written (E₁ ++ (torn ++ e) :: E₂) := by
    simp [written]
  rw [hbytes]
  refine rawLines_written fun line hl => ?_
  rcases List.mem_append.mp hl with hl | hl
  · exact (h₁ line hl).newline
  · rcases List.mem_cons.mp hl with rfl | hl
    · rw [List.mem_append, not_or]
      exact ⟨ht, he.newline⟩
    · exact (h₂ line hl).newline

theorem continued_lost (h₁ : ∀ x ∈ E₁, Valid parses x) (ht : newline ∉ torn) (hne : torn ≠ [])
    (he : Valid parses e) (h₂ : ∀ x ∈ E₂, Valid parses x) :
    ¬ (E₁ ++ e :: E₂).Sublist
      (replayJournal parses (written E₁ ++ torn ++ written (e :: E₂))).entries := by
  have hend : (torn ++ e).getLast? ≠ some carriageReturn := by
    rw [List.getLast?_append_of_ne_nil _ he.nonempty]
    exact he.ending
  rw [replayJournal, rawLines_continued h₁ ht he h₂, replayLines_valid h₁,
    List.append_sublist_append_left]
  by_cases hrefused : maxScanTokenSize ≤ (torn ++ e).length ∨ parses (torn ++ e) = false
  · rw [replayLines_refused hrefused (by simp [hne]) hend]
    simp
  · -- The line is an entry of its own, and not the one that was appended.
    have hline : Valid parses (torn ++ e) :=
      { parses := by simpa using fun h => hrefused (.inr h)
        newline := by simp [ht, he.newline]
        short := Nat.not_le.mp fun h => hrefused (.inl h)
        nonempty := by simp [hne]
        ending := hend }
    have hread := replayLines_valid (List.forall_mem_cons.mpr ⟨hline, h₂⟩) (0 + E₁.length) []
    rw [List.append_nil] at hread
    rw [hread]
    intro hsub
    have heq := hsub.eq_of_length (by simp [replayLines])
    simp [hne] at heq

/-- After a torn write, the next opening replays everything that was written
before it and everything that was appended since exactly if that is nothing: the
replay stops at the line the torn entry shares with the first entry after it, or
takes that line for an entry. -/
theorem torn_replayed_iff (h₁ : ∀ e ∈ E₁, Valid parses e) (hlast : Valid parses last)
    (hp : torn <+: last) (hne : torn ≠ []) (h₂ : ∀ e ∈ E₂, Valid parses e) :
    let crashed := openStore parses (written E₁ ++ torn)
    (E₁ ++ E₂).Sublist (openStore parses (E₂.foldl append crashed.journal)).replayed.entries ↔
      E₂ = [] := by
  intro crashed
  have ht : newline ∉ torn := fun hmem => hlast.newline (hp.subset hmem)
  have hfile : E₂.foldl append crashed.journal = written E₁ ++ torn ++ written E₂ :=
    foldl_append _ _
  rw [hfile]
  cases E₂ with
  | nil =>
    have hnl : ∀ e ∈ E₁, newline ∉ e := fun e he => (h₁ e he).newline
    simp only [openStore, replayJournal, written, List.flatMap_nil, List.append_nil, iff_true]
    rw [← written, rawLines_torn hnl ht hne, replayLines_valid h₁]
    exact List.sublist_append_left _ _
  | cons e E₂ =>
    obtain ⟨he, hrest⟩ := List.forall_mem_cons.mp h₂
    exact iff_of_false (continued_lost h₁ ht hne he hrest) (List.cons_ne_nil e E₂)

end

def ascii (s : String) : Bytes := s.toUTF8.data.toList

def flatObject (line : Bytes) : Bool :=
  line.head? = some 123 && line.getLast? = some 125 && ((line.drop 1).dropLast).all fun b =>
    b ≠ 123 && b ≠ 125

def saved : Bytes := ascii "\x7b\"op\":\"save\",\"player_id\":7\x7d"

def disconnected : Bytes := ascii "\x7b\"op\":\"disconnect\",\"player_id\":7\x7d"

def reconnected : Bytes := ascii "\x7b\"op\":\"reconnect\",\"player_id\":7\x7d"

theorem saved_kept :
    ([saved] ++ []).Sublist
      (openStore flatObject (written [saved] ++ disconnected.take 10)).replayed.entries := by
  have h : ∀ e ∈ [saved], Valid flatObject e := by decide +kernel
  have hlast : Valid flatObject disconnected := by decide +kernel
  exact (torn_replayed_iff h hlast (List.take_prefix 10 disconnected) (by decide +kernel)
    (by simp)).mpr rfl

/-- A crash after ten bytes of the disconnect. The reconnect appended to that line
and the disconnect after it are lost, with the entry the crash tore. -/
theorem appended_lost :
    (∀ e ∈ [saved, disconnected, reconnected], Valid flatObject e) ∧
      openStore flatObject
          ([reconnected, disconnected].foldl append
            (openStore flatObject (written [saved] ++ disconnected.take 10)).journal) =
        ⟨⟨[saved], some (.entry 1)⟩,
          written [saved] ++ disconnected.take 10 ++ written [reconnected, disconnected]⟩ := by
  decide +kernel

theorem short_replayed :
    replayJournal
      (fun _ => true) ([saved, disconnected].foldl append (openStore (fun _ => true) []).journal) =
      ⟨[saved, disconnected], none⟩ := by
  have h : ∀ e ∈ [saved, disconnected], Framed e := by
    have hvalid : ∀ e ∈ [saved, disconnected], Valid flatObject e := by decide +kernel
    exact fun e he => ⟨(hvalid e he).newline, (hvalid e he).nonempty, (hvalid e he).ending⟩
  exact (appended_replayed_iff (fun _ => rfl) h).mpr (by decide +kernel)

def oversized : Bytes := List.replicate maxScanTokenSize 97

/-- The entry is not read back, and neither is the one appended after it. -/
theorem oversized_hides :
    (∀ e ∈ [oversized, saved], Framed e) ∧
      replayJournal
        (fun _ => true) ([oversized, saved].foldl append (openStore (fun _ => true) []).journal) =
        ⟨[], some .scan⟩ := by
  have hover : Framed oversized := by
    refine ⟨fun h => ?_, ?_, ?_⟩
    · exact absurd (List.eq_of_mem_replicate h) (by decide)
    · rw [oversized, Ne, List.replicate_eq_nil_iff]
      decide
    · rw [oversized, List.getLast?_replicate, if_neg (by decide)]
      decide
  have hsaved : Valid flatObject saved := by decide +kernel
  have h : ∀ e ∈ [oversized, saved], Framed e := by
    rw [List.forall_mem_cons, List.forall_mem_singleton]
    exact ⟨hover, hsaved.newline, hsaved.nonempty, hsaved.ending⟩
  have hfile :
      [oversized, saved].foldl append (openStore (fun _ => true) []).journal =
        written [oversized, saved] :=
    foldl_append [] _
  have hlen : maxScanTokenSize ≤ oversized.length := by simp [oversized]
  refine ⟨h, ?_⟩
  rw [hfile, replayJournal, rawLines_written fun e he => (h e he).newline, replayLines, if_pos hlen]

end Cardwar.Persist.Journal
