import Cardwar.Lib.Run
import Cardwar.Lib.Strconv
import Cardwar.Lib.SyncMap

/-!
# JSON text

Reading and writing the way `encoding/json` does. The reader is a machine that
takes a byte at a time and keeps the objects and arrays that are open on a
stack, so that what it makes of a text follows from where a first part of the
text leaves it. The writer escapes what is special in JSON, in HTML and in
JavaScript.

`Reads` says that the machine gets a value from a text wherever a value may
stand; it is closed under the forms the writer has. What is only a part of an
object, or a part with another object after it, is never read (`parse_part`,
`parse_glued`).
-/

namespace Cardwar.Json

open Run (run run_cons run_split)

abbrev Text := List UInt8

abbrev space : UInt8 := 32
abbrev quotationMark : UInt8 := 34
abbrev comma : UInt8 := 44
abbrev minus : UInt8 := 45
abbrev colon : UInt8 := 58
abbrev openBracket : UInt8 := 91
abbrev backslash : UInt8 := 92
abbrev closeBracket : UInt8 := 93
abbrev openBrace : UInt8 := 123
abbrev closeBrace : UInt8 := 125

def isSpace (b : UInt8) : Bool := b = space || b = 9 || b = 13 || b = 10

def isDigit (b : UInt8) : Bool := 48 ≤ b && b ≤ 57

-- ---------------------------------------------------------------------------
-- Strings
-- ---------------------------------------------------------------------------

def hexDigit (n : Nat) : UInt8 := (Nat.digitChar n).toUInt8

def unhex (b : UInt8) : Option Nat :=
  if 48 ≤ b && b ≤ 57 then some (b.toNat - 48)
  else if 97 ≤ b && b ≤ 102 then some (b.toNat - 87)
  else if 65 ≤ b && b ≤ 70 then some (b.toNat - 55)
  else none

def escapes : List (UInt8 × Char) :=
  [(quotationMark, '"'), (backslash, '\\'), (98, '\x08'), (102, '\x0c'), (110, '\n'),
    (114, '\r'), (116, '\t')]

def escapeU (n : Nat) : Text :=
  [backslash, 117, hexDigit (n / 4096 % 16), hexDigit (n / 256 % 16), hexDigit (n / 16 % 16),
    hexDigit (n % 16)]

def quoteChar (c : Char) : Text :=
  match escapes.find? (·.2 = c) with
  | some (letter, _) => [backslash, letter]
  | none =>
    if c.toNat < 32 ∨ c ∈ ['<', '>', '&', '\u2028', '\u2029'] then escapeU c.toNat
    else String.utf8EncodeChar c

def quote (s : String) : Text := quotationMark :: (s.toList.flatMap quoteChar ++ [quotationMark])

def getu4 : Text → Option Nat
  | 92 :: 117 :: a :: b :: c :: d :: _ => do
    return 4096 * (← unhex a) + 256 * (← unhex b) + 16 * (← unhex c) + (← unhex d)
  | _ => none

def isSurrogate (n : Nat) : Bool := 0xd800 ≤ n && n < 0xe000

def decodePair (high low : Nat) : Option Char :=
  if high < 0xdc00 ∧ 0xdc00 ≤ low ∧ low < 0xe000 then
    some (Char.ofNat (0x10000 + 0x400 * (high - 0xd800) + (low - 0xdc00)))
  else none

def replacementChar : Char := '\ufffd'

/-- The first character of what stands between quotation marks, and the rest. A
surrogate without its other half and a byte that is not UTF-8 are replaced. -/
def nextChar : Text → Option (Char × Text)
  | [] => none
  | b :: rest =>
    if b = backslash then
      match getu4 (b :: rest) with
      | some n =>
        let rest := rest.drop 5
        if isSurrogate n then
          match (getu4 rest).bind (decodePair n) with
          | some c => some (c, rest.drop 6)
          | none => some (replacementChar, rest)
        else some (Char.ofNat n, rest)
      | none =>
        match rest with
        | 47 :: rest => some ('/', rest)
        | letter :: rest => (escapes.find? (·.1 = letter)).map fun e => (e.2, rest)
        | [] => none
    else if b < 128 then some (Char.ofNat b.toNat, rest)
    else match ByteArray.utf8DecodeChar? ⟨(b :: rest).toArray⟩ 0 with
      | some c => some (c, (b :: rest).drop c.utf8Size)
      | none => some (replacementChar, rest)

def unquoteFrom : Nat → Text → List Char
  | 0, _ => []
  | n + 1, raw =>
    match nextChar raw with
    | none => []
    | some (c, rest) => c :: unquoteFrom n rest

def unquote (raw : Text) : String := String.ofList (unquoteFrom raw.length raw)

-- ---------------------------------------------------------------------------
-- Reading
-- ---------------------------------------------------------------------------

inductive Value
  | null
  | bool (b : Bool)
  | number (literal : Text)
  | string (s : String)
  | array (elems : List Value)
  | object (members : List (String × Value))

/-- What is open: an object at one of its keys or at the value of a key, or an
array, with what they have so far. -/
inductive Frame
  | key (members : List (String × Value))
  | value (members : List (String × Value)) (key : String)
  | elems (elems : List Value)

inductive Numeral
  | neg
  | zero
  | int
  | dot
  | frac
  | e
  | esign
  | exp
  deriving DecidableEq

inductive Literal
  | true
  | false
  | null

def Literal.text : Literal → Text
  | .true => [116, 114, 117, 101]
  | .false => [102, 97, 108, 115, 101]
  | .null => [110, 117, 108, 108]

def Literal.value : Literal → Value
  | .true => .bool Bool.true
  | .false => .bool Bool.false
  | .null => .null

inductive Mode
  | beginValue
  | beginValueOrEmpty
  | beginString
  | beginStringOrEmpty
  | inString (raw : Text)
  | inStringEsc (raw : Text)
  | inStringEscU (left : Nat) (raw : Text)
  | number (numeral : Numeral) (literal : Text)
  | literal (literal : Literal) (read : Nat)
  | endValue (value : Value)

structure State where
  mode : Mode
  stack : List Frame

def beginValue (stack : List Frame) (b : UInt8) : Option State :=
  if isSpace b then some ⟨.beginValue, stack⟩
  else if b = openBrace then some ⟨.beginStringOrEmpty, .key [] :: stack⟩
  else if b = openBracket then some ⟨.beginValueOrEmpty, .elems [] :: stack⟩
  else if b = quotationMark then some ⟨.inString [], stack⟩
  else if b = minus then some ⟨.number .neg [b], stack⟩
  else if b = 48 then some ⟨.number .zero [b], stack⟩
  else if isDigit b then some ⟨.number .int [b], stack⟩
  else if b = 116 then some ⟨.literal .true 1, stack⟩
  else if b = 102 then some ⟨.literal .false 1, stack⟩
  else if b = 110 then some ⟨.literal .null 1, stack⟩
  else none

def beginString (stack : List Frame) (b : UInt8) : Option State :=
  if isSpace b then some ⟨.beginString, stack⟩
  else if b = quotationMark then some ⟨.inString [], stack⟩
  else none

/-- A complete value, at the next byte after it. -/
def endValue (v : Value) (stack : List Frame) (b : UInt8) : Option State :=
  if isSpace b then some ⟨.endValue v, stack⟩
  else match stack, v with
    | .key members :: stack, .string k =>
      if b = colon then some ⟨.beginValue, .value members k :: stack⟩ else none
    | .value members k :: stack, v =>
      if b = comma then some ⟨.beginString, .key (members ++ [(k, v)]) :: stack⟩
      else if b = closeBrace then some ⟨.endValue (.object (members ++ [(k, v)])), stack⟩
      else none
    | .elems elems :: stack, v =>
      if b = comma then some ⟨.beginValue, .elems (elems ++ [v]) :: stack⟩
      else if b = closeBracket then some ⟨.endValue (.array (elems ++ [v])), stack⟩
      else none
    | _, _ => none

def Numeral.next : Numeral → UInt8 → Option Numeral
  | .neg, b => if b = 48 then some .zero else if isDigit b then some .int else none
  | .zero, b => if b = 46 then some .dot else if b = 101 || b = 69 then some .e else none
  | .int, b =>
    if isDigit b then some .int else if b = 46 then some .dot else if b = 101 || b = 69 then some .e
    else none
  | .dot, b => if isDigit b then some .frac else none
  | .frac, b => if isDigit b then some .frac else if b = 101 || b = 69 then some .e else none
  | .e, b => if b = 43 || b = minus then some .esign else if isDigit b then some .exp else none
  | .esign, b => if isDigit b then some .exp else none
  | .exp, b => if isDigit b then some .exp else none

def Numeral.complete : Numeral → Bool
  | .zero | .int | .frac | .exp => true
  | .neg | .dot | .e | .esign => false

def step (st : State) (b : UInt8) : Option State :=
  match st.mode with
  | .beginValue => beginValue st.stack b
  | .beginValueOrEmpty =>
    if isSpace b then some st
    else if b = closeBracket then
      match st.stack with
      | .elems elems :: stack => some ⟨.endValue (.array elems), stack⟩
      | _ => none
    else beginValue st.stack b
  | .beginString => beginString st.stack b
  | .beginStringOrEmpty =>
    if isSpace b then some st
    else if b = closeBrace then
      match st.stack with
      | .key members :: stack => some ⟨.endValue (.object members), stack⟩
      | _ => none
    else beginString st.stack b
  | .inString raw =>
    if b = quotationMark then some ⟨.endValue (.string (unquote raw)), st.stack⟩
    else if b = backslash then some ⟨.inStringEsc (raw ++ [b]), st.stack⟩
    else if b < 32 then none
    else some ⟨.inString (raw ++ [b]), st.stack⟩
  | .inStringEsc raw =>
    if b = 117 then some ⟨.inStringEscU 4 (raw ++ [b]), st.stack⟩
    else if b = 47 ∨ (escapes.any (·.1 = b)) then some ⟨.inString (raw ++ [b]), st.stack⟩
    else none
  | .inStringEscU left raw =>
    if (unhex b).isSome then
      some ⟨if left = 1 then .inString (raw ++ [b]) else .inStringEscU (left - 1) (raw ++ [b]),
        st.stack⟩
    else none
  | .number numeral literal =>
    match numeral.next b with
    | some numeral => some ⟨.number numeral (literal ++ [b]), st.stack⟩
    | none => if numeral.complete then endValue (.number literal) st.stack b else none
  | .literal literal read =>
    if literal.text[read]? = some b then
      some ⟨if read + 1 = literal.text.length then .endValue literal.value
        else .literal literal (read + 1), st.stack⟩
    else none
  | .endValue v => endValue v st.stack b

def start : State := ⟨.beginValue, []⟩

/-- The value of a text that is complete. The end of the text ends a number as a
space does. -/
def parse (text : Text) : Option Value :=
  match run step start (text ++ [space]) with
  | some ⟨.endValue v, []⟩ => some v
  | _ => none

def formatInt (n : Int) : Text := (toString n).toList.map Char.toUInt8

def member (m : String × Text) : Text := quote m.1 ++ colon :: m.2

def object : List (String × Text) → Text
  | [] => [openBrace, closeBrace]
  | m :: ms => openBrace :: (member m ++ (ms.flatMap fun m => comma :: member m) ++ [closeBrace])

def sortedEntries (name : κ → String) [Fact (Function.Injective name)] [DecidableEq κ]
    (m : SyncMap κ α) :
    List (κ × α) :=
  let _ : LinearOrder κ := LinearOrder.lift' name Fact.out
  (m.keys.sort (· ≤ ·)).filterMap fun k => (m.load k).map fun v => (k, v)

/-- `null` leaves what is there. -/
def decodeString (old : String) : Value → Option String
  | .string s => some s
  | .null => some old
  | _ => none

def decodeInt64 (old : Int64) : Value → Option Int64
  | .number literal => Strconv.parseInt? (literal.map fun b => Char.ofNat b.toNat)
  | .null => some old
  | _ => none

/-- The members in their order, each stored over an earlier one of its key. -/
def decodeMap [DecidableEq κ] (key : String → Option κ) (elem : Value → Option α) (m : SyncMap κ α)
    (members : List (String × Value)) : Option (SyncMap κ α) :=
  members.foldlM (fun m entry => do return m.store (← key entry.1) (← elem entry.2)) m

/-- Upper case. Two characters that are not ASCII have an ASCII letter for theirs. -/
def foldChar (c : Char) : Char :=
  if c.isLower then c.toUpper else if c = '\u017f' then 'S' else if c = '\u212a' then 'K' else c

/-- The field of this name, else the one whose name is the same but for the case. -/
def matchField (names : List String) (key : String) : Option String :=
  (names.find? (· = key)).or
    (names.find? fun name => name.toList.map foldChar = key.toList.map foldChar)

def setMembers (names : List String) (set : σ → String → Value → Option σ) (s : σ)
    (members : List (String × Value)) : Option σ :=
  members.foldlM (fun s m => (matchField names m.1).elim (some s) (set s · m.2)) s

def decodeStruct (names : List String) (set : σ → String → Value → Option σ) (zero : σ) :
    Value → Option σ
  | .object members => setMembers names set zero members
  | .null => some zero
  | _ => none

-- ---------------------------------------------------------------------------
-- Strings are read back
-- ---------------------------------------------------------------------------

theorem unhex_hexDigit : ∀ n < 16, unhex (hexDigit n) = some n := by decide

theorem getu4_escapeU (h : n < 65536) (rest : Text) : getu4 (escapeU n ++ rest) = some n := by
  have hdigit : ∀ k, unhex (hexDigit (k % 16)) = some (k % 16) :=
    fun k => unhex_hexDigit _ (Nat.mod_lt k (by decide))
  simp only [escapeU, List.cons_append, List.nil_append, getu4, hdigit, Option.bind_eq_bind,
    Option.bind_some, Option.pure_def, Option.some.injEq]
  omega

def Plain (b : UInt8) : Prop := 32 ≤ b ∧ b ≠ quotationMark ∧ b ≠ backslash

theorem le_utf8EncodeChar (h : 128 ≤ c.toNat) : ∀ b ∈ String.utf8EncodeChar c, 128 ≤ b := by
  have hbyte : ∀ n k, 128 ≤ k → n + k < 256 → (128 : UInt8) ≤ UInt8.ofNat (n + k) := by
    intro n k hk hlt
    rw [UInt8.le_iff_toNat_le, UInt8.toNat_ofNat_of_lt' hlt]
    exact Nat.le_trans hk (Nat.le_add_left k n)
  have hmod : ∀ n m k, 0 < m → 128 ≤ k → m + k ≤ 256 → (128 : UInt8) ≤ UInt8.ofNat (n % m + k) :=
    fun n m k hm hk hle =>
      hbyte _ k hk (Nat.lt_of_lt_of_le (Nat.add_lt_add_right (Nat.mod_lt n hm) k) hle)
  have hv : ¬ c.val.toNat ≤ 127 := Nat.not_le.mpr h
  intro b hb
  simp only [String.utf8EncodeChar, hv, ↓reduceIte] at hb
  split at hb
  · simp only [List.mem_cons, List.not_mem_nil, or_false] at hb
    rcases hb with rfl | rfl <;> exact hmod _ _ _ (by decide) (by decide) (by decide)
  · split at hb
    · simp only [List.mem_cons, List.not_mem_nil, or_false] at hb
      rcases hb with rfl | rfl | rfl <;> exact hmod _ _ _ (by decide) (by decide) (by decide)
    · simp only [List.mem_cons, List.not_mem_nil, or_false] at hb
      rcases hb with rfl | rfl | rfl | rfl <;> exact hmod _ _ _ (by decide) (by decide) (by decide)

theorem plain_of_le (h : 128 ≤ b) : Plain b := by
  refine ⟨UInt8.le_trans (by decide) h, ?_, ?_⟩ <;> rintro rfl <;> exact absurd h (by decide)

theorem toNat_toUInt8 {c : Char} (h : c.toNat < 256) : c.toUInt8.toNat = c.toNat := by
  rw [Char.toUInt8, UInt32.toNat_toUInt8]
  exact Nat.mod_eq_of_lt h

theorem utf8EncodeChar_ascii (h : c.toNat < 128) : String.utf8EncodeChar c = [c.toUInt8] := by
  have hsize : c.utf8Size = 1 :=
    Char.utf8Size_eq_one_iff.mpr (UInt32.le_iff_toNat_le.mpr (Nat.le_of_lt_succ h))
  exact String.utf8EncodeChar_eq_singleton hsize

/-- The ways to write a character. -/
inductive Quoted (c : Char) : Text → Prop
  | letter (h : (letter, c) ∈ escapes) : Quoted c [backslash, letter]
  | number (h : c.toNat < 65536) : Quoted c (escapeU c.toNat)
  | ascii (h : c.toNat < 128) (hp : Plain c.toUInt8) : Quoted c [c.toUInt8]
  | utf8 (h : 128 ≤ c.toNat) : Quoted c (String.utf8EncodeChar c)

theorem quoted (c : Char) : Quoted c (quoteChar c) := by
  unfold quoteChar
  split
  next letter d hfind =>
    have hd : d = c := by simpa using List.find?_some hfind
    exact .letter (hd ▸ List.mem_of_find?_eq_some hfind)
  next hfind =>
    split
    next hspecial =>
      refine .number ?_
      rcases hspecial with hlt | hmem
      · exact Nat.lt_trans hlt (by decide)
      · simp only [List.mem_cons, List.not_mem_nil, or_false] at hmem
        rcases hmem with rfl | rfl | rfl | rfl | rfl <;> decide
    next hspecial =>
      by_cases hc : c.toNat < 128
      · have hnat : c.toUInt8.toNat = c.toNat := toNat_toUInt8 (Nat.lt_trans hc (by decide))
        have hne : ∀ e ∈ escapes, e.2 ≠ c := by simpa using hfind
        rw [utf8EncodeChar_ascii hc]
        refine .ascii hc ⟨?_, fun hq => hne (quotationMark, '"') (by decide) ?_,
          fun hb => hne (backslash, '\\') (by decide) ?_⟩
        · rw [UInt8.le_iff_toNat_le, hnat]
          exact Nat.not_lt.mp fun hlt => hspecial (.inl hlt)
        · rw [← Char.ofNat_toNat c, ← hnat, hq]
          rfl
        · rw [← Char.ofNat_toNat c, ← hnat, hb]
          rfl
      · exact .utf8 (Nat.not_lt.mp hc)

theorem nextChar_letter (h : (letter, c) ∈ escapes) (rest : Text) :
    nextChar (backslash :: letter :: rest) = some (c, rest) := by
  simp only [escapes, List.mem_cons, Prod.mk.injEq, List.not_mem_nil, or_false] at h
  rcases h with ⟨rfl, rfl⟩ | ⟨rfl, rfl⟩ | ⟨rfl, rfl⟩ | ⟨rfl, rfl⟩ | ⟨rfl, rfl⟩ | ⟨rfl, rfl⟩
    | ⟨rfl, rfl⟩ <;> rfl

theorem nextChar_escapeU (h : c.toNat < 65536) (rest : Text) :
    nextChar (escapeU c.toNat ++ rest) = some (c, rest) := by
  have hget := getu4_escapeU h rest
  have hvalid : isSurrogate c.toNat = false := by
    have hc := c.valid
    simp only [UInt32.isValidChar, Nat.isValidChar] at hc
    simp only [isSurrogate, Char.toNat, Bool.and_eq_false_iff, decide_eq_false_iff_not]
    omega
  simp only [escapeU, List.cons_append, List.nil_append] at hget ⊢
  simp [nextChar, hget, hvalid]

theorem nextChar_utf8 (h : 128 ≤ c.toNat) (rest : Text) :
    nextChar (String.utf8EncodeChar c ++ rest) = some (c, rest) := by
  have hbytes : (⟨(String.utf8EncodeChar c ++ rest).toArray⟩ : ByteArray) =
      (String.utf8EncodeChar c).toByteArray ++ rest.toByteArray := by
    apply ByteArray.ext
    simp
  have hdecode :
      ByteArray.utf8DecodeChar? ⟨(String.utf8EncodeChar c ++ rest).toArray⟩ 0 = some c := by
    rw [hbytes, ByteArray.utf8DecodeChar?_utf8EncodeChar_append]
  have hdrop : (String.utf8EncodeChar c ++ rest).drop c.utf8Size = rest := by
    rw [← String.length_utf8EncodeChar, List.drop_left]
  cases htext : String.utf8EncodeChar c with
  | nil => exact absurd htext String.utf8EncodeChar_ne_nil
  | cons b bs =>
    have hb : 128 ≤ b := le_utf8EncodeChar h b (htext ▸ List.mem_cons_self)
    rw [htext, List.cons_append] at hdecode hdrop
    simp only [List.cons_append, nextChar, (plain_of_le hb).2.2, UInt8.not_lt.mpr hb,
      ↓reduceIte, hdecode, hdrop]

theorem nextChar_quoted (h : Quoted c text) (rest : Text) :
    nextChar (text ++ rest) = some (c, rest) := by
  cases h with
  | letter h => exact nextChar_letter h rest
  | number h => exact nextChar_escapeU h rest
  | ascii h hp =>
    have hnat : c.toUInt8.toNat = c.toNat := toNat_toUInt8 (Nat.lt_trans h (by decide))
    have hlt : c.toUInt8 < 128 := UInt8.lt_iff_toNat_lt.mpr (hnat ▸ h)
    simp [nextChar, hp.2.2, hlt, hnat]
  | utf8 h => exact nextChar_utf8 h rest

theorem unquoteFrom_quoted (cs : List Char) (h : cs.length ≤ n) :
    unquoteFrom n (cs.flatMap quoteChar) = cs := by
  induction cs generalizing n with
  | nil => cases n <;> rfl
  | cons c cs ih =>
    obtain ⟨n, rfl⟩ : ∃ m, n = m + 1 := ⟨n - 1, by simp at h; omega⟩
    rw [List.flatMap_cons, unquoteFrom, nextChar_quoted (quoted c)]
    exact congrArg (c :: ·) (ih (Nat.le_of_succ_le_succ h))

theorem quoteChar_ne_nil (c : Char) : quoteChar c ≠ [] := by
  cases hq : quoteChar c with
  | nil =>
    have hnext := nextChar_quoted (quoted c) []
    rw [hq] at hnext
    cases hnext
  | cons b bs => simp

theorem unquote_quoted (s : String) : unquote (s.toList.flatMap quoteChar) = s := by
  have hlen : s.toList.length ≤ (s.toList.flatMap quoteChar).length := by
    rw [List.length_flatMap]
    refine Nat.le_trans (Nat.le_of_eq (List.length_map _).symm)
      (List.length_le_sum_of_one_le _ fun n hn => ?_)
    obtain ⟨c, -, rfl⟩ := List.mem_map.mp hn
    exact List.length_pos_iff.mpr (quoteChar_ne_nil c)
  rw [unquote, unquoteFrom_quoted _ hlen, String.ofList_toList]

-- ---------------------------------------------------------------------------
-- What the machine reads
-- ---------------------------------------------------------------------------

theorem run_cons_eq (h : step st b = some st') (text : Text) :
    run step st (b :: text) = run step st' text := by
  rw [run, h, Option.bind_some]

theorem step_plain (h : Plain b) (raw : Text) (stack : List Frame) :
    step ⟨.inString raw, stack⟩ b = some ⟨.inString (raw ++ [b]), stack⟩ := by
  simp [step, h.2.1, h.2.2, UInt8.not_lt.mpr h.1]

theorem run_plain (h : ∀ b ∈ text, Plain b) (raw : Text) (stack : List Frame) (rest : Text) :
    run step ⟨.inString raw, stack⟩ (text ++ rest) =
      run step ⟨.inString (raw ++ text), stack⟩ rest := by
  induction text generalizing raw with
  | nil => simp
  | cons b text ih =>
    obtain ⟨hb, h⟩ := List.forall_mem_cons.mp h
    rw [List.cons_append, run_cons_eq (step_plain hb raw stack), ih h, List.append_assoc]
    rfl

theorem step_letter (h : (letter, c) ∈ escapes) (raw : Text) (stack : List Frame) :
    step ⟨.inStringEsc raw, stack⟩ letter = some ⟨.inString (raw ++ [letter]), stack⟩ := by
  have hu : letter ≠ 117 := by
    have hletters : ∀ e ∈ escapes, e.1 ≠ 117 := by decide
    exact hletters _ h
  have hany : escapes.any (·.1 = letter) = true := List.any_eq_true.mpr ⟨_, h, by simp⟩
  simp [step, hu, hany]

theorem step_hexDigit (h : n < 16) (left : Nat) (raw : Text) (stack : List Frame) :
    step ⟨.inStringEscU left raw, stack⟩ (hexDigit n) =
      some ⟨if left = 1 then .inString (raw ++ [hexDigit n])
        else .inStringEscU (left - 1) (raw ++ [hexDigit n]),
        stack⟩ := by
  simp [step, unhex_hexDigit n h]

theorem run_escapeU (n : Nat) (raw : Text) (stack : List Frame) (rest : Text) :
    run step ⟨.inString raw, stack⟩ (escapeU n ++ rest) =
      run step ⟨.inString (raw ++ escapeU n), stack⟩ rest := by
  have hdigit : ∀ k left raw, step ⟨.inStringEscU left raw, stack⟩ (hexDigit (k % 16)) = _ :=
    fun k left raw => step_hexDigit (Nat.mod_lt k (by decide)) left raw stack
  have hesc : step ⟨.inString raw, stack⟩ backslash =
      some ⟨.inStringEsc (raw ++ [backslash]), stack⟩ := rfl
  have hu : ∀ raw, step ⟨.inStringEsc raw, stack⟩ 117 =
      some ⟨.inStringEscU 4 (raw ++ [117]), stack⟩ := fun _ => rfl
  simp [escapeU, run_cons_eq hesc, run_cons_eq (hu _), run_cons_eq (hdigit _ _ _)]

theorem run_quoted (h : Quoted c text) (raw : Text) (stack : List Frame) (rest : Text) :
    run step ⟨.inString raw, stack⟩ (text ++ rest) =
      run step ⟨.inString (raw ++ text), stack⟩ rest := by
  cases h with
  | letter h =>
    have hesc : step ⟨.inString raw, stack⟩ backslash =
        some ⟨.inStringEsc (raw ++ [backslash]), stack⟩ := rfl
    simp only [List.cons_append, List.nil_append, run_cons_eq hesc, run_cons_eq (step_letter h _ _),
      List.append_assoc]
  | number h => exact run_escapeU c.toNat raw stack rest
  | ascii h hp => exact run_plain (by simpa using hp) raw stack rest
  | utf8 h => exact run_plain (fun b hb => plain_of_le (le_utf8EncodeChar h b hb)) raw stack rest

theorem run_chars (cs : List Char) (raw : Text) (stack : List Frame) (rest : Text) :
    run step ⟨.inString raw, stack⟩ (cs.flatMap quoteChar ++ rest) =
      run step ⟨.inString (raw ++ cs.flatMap quoteChar), stack⟩ rest := by
  induction cs generalizing raw with
  | nil => simp
  | cons c cs ih =>
    rw [List.flatMap_cons, List.append_assoc, run_quoted (quoted c), ih, List.append_assoc]

theorem run_quote (s : String) (stack : List Frame) (rest : Text) :
    run step ⟨.inString [], stack⟩ (s.toList.flatMap quoteChar ++ quotationMark :: rest) =
      run step ⟨.endValue (.string s), stack⟩ rest := by
  have hend : step ⟨.inString (s.toList.flatMap quoteChar), stack⟩ quotationMark =
      some ⟨.endValue (.string s), stack⟩ := by
    simp [step, unquote_quoted]
  rw [run_chars, List.nil_append, run_cons_eq hend]

def Ends (b : UInt8) : Prop := b = comma ∨ b = closeBrace ∨ b = closeBracket ∨ b = space

/-- Where a value may stand, with a byte after it that ends it, the machine gets the
value from the text. -/
def Reads (text : Text) (v : Value) : Prop :=
  ∀ stack b rest, Ends b →
    run step ⟨.beginValue, stack⟩ (text ++ b :: rest) = run step ⟨.endValue v, stack⟩ (b :: rest)

theorem reads_quote (s : String) : Reads (quote s) (.string s) := by
  intro stack b rest _
  have hbegin : step ⟨.beginValue, stack⟩ quotationMark = some ⟨.inString [], stack⟩ := rfl
  rw [quote, List.cons_append, run_cons_eq hbegin, List.append_assoc]
  exact run_quote s stack (b :: rest)

-- Numbers

theorem next_ends (h : Ends b) : Numeral.next .zero b = none ∧ Numeral.next .int b = none := by
  rcases h with rfl | rfl | rfl | rfl <;> decide

theorem run_digits (h : ∀ d ∈ ds, isDigit d = true) (literal : Text) (stack : List Frame)
    (rest : Text) :
    run step ⟨.number .int literal, stack⟩ (ds ++ rest) =
      run step ⟨.number .int (literal ++ ds), stack⟩ rest := by
  induction ds generalizing literal with
  | nil => simp
  | cons d ds ih =>
    obtain ⟨hd, h⟩ := List.forall_mem_cons.mp h
    have hstep : step ⟨.number .int literal, stack⟩ d =
        some ⟨.number .int (literal ++ [d]), stack⟩ := by
      simp [step, Numeral.next, hd]
    rw [List.cons_append, run_cons_eq hstep, ih h, List.append_assoc]
    rfl

def digits (n : Nat) : Text := (Nat.toDigits 10 n).map Char.toUInt8

theorem toNat_digit (hc : c ∈ Nat.toDigits 10 n) :
    c.toUInt8.toNat = c.toNat ∧ 48 ≤ c.toNat ∧ c.toNat ≤ 57 := by
  have hdigit := Nat.isDigit_of_mem_toDigits (by decide) (by decide) hc
  simp only [Char.isDigit, Bool.and_eq_true, decide_eq_true_eq, UInt32.le_iff_toNat_le] at hdigit
  exact ⟨toNat_toUInt8 (Nat.lt_of_le_of_lt hdigit.2 (by decide)), hdigit⟩

theorem isDigit_digits (n : Nat) : ∀ d ∈ digits n, isDigit d = true := by
  intro d hd
  obtain ⟨c, hc, rfl⟩ := List.mem_map.mp hd
  obtain ⟨hnat, hrange⟩ := toNat_digit hc
  simp only [isDigit, Bool.and_eq_true, decide_eq_true_eq, UInt8.le_iff_toNat_le, hnat]
  exact hrange

theorem head_digits (h : 0 < n) : ∃ d ds, digits n = d :: ds ∧ d ≠ 48 := by
  induction n using Nat.strong_induction_on with
  | _ n ih =>
    rcases Nat.lt_or_ge n 10 with hlt | hge
    · have hdigit : ∀ n < 10, 0 < n → (Nat.digitChar n).toUInt8 ≠ 48 := by decide
      exact ⟨_, _, by rw [digits, Nat.toDigits_of_lt_base hlt]; rfl, hdigit n hlt h⟩
    · obtain ⟨d, ds, hd, hne⟩ := ih (n / 10) (by omega) (by omega)
      refine ⟨d, ds ++ [(Nat.digitChar (n % 10)).toUInt8], ?_, hne⟩
      rw [digits, Nat.toDigits_of_base_le (by decide) hge, List.map_append, ← digits, hd]
      rfl

def FirstDigit (mode : Mode) (sign : Text) : Prop :=
  ∀ stack d, isDigit d = true →
    step ⟨mode, stack⟩ d = some ⟨.number (if d = 48 then .zero else .int) (sign ++ [d]), stack⟩

theorem firstDigit_beginValue : FirstDigit .beginValue [] := by
  intro stack d hd
  by_cases hzero : d = 48
  · rw [hzero]
    rfl
  · have hne : ∀ b, isDigit b = false → d ≠ b := fun b hb heq => by simp [← heq, hd] at hb
    have hspace : isSpace d = false := by
      simp [isSpace, hne space rfl, hne 9 rfl, hne 13 rfl, hne 10 rfl]
    simp [step, beginValue, hspace, hne openBrace rfl, hne openBracket rfl, hne quotationMark rfl,
      hne minus rfl, hzero, hd]

theorem firstDigit_neg : FirstDigit (.number .neg [minus]) [minus] := by
  intro stack d hd
  by_cases hzero : d = 48 <;> simp [step, Numeral.next, *]

theorem run_number (hfirst : FirstDigit mode sign) (hb : Ends b) (n : Nat) (stack : List Frame)
    (rest : Text) :
    run step ⟨mode, stack⟩ (digits n ++ b :: rest) =
      run step ⟨.endValue (.number (sign ++ digits n)), stack⟩ (b :: rest) := by
  obtain ⟨hzero, hint⟩ := next_ends hb
  rcases Nat.eq_zero_or_pos n with rfl | hn
  · have hdigits : digits 0 = [48] := rfl
    rw [hdigits, List.singleton_append, run_cons_eq (hfirst stack 48 rfl)]
    simp [run, step, hzero, Numeral.complete]
  · obtain ⟨d, ds, hd, hne⟩ := head_digits hn
    have hall := isDigit_digits n
    rw [hd] at hall ⊢
    obtain ⟨hdd, hds⟩ := List.forall_mem_cons.mp hall
    rw [List.cons_append, run_cons_eq (hfirst stack d hdd), if_neg hne, run_digits hds,
      List.append_assoc]
    simp [run, step, hint, Numeral.complete]

theorem formatInt_ofNat (n : Nat) : formatInt n = digits n := by
  rw [formatInt, digits, ← Strconv.toList_toString]
  rfl

theorem formatInt_negSucc (n : Nat) : formatInt (Int.negSucc n) = minus :: digits (n + 1) := by
  have htext : toString (Int.negSucc n) = "-" ++ toString (n + 1) := rfl
  rw [formatInt, digits, ← Strconv.toList_toString, htext, String.toList_append, List.map_append]
  rfl

theorem ofNat_formatInt (n : Int) :
    (formatInt n).map (fun b => Char.ofNat b.toNat) = (toString n).toList := by
  have hback : ∀ n, (digits n).map (fun b => Char.ofNat b.toNat) = Nat.toDigits 10 n := by
    intro n
    rw [digits, List.map_map]
    refine (List.map_congr_left fun c hc => ?_).trans (List.map_id _)
    rw [Function.comp_apply, (toNat_digit hc).1, Char.ofNat_toNat, id]
  cases n with
  | ofNat n => rw [Int.ofNat_eq_natCast, formatInt_ofNat, hback, ← Strconv.toList_toString]; rfl
  | negSucc n =>
    have htext : toString (Int.negSucc n) = "-" ++ toString (n + 1) := rfl
    rw [formatInt_negSucc, List.map_cons, hback, ← Strconv.toList_toString, htext,
      String.toList_append]
    rfl

theorem decodeInt64_formatInt (n : Int64) (old : Int64) :
    decodeInt64 old (.number (formatInt n.toInt)) = some n := by
  rw [decodeInt64, ofNat_formatInt]
  exact Strconv.parseInt?_formatInt n

theorem reads_formatInt (n : Int) : Reads (formatInt n) (.number (formatInt n)) := by
  intro stack b rest hb
  cases n with
  | ofNat n =>
    rw [Int.ofNat_eq_natCast, formatInt_ofNat]
    exact run_number firstDigit_beginValue hb n stack rest
  | negSucc n =>
    have hminus : step ⟨.beginValue, stack⟩ minus = some ⟨.number .neg [minus], stack⟩ := rfl
    rw [formatInt_negSucc, List.cons_append, run_cons_eq hminus]
    exact run_number firstDigit_neg hb (n + 1) stack rest

-- Objects

theorem run_member (h : Reads text v) (hb : Ends b) (stack : List Frame)
    (members : List (String × Value)) (k : String) (rest : Text) :
    run step ⟨.beginString, .key members :: stack⟩ (member (k, text) ++ b :: rest) =
      run step ⟨.endValue v, .value members k :: stack⟩ (b :: rest) := by
  have hquote : step ⟨.beginString, .key members :: stack⟩ quotationMark =
      some ⟨.inString [], .key members :: stack⟩ := rfl
  have hcolon : step ⟨.endValue (.string k), .key members :: stack⟩ colon =
      some ⟨.beginValue, .value members k :: stack⟩ := rfl
  simp only [member, quote, List.cons_append, List.append_assoc, List.nil_append]
  rw [run_cons_eq hquote, run_quote, run_cons_eq hcolon, h _ _ _ hb]

section
variable {α : Type} {ms : List α} (key : α → String) (text : α → Text) (value : α → Value)

theorem ends_members (ms : List α) (rest : Text) : ∃ b tail, Ends b ∧
    (ms.flatMap fun m => comma :: member (key m, text m)) ++ closeBrace :: rest = b :: tail := by
  cases ms with
  | nil => exact ⟨_, _, .inr (.inl rfl), rfl⟩
  | cons m ms => exact ⟨_, _, .inl rfl, rfl⟩

theorem run_members (h : ∀ m ∈ ms, Reads (text m) (value m)) (stack : List Frame)
    (members : List (String × Value)) (k : String) (v : Value) (rest : Text) :
    run step ⟨.endValue v, .value members k :: stack⟩
        ((ms.flatMap fun m => comma :: member (key m, text m)) ++ closeBrace :: rest) =
      run step ⟨.endValue (.object (members ++ (k, v) :: ms.map fun m => (key m, value m))), stack⟩
        rest := by
  induction ms generalizing members k v with
  | nil =>
    have hclose : step ⟨.endValue v, .value members k :: stack⟩ closeBrace =
        some ⟨.endValue (.object (members ++ [(k, v)])), stack⟩ := rfl
    exact run_cons_eq hclose rest
  | cons m ms ih =>
    obtain ⟨hm, h⟩ := List.forall_mem_cons.mp h
    have hcomma : step ⟨.endValue v, .value members k :: stack⟩ comma =
        some ⟨.beginString, .key (members ++ [(k, v)]) :: stack⟩ := rfl
    obtain ⟨b, tail, hb, htail⟩ := ends_members key text ms rest
    rw [List.flatMap_cons, List.cons_append, List.cons_append, run_cons_eq hcomma,
      List.append_assoc, htail, run_member hm hb, ← htail, ih h, List.map_cons, List.append_assoc]
    rfl

theorem reads_object (h : ∀ m ∈ ms, Reads (text m) (value m)) :
    Reads (object (ms.map fun m => (key m, text m)))
    (.object (ms.map fun m => (key m, value m))) := by
  intro stack b rest _
  have hopen : step ⟨.beginValue, stack⟩ openBrace = some ⟨.beginStringOrEmpty, .key [] :: stack⟩ :=
    rfl
  cases ms with
  | nil => exact run_cons_eq hopen _
  | cons m ms =>
    obtain ⟨hm, h⟩ := List.forall_mem_cons.mp h
    obtain ⟨c, tail, hc, htail⟩ := ends_members key text ms (b :: rest)
    -- After an open brace a key is read as after a comma.
    have hkey : ∀ t, run step ⟨.beginStringOrEmpty, .key [] :: stack⟩
        (member (key m, text m) ++ t) =
        run step ⟨.beginString, .key [] :: stack⟩ (member (key m, text m) ++ t) := fun t => rfl
    simp only [List.map_cons, object, List.flatMap_map, List.cons_append, List.append_assoc,
      List.nil_append]
    rw [run_cons_eq hopen, hkey, htail, run_member hm hc, ← htail, run_members key text value h]
    rfl

end

-- Control characters

theorem le_quoted (h : Quoted c text) : ∀ b ∈ text, 32 ≤ b := by
  cases h with
  | letter h =>
    have hletters : ∀ e ∈ escapes, 32 ≤ e.1 := by decide
    simpa using ⟨by decide, hletters _ h⟩
  | number h =>
    have hdigit : ∀ n < 16, 32 ≤ hexDigit n := by decide
    have hmod : ∀ k, 32 ≤ hexDigit (k % 16) := fun k => hdigit _ (Nat.mod_lt k (by decide))
    have hslash : (32 : UInt8) ≤ backslash := by decide
    simpa [escapeU, hmod] using hslash
  | ascii h hp => simpa using hp.1
  | utf8 h => exact fun b hb => (plain_of_le (le_utf8EncodeChar h b hb)).1

theorem le_quote (s : String) : ∀ b ∈ quote s, 32 ≤ b := by
  intro b hb
  simp only [quote, List.mem_cons, List.mem_append, List.mem_flatMap, List.not_mem_nil, or_false]
    at hb
  rcases hb with rfl | ⟨c, -, hb⟩ | rfl
  · decide
  · exact le_quoted (quoted c) b hb
  · decide

theorem le_formatInt (n : Int) : ∀ b ∈ formatInt n, 32 ≤ b := by
  have hdigits : ∀ n, ∀ d ∈ digits n, 32 ≤ d := by
    intro n d hd
    have hdigit := isDigit_digits n d hd
    simp only [isDigit, Bool.and_eq_true, decide_eq_true_eq] at hdigit
    exact UInt8.le_trans (by decide) hdigit.1
  cases n with
  | ofNat n => exact formatInt_ofNat n ▸ hdigits n
  | negSucc n =>
    rw [formatInt_negSucc]
    exact List.forall_mem_cons.mpr ⟨by decide, hdigits _⟩

theorem le_object (h : ∀ m ∈ ms, ∀ b ∈ m.2, 32 ≤ b) : ∀ b ∈ object ms, 32 ≤ b := by
  have hmember : ∀ m ∈ ms, ∀ b ∈ member m, 32 ≤ b := by
    intro m hm b hb
    rcases List.mem_append.mp hb with hb | hb
    · exact le_quote m.1 b hb
    · exact (List.mem_cons.mp hb).elim (fun hb => hb ▸ by decide) (h m hm b)
  cases ms with
  | nil =>
    have hbraces : (32 : UInt8) ≤ openBrace ∧ (32 : UInt8) ≤ closeBrace := by decide
    simpa [object] using hbraces
  | cons m ms =>
    obtain ⟨hm, hms⟩ := List.forall_mem_cons.mp hmember
    intro b hb
    simp only [object, List.mem_cons, List.mem_append, List.mem_flatMap, List.not_mem_nil, or_false]
      at hb
    rcases hb with rfl | (hb | ⟨n, hn, rfl | hb⟩) | rfl
    · decide
    · exact hm b hb
    · decide
    · exact hms n hn b hb
    · decide

/-- A value with a text it is read from, on one line. -/
structure Written where
  text : Text
  value : Value
  reads : Reads text value
  le : ∀ b ∈ text, 32 ≤ b

def Written.string (s : String) : Written := ⟨quote s, .string s, reads_quote s, le_quote s⟩

def Written.int (n : Int) : Written :=
  ⟨formatInt n, .number (formatInt n), reads_formatInt n, le_formatInt n⟩

theorem le_members (ms : List (String × Written)) :
    ∀ m ∈ ms.map (fun m => (m.1, m.2.text)), ∀ b ∈ m.2, 32 ≤ b := by
  intro m hm
  obtain ⟨w, -, rfl⟩ := List.mem_map.mp hm
  exact w.2.le

def Written.object (ms : List (String × Written)) : Written where
  text := Json.object (ms.map fun m => (m.1, m.2.text))
  value := .object (ms.map fun m => (m.1, m.2.value))
  reads := reads_object Prod.fst (fun m : String × Written => m.2.text) (fun m => m.2.value)
    fun m _ => m.2.reads
  le := le_object (le_members ms)

def Written.map (name : κ → String) [Fact (Function.Injective name)] [DecidableEq κ]
    (elem : α → Written) (m : SyncMap κ α) : Written :=
  .object ((sortedEntries name m).map fun e => (name e.1, elem e.2))

theorem Written.parse (w : Written) : parse w.text = some w.value := by
  have hspace : run step ⟨.endValue w.value, []⟩ [space] = some ⟨.endValue w.value, []⟩ := rfl
  rw [Json.parse, start, w.reads [] space [] (.inr (.inr (.inr rfl))), hspace]

-- ---------------------------------------------------------------------------
-- Structures and maps are decoded
-- ---------------------------------------------------------------------------

theorem matchField_mem {names : List String} (h : k ∈ names) : matchField names k = some k := by
  cases hfind : names.find? (· = k) with
  | none => exact absurd (decide_eq_true rfl) (List.find?_eq_none.mp hfind k h)
  | some name =>
    have hname : name = k := by simpa using List.find?_some hfind
    rw [matchField, hfind, Option.some_or, hname]

section
variable {σ : Type} {names : List String} {set : σ → String → Value → Option σ} {s s' : σ}

theorem setMembers_cons (hk : k ∈ names) (hs : set s k v = some s') (ms : List (String × Value)) :
    setMembers names set s ((k, v) :: ms) = setMembers names set s' ms := by
  simp [setMembers, matchField_mem hk, hs]

theorem setMembers_option {o : Option α} {w : α → Written} (s' : σ) (hk : k ∈ names)
    (hnone : o = none → s = s')
    (hsome : ∀ a, o = some a → set s k (w a).value = some s') (ms : List (String × Written)) :
    setMembers names set s (((o.map fun a => (k, w a)).toList ++ ms).map fun m =>
      (m.1, m.2.value)) =
      setMembers names set s' (ms.map fun m => (m.1, m.2.value)) := by
  cases o with
  | none => rw [hnone rfl]; rfl
  | some a => exact setMembers_cons hk (hsome a rfl) _

end

section
variable {κ α β : Type} [DecidableEq κ] (name : κ → String) [Fact (Function.Injective name)]

theorem mem_sortedEntries {m : SyncMap κ α} :
    (k, v) ∈ sortedEntries name m ↔ m.load k = some v := by
  simp only [sortedEntries, List.mem_filterMap, Finset.mem_sort, SyncMap.mem_keys,
    Option.map_eq_some_iff, Prod.mk.injEq]
  constructor
  · rintro ⟨j, -, w, hw, rfl, rfl⟩
    exact hw
  · intro h
    exact ⟨k, by simp [h], v, h, rfl, rfl⟩

omit [Fact (Function.Injective name)] in
theorem decodeMap_map {key : String → Option κ} {elem : Value → Option β} (value : α → Value)
    {f : α → β} (hkey : ∀ k, key (name k) = some k) {entries : List (κ × α)}
    (h : ∀ e ∈ entries, elem (value e.2) = some (f e.2)) (m : SyncMap κ β) :
    decodeMap key elem m (entries.map fun e => (name e.1, value e.2)) =
      some (entries.foldl (fun m e => m.store e.1 (f e.2)) m) := by
  induction entries generalizing m with
  | nil => rfl
  | cons e entries ih =>
    obtain ⟨he, h⟩ := List.forall_mem_cons.mp h
    rw [List.foldl_cons, ← ih h]
    simp [decodeMap, hkey, he]

theorem decodeMap_written {key : String → Option κ} {decode : Value → Option β} (elem : α → Written)
    (f : α → β) (hkey : ∀ k, key (name k) = some k) {m : SyncMap κ α}
    (helem : ∀ k v, m.load k = some v → decode (elem v).value = some (f v)) :
    ∃ members, (Written.map name elem m).value = .object members ∧
      decodeMap key decode ∅ members = some (m.mapVal f) := by
  have hload : ∀ e ∈ sortedEntries name m, m.load e.1 = some e.2 :=
    fun e he => (mem_sortedEntries name).mp he
  refine ⟨_, rfl, ?_⟩
  rw [List.map_map]
  refine (decodeMap_map name (fun v => (elem v).value) hkey
    (fun e he => helem e.1 e.2 (hload e he)) ∅).trans (congrArg some ?_)
  rw [← List.foldl_map (f := fun e : κ × α => (e.1, f e.2))
    (g := fun m e => SyncMap.store m e.1 e.2)]
  refine SyncMap.foldl_store_eq (fun e he => ?_) fun k => ?_
  · obtain ⟨x, hx, rfl⟩ := List.mem_map.mp he
    rw [SyncMap.load_mapVal, hload x hx, Option.map_some]
  · rw [SyncMap.load_mapVal]
    cases hk : m.load k with
    | none => exact .inr rfl
    | some v =>
      have hmem := (mem_sortedEntries name).mpr hk
      exact .inl (List.mem_map_of_mem (List.mem_map_of_mem hmem))

end

-- ---------------------------------------------------------------------------
-- Parts of a text
-- ---------------------------------------------------------------------------

inductive Moves (stack : List Frame) (b : UInt8) : State → Prop
  | kept : Moves stack b ⟨mode, stack⟩
  | pushed : Moves stack b ⟨mode, frame :: stack⟩
  | replaced (h : stack = frame :: rest) : Moves stack b ⟨mode, frame' :: rest⟩
  | popped (h : stack = frame :: rest) (hb : b = closeBrace ∨ b = closeBracket) :
      Moves stack b ⟨.endValue v, rest⟩

theorem moves_beginValue (h : beginValue stack b = some st) : Moves stack b st := by
  unfold beginValue at h
  repeat' split at h
  all_goals cases h
  all_goals first | exact .kept | exact .pushed

theorem moves_beginString (h : beginString stack b = some st) : Moves stack b st := by
  unfold beginString at h
  repeat' split at h
  all_goals cases h
  all_goals exact .kept

theorem moves_endValue (h : endValue v stack b = some st) : Moves stack b st := by
  unfold endValue at h
  split at h
  · cases h
    exact .kept
  · repeat' split at h
    all_goals cases h
    · exact .replaced rfl
    · exact .replaced rfl
    · next hb => exact .popped rfl (.inl hb)
    · exact .replaced rfl
    · next hb => exact .popped rfl (.inr hb)

theorem moves_step (h : step st b = some st') : Moves st.stack b st' := by
  obtain ⟨mode, stack⟩ := st
  cases mode with
  | beginValue => exact moves_beginValue h
  | beginString => exact moves_beginString h
  | endValue v => exact moves_endValue h
  | beginValueOrEmpty =>
    simp only [step] at h
    split at h
    · cases h
      exact .kept
    · split at h
      next hb =>
        split at h <;> cases h
        exact .popped rfl (.inr hb)
      next => exact moves_beginValue h
  | beginStringOrEmpty =>
    simp only [step] at h
    split at h
    · cases h
      exact .kept
    · split at h
      next hb =>
        split at h <;> cases h
        exact .popped rfl (.inl hb)
      next => exact moves_beginString h
  | number numeral literal =>
    simp only [step] at h
    split at h
    · cases h
      exact .kept
    · split at h
      · exact moves_endValue h
      · cases h
  | inString raw | inStringEsc raw | inStringEscU left raw | literal literal read =>
    simp only [step] at h
    repeat' split at h
    all_goals cases h
    all_goals exact .kept

def Begun (st : State) : Prop := st.stack = [] → ∃ v, st.mode = .endValue v

theorem begun_step (h : Begun st) (hs : step st b = some st') : Begun st' := by
  intro hempty
  cases moves_step hs with
  | kept =>
    obtain ⟨v, hv⟩ := h hempty
    obtain ⟨mode, stack⟩ := st
    subst hv hempty
    simp only [step, endValue] at hs
    split at hs <;> cases hs
    exact ⟨v, rfl⟩
  | pushed => cases hempty
  | replaced => cases hempty
  | popped => exact ⟨_, rfl⟩

theorem begun_run (h : Begun st) (hr : run step st text = some st') : Begun st' :=
  Run.invariant (P := Begun) (fun _ _ _ h (_ : True) hs => begun_step h hs) h
    (Run.along_of_forall (fun _ _ _ => trivial) st) hr

theorem isSpace_of_run (h : run step ⟨.endValue v, []⟩ text = some st) :
    ∀ b ∈ text, isSpace b = true := by
  induction text with
  | nil => simp
  | cons b text ih =>
    obtain ⟨m, hm, hrest⟩ := run_cons h
    simp only [step, endValue] at hm
    split at hm <;> cases hm
    next hb => exact List.forall_mem_cons.mpr ⟨hb, ih hrest⟩

structure IsObject (text : Text) : Prop where
  opens : text.head? = some openBrace
  closes : text.getLast? = some closeBrace
  parses : parse text ≠ none

theorem isObject (ms : List (String × Written)) : IsObject (Written.object ms).text := by
  refine ⟨?_, ?_, ?_⟩
  · cases ms <;> rfl
  · cases ms with
    | nil => rfl
    | cons m ms => exact List.getLast?_concat (l := openBrace :: _)
  · rw [Written.parse]
    simp

theorem begun_of_part (h : IsObject (first ++ rest)) (hfirst : first ≠ []) :
    ∃ st, run step start first = some st ∧ Begun st ∧ ∃ st', run step st rest = some st' := by
  obtain ⟨st', hr⟩ : ∃ st', run step start (first ++ rest ++ [space]) = some st' := by
    refine Option.ne_none_iff_exists'.mp fun hnone => h.parses ?_
    rw [parse, hnone]
  obtain ⟨m, hm, -⟩ := run_split hr
  obtain ⟨st, hst, hrest⟩ := run_split hm
  refine ⟨st, hst, ?_, m, hrest⟩
  cases first with
  | nil => exact absurd rfl hfirst
  | cons b first =>
    obtain rfl : b = openBrace := by simpa using h.opens
    obtain ⟨st₁, hopen, hrest⟩ := run_cons hst
    refine begun_run ?_ hrest
    obtain rfl : ⟨.beginStringOrEmpty, [.key []]⟩ = st₁ := Option.some.inj hopen
    exact fun hempty => by cases hempty

theorem open_of_part (h : IsObject (first ++ rest)) (hfirst : first ≠ []) (hrest : rest ≠ []) :
    ∃ st, run step start first = some st ∧ st.stack ≠ [] := by
  obtain ⟨⟨mode, stack⟩, hst, hbegun, st', hr⟩ := begun_of_part h hfirst
  refine ⟨_, hst, fun hempty => ?_⟩
  obtain ⟨v, hv⟩ := hbegun hempty
  simp only at hv hempty
  subst hv hempty
  have hlast : closeBrace ∈ rest := by
    have hclose := h.closes
    rw [List.getLast?_append_of_ne_nil _ hrest] at hclose
    exact List.mem_of_getLast? hclose
  exact absurd (isSpace_of_run hr closeBrace hlast) (by decide)

theorem stack_of_space (h : run step st [space] = some st') (hst : st.stack ≠ []) :
    st'.stack ≠ [] := by
  obtain ⟨m, hm, hnil⟩ := run_cons h
  obtain rfl := Option.some.inj hnil
  cases moves_step hm with
  | kept => exact hst
  | pushed => simp
  | replaced => simp
  | popped _ hb => exact absurd hb (by decide)

theorem parse_eq_none (h : ∀ st, run step start (text ++ [space]) = some st → st.stack ≠ []) :
    parse text = none := by
  unfold parse
  split
  next v hr => exact absurd rfl (h _ hr)
  next => rfl

theorem parse_part (h : IsObject (first ++ rest)) (hfirst : first ≠ []) (hrest : rest ≠ []) :
    parse first = none := by
  obtain ⟨st, hst, hopen⟩ := open_of_part h hfirst hrest
  refine parse_eq_none fun st' hst' => ?_
  obtain ⟨m, hm, hspace⟩ := run_split hst'
  obtain rfl := Option.some.inj (hst.symm.trans hm)
  exact stack_of_space hspace hopen

def NoEnd (b : UInt8) : Prop :=
  isSpace b = false ∧ b ≠ colon ∧ b ≠ comma ∧ b ≠ closeBrace ∧ b ≠ closeBracket

theorem endValue_noEnd (h : NoEnd b) (v : Value) (stack : List Frame) :
    endValue v stack b = none := by
  obtain ⟨hspace, hcolon, hcomma, hbrace, hbracket⟩ := h
  unfold endValue
  simp only [hspace, hcolon, hcomma, hbrace, hbracket, ↓reduceIte, Bool.false_eq_true]
  split <;> rfl

/-- The machine does not go on after a part of an object with another object whose
first key starts with a letter. -/
theorem run_glued (hbegun : Begun st) (h : Reads (openBrace :: quotationMark :: b :: text) v)
    (hb : NoEnd b)
    (hr : run step st (openBrace :: quotationMark :: b :: text ++ [space]) = some st') :
    st'.stack ≠ [] := by
  obtain ⟨mode, stack⟩ := st
  have hbrace : ∀ w, endValue w stack openBrace = none := fun w =>
    endValue_noEnd ⟨rfl, by decide, by decide, by decide, by decide⟩ w stack
  -- Where a value may stand the object is read, and what was open still is.
  have hvalue : (∀ w, mode ≠ .endValue w) →
      run step ⟨.beginValue, stack⟩ (openBrace :: quotationMark :: b :: text ++ [space]) =
        some st' →
      st'.stack ≠ [] := by
    intro hmode hrun
    rw [h stack space [] (.inr (.inr (.inr rfl)))] at hrun
    obtain rfl : ⟨.endValue v, stack⟩ = st' := Option.some.inj hrun
    intro hempty
    obtain ⟨w, hw⟩ := hbegun hempty
    exact hmode w hw
  obtain ⟨m, hm, hrest⟩ := run_cons hr
  cases mode with
  | beginValue => exact hvalue (by simp) hr
  | beginValueOrEmpty => exact hvalue (by simp) hr
  | beginString => cases hm
  | beginStringOrEmpty => cases hm
  | inStringEsc raw => cases hm
  | inStringEscU left raw => cases hm
  | endValue w => cases (hbrace w).symm.trans hm
  | literal literal read =>
    have hletters : ∀ l : Literal, openBrace ∉ l.text := by
      intro l
      cases l <;> decide
    simp only [step] at hm
    split at hm
    next heq => exact absurd (List.mem_of_getElem? heq) (hletters literal)
    next => cases hm
  | number numeral literal =>
    have hnext : numeral.next openBrace = none := by cases numeral <;> rfl
    simp only [step, hnext, hbrace, ite_self, reduceCtorEq] at hm
  | inString raw =>
    -- The brace becomes part of the string and the quotation mark ends it.
    obtain ⟨m', hm', hrest'⟩ := run_cons hrest
    obtain rfl : ⟨.inString (raw ++ [openBrace]), stack⟩ = m := Option.some.inj hm
    obtain rfl : ⟨.endValue _, stack⟩ = m' := Option.some.inj hm'
    obtain ⟨m'', hm'', -⟩ := run_cons hrest'
    cases (endValue_noEnd hb _ stack).symm.trans hm''

/-- An object, or a part of one, is not read with another object after it. -/
theorem parse_glued (h : IsObject (first ++ rest)) (hfirst : first ≠ [])
    (hnext : Reads (openBrace :: quotationMark :: b :: text) v) (hb : NoEnd b) :
    parse (first ++ openBrace :: quotationMark :: b :: text) = none := by
  obtain ⟨st, hst, hbegun, -⟩ := begun_of_part h hfirst
  refine parse_eq_none fun st' hst' => ?_
  rw [List.append_assoc] at hst'
  obtain ⟨m, hm, hrest⟩ := run_split hst'
  obtain rfl := Option.some.inj (hst.symm.trans hm)
  exact run_glued hbegun hnext hb hrest

end Cardwar.Json
