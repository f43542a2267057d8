import Mathlib.Algebra.Group.Int.Defs
import Mathlib.Algebra.Group.Nat.Defs
import Mathlib.Data.List.Basic
import Mathlib.Data.List.DropRight
import Mathlib.Data.List.TakeWhile

/-!
# C strings and the parts of the C library that scan them

Characters are bytes and a C string is the bytes before its NUL. What is
modelled of `string.h`, `stdio.h` and `stdlib.h` is what a reader of a text
file written in C leans on: `fgets` on the rest of a file, `strtok_r` on the
rest of a buffer, and `strtoll` in base 16.

Three facts are used of them. `strtokR_field` reads a field off the front of
a buffer, `strtokR_last` the last one. `pieces_append_line` says that the
lines of a file are cut apart from one another: however long a line is, no
piece `fgets` returns crosses its newline. And `strtoll16_digits` reads a
hexadecimal numeral back.
-/

namespace CStr

/-- A C string's characters, or any run of `char`s. -/
abbrev Str := List UInt8

/-- The characters of a literal. -/
def lit (s : String) : Str := s.toList.map fun c => UInt8.ofNat c.toNat

/-- What a C function sees of a buffer: the characters before its first NUL. -/
def untilNul (s : Str) : Str := s.takeWhile fun c => c != 0

/-- The C string at the start of a buffer, if the buffer holds a NUL at all. -/
def cString? (buf : Str) : Option Str :=
  if (0 : UInt8) ∈ buf then some (untilNul buf) else none

/-- The buffer of a literal: its characters and the NUL after them. -/
def cstr (s : String) : Str := lit s ++ [0]

/-- `strcmp(a, b) == 0`, on strings without their NULs. -/
def strEq (a b : Str) : Bool := a == b

theorem untilNul_no_nul (s : Str) : (0 : UInt8) ∉ untilNul s := by
  intro h
  have hp := List.mem_takeWhile_imp h
  exact absurd hp (by decide)

theorem untilNul_eq_self_iff {s : Str} : untilNul s = s ↔ (0 : UInt8) ∉ s := by
  refine ⟨fun h => h ▸ untilNul_no_nul s, fun h => ?_⟩
  refine List.takeWhile_eq_self_iff.mpr fun c hc => ?_
  exact bne_iff_ne.mpr fun h0 => h (h0 ▸ hc)

theorem untilNul_append {s rest : Str} (h : (0 : UInt8) ∉ s) :
    untilNul (s ++ 0 :: rest) = s := by
  have hp : ∀ c ∈ s, (c != 0) = true := by
    intro c hc
    rw [bne_iff_ne]
    rintro rfl
    exact h hc
  rw [untilNul, List.takeWhile_append_of_pos hp]
  simp

theorem cString?_of_mem {buf : Str} (h : (0 : UInt8) ∈ buf) :
    cString? buf = some (untilNul buf) :=
  if_pos h

theorem cString?_append {s rest : Str} (h : (0 : UInt8) ∉ s) :
    cString? (s ++ 0 :: rest) = some s := by
  rw [cString?, if_pos (by simp), untilNul_append h]

theorem cString?_cstr {s : String} (h : (0 : UInt8) ∉ lit s) :
    cString? (cstr s) = some (lit s) :=
  cString?_append h

/-! ## `strtok_r`

The saved position is the rest of the buffer, or `none` once it has been
used up. -/

/-- `strtok_r(s, delim, &state)`: the token and the position saved. -/
def strtokR (delim : UInt8 → Bool) : Option Str → Option Str × Option Str
  | none => (none, none)
  | some s =>
      match s.dropWhile delim with
      | [] => (none, none)
      | c :: s' =>
          let tok := (c :: s').takeWhile fun d => !delim d
          match (c :: s').dropWhile fun d => !delim d with
          | [] => (some tok, none)
          | _ :: rest => (some tok, some rest)

@[simp] theorem strtokR_none (delim : UInt8 → Bool) :
    strtokR delim none = (none, none) := rfl

theorem strtokR_skip {delim : UInt8 → Bool} {ds s : Str}
    (h : ∀ c ∈ ds, delim c = true) :
    strtokR delim (some (ds ++ s)) = strtokR delim (some s) := by
  rw [strtokR, strtokR, List.dropWhile_append_of_pos h]

/-- The token at the front of the buffer, the delimiter after it used up. -/
theorem strtokR_field {delim : UInt8 → Bool} {tok rest : Str} {d : UInt8}
    (hne : tok ≠ []) (htok : ∀ c ∈ tok, delim c = false) (hd : delim d = true) :
    strtokR delim (some (tok ++ d :: rest)) = (some tok, some rest) := by
  obtain ⟨c, tok', rfl⟩ := List.exists_cons_of_ne_nil hne
  have hc : ¬ delim c = true := by simp [htok c List.mem_cons_self]
  have hp : ∀ x ∈ c :: tok', (!delim x) = true := by
    intro x hx
    simp [htok x hx]
  have hn : ¬ (fun e => !delim e) d = true := by simp [hd]
  have hdrop : (c :: tok' ++ d :: rest).dropWhile delim
      = c :: (tok' ++ d :: rest) := by
    rw [List.cons_append, List.dropWhile_cons_of_neg hc]
  rw [strtokR, hdrop]
  simp only []
  rw [← List.cons_append, List.takeWhile_append_of_pos hp,
    List.dropWhile_append_of_pos hp, List.takeWhile_cons_of_neg (l := rest) hn,
    List.dropWhile_cons_of_neg (l := rest) hn, List.append_nil]

/-- The token that reaches the end of the buffer. -/
theorem strtokR_last {delim : UInt8 → Bool} {tok : Str}
    (hne : tok ≠ []) (htok : ∀ c ∈ tok, delim c = false) :
    strtokR delim (some tok) = (some tok, none) := by
  obtain ⟨c, tok', rfl⟩ := List.exists_cons_of_ne_nil hne
  have hc : ¬ delim c = true := by simp [htok c List.mem_cons_self]
  have hp : ∀ x ∈ c :: tok', (!delim x) = true := by
    intro x hx
    simp [htok x hx]
  rw [strtokR, List.dropWhile_cons_of_neg hc]
  simp only []
  rw [List.takeWhile_eq_self_iff.mpr hp, List.dropWhile_eq_nil_iff.mpr hp]

/-! ### The words of a buffer

Calls of `strtok_r` with the same delimiters give the words of the buffer,
one after another. -/

/-- What stands between the delimiters. -/
def words (delim : UInt8 → Bool) (s : Str) : List Str :=
  (s.splitOnP delim).filter fun w => w ≠ []

/-- The words still to come, from the position saved. -/
def wordsLeft (delim : UInt8 → Bool) : Option Str → List Str
  | none => []
  | some s => words delim s

@[simp] theorem words_nil (delim : UInt8 → Bool) : words delim [] = [] := by
  simp [words]

theorem words_cons_delim {delim : UInt8 → Bool} {d : UInt8} (hd : delim d = true)
    (s : Str) : words delim (d :: s) = words delim s := by
  simp [words, List.splitOnP_cons_eq_if_modifyHead, hd]

theorem words_skip {delim : UInt8 → Bool} {ds s : Str}
    (h : ∀ c ∈ ds, delim c = true) : words delim (ds ++ s) = words delim s := by
  induction ds with
  | nil => rfl
  | cons d ds ih =>
      rw [List.cons_append, words_cons_delim (h d List.mem_cons_self)]
      exact ih fun c hc => h c (List.mem_cons_of_mem d hc)

theorem words_field {delim : UInt8 → Bool} {tok rest : Str} {d : UInt8}
    (hne : tok ≠ []) (htok : ∀ c ∈ tok, delim c = false) (hd : delim d = true) :
    words delim (tok ++ d :: rest) = tok :: words delim rest := by
  rw [words, List.splitOnP_append_cons_of_forall_mem htok d hd,
    List.filter_cons_of_pos (by simpa using hne), words]

theorem words_last {delim : UInt8 → Bool} {tok : Str}
    (hne : tok ≠ []) (htok : ∀ c ∈ tok, delim c = false) :
    words delim tok = [tok] := by
  rw [words, List.splitOnP_eq_singleton htok,
    List.filter_cons_of_pos (by simpa using hne), List.filter_nil]

/-- A word is not empty, and there is no delimiter in it. -/
theorem mem_words {delim : UInt8 → Bool} {s w : Str} (h : w ∈ words delim s) :
    w ≠ [] ∧ ∀ c ∈ w, delim c = false := by
  rw [words, List.mem_filter] at h
  obtain ⟨hmem, hne⟩ := h
  refine ⟨by simpa using hne, ?_⟩
  clear hne
  induction s generalizing w with
  | nil =>
      obtain rfl : w = [] := by simpa using hmem
      simp
  | cons c s ih =>
      rw [List.splitOnP_cons_eq_if_modifyHead] at hmem
      split at hmem
      · rcases List.mem_cons.mp hmem with rfl | hmem
        · simp
        · exact ih hmem
      · next hc =>
          obtain ⟨v, vs, hv⟩ :=
            List.exists_cons_of_ne_nil (List.splitOnP_ne_nil delim s)
          rw [hv, List.modifyHead_cons] at hmem
          rw [hv] at ih
          rcases List.mem_cons.mp hmem with rfl | hmem
          · intro d hd
            rcases List.mem_cons.mp hd with rfl | hd
            · simpa using hc
            · exact ih List.mem_cons_self d hd
          · exact ih (List.mem_cons_of_mem v hmem)

/-- A call takes the first of the words that are left. -/
theorem strtokR_words (delim : UInt8 → Bool) (state : Option Str) :
    (strtokR delim state).1 = (wordsLeft delim state).head? ∧
      wordsLeft delim (strtokR delim state).2 = (wordsLeft delim state).tail := by
  cases state with
  | none => exact ⟨rfl, rfl⟩
  | some s =>
      have hds : ∀ c ∈ s.takeWhile delim, delim c = true :=
        fun c hc => List.mem_takeWhile_imp hc
      rw [← List.takeWhile_append_dropWhile (p := delim) (l := s), strtokR_skip hds,
        wordsLeft, words_skip hds]
      cases hs : s.dropWhile delim with
      | nil => simp [strtokR, wordsLeft]
      | cons c s' =>
          have htok : ∀ x ∈ (c :: s').takeWhile fun e => !delim e,
              delim x = false := by
            intro x hx
            simpa using List.mem_takeWhile_imp hx
          have hc : delim c = false := by
            have h := List.head_dropWhile_not (p := delim) (l := s) (by simp [hs])
            simpa [hs] using h
          have hne : (c :: s').takeWhile (fun e => !delim e) ≠ [] := by
            simp [hc]
          rw [← List.takeWhile_append_dropWhile (p := fun e => !delim e)
            (l := c :: s')]
          cases hd : (c :: s').dropWhile fun e => !delim e with
          | nil =>
              rw [List.append_nil, strtokR_last hne htok, words_last hne htok]
              exact ⟨rfl, rfl⟩
          | cons d rest =>
              have hdelim : delim d = true := by
                have h := List.head_dropWhile_not (p := fun e => !delim e)
                  (l := c :: s') (by simp [hd])
                simpa [hd] using h
              rw [strtokR_field hne htok hdelim, words_field hne htok hdelim]
              exact ⟨rfl, rfl⟩

/-! ## `fgets` -/

/-- The next `k` characters of a file, or those through its next newline. -/
def takeLine : Nat → Str → Str × Str
  | 0, s => ([], s)
  | _ + 1, [] => ([], [])
  | k + 1, c :: s =>
      if c = 0x0a then ([c], s)
      else
        match takeLine k s with
        | (line, rest) => (c :: line, rest)

/-- `fgets(buf, n, f)` on the rest of `f`: what it stores and the rest it
leaves, or `none` for NULL at the end of the file. -/
def fgets (n : Nat) (file : Str) : Option (Str × Str) :=
  if file = [] then none else some (takeLine (n - 1) file)

/-- What successive calls of `fgets` store until one returns NULL, for so
many calls at most. -/
def fgetsUpTo (n : Nat) : Nat → Str → List Str
  | 0, _ => []
  | calls + 1, file =>
      match fgets n file with
      | none => []
      | some (piece, file') => piece :: fgetsUpTo n calls file'

/-- The pieces `fgets(buf, n, f)` cuts a file into. No file takes more calls
than it has characters. -/
def pieces (n : Nat) (file : Str) : List Str := fgetsUpTo n file.length file

theorem takeLine_append (k : Nat) (s : Str) :
    (takeLine k s).1 ++ (takeLine k s).2 = s := by
  induction k generalizing s with
  | zero => rfl
  | succ k ih =>
      cases s with
      | nil => rfl
      | cons c s =>
          rw [takeLine]
          split
          · rfl
          · exact congrArg (c :: ·) (ih s)

theorem takeLine_ne_nil {k : Nat} {s : Str} (hs : s ≠ []) :
    (takeLine (k + 1) s).1 ≠ [] := by
  cases s with
  | nil => exact absurd rfl hs
  | cons c s =>
      rw [takeLine]
      split <;> exact List.cons_ne_nil _ _

theorem takeLine_rest_lt {k : Nat} {s : Str} (hs : s ≠ []) :
    (takeLine (k + 1) s).2.length < s.length := by
  have h := congrArg List.length (takeLine_append (k + 1) s)
  have hpos := List.length_pos_iff.mpr (takeLine_ne_nil (k := k) hs)
  rw [List.length_append] at h
  omega

theorem takeLine_line {k : Nat} {l rest : Str} (hl : (0x0a : UInt8) ∉ l)
    (hk : l.length < k) :
    takeLine k (l ++ 0x0a :: rest) = (l ++ [0x0a], rest) := by
  induction l generalizing k with
  | nil =>
      obtain ⟨k, rfl⟩ : ∃ m, k = m + 1 := ⟨k - 1, by simp at hk; omega⟩
      rfl
  | cons c l ih =>
      rw [List.length_cons] at hk
      obtain ⟨k, rfl⟩ : ∃ m, k = m + 1 := ⟨k - 1, by omega⟩
      have hc : c ≠ 0x0a := fun h => hl (by simp [h])
      rw [List.cons_append, takeLine, if_neg hc,
        ih (fun h => hl (List.mem_cons_of_mem c h)) (by omega)]
      rfl

/-- A line that does not fit is cut, and what is left of it is a line. -/
theorem takeLine_cut {k : Nat} {l rest : Str} (hl : (0x0a : UInt8) ∉ l)
    (hk : k ≤ l.length) :
    takeLine k (l ++ 0x0a :: rest) = (l.take k, l.drop k ++ 0x0a :: rest) := by
  induction l generalizing k with
  | nil =>
      rw [List.length_nil] at hk
      obtain rfl : k = 0 := by omega
      rfl
  | cons c l ih =>
      cases k with
      | zero => rfl
      | succ k =>
          rw [List.length_cons] at hk
          have hc : c ≠ 0x0a := fun h => hl (by simp [h])
          rw [List.cons_append, takeLine, if_neg hc,
            ih (fun h => hl (List.mem_cons_of_mem c h)) (by omega)]
          rfl

theorem fgetsUpTo_enough {n : Nat} (hn : 2 ≤ n) {a b : Nat} {s : Str}
    (ha : s.length ≤ a) (hb : s.length ≤ b) :
    fgetsUpTo n a s = fgetsUpTo n b s := by
  obtain ⟨k, rfl⟩ : ∃ k, n = k + 2 := ⟨n - 2, by omega⟩
  induction a generalizing b s with
  | zero =>
      obtain rfl : s = [] := List.eq_nil_of_length_eq_zero (by omega)
      cases b <;> rfl
  | succ a ih =>
      by_cases hs : s = []
      · subst hs
        cases b <;> rfl
      · have hpos := List.length_pos_iff.mpr hs
        obtain ⟨c, rfl⟩ : ∃ c, b = c + 1 := ⟨b - 1, by omega⟩
        have hlt := takeLine_rest_lt (k := k) hs
        rw [fgetsUpTo, fgetsUpTo, fgets, if_neg hs, show k + 2 - 1 = k + 1 from rfl]
        simp only []
        rw [ih (b := c) (by omega) (by omega)]

theorem pieces_nil (n : Nat) : pieces n [] = [] := rfl

theorem pieces_ne_nil {n : Nat} (hn : 2 ≤ n) {s : Str} (hs : s ≠ []) :
    pieces n s = (takeLine (n - 1) s).1 :: pieces n (takeLine (n - 1) s).2 := by
  obtain ⟨k, rfl⟩ : ∃ k, n = k + 2 := ⟨n - 2, by omega⟩
  have hpos := List.length_pos_iff.mpr hs
  have hlt := takeLine_rest_lt (k := k) hs
  obtain ⟨m, hm⟩ : ∃ m, s.length = m + 1 := ⟨s.length - 1, by omega⟩
  rw [pieces, hm, fgetsUpTo, fgets, if_neg hs, show k + 2 - 1 = k + 1 from rfl]
  simp only []
  rw [fgetsUpTo_enough hn (b := (takeLine (k + 1) s).2.length) (by omega)
    (Nat.le_refl _)]
  rfl

theorem pieces_line {n : Nat} (hn : 2 ≤ n) {l : Str} (hl : (0x0a : UInt8) ∉ l)
    (hfit : l.length + 1 < n) : pieces n (l ++ [0x0a]) = [l ++ [0x0a]] := by
  rw [pieces_ne_nil hn (by simp), takeLine_line hl (by omega), pieces_nil]

/-- No piece crosses the end of a line, whatever the line's length: the
induction is on the line, one buffer of it at a time. -/
theorem pieces_append_line {n : Nat} (hn : 2 ≤ n) {l rest : Str}
    (hl : (0x0a : UInt8) ∉ l) :
    pieces n (l ++ 0x0a :: rest) = pieces n (l ++ [0x0a]) ++ pieces n rest := by
  induction h : l.length using Nat.strongRecOn generalizing l with
  | _ len ih =>
      rw [pieces_ne_nil hn (by simp), pieces_ne_nil hn (s := l ++ [0x0a]) (by simp)]
      by_cases hk : l.length < n - 1
      · rw [takeLine_line hl hk, takeLine_line hl hk, pieces_nil]
        rfl
      · rw [takeLine_cut hl (by omega), takeLine_cut hl (by omega)]
        simp only []
        have hdrop : (0x0a : UInt8) ∉ l.drop (n - 1) :=
          fun hmem => hl (List.mem_of_mem_drop hmem)
        have hlen : (l.drop (n - 1)).length < len := by
          rw [List.length_drop]; omega
        rw [ih _ hlen hdrop rfl]
        rfl

/-! ## `strtoll` in base 16 -/

/-- The value of a hexadecimal digit. -/
def hexDigit? (c : UInt8) : Option Nat :=
  if 0x30 ≤ c ∧ c ≤ 0x39 then some (c.toNat - 0x30)
  else if 0x61 ≤ c ∧ c ≤ 0x66 then some (c.toNat - 0x61 + 10)
  else if 0x41 ≤ c ∧ c ≤ 0x46 then some (c.toNat - 0x41 + 10)
  else none

/-- The value of the longest numeral a string starts with, `acc` read so far. -/
def hexPrefix (acc : Nat) : Str → Nat
  | [] => acc
  | c :: s =>
      match hexDigit? c with
      | some d => hexPrefix (16 * acc + d) s
      | none => acc

/-- `isspace` in the C locale. -/
def isSpace (c : UInt8) : Bool := c == 0x20 || (0x09 ≤ c && c ≤ 0x0d)

/-- An optional sign: whether it is a minus, and what follows it. -/
def takeSign : Str → Bool × Str
  | 0x2d :: s => (true, s)
  | 0x2b :: s => (false, s)
  | s => (false, s)

/-- An optional `0x` or `0X`. Where no digit follows it the value read is the
zero in front of it, which is also the value of no digits. -/
def dropHexMark : Str → Str
  | 0x30 :: 0x78 :: s => s
  | 0x30 :: 0x58 :: s => s
  | s => s

/-- `strtoll(s, NULL, 16)`, saturating at the ends of `long long`. -/
def strtoll16 (s : Str) : Int :=
  let (neg, digits) := takeSign (s.dropWhile isSpace)
  let v := hexPrefix 0 (dropHexMark digits)
  if neg then max (-(v : Int)) (-2 ^ 63) else min (v : Int) (2 ^ 63 - 1)

/-- A nonempty run of hexadecimal digits. -/
def IsHex (s : Str) : Prop := s ≠ [] ∧ ∀ c ∈ s, (hexDigit? c).isSome

instance (s : Str) : Decidable (IsHex s) :=
  @instDecidableAnd _ _ _ (List.decidableBAll _ s)

theorem hexDigit?_range {c : UInt8} (h : (hexDigit? c).isSome) :
    (0x30 ≤ c ∧ c ≤ 0x39) ∨ (0x61 ≤ c ∧ c ≤ 0x66) ∨ (0x41 ≤ c ∧ c ≤ 0x46) := by
  rw [hexDigit?] at h
  split at h
  · next hd => exact Or.inl hd
  · split at h
    · next hd => exact Or.inr (Or.inl hd)
    · split at h
      · next hd => exact Or.inr (Or.inr hd)
      · cases h

/-- A digit is none of the characters `strtoll` treats specially, nor one of
those that end a field. -/
theorem hexDigit?_plain {c : UInt8} (h : (hexDigit? c).isSome) :
    isSpace c = false ∧ c ≠ 0x2d ∧ c ≠ 0x2b ∧ c ≠ 0x78 ∧ c ≠ 0x58 ∧
      c ≠ 0 := by
  have hr := hexDigit?_range h
  simp only [UInt8.le_iff_toNat_le, UInt8.reduceToNat] at hr
  refine ⟨?_, ?_, ?_, ?_, ?_, ?_⟩
  · simp only [isSpace, Bool.or_eq_false_iff, beq_eq_false_iff_ne, ne_eq,
      Bool.and_eq_false_iff, decide_eq_false_iff_not,
      UInt8.le_iff_toNat_le, UInt8.reduceToNat, ← UInt8.toNat_inj]
    omega
  all_goals
    rw [ne_eq, ← UInt8.toNat_inj]
    simp only [UInt8.reduceToNat]
    omega

/-- A numeral in range is read back as its value. -/
theorem strtoll16_digits {s : Str} (h : IsHex s) (hlt : hexPrefix 0 s < 2 ^ 63) :
    strtoll16 s = hexPrefix 0 s := by
  obtain ⟨hne, hall⟩ := h
  obtain ⟨c, s', rfl⟩ := List.exists_cons_of_ne_nil hne
  obtain ⟨hsp, hminus, hplus, -, -, -⟩ := hexDigit?_plain (hall c (by simp))
  have hdrop : (c :: s').dropWhile isSpace = c :: s' :=
    List.dropWhile_cons_of_neg (by simp [hsp])
  have hsign : takeSign (c :: s') = (false, c :: s') := by
    rw [takeSign.eq_def]
    split
    · next heq => exact absurd (List.cons.inj heq).1 hminus
    · next heq => exact absurd (List.cons.inj heq).1 hplus
    · rfl
  have hmark : dropHexMark (c :: s') = c :: s' := by
    rw [dropHexMark.eq_def]
    split
    · next d heq =>
        obtain ⟨-, rfl⟩ := List.cons.inj heq
        exact absurd rfl (hexDigit?_plain (hall 0x78 (by simp))).2.2.2.1
    · next d heq =>
        obtain ⟨-, rfl⟩ := List.cons.inj heq
        exact absurd rfl (hexDigit?_plain (hall 0x58 (by simp))).2.2.2.2.1
    · rfl
  rw [strtoll16, hdrop, hsign]
  simp only [hmark, Bool.false_eq_true, if_false]
  omega

end CStr
