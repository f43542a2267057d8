import PistolWhipHook.Spec.MapsText
import Mathlib.Data.List.Find

/-!
# What `baseAddr` finds

The seven `strtok_r` steps read a piece of the file as `shownBy` does, by its
words: `scanPiece_eq`. A line that the buffer holds is one piece, and along
its words its pathname ends at the first blank; a longer line is several. So
the loop answers the first start that is seen anywhere in the file,
`baseAddr_eq_shown`, and that is right as long as the first line that matters
is read right. Where it is not, the answer can still be right by accident, if
a start that was seen for the wrong reason is the one that was asked for;
`baseAddr_findsFirst` says that nothing else can save it.
-/

namespace PistolWhipHook

open ByteMem CStr

/-! ## A piece -/

theorem rdropWhile_congr {p q : UInt8 → Bool} {s : Str} (h : ∀ c ∈ s, p c = q c) :
    s.rdropWhile p = s.rdropWhile q := by
  induction s using List.reverseRecOn with
  | nil => rfl
  | append_singleton s c ih =>
      rw [List.rdropWhile_concat, List.rdropWhile_concat, h c (by simp),
        ih fun d hd => h d (List.mem_append_left [c] hd)]

/-- In a word there is nothing to trim but the line end. -/
theorem trimPath_word {w : Str} (h : ∀ c ∈ w, isBlank c = false) :
    trimPath w = w.rdropWhile fun c => c == 0x0a || c == 0x0d := by
  refine rdropWhile_congr fun c hc => ?_
  have hb := h c hc
  simp only [isBlank, Bool.or_eq_false_iff] at hb
  rw [isTrimmed, hb.1, hb.2, Bool.false_or, Bool.or_false, Bool.or_comm]

theorem namesSo_eq {soname tok : Str} (hne : soname ≠ []) :
    namesSo soname tok = decide (soname <:+ tok) := by
  have hpos := List.length_pos_iff.mpr hne
  rw [namesSo, strEq, Bool.eq_iff_iff]
  simp only [Bool.and_eq_true, decide_eq_true_eq, beq_iff_eq]
  refine ⟨?_, ?_⟩
  · intro h
    obtain ⟨-, -, h⟩ := h
    exact h ▸ List.drop_suffix _ _
  · intro h
    have hle := h.length_le
    exact ⟨by omega, hle, (List.suffix_iff_eq_drop.mp h).symm⟩

/-- The path field is the sixth of the words behind the dash. -/
theorem mapsFields_eq (piece : Str) :
    mapsFields piece =
      ((strtokR isDash (some (untilNul piece))).1,
        (wordsLeft isBlank (strtokR isDash (some (untilNul piece))).2)[5]?) := by
  rw [mapsFields]
  simp only []
  rw [(strtokR_words isBlank _).1]
  simp only [(strtokR_words isBlank _).2, List.head?_eq_getElem?,
    List.getElem?_tail]

/-- The parser sees of a piece what its words show. -/
theorem scanPiece_eq {soname : Str} (hne : soname ≠ []) (piece : Str) :
    scanPiece soname piece = shownBy soname piece := by
  rw [scanPiece, mapsFields_eq, shownBy, strtokR]
  cases hline : (untilNul piece).dropWhile isDash with
  | nil => simp
  | cons c line =>
      simp only []
      cases hrest : (c :: line).dropWhile fun d => !isDash d with
      | nil => simp [wordsLeft]
      | cons d rest =>
          simp only [wordsLeft, List.tail_cons]
          cases hpath : (words isBlank rest)[5]? with
          | none => rfl
          | some path =>
              have hword := (mem_words (List.mem_of_getElem? hpath)).2
              simp only [namesSo_eq hne, trimPath_word hword, decide_eq_true_eq]

/-- The loop answers the first start that a piece shows. -/
theorem scanMaps_eq {soname : Str} (hne : soname ≠ []) (rounds : Nat) (file : Str) :
    scanMaps soname rounds file =
      (((fgetsUpTo 199 rounds file).filterMap (shownBy soname)).head?).getD 0 := by
  induction rounds generalizing file with
  | zero => rfl
  | succ rounds ih =>
      rw [scanMaps, fgetsUpTo]
      cases hf : fgets 199 file with
      | none => rfl
      | some step =>
          obtain ⟨piece, file'⟩ := step
          simp only [scanPiece_eq hne]
          cases hs : shownBy soname piece with
          | none =>
              rw [List.filterMap_cons_none hs]
              exact ih file'
          | some a =>
              rw [List.filterMap_cons_some hs]
              rfl

theorem baseAddr_eq {os : Os} {soname text : Str} (hne : soname ≠ [])
    (hopen : os.dlopen (some soname) = true) (hmaps : os.maps = some text) :
    baseAddr os (some soname) =
      (((pieces 199 text).filterMap (shownBy soname)).head?).getD 0 := by
  rw [baseAddr, hopen, hmaps]
  exact scanMaps_eq hne text.length text

theorem baseAddr_dlopen_fails {os : Os} {soname : Str}
    (hopen : os.dlopen (some soname) = false) :
    baseAddr os (some soname) = 0 := by
  rw [baseAddr, hopen]
  rfl

theorem baseAddr_fopen_fails {os : Os} {soname : Str}
    (hmaps : os.maps = none) : baseAddr os (some soname) = 0 := by
  rw [baseAddr, hmaps]
  simp only []
  split <;> rfl

/-! ## A line -/

theorem isHex_field {s : Str} (h : IsHex s) :
    s ≠ [] ∧ ∀ c ∈ s, isDash c = false ∧ c ≠ 0x0a ∧ c ≠ 0 := by
  refine ⟨h.1, fun c hc => ?_⟩
  obtain ⟨hsp, hdash, -, -, -, h0⟩ := hexDigit?_plain (h.2 c hc)
  refine ⟨by simpa [isDash] using hdash, ?_, h0⟩
  rintro rfl
  exact absurd hsp (by decide)

theorem isBlank_plain {c : UInt8} (h : isBlank c = true) : c ≠ 0x0a ∧ c ≠ 0 := by
  refine ⟨?_, ?_⟩
  all_goals
    rintro rfl
    exact absurd h (by decide)

namespace MapsLine

/-- No character of a line but its last is a newline, and none is a NUL. -/
theorem body_plain (l : MapsLine) : ∀ c ∈ l.body, c ≠ 0x0a ∧ c ≠ 0 := by
  intro c hc
  have htail : c ∈ l.tail → c ≠ 0x0a ∧ c ≠ 0 := by
    intro hc
    rw [tail] at hc
    split at hc
    · cases hc
    · next p _ =>
        rcases List.mem_append.mp hc with h | h
        · exact isBlank_plain (p.gap_ok.2 c h)
        · exact p.name_ok.2 c h
  simp only [body, List.mem_append, List.mem_cons] at hc
  rcases hc with h | rfl | h | rfl | h | rfl | h | rfl | h | rfl | h | h
  · exact (isHex_field l.start_ok.1).2 c h |>.2
  · decide
  · exact (l.stop_ok.2 c h).2
  · decide
  · exact (l.perms_ok.2 c h).2
  · decide
  · exact (l.offset_ok.2 c h).2
  · decide
  · exact (l.dev_ok.2 c h).2
  · decide
  · exact (l.inode_ok.2 c h).2
  · exact htail h

theorem newline_not_mem_body (l : MapsLine) : (0x0a : UInt8) ∉ l.body :=
  fun h => (l.body_plain _ h).1 rfl

theorem untilNul_render (l : MapsLine) : untilNul l.render = l.render := by
  refine List.takeWhile_eq_self_iff.mpr fun c hc => ?_
  rcases List.mem_append.mp hc with h | h
  · simpa using (l.body_plain c h).2
  · obtain rfl := List.mem_singleton.mp h
    decide

theorem words_blank_field {tok rest : Str} {d : UInt8} (h : IsField tok)
    (hd : isBlank d = true) :
    words isBlank (tok ++ d :: rest) = tok :: words isBlank rest :=
  words_field h.1 (fun c hc => (h.2 c hc).1) hd

/-- The words behind the start: four fields, the same for every line, and the
inode with what follows it. -/
theorem shownBy_render (soname : Str) (l : MapsLine) :
    shownBy soname l.render =
      match (words isBlank (l.inode ++ (l.tail ++ [0x0a])))[1]? with
      | none => none
      | some path =>
          if soname <:+ path.rdropWhile fun c => c == 0x0a || c == 0x0d then
            some l.addr
          else none := by
  obtain ⟨hne, hdash⟩ := isHex_field l.start_ok.1
  obtain ⟨c, start, hstart⟩ := List.exists_cons_of_ne_nil hne
  have hc : ¬ isDash c = true := by simp [(hdash c (by rw [hstart]; simp)).1]
  have hnot : ∀ d ∈ l.start, (!isDash d) = true :=
    fun d hd => by simp [(hdash d hd).1]
  have hfirst : ∀ rest : Str, (l.start ++ rest).dropWhile isDash =
      l.start ++ rest := by
    intro rest
    rw [hstart, List.cons_append, List.dropWhile_cons_of_neg hc]
  have hsp : isBlank 0x20 = true := by decide
  have hvalue : BitVec.ofInt 64 (strtoll16 l.start) = l.addr := by
    rw [strtoll16_digits l.start_ok.1 l.start_ok.2, BitVec.ofInt_natCast]
    rfl
  rw [shownBy, l.untilNul_render, render, body]
  simp only [List.append_assoc, List.cons_append, hfirst]
  rw [List.takeWhile_append_of_pos hnot, List.dropWhile_append_of_pos hnot,
    List.takeWhile_cons_of_neg (by decide), List.dropWhile_cons_of_neg (by decide),
    List.tail_cons, List.append_nil, words_blank_field l.stop_ok hsp,
    words_blank_field l.perms_ok hsp, words_blank_field l.offset_ok hsp,
    words_blank_field l.dev_ok hsp, hvalue]
  rfl

/-- The last word of a line takes the newline with it. -/
theorem words_newline {tok : Str} (h : ∀ c ∈ tok, isBlank c = false) :
    words isBlank (tok ++ [0x0a]) = [tok ++ [0x0a]] := by
  refine words_last (by simp) fun c hc => ?_
  rcases List.mem_append.mp hc with hc | hc
  · exact h c hc
  · obtain rfl := List.mem_singleton.mp hc
    decide

/-- The first word of a pathname, less the line end. -/
theorem head?_words_name {name : Str} (h : IsPathname name) :
    ∃ w, (words isBlank (name ++ [0x0a])).head? = some w ∧
      (w.rdropWhile fun c => c == 0x0a || c == 0x0d) =
        (name.takeWhile fun c => !isBlank c).rdropWhile fun c => c == 0x0d := by
  have htake : ∀ c ∈ name.takeWhile fun c => !isBlank c, isBlank c = false := by
    intro c hc
    simpa using List.mem_takeWhile_imp hc
  have htrim : ((name.takeWhile fun c => !isBlank c).rdropWhile fun c =>
      c == 0x0a || c == 0x0d) =
      (name.takeWhile fun c => !isBlank c).rdropWhile fun c => c == 0x0d := by
    refine rdropWhile_congr fun c hc => ?_
    simp [(h.2 c ((List.takeWhile_sublist _).subset hc)).1]
  have hsplit : name ++ [0x0a] = (name.takeWhile fun c => !isBlank c) ++
      ((name.dropWhile fun c => !isBlank c) ++ [0x0a]) := by
    rw [← List.append_assoc, List.takeWhile_append_dropWhile]
  rw [hsplit]
  cases hrest : name.dropWhile fun c => !isBlank c with
  | nil =>
      refine ⟨(name.takeWhile fun c => !isBlank c) ++ [0x0a], ?_, ?_⟩
      · rw [List.nil_append, words_newline htake]
        rfl
      · rw [List.rdropWhile_concat_pos _ _ _ (by decide), htrim]
  | cons d rest =>
      have hd : isBlank d = true := by
        have hhead := List.head_dropWhile_not (p := fun c => !isBlank c) (l := name)
          (by simp [hrest])
        simpa [hrest] using hhead
      have hne : (name.takeWhile fun c => !isBlank c) ≠ [] := by
        obtain ⟨c, hc, hb⟩ := h.1
        obtain ⟨name', rfl⟩ := List.head?_eq_some_iff.mp hc
        simp [hb]
      refine ⟨name.takeWhile fun c => !isBlank c, ?_, htrim⟩
      rw [List.cons_append, words_field hne htake hd]
      rfl

/-- A line that the buffer holds: its start, if its word ends with the name. -/
theorem shownBy_line {soname : Str} (hne : soname ≠ []) (l : MapsLine) :
    shownBy soname l.render = if soname <:+ l.word then some l.addr else none := by
  have hnil : ¬ soname <:+ [] := by simpa [List.suffix_nil] using hne
  rw [shownBy_render, tail, word]
  cases hp : l.path with
  | none =>
      simp only [List.nil_append]
      rw [words_newline fun c hc => (l.inode_ok.2 c hc).1, if_neg hnil]
      rfl
  | some p =>
      obtain ⟨b, gap, hgap⟩ := List.exists_cons_of_ne_nil p.gap_ok.1
      have hall : ∀ c ∈ b :: gap, isBlank c = true := hgap ▸ p.gap_ok.2
      obtain ⟨w, hw, htrim⟩ := head?_words_name p.name_ok
      simp only [hgap, List.cons_append, List.append_assoc]
      rw [words_blank_field l.inode_ok (hall b List.mem_cons_self),
        words_skip fun c hc => hall c (List.mem_cons_of_mem b hc),
          List.getElem?_cons_succ,
        ← List.head?_eq_getElem?, hw]
      simp only [htrim]

theorem filterMap_pieces_render {soname : Str} (hne : soname ≠ []) (l : MapsLine) :
    (pieces 199 l.render).filterMap (shownBy soname) = l.shown soname := by
  rw [shown]
  split
  · next hfit =>
      have hline : pieces 199 l.render = [l.render] := by
        rw [render, List.length_append] at hfit
        rw [render]
        exact pieces_line (by decide) l.newline_not_mem_body
          (by simpa using Nat.lt_succ_of_le hfit)
      by_cases hword : soname <:+ l.word
      · rw [hline, List.filterMap_cons, shownBy_line hne, if_pos hword,
          if_pos hword]
        rfl
      · rw [hline, List.filterMap_cons, shownBy_line hne, if_neg hword,
          if_neg hword]
        rfl
  · rfl

end MapsLine

/-! ## The file -/

theorem pieces_mapsText (ls : List MapsLine) :
    pieces 199 (mapsText ls) = ls.flatMap fun l => pieces 199 l.render := by
  induction ls with
  | nil => rfl
  | cons l ls ih =>
      rw [mapsText, List.flatMap_cons, List.flatMap_cons, MapsLine.render,
        List.append_assoc, List.singleton_append,
        pieces_append_line (by decide) l.newline_not_mem_body]
      exact congrArg _ ih

theorem filterMap_pieces_mapsText {soname : Str} (hne : soname ≠ [])
    (ls : List MapsLine) :
    (pieces 199 (mapsText ls)).filterMap (shownBy soname) =
      ls.flatMap (MapsLine.shown soname) := by
  rw [pieces_mapsText, List.filterMap_flatMap]
  simp only [MapsLine.filterMap_pieces_render hne]

theorem baseAddr_eq_shown {os : Os} {ls : List MapsLine} {soname : Str}
    (hne : soname ≠ []) (hopen : os.dlopen (some soname) = true)
    (hmaps : os.maps = some (mapsText ls)) :
    baseAddr os (some soname) =
      ((ls.flatMap (MapsLine.shown soname)).head?).getD 0 := by
  rw [baseAddr_eq hne hopen hmaps, filterMap_pieces_mapsText hne]

theorem none_names_iff {ls : List MapsLine} {soname : Str} :
    ls.find? (MapsLine.names soname) = none ↔
      ∀ l ∈ ls, l.names soname = false := by
  rw [List.find?_eq_none]
  simp only [Bool.not_eq_true]

/-- The first line that matters, with those before it that do not. -/
theorem find?_matters {ls : List MapsLine} {soname : Str} {l : MapsLine}
    (h : ls.find? (fun l => l.names soname || !(l.shown soname).isEmpty) = some l) :
    (l.names soname = true ∨ l.shown soname ≠ []) ∧ ∃ as bs, ls = as ++ l :: bs ∧
      as.find? (MapsLine.names soname) = none ∧
      as.flatMap (MapsLine.shown soname) = [] := by
  obtain ⟨hl, as, bs, rfl, has⟩ := List.find?_eq_some_iff_append.mp h
  refine ⟨by simpa using hl, as, bs, rfl, none_names_iff.mpr fun a ha => ?_,
    List.flatMap_eq_nil_iff.mpr fun a ha => ?_⟩
  · have := has a ha
    simp only [Bool.not_or, Bool.and_eq_true, Bool.not_eq_true'] at this
    exact this.1
  · have := has a ha
    simp only [Bool.not_or, Bool.and_eq_true, Bool.not_not, List.isEmpty_iff]
      at this
    exact this.2

theorem findsFirst_of_seenRight {ls : List MapsLine} {soname : Str}
    (h : SeenRight soname ls) :
    FindsFirst ls soname (((ls.flatMap (MapsLine.shown soname)).head?).getD 0) := by
  cases hf : ls.find? (fun l => l.names soname || !(l.shown soname).isEmpty) with
  | none =>
      have hnone : ∀ l ∈ ls, l.names soname = false ∧ l.shown soname = [] := by
        intro l hl
        simpa using List.find?_eq_none.mp hf l hl
      have hnil : ls.flatMap (MapsLine.shown soname) = [] :=
        List.flatMap_eq_nil_iff.mpr fun l hl => (hnone l hl).2
      refine ⟨fun l hl => ?_,
        ⟨fun _ l hl => (hnone l hl).1, fun _ => by rw [hnil]; rfl⟩⟩
      rw [none_names_iff.mpr fun l hl => (hnone l hl).1] at hl
      cases hl
  | some l =>
      obtain ⟨hname, hhead, hnz⟩ := h l hf
      obtain ⟨-, as, bs, rfl, has, hnil⟩ := find?_matters hf
      have hfirst : (as ++ l :: bs).find? (MapsLine.names soname) = some l := by
        rw [List.find?_append, has, List.find?_cons_of_pos hname]
        rfl
      rw [List.flatMap_append, hnil, List.nil_append, List.flatMap_cons,
        List.head?_append, hhead]
      refine ⟨fun l' hl' => ?_, fun hz => absurd hz hnz, fun hn => ?_⟩
      · rw [hfirst] at hl'
        exact congrArg MapsLine.addr (Option.some.inj hl')
      · have := hn l (by simp)
        rw [hname] at this
        cases this

theorem seenRight_of_findsFirst {ls : List MapsLine} {soname : Str}
    (hapart : ShownApart soname ls)
    (h : FindsFirst ls soname
      (((ls.flatMap (MapsLine.shown soname)).head?).getD 0)) :
    SeenRight soname ls := by
  intro l hf
  obtain ⟨hmatters, as, bs, rfl, has, hnil⟩ := find?_matters hf
  have hmem : l ∈ as ++ l :: bs := by simp
  rw [List.flatMap_append, hnil, List.nil_append, List.flatMap_cons] at h
  cases hs : l.shown soname with
  | nil =>
      -- not seen though it names the library: what is seen later is another line's
      have hname : l.names soname = true := hmatters.resolve_right fun hn => hn hs
      have hfirst : (as ++ l :: bs).find? (MapsLine.names soname) = some l := by
        rw [List.find?_append, has, List.find?_cons_of_pos hname]
        rfl
      have haddr := h.first l hfirst
      rw [hs, List.nil_append] at h haddr
      cases hhead : (bs.flatMap (MapsLine.shown soname)).head? with
      | none =>
          rw [hhead] at h
          have := h.zero.mp rfl l hmem
          rw [hname] at this
          cases this
      | some a =>
          rw [hhead, Option.getD_some] at haddr
          obtain ⟨l', hl', ha⟩ := List.mem_flatMap.mp (List.mem_of_head? hhead)
          obtain rfl := (hapart l' (by simp [hl']) a ha).2 l hmem haddr.symm
          rw [hs] at ha
          cases ha
  | cons a rest =>
      rw [hs, List.cons_append, List.head?_cons, Option.getD_some] at h
      obtain ⟨hnz, honly⟩ := hapart l hmem a (by rw [hs]; exact List.mem_cons_self)
      cases hfirst : (as ++ l :: bs).find? (MapsLine.names soname) with
      | none => exact absurd (h.zero.mpr (none_names_iff.mp hfirst)) hnz
      | some l' =>
          have haddr := h.first l' hfirst
          obtain rfl := honly l' (List.mem_of_find?_eq_some hfirst) haddr.symm
          refine ⟨List.find?_some hfirst, ?_, haddr ▸ hnz⟩
          rw [List.head?_cons, haddr]

/-! ## The answer -/

/-- Over every file of well-formed lines and every name, `baseAddr` answers as
`FindsFirst` asks where the first line that matters is read right; and nowhere
else, unless a start that is seen is null or that of another line. -/
theorem baseAddr_findsFirst {os : Os} {ls : List MapsLine} {soname : Str}
    (hne : soname ≠ []) (hopen : os.dlopen (some soname) = true)
    (hmaps : os.maps = some (mapsText ls)) :
    (SeenRight soname ls → FindsFirst ls soname (baseAddr os (some soname))) ∧
      (ShownApart soname ls → FindsFirst ls soname (baseAddr os (some soname)) →
        SeenRight soname ls) := by
  rw [baseAddr_eq_shown hne hopen hmaps]
  exact ⟨findsFirst_of_seenRight, seenRight_of_findsFirst⟩

/-! ## Plain lines -/

theorem MapsLine.word_of_plain {l : MapsLine} (h : l.Plain) :
    l.word = (l.path.map MapsPath.name).getD [] := by
  rw [word]
  cases hp : l.path with
  | none => rfl
  | some p =>
      have hname := h.2 p hp
      simp only [Option.map_some, Option.getD_some]
      rw [List.takeWhile_eq_self_iff.mpr fun c hc => by simp [(hname c hc).1],
        List.rdropWhile_eq_self_iff]
      intro hne
      simpa using (hname _ (List.getLast_mem hne)).2

/-- Of a plain line there is seen what it says. -/
theorem MapsLine.shown_of_plain {l : MapsLine} {soname : Str} (hne : soname ≠ [])
    (h : l.Plain) : l.shown soname = if l.names soname then [l.addr] else [] := by
  rw [shown, if_pos h.1, word_of_plain h, names]
  cases l.path with
  | none =>
      have hnil : ¬ soname <:+ [] := by simpa [List.suffix_nil] using hne
      simp [hnil]
  | some p => simp

theorem flatMap_shown_of_plain {ls : List MapsLine} {soname : Str}
    (hne : soname ≠ []) (hplain : ∀ l ∈ ls, l.Plain) :
    (ls.flatMap (MapsLine.shown soname)).head? =
      (ls.find? (MapsLine.names soname)).map MapsLine.addr := by
  induction ls with
  | nil => rfl
  | cons l ls ih =>
      rw [List.flatMap_cons, MapsLine.shown_of_plain hne
        (hplain l List.mem_cons_self)]
      by_cases hn : l.names soname = true
      · rw [if_pos hn, List.find?_cons_of_pos hn]
        rfl
      · rw [if_neg hn, List.find?_cons_of_neg hn, List.nil_append]
        exact ih fun l' hl' => hplain l' (List.mem_cons_of_mem l hl')

/-- Plain lines are read right, as long as the first one that names the
library does not start at the null address. -/
theorem seenRight_of_plain {ls : List MapsLine} {soname : Str}
    (hne : soname ≠ []) (hplain : ∀ l ∈ ls, l.Plain)
    (haddr : ∀ l, ls.find? (MapsLine.names soname) = some l → l.addr ≠ 0) :
    SeenRight soname ls := by
  intro l hf
  have hl := hplain l (List.mem_of_find?_eq_some hf)
  obtain ⟨hmatters, as, bs, rfl, has, -⟩ := find?_matters hf
  have hshown := MapsLine.shown_of_plain hne hl
  have hname : l.names soname = true := by
    by_contra hn
    rw [if_neg hn] at hshown
    exact hmatters.elim hn fun h => h hshown
  refine ⟨hname, by rw [hshown, if_pos hname]; rfl, haddr l ?_⟩
  rw [List.find?_append, has, List.find?_cons_of_pos hname]
  rfl

/-- The first mapping of the game's library, as the kernel prints it. -/
def gameLine : MapsLine where
  start := lit "7100000000"
  stop := lit "7104000000"
  perms := lit "r-xp"
  offset := lit "00000000"
  dev := lit "fd:00"
  inode := lit "133224"
  path := some
    { gap := lit "   "
      name := il2cppSoPath
      gap_ok := by decide
      name_ok := by decide }
  start_ok := by decide
  stop_ok := by decide
  perms_ok := by decide
  offset_ok := by decide
  dev_ok := by decide
  inode_ok := by decide

/-- The same mapping of a library that lies in a directory with a blank in
its name. -/
def spacedLine : MapsLine :=
  { gameLine with
    path := some
      { gap := lit "   "
        name := lit "/sdcard/my mods/libil2cpp.so"
        gap_ok := by decide
        name_ok := by decide } }

/-- A process that can open everything and has these lines mapped. -/
def osOfLines (ls : List MapsLine) : Os :=
  { dlopen := fun _ => true, maps := some (mapsText ls) }

/-- A mapping without a pathname, in front of the library. -/
def heapLine : MapsLine :=
  { gameLine with
    start := lit "12c00000"
    stop := lit "32c00000"
    perms := lit "rw-p"
    path := none
    start_ok := by decide
    stop_ok := by decide
    perms_ok := by decide }

theorem seenRight_game : SeenRight (lit "libil2cpp.so") [heapLine, gameLine] := by
  refine seenRight_of_plain (by decide) (by decide +kernel) ?_
  intro l hl
  obtain rfl : gameLine = l := by
    rw [List.find?_cons_of_neg (by decide),
      List.find?_cons_of_pos (by decide +kernel)] at hl
    exact Option.some.inj hl
  decide +kernel

theorem shown_spacedLine : spacedLine.shown (lit "libil2cpp.so") = [] := by
  decide +kernel

theorem shownApart_spaced : ShownApart (lit "libil2cpp.so") [spacedLine] := by
  intro l hl a ha
  obtain rfl := List.mem_singleton.mp hl
  rw [shown_spacedLine] at ha
  cases ha

theorem not_seenRight_spaced : ¬ SeenRight (lit "libil2cpp.so") [spacedLine] := by
  intro h
  obtain ⟨-, hhead, -⟩ :=
    h spacedLine (List.find?_cons_of_pos (by decide +kernel))
  rw [shown_spacedLine] at hhead
  cases hhead

/-- Behind a mapping without a pathname the library is found; in a directory
with a blank in its name it is not. -/
theorem baseAddr_findsFirst_game :
    FindsFirst [heapLine, gameLine] (lit "libil2cpp.so")
        (baseAddr (osOfLines [heapLine, gameLine]) (some (lit "libil2cpp.so"))) ∧
      ¬ FindsFirst [spacedLine] (lit "libil2cpp.so")
        (baseAddr (osOfLines [spacedLine]) (some (lit "libil2cpp.so"))) := by
  have hgame := @baseAddr_findsFirst (osOfLines [heapLine, gameLine])
    [heapLine, gameLine] (lit "libil2cpp.so") (by decide) rfl rfl
  have hspaced := @baseAddr_findsFirst (osOfLines [spacedLine])
    [spacedLine] (lit "libil2cpp.so") (by decide) rfl rfl
  exact ⟨hgame.1 seenRight_game,
    fun h => not_seenRight_spaced (hspaced.2 shownApart_spaced h)⟩

/-- The path field stops at the blank, so the line is passed over. -/
theorem baseAddr_misses_spaced :
    ¬ FindsFirst [spacedLine] (lit "libil2cpp.so")
      (baseAddr (osOfLines [spacedLine]) (some (lit "libil2cpp.so"))) := by
  intro h
  have hzero : baseAddr (osOfLines [spacedLine]) (some (lit "libil2cpp.so"))
      = 0 := by decide +kernel
  exact absurd (h.zero.mp hzero) (by decide +kernel)

end PistolWhipHook
