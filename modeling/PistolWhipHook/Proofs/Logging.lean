import PistolWhipHook.Spec.Streams

/-!
# What is printed is what is logged

A round strips one newline at most, the last byte of its read, and puts its
terminator on that newline or on the byte after the read. The read left that
byte free, because it asks for one byte less than the buffer has. So the
message is the read without the newline, whatever an earlier, longer read has
left behind it, and putting the newlines back gives the stream.
-/

namespace PistolWhipHook

open CStr

variable {buf chunk stream : Str} {reads : List Str}

/-! ## The buffer -/

theorem charAt_append {s rest : Str} {c : UInt8} :
    charAt (s ++ c :: rest) s.length = .ok c := by
  rw [charAt, List.getElem?_append_right (Nat.le_refl _), Nat.sub_self]
  rfl

theorem setChar_append {s rest : Str} {c d : UInt8} :
    setChar (s ++ c :: rest) s.length d = .ok (s ++ d :: rest) := by
  rw [setChar, if_pos (by rw [List.length_append, List.length_cons]; omega),
    List.set_append_right _ _ (Nat.le_refl _), Nat.sub_self]
  rfl

theorem terminated_append {s rest : Str} {c : UInt8} (h : (0 : UInt8) ∉ s) :
    (do
      let buf ← setChar (s ++ c :: rest) s.length 0
      let msg ← androidLogWrite buf
      return (msg, buf) : Except Fault (Str × Str)) = .ok (s, s ++ 0 :: rest) := by
  have hwrite : androidLogWrite (s ++ 0 :: rest) = .ok s := by
    rw [androidLogWrite, cString?_append h]
  rw [setChar_append]
  show (androidLogWrite (s ++ 0 :: rest) >>= fun msg =>
    pure (msg, s ++ 0 :: rest)) = _
  rw [hwrite]
  rfl

theorem readInto_eq (h : chunk.length < buf.length) :
    ∃ c rest, readInto buf chunk = chunk ++ c :: rest ∧
      (chunk ++ c :: rest).length = buf.length := by
  obtain ⟨c, rest, hdrop⟩ : ∃ c rest, buf.drop chunk.length = c :: rest := by
    refine List.exists_cons_of_ne_nil fun hnil => ?_
    exact absurd (List.drop_eq_nil_iff.mp hnil) (by omega)
  refine ⟨c, rest, by rw [readInto, hdrop], ?_⟩
  rw [← hdrop, List.length_append, List.length_drop]
  omega

/-! ## The loop -/

/-- One round: no index is out of bounds, and the read is its message with the
newline back. -/
theorem logRead_spec (hpos : 1 ≤ chunk.length) (hfit : chunk.length ≤ readCount buf)
    (hnul : (0 : UInt8) ∉ chunk) :
    ∃ msg buf', logRead buf chunk = .ok (msg, buf') ∧
      buf'.length = buf.length ∧ putBack chunk msg = chunk := by
  have hlt : chunk.length < buf.length := by
    rw [readCount] at hfit
    omega
  obtain ⟨d, rest, hread, hlen⟩ := readInto_eq hlt
  obtain ⟨s, c, rfl⟩ : ∃ s c, chunk = s ++ [c] := by
    rcases List.eq_nil_or_concat chunk with h | ⟨s, c, h⟩
    · rw [h] at hpos
      exact absurd hpos (by decide)
    · exact ⟨s, c, by rw [h, List.concat_eq_append]⟩
  have hs : (0 : UInt8) ∉ s := fun h => hnul (List.mem_append_left _ h)
  have hsize : (s ++ [c]).length = s.length + 1 := by
    rw [List.length_append]
    rfl
  have hshape : s ++ [c] ++ d :: rest = s ++ c :: (d :: rest) := by
    rw [List.append_assoc]
    rfl
  have hround : logRead buf (s ++ [c]) = (do
      let buf ← setChar (s ++ c :: (d :: rest))
        (if c = 0x0a then s.length else s.length + 1) 0
      let msg ← androidLogWrite buf
      return (msg, buf)) := by
    rw [logRead, hread]
    simp only [hsize, Nat.add_sub_cancel]
    rw [hshape, charAt_append]
    rfl
  by_cases hc : c = 0x0a
  · -- the terminator goes on the newline
    refine ⟨s, s ++ 0 :: (d :: rest), ?_, ?_, ?_⟩
    · rw [hround, if_pos hc]
      exact terminated_append hs
    · rw [← hlen, hshape, List.length_append, List.length_append]
      rfl
    · rw [putBack, List.getLast?_concat, if_pos (by rw [hc]), hc]
  · -- it goes on the byte after the read
    refine ⟨s ++ [c], s ++ [c] ++ 0 :: rest, ?_, ?_, ?_⟩
    · rw [hround, if_neg hc, ← hshape, ← hsize]
      exact terminated_append hnul
    · rw [← hlen]
      simp only [List.length_append, List.length_cons]
    · rw [putBack, List.getLast?_concat, if_neg fun h => hc (Option.some.inj h)]

theorem threadFunc_spec :
    ∀ {buf : Str}, (∀ chunk ∈ reads, 1 ≤ chunk.length ∧
      chunk.length ≤ readCount buf) →
      (0 : UInt8) ∉ reads.flatten → LogsAll buf reads reads.flatten := by
  induction reads with
  | nil => intro buf _ _; exact ⟨[], rfl, rfl, rfl⟩
  | cons chunk reads ih =>
      intro buf hsizes hnul
      rw [List.flatten_cons] at hnul ⊢
      obtain ⟨hpos, hfit⟩ := hsizes chunk List.mem_cons_self
      obtain ⟨msg, buf', hround, hlen, hback⟩ :=
        logRead_spec hpos hfit fun h => hnul (List.mem_append_left _ h)
      have hsizes' : ∀ chunk ∈ reads,
          1 ≤ chunk.length ∧ chunk.length ≤ readCount buf' := by
        intro c hc
        rw [readCount, hlen]
        exact hsizes c (List.mem_cons_of_mem chunk hc)
      obtain ⟨msgs, hrest, hcount, hflat⟩ :=
        ih hsizes' fun h => hnul (List.mem_append_right _ h)
      refine ⟨msg :: msgs, ?_, ?_, ?_⟩
      · rw [threadFunc, if_neg (by omega), hround]
        show (do
          let msgs ← threadFunc buf' reads
          return msg :: msgs : Except Fault (List Str)) = _
        rw [hrest]
        rfl
      · rw [List.length_cons, List.length_cons, hcount]
      · rw [List.zipWith_cons_cons, List.flatten_cons, hback, hflat]

/-- However a stream without NULs is cut into reads, and whatever the buffer
held, all of it is logged. -/
theorem threadFunc_logs_all (hnul : (0 : UInt8) ∉ stream)
    (hsplit : Splits (readCount buf) stream reads) : LogsAll buf reads stream := by
  have hwhole := hsplit.whole
  rw [← hwhole] at hnul ⊢
  exact threadFunc_spec hsplit.sizes hnul

/-- A full buffer, a lone newline, and a read that ends in the middle. -/
theorem threadFunc_logs_all_three_reads :
    LogsAll [1, 2, 3, 4] [lit "ab\n", lit "\n", lit "c"] (lit "ab\n\nc") :=
  threadFunc_logs_all (by decide)
    ⟨by decide, by
      simp only [List.forall_mem_cons]
      exact ⟨by decide, by decide, by decide, List.forall_mem_nil _⟩⟩

end PistolWhipHook
