import PistolWhipHook.Spec.Streams

/-!
# What `readfile` reads of what `writefile` wrote

The block that `readfile` returns is exactly as long as the file, so it ends
where the text does and its terminator would be the byte after it. `writefile`
writes no terminator either. A reader of the block as a C string therefore
goes past its end, whatever the text and however much of it was written: the
two agree only where nothing was.
-/

namespace PistolWhipHook

open CStr

variable {os : FileOs} {disk : Disk} {filename text : Str}

theorem readfile_unopened (h : fopenRead os filename disk = none) :
    readfile os filename disk = .ok none := by
  rw [readfile, h]

theorem readfile_eq {file content : Str}
    (hopen : fopenRead os filename disk = some file)
    (h : readfile os filename disk = .ok (some content)) : content = file := by
  rw [readfile, hopen] at h
  dsimp only at h
  split at h
  · next block hblock =>
      cases h
      have hlen := os.malloc_length hblock
      rw [fread, List.take_length, ← hlen, List.drop_length, List.append_nil]
  · split at h <;> cases h

theorem writefile_no_nul {file : Str} (hw : os.opensWrite filename disk = true)
    (h : (writefile os filename text disk).2 filename = some file) :
    (0 : UInt8) ∉ file := by
  rw [writefile, if_pos hw] at h
  dsimp only at h
  rw [if_pos rfl] at h
  cases h
  exact fun hmem => untilNul_no_nul text (List.mem_of_mem_take hmem)

theorem not_agree_of_opensWrite (hw : os.opensWrite filename disk = true) :
    ¬ FilesAgree os disk filename text := by
  intro h
  have hret : (writefile os filename text disk).1 = 0 := by
    rw [writefile, if_pos hw]
  obtain ⟨content, hread, hstr⟩ := h.1 hret
  cases hopen : fopenRead os filename (writefile os filename text disk).2 with
  | none =>
      rw [readfile_unopened hopen] at hread
      cases hread
  | some file =>
      have hfile : (writefile os filename text disk).2 filename = some file := by
        rw [fopenRead] at hopen
        split at hopen
        · exact hopen
        · cases hopen
      have hnul := writefile_no_nul hw hfile
      rw [← readfile_eq hopen hread] at hnul
      rw [cString?, if_neg hnul] at hstr
      cases hstr

/-- The pair agrees exactly where `writefile` cannot open the file. -/
theorem filesAgree_iff (os : FileOs) (disk : Disk) (filename text : Str) :
    FilesAgree os disk filename text ↔ os.opensWrite filename disk = false := by
  refine ⟨fun h => ?_, fun h => ⟨fun hret => ?_, fun _ hopen => ?_⟩⟩
  · exact Bool.eq_false_iff.mpr fun hw => not_agree_of_opensWrite hw h
  · rw [writefile, if_neg (by rw [h]; exact Bool.false_ne_true)] at hret
    exact absurd hret (show (-1 : Int) ≠ 0 by decide)
  · exact readfile_unopened hopen

/-- Every file can be opened, and all of it is written. -/
def FileOs.open : FileOs where
  opensWrite := fun _ _ => true
  opensRead := fun _ _ => true
  fwrite := List.length
  fwrite_le := fun _ => Nat.le_refl _
  malloc := fun n => some (List.replicate n 0xff)
  malloc_length := by
    intro n content h
    cases h
    exact List.length_replicate

/-- `hi` comes back as two bytes without an end. -/
theorem filesAgree_fails_hi :
    ¬ FilesAgree FileOs.open (fun _ => none) (lit "a.txt") (lit "hi") := by
  intro h
  obtain ⟨content, hread, hstr⟩ := h.1 rfl
  have hcontent : content = lit "hi" := by
    cases hread
    rfl
  rw [hcontent] at hstr
  exact absurd hstr (by decide)

end PistolWhipHook
