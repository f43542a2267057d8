import PistolWhipHook.Proofs.ApiRuns
import PistolWhipHook.Proofs.Conversions
import PistolWhipHook.Spec.Strings

/-!
# A string into the game and back

`createcsstr` hands UTF-8 to the runtime, which stores UTF-16. `to_utf8` makes
one byte of each unit, the low one, and stops at the first zero byte. So what
comes back has at most as many bytes as there were units, which is too few
for any text that is not ASCII, and it has no zero in it: the round trip
gives back the texts of characters from 1 to 127 and no others.
-/

namespace PistolWhipHook

open ByteMem CStr Utf

variable {env : Env} {w : Process}

/-! ## `to_utf8` -/

theorem length_toUtf8_le (view : List UInt16) :
    (toUtf8 view).length ≤ view.length := by
  have hlen : (view.map UInt16.toUInt8).length = view.length := List.length_map _
  rw [toUtf8_eq, ← hlen]
  exact (List.takeWhile_prefix _).length_le

theorem toUtf8_ascii {cs : List Char} (h : ∀ c ∈ cs, 1 ≤ c.toNat ∧ c.toNat < 128) :
    toUtf8 (utf16 cs) = utf8 cs := by
  have hascii : ∀ c ∈ cs, IsAscii c := fun c hc => (h c hc).2
  have hnul : (0 : UInt8) ∉ utf8 cs := by
    rw [utf8_ascii hascii]
    intro hmem
    obtain ⟨c, hc, h0⟩ := List.mem_map.mp hmem
    have hmod : c.toNat % 256 = 0 := congrArg UInt8.toNat h0
    obtain ⟨hpos, hlt⟩ := h c hc
    omega
  have hmap : (utf16 cs).map UInt16.toUInt8 = utf8 cs := by
    rw [utf16_ascii hascii, utf8_ascii hascii, List.map_map]
    exact List.map_congr_left fun c _ => UInt16.toUInt8_ofNat' c.toNat
  rw [toUtf8_eq, hmap]
  exact untilNul_eq_self_iff.mpr hnul

theorem toUtf8_utf16_iff (cs : List Char) :
    toUtf8 (utf16 cs) = utf8 cs ↔ ∀ c ∈ cs, 1 ≤ c.toNat ∧ c.toNat < 128 := by
  refine ⟨?_, ?_⟩
  · intro h
    have hlen : (utf16 cs).length = (utf8 cs).length := by
      refine Nat.le_antisymm (length_utf16_le cs) ?_
      rw [← h]
      exact length_toUtf8_le _
    have hascii := length_utf16_eq_iff.mp hlen
    have hnul : (0 : UInt8) ∉ utf8 cs := h ▸ untilNul_no_nul _
    rw [utf8_ascii hascii] at hnul
    intro c hc
    refine ⟨Nat.pos_of_ne_zero fun h0 => hnul ?_, hascii c hc⟩
    exact List.mem_map.mpr ⟨c, hc, by rw [h0]; rfl⟩
  · exact toUtf8_ascii

/-! ## There and back -/

theorem run_createcsstr {inp : StringView} (hw : w.Loaded) :
    (createcsstr env inp).run w =
      let made := env.rt.stringNewLen (inp.data.take (inp.length % 2 ^ 32)) w.mem
      .ok (made.1, (w.called .stringNewLen []).withMem made.2) := by
  rw [createcsstr, Prog.run_bind_ok (run_init hw)]
  exact run_act hw

/-- Every valid UTF-8 text of less than two gigabytes comes back unchanged
exactly when its characters are all from 1 to 127. -/
theorem roundTrips_iff (hrt : env.rt.DecodesUtf8) (hw : w.Loaded)
    {inp : StringView} {cs : List Char} (hinp : inp.chars = utf8 cs)
    (hlen : inp.length < 2 ^ 31) :
    RoundTrips env w inp ↔ ∀ c ∈ cs, 1 ≤ c.toNat ∧ c.toNat < 128 := by
  have hbytes : inp.data.take (inp.length % 2 ^ 32) = utf8 cs := by
    rw [Nat.mod_eq_of_lt (by omega)]
    exact hinp
  have hle : (utf8 cs).length < 2 ^ 31 := by
    rw [← hinp, StringView.chars, List.length_take]
    omega
  have hunits := hrt cs w.mem hle
  have hrun : (createcsstr env inp).run w = _ := run_createcsstr hw
  rw [hbytes] at hrun
  rw [← toUtf8_utf16_iff, ← hinp, RoundTrips]
  refine ⟨?_, ?_⟩
  · intro h
    obtain ⟨p, w', h, hback⟩ := h
    rw [hrun] at h
    cases h
    rw [Process.mem_withMem, hunits] at hback
    exact hback
  · intro h
    refine ⟨_, _, hrun, ?_⟩
    rw [Process.mem_withMem, hunits]
    exact h

/-! ## A runtime that decodes -/

/-- Units laid out from an address on. -/
def storeUnits (m : Mem) (a : Nat) : List UInt16 → Mem
  | [] => m
  | u :: us => store (storeUnits m (a + 2) us) a 2 u.toNat

theorem unitAt_storeUnits {m : Mem} {us : List UInt16} :
    ∀ {a i : Nat} (h : i < us.length), unitAt (storeUnits m a us) a i = us[i] := by
  induction us with
  | nil => intro a i h; cases h
  | cons u us ih =>
      intro a i h
      cases i with
      | zero =>
          show UInt16.ofNat (ByteMem.load (store _ a 2 u.toNat) a 2) = u
          have hlt : u.toNat < 256 ^ 2 := u.toNat_lt
          rw [load_store_same, Nat.mod_eq_of_lt hlt, UInt16.ofNat_toNat]
      | succ i =>
          have hi := ih (a := a + 2) (Nat.lt_of_succ_lt_succ h)
          rw [unitAt] at hi ⊢
          rw [storeUnits, load_store_apart (Or.inl (by omega)),
            show a + 2 * (i + 1) = a + 2 + 2 * i by omega, hi]
          rfl

/-- A string of the game at `p`, with its length and its units. -/
def newString (p : Nat) (us : List UInt16) (m : Mem) : Mem :=
  store (storeUnits m (charsAddr p) us) (lengthAddr p) 4 us.length

theorem units_newString {p : Nat} {us : List UInt16} {m : Mem}
    (h : us.length < 2 ^ 32) :
    (csstrtostr (newString p us m) p).units (newString p us m) = us := by
  have hlen : ByteMem.load (newString p us m) (lengthAddr p) 4 = us.length := by
    rw [newString, load_store_same]
    exact Nat.mod_eq_of_lt h
  rw [csstrtostr, U16View.units]
  refine List.ext_getElem (by simp [hlen]) fun i hi hi' => ?_
  rw [List.getElem_map, List.getElem_range]
  rw [← unitAt_storeUnits (m := m) (a := charsAddr p) hi', unitAt, unitAt,
    newString, load_store_apart]
  left
  show p + 16 + 4 ≤ p + 20 + 2 * i
  omega

def decodeUtf8 (bs : Str) : List Char :=
  (bs.toByteArray.utf8Decode?.getD #[]).toList

theorem decodeUtf8_utf8 (cs : List Char) : decodeUtf8 (utf8 cs) = cs := by
  rw [decodeUtf8]
  have h : (utf8 cs).toByteArray = cs.utf8Encode := rfl
  rw [h, List.utf8Decode?_utf8Encode]
  rfl

/-- It allocates every string at the same place. -/
def Runtime.decoding : Runtime :=
  { Runtime.bare with
    stringNewLen := fun bs m => (8, newString 8 (utf16 (decodeUtf8 bs)) m) }

theorem decoding_decodesUtf8 : Runtime.decoding.DecodesUtf8 := by
  intro cs mem hlen
  have hle := length_utf16_le cs
  show (csstrtostr (newString 8 (utf16 (decodeUtf8 (utf8 cs))) mem) 8).units
    (newString 8 (utf16 (decodeUtf8 (utf8 cs))) mem) = utf16 cs
  rw [decodeUtf8_utf8]
  exact units_newString (by omega)

theorem roundTrips_bank :
    RoundTrips (Env.of Runtime.decoding) (Process.ready fun _ => 0)
      (StringView.whole (utf8 ['b', 'a', 'n', 'k'])) := by
  have hrt : (Env.of Runtime.decoding).rt.DecodesUtf8 := decoding_decodesUtf8
  have hinp : (StringView.whole (utf8 ['b', 'a', 'n', 'k'])).chars =
      utf8 ['b', 'a', 'n', 'k'] := by decide
  refine (roundTrips_iff hrt (ready_loaded _) hinp (by decide)).mpr ?_
  simp only [List.forall_mem_cons]
  exact ⟨by decide, by decide, by decide, by decide, List.forall_mem_nil _⟩

/-- `é` is the one byte 0xE9 when it comes back. -/
theorem roundTrips_not_accent :
    Runtime.decoding.DecodesUtf8 ∧
      ¬ RoundTrips (Env.of Runtime.decoding) (Process.ready fun _ => 0)
        (StringView.whole (utf8 ['é'])) := by
  refine ⟨decoding_decodesUtf8, ?_⟩
  intro h
  obtain ⟨p, w', h, hback⟩ := h
  have hrun : (createcsstr (Env.of Runtime.decoding)
      (StringView.whole (utf8 ['é']))).run (Process.ready fun _ => 0) = _ :=
    run_createcsstr (ready_loaded _)
  have hunits := decoding_decodesUtf8 ['é'] (fun _ => 0) (by decide)
  rw [hrun] at h
  cases h
  have hback : toUtf8 (utf16 ['é']) = utf8 ['é'] := hunits ▸ hback
  exact absurd hback (by decide)

end PistolWhipHook
