import Mathlib.Data.List.Basic
import PistolWhipHook.Proofs.Lookups
import PistolWhipHook.Spec.Names

/-!
# The class search is a first match

`GetClassFromName` goes through the loaded assemblies in order and returns the
first class it is given. An assembly without an image is passed over like one
that does not define the type. So the answer is a `findSome?` over the list,
and what an assembly that defines nothing adds to the list, or the order of the
others, is a fact about lists.

The laws are about two searches in one process, whose runtimes differ in
nothing but the list of assemblies.
-/

namespace PistolWhipHook

open ByteMem CStr

variable {env : Env} {w : Process} {rt : Runtime} {mem : Mem}
  {nameSpace typeName ns tn : Str} {l l' : List Obj} {p : Ptr}

/-- What the assembly contributes to the search. -/
def foundIn (rt : Runtime) (mem : Mem) (ns tn : Str) (assemb : Obj) :
    Option Ptr :=
  if Defines rt mem ns tn assemb then some (classIn rt mem ns tn assemb) else none

/-! ## First matches -/

/-- A list in which one element at most matches has the same first match in
every order. -/
theorem findSome?_perm {α β : Type} {f : α → Option β} {l l' : List α}
    (hperm : l.Perm l')
    (hone : ∀ a ∈ l, ∀ b ∈ l, f a ≠ none → f b ≠ none → a = b) :
    l.findSome? f = l'.findSome? f := by
  cases h : l.findSome? f with
  | none =>
      refine (List.findSome?_eq_none_iff.mpr fun a ha => ?_).symm
      exact List.findSome?_eq_none_iff.mp h a (hperm.mem_iff.mpr ha)
  | some b =>
      obtain ⟨a, ha, hfa⟩ := List.exists_of_findSome?_eq_some h
      cases h' : l'.findSome? f with
      | none =>
          have hnone := List.findSome?_eq_none_iff.mp h' a (hperm.mem_iff.mp ha)
          rw [hfa] at hnone
          cases hnone
      | some b' =>
          obtain ⟨a', ha', hfa'⟩ := List.exists_of_findSome?_eq_some h'
          have heq := hone a ha a' (hperm.mem_iff.mpr ha')
            (by rw [hfa]; exact Option.some_ne_none b)
            (by rw [hfa']; exact Option.some_ne_none b')
          rw [← hfa, heq, hfa']

theorem foundIn_eq_none_iff {assemb : Obj} :
    foundIn rt mem ns tn assemb = none ↔ ¬ Defines rt mem ns tn assemb := by
  rw [foundIn]
  split
  · next h => exact ⟨fun h' => (by cases h'), fun h' => absurd h h'⟩
  · next h => exact ⟨fun _ => h, fun _ => rfl⟩

theorem foundIn_of_defines {assemb : Obj} (h : Defines rt mem ns tn assemb) :
    foundIn rt mem ns tn assemb = some (classIn rt mem ns tn assemb) := by
  rw [foundIn, if_pos h]

theorem classAmong_eq_findSome? :
    classAmong rt mem ns tn l =
      (l.findSome? (foundIn rt mem ns tn)).getD 0 := by
  induction l with
  | nil => rfl
  | cons assemb l ih =>
      rw [classAmong, List.findSome?_cons]
      dsimp only
      split
      · next himg =>
          rw [foundIn_eq_none_iff.mpr fun h => h.1 himg, ih]
      · next himg =>
          split
          · next hk => rw [foundIn_of_defines ⟨himg, hk⟩]; rfl
          · next hk => rw [foundIn_eq_none_iff.mpr fun h => hk h.2, ih]

theorem classAmong_eq_zero_iff :
    classAmong rt mem ns tn l = 0 ↔ l.findSome? (foundIn rt mem ns tn) = none := by
  rw [classAmong_eq_findSome?]
  cases hf : l.findSome? (foundIn rt mem ns tn) with
  | none => exact ⟨fun _ => rfl, fun _ => rfl⟩
  | some p =>
      obtain ⟨a, _, ha⟩ := List.exists_of_findSome?_eq_some hf
      rw [foundIn] at ha
      split at ha
      · next hdef =>
          cases ha
          exact ⟨fun h => absurd h hdef.2, fun h => (by cases h)⟩
      · cases ha

theorem findSome?_foundIn_eq_none_iff :
    l.findSome? (foundIn rt mem ns tn) = none ↔
      ∀ a ∈ l, ¬ Defines rt mem ns tn a := by
  rw [List.findSome?_eq_none_iff]
  exact forall₂_congr fun a _ => foundIn_eq_none_iff

/-! ## The search -/

/-- Which assemblies are loaded says nothing of what each defines. -/
theorem classAmong_withAssemblies {loaded : Assemblies} :
    classAmong (env.withAssemblies loaded).rt mem ns tn l =
      classAmong env.rt mem ns tn l := by
  rw [classAmong_eq_findSome?, classAmong_eq_findSome?]
  rfl

theorem findsClass_iff (hw : w.Loaded) (hns : (0 : UInt8) ∈ nameSpace)
    (htn : (0 : UInt8) ∈ typeName) (hl : l.length < 2 ^ 31) :
    FindsClass env w nameSpace typeName l p ↔
      p = if env.rt.domainGet w.mem = 0 then 0
        else
          classAmong env.rt w.mem (untilNul nameSpace) (untilNul typeName) l := by
  have hnamed : classNamed (env.withAssemblies ⟨l, hl⟩).rt w.mem
      (untilNul nameSpace) (untilNul typeName) =
      if env.rt.domainGet w.mem = 0 then 0
      else classAmong (env.withAssemblies ⟨l, hl⟩).rt w.mem (untilNul nameSpace)
        (untilNul typeName) l := rfl
  have hans : Answers
      (getClassFromName (env.withAssemblies ⟨l, hl⟩) nameSpace typeName) w _ :=
    answers_getClassFromName hw (cString?_of_mem hns) (cString?_of_mem htn)
  rw [hnamed, classAmong_withAssemblies] at hans
  obtain ⟨w', hrun, _⟩ := hans
  refine ⟨fun h => ?_, fun h => ?_⟩
  · obtain ⟨_, w₁, hrun₁⟩ := h
    rw [hrun] at hrun₁
    cases hrun₁
    rfl
  · rw [h]
    exact ⟨hl, w', hrun⟩

/-- For all lists of assemblies that an `int` counts, in whatever process the
API is loaded. -/
theorem searchLaw_holds (env : Env) (hw : w.Loaded)
    (hns : (0 : UInt8) ∈ nameSpace) (htn : (0 : UInt8) ∈ typeName) :
    SearchLaw env w nameSpace typeName := by
  refine ⟨fun hdom before assemb after hbefore hdef hlen => ?_, fun l hlen => ?_,
    fun before useless after huseless hlen p => ?_,
    fun l l' hperm hlen hone p => ?_⟩
  · rw [findsClass_iff hw hns htn hlen, if_neg hdom, classAmong_eq_findSome?,
      List.findSome?_append, findSome?_foundIn_eq_none_iff.mpr hbefore,
      Option.none_or, List.findSome?_cons, foundIn_of_defines hdef]
    rfl
  · rw [findsClass_iff hw hns htn hlen]
    split
    · next hdom => exact ⟨fun _ => Or.inl hdom, fun _ => rfl⟩
    · next hdom =>
        rw [eq_comm, classAmong_eq_zero_iff, findSome?_foundIn_eq_none_iff,
          or_iff_right hdom]
  · have hlen' : (before ++ after).length < 2 ^ 31 := by
      simp only [List.length_append] at hlen ⊢
      omega
    rw [findsClass_iff hw hns htn hlen, findsClass_iff hw hns htn hlen',
      classAmong_eq_findSome?, classAmong_eq_findSome?, List.findSome?_append,
      List.findSome?_append, List.findSome?_append,
      findSome?_foundIn_eq_none_iff.mpr huseless, Option.or_none]
  · have hone' : ∀ a ∈ l, ∀ b ∈ l,
        foundIn env.rt w.mem (untilNul nameSpace) (untilNul typeName) a ≠ none →
        foundIn env.rt w.mem (untilNul nameSpace) (untilNul typeName) b ≠ none →
        a = b := by
      intro a ha b hb hfa hfb
      rw [ne_eq, foundIn_eq_none_iff, not_not] at hfa hfb
      exact hone a ha b hb hfa hfb
    have hlen' : l'.length < 2 ^ 31 := hperm.length_eq ▸ hlen
    rw [findsClass_iff hw hns htn hlen, findsClass_iff hw hns htn hlen',
      classAmong_eq_findSome?, classAmong_eq_findSome?, findSome?_perm hperm hone']

/-- Assembly 2 has no image, and only the image of 3 has the class. -/
def Runtime.searched : Runtime :=
  { Runtime.bare with
    domainGet := fun _ => 1
    assemblyGetImage := fun assemb _ => if assemb = 2 then 0 else assemb
    classFromName := fun img _ _ _ => if img = 3 then 9 else 0 }

theorem searchLaw_object :
    SearchLaw (Env.of Runtime.searched) (Process.ready fun _ => 0)
      (cstr "System") (cstr "Object") :=
  searchLaw_holds _ (ready_loaded _) (by decide) (by decide)

end PistolWhipHook
