import Mathlib.Data.Fintype.Card
import Mathlib.Data.Fintype.EquivFin
import Mathlib.Data.Fintype.Sets
import Mathlib.Logic.Relation

/-!
# Recursion down an acyclic relation

A recursion that follows `r` from one node to the next ends where `r` has no
cycle and the nodes it can come to are finitely many: `acc_of_acyclic`. How
deep it goes is another matter, since a node may have several successors.
`exists_bound` puts one bound over all of them: what holds at a node within
some bound as soon as it holds within one bound at each of its successors
holds within some bound everywhere.
-/

namespace Descent

open Relation

variable {α : Type} {r : α → α → Prop}

/-- In a finite set that `r` does not leave and has no cycle in, every
descent along `r` ends. -/
theorem acc_of_acyclic {S : Finset α} (hclosed : ∀ a ∈ S, ∀ b, r a b → b ∈ S)
    (hacyclic : ∀ a ∈ S, ¬ TransGen r a a) {a : α} (ha : a ∈ S) :
    Acc (fun b a => r a b) a := by
  let below : { a // a ∈ S } → { a // a ∈ S } → Prop :=
    fun b a => TransGen r a.1 b.1
  have htrans : IsTrans _ below := ⟨fun _ _ _ h h' => h'.trans h⟩
  have hirrefl : Std.Irrefl below := ⟨fun a => hacyclic a.1 a.2⟩
  have hwf := Finite.wellFounded_of_trans_of_irrefl below
  suffices h : ∀ a : { a // a ∈ S }, Acc (fun b a => r a b) a.1 from h ⟨a, ha⟩
  intro a
  induction hwf.apply a with
  | intro a _ ih =>
      refine Acc.intro _ fun b hab => ?_
      exact ih ⟨b, hclosed a.1 a.2 b hab⟩ (TransGen.single hab)

theorem exists_common_bound (P : Nat → α → Prop)
    (mono : ∀ a {n m}, n ≤ m → P n a → P m a) :
    ∀ {as : List α}, (∀ a ∈ as, ∃ n, P n a) → ∃ n, ∀ a ∈ as, P n a := by
  intro as
  induction as with
  | nil => intro _; exact ⟨0, fun a ha => absurd ha List.not_mem_nil⟩
  | cons a as ih =>
      intro h
      obtain ⟨n, hn⟩ := h a List.mem_cons_self
      obtain ⟨m, hm⟩ := ih fun b hb => h b (List.mem_cons_of_mem a hb)
      refine ⟨max n m, fun b hb => ?_⟩
      rcases List.mem_cons.mp hb with rfl | hb
      · exact mono b (Nat.le_max_left n m) hn
      · exact mono b (Nat.le_max_right n m) (hm b hb)

/-- The bound rule: `next` lists the successors the recursion goes to. -/
theorem exists_bound (P : Nat → α → Prop) (next : α → List α)
    (mono : ∀ a {n m}, n ≤ m → P n a → P m a)
    (hnext : ∀ a, ∀ b ∈ next a, r a b)
    (step : ∀ a n, (∀ b ∈ next a, P n b) → ∃ m, P m a) {a : α}
    (h : Acc (fun b a => r a b) a) : ∃ n, P n a := by
  induction h with
  | intro a _ ih =>
      obtain ⟨n, hn⟩ := exists_common_bound P mono fun b hb =>
        ih b (hnext a b hb)
      exact step a n hn

/-- Off a cycle, what is reached from a node in no steps or more and is not
the node itself is reached in one or more. -/
theorem transGen_of_ne {a b : α} (h : ReflTransGen r a b) (hne : b ≠ a) :
    TransGen r a b :=
  (reflTransGen_iff_eq_or_transGen.mp h).resolve_left hne

end Descent
