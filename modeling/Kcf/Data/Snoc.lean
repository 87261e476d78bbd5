import Mathlib.Data.List.Nodup

/-!
# Lists that grow at their end

A log gets one more entry: what holds of its entries is asked of the old ones and of the
new one.
-/

namespace Kcf.Data

open List

universe u

variable {α : Type u} {entries : List α} {entry last : α}

theorem mem_snoc (member : entry ∈ entries ++ [last]) : entry ∈ entries ∨ entry = last :=
  (mem_append.mp member).imp_right mem_singleton.mp

theorem forall_snoc {property : α → Prop} (old : ∀ entry ∈ entries, property entry)
    (new : property last) : ∀ entry ∈ entries ++ [last], property entry :=
  forall_mem_append.mpr ⟨old, forall_mem_singleton.mpr new⟩

theorem pairwise_snoc {relation : α → α → Prop} (old : entries.Pairwise relation)
    (new : ∀ entry ∈ entries, relation entry last) : (entries ++ [last]).Pairwise relation := by
  refine pairwise_append.mpr ⟨old, pairwise_singleton _ _, fun entry inside other member => ?_⟩
  rw [mem_singleton.mp member]
  exact new entry inside

theorem nodup_snoc (old : entries.Nodup) (new : last ∉ entries) : (entries ++ [last]).Nodup :=
  pairwise_snoc old fun _ inside same => new (same ▸ inside)

end Kcf.Data
