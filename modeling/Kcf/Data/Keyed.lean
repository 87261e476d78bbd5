import Mathlib.Data.List.Nodup
import Mathlib.Data.List.Perm.Basic

/-!
# Lists with distinct keys

A list whose members have pairwise distinct keys: an index stands for a key, so
that replacing or erasing a position is described by membership alone.
-/

namespace Kcf.Keyed

open List

variable {α κ : Type} {key : α → κ} {items : List α} {index : Nat} {item : α}

section

variable (distinct : (items.map key).Nodup) (present : items[index]? = some item)
include distinct present

/-- A position is determined by the key of its member. -/
theorem index_eq {other : Nat} {member : α} (found : items[other]? = some member)
    (same : key member = key item) : other = index := by
  have inside : other < (items.map key).length := by
    rw [List.length_map]
    exact (List.getElem?_eq_some_iff.mp found).1
  apply (List.getElem?_inj inside distinct).mp
  rw [getElem?_map, getElem?_map, present, found]
  simp [same]

theorem mem_eraseIdx_iff
    {member : α} :
    member ∈ items.eraseIdx index ↔ member ∈ items ∧ key member ≠ key item := by
  rw [mem_eraseIdx_iff_getElem?]
  constructor
  · rintro ⟨other, different, found⟩
    exact ⟨mem_of_getElem? found, fun same => different (index_eq distinct present found same)⟩
  · rintro ⟨inside, different⟩
    obtain ⟨other, found⟩ := mem_iff_getElem?.mp inside
    refine ⟨other, ?_, found⟩
    rintro rfl
    rw [present] at found
    cases found
    exact different rfl

theorem mem_set_iff
    {replacement member : α} :
    member ∈ items.set index replacement ↔
      member = replacement ∨ member ∈ items ∧ key member ≠ key item := by
  have bound := (List.getElem?_eq_some_iff.mp present).1
  rw [← mem_eraseIdx_iff distinct present, List.mem_eraseIdx_iff_getElem?, List.mem_iff_getElem?]
  constructor
  · rintro ⟨other, found⟩
    rw [getElem?_set] at found
    split_ifs at found with same
    · cases found
      exact .inl rfl
    · exact .inr ⟨other, fun equal => same equal.symm, found⟩
  · rintro (rfl | ⟨other, different, found⟩)
    · exact ⟨index, getElem?_set_self bound⟩
    · exact ⟨other, by rwa [getElem?_set_ne (Ne.symm different)]⟩

end

theorem map_set (present : items[index]? = some item) {replacement : α}
    (same : key replacement = key item) :
    (items.set index replacement).map key = items.map key := by
  obtain ⟨bound, rfl⟩ := List.getElem?_eq_some_iff.mp present
  have mapped : index < (items.map key).length := by rwa [List.length_map]
  rw [map_set, same, ← getElem_map key (h := mapped), set_getElem_self]

/-- Rewriting a member in a way that its key does not show. -/
theorem map_modify {change : α → α} (same : ∀ item, key (change item) = key item)
    (items : List α) (index : Nat) : (items.modify index change).map key = items.map key := by
  refine ext_getElem? fun position => ?_
  rw [getElem?_map, getElem?_map, getElem?_modify]
  cases items[position]? with
  | none => rfl
  | some item =>
    split
    · exact congrArg some (same item)
    · rfl

theorem map_mapIdx {change : Nat → α → α} (same : ∀ index item, key (change index item) = key item)
    (items : List α) : (items.mapIdx change).map key = items.map key := by
  refine ext_getElem? fun position => ?_
  rw [getElem?_map, getElem?_map, getElem?_mapIdx]
  cases items[position]? with
  | none => rfl
  | some item => exact congrArg some (same position item)

theorem filterMap_modify {change : α → α} {image : α → Option κ}
    (same : ∀ item, items[index]? = some item → image (change item) = image item) :
    (items.modify index change).filterMap image = items.filterMap image := by
  induction items generalizing index with
  | nil => rw [modify_nil]
  | cons first rest ih =>
    cases index with
    | zero => rw [modify_zero_cons, filterMap_cons, filterMap_cons, same first rfl]
    | succ index => rw [modify_succ_cons, filterMap_cons, filterMap_cons, ih same]

theorem modify_perm (present : items[index]? = some item) (change : α → α) :
    (items.modify index change).Perm (change item :: items.eraseIdx index) := by
  have : Inhabited α := ⟨item⟩
  rw [List.modify_eq_set, present, Option.getD_some]
  exact List.set_perm_cons_eraseIdx (List.getElem?_eq_some_iff.mp present).1 _

theorem perm_cons_eraseIdx (present : items[index]? = some item) :
    items.Perm (item :: items.eraseIdx index) := by
  obtain ⟨bound, rfl⟩ := List.getElem?_eq_some_iff.mp present
  exact (List.getElem_cons_eraseIdx_perm bound).symm

/-- Erasing the member with a key. -/
theorem eraseIdx_eq_filter [DecidableEq κ] (distinct : (items.map key).Nodup)
    (present : items[index]? = some item) :
    items.eraseIdx index = items.filter fun member => key member ≠ key item := by
  induction items generalizing index with
  | nil => cases present
  | cons first rest ih =>
    rw [map_cons, nodup_cons] at distinct
    cases index with
    | zero =>
      cases present
      rw [eraseIdx_cons_zero, filter_cons_of_neg (by simp), eq_comm, filter_eq_self]
      intro member inside
      have other : key member ≠ key item := fun same => distinct.1 (same ▸ mem_map_of_mem inside)
      simpa using other
    | succ index =>
      rw [getElem?_cons_succ] at present
      have other : key first ≠ key item := fun same =>
        distinct.1 (same ▸ mem_map_of_mem (mem_of_getElem? present))
      rw [eraseIdx_cons_succ, filter_cons_of_pos (by simpa using other), ih distinct.2 present]

/-! ## Removal without order -/

/-- Move the last member to a position and shorten the list. -/
def swapRemove (items : List α) (index : Nat) : List α :=
  match items.getLast? with
  | none => items
  | some last => (items.set index last).dropLast

theorem swapRemove_perm (bound : index < items.length) :
    (swapRemove items index).Perm (items.eraseIdx index) := by
  rcases items.eq_nil_or_concat with rfl | ⟨front, last, rfl⟩
  · simp at bound
  · rw [concat_eq_append] at bound ⊢
    rw [length_append, length_singleton] at bound
    unfold swapRemove
    rw [getLast?_concat]
    dsimp only
    rcases Nat.lt_succ_iff_lt_or_eq.mp bound with inside | rfl
    · rw [set_append_left _ _ inside, dropLast_concat, eraseIdx_append_of_lt_length inside]
      exact (set_perm_cons_eraseIdx inside last).trans (perm_append_singleton _ _).symm
    · rw [set_append_right _ _ (Nat.le_refl _), eraseIdx_append_of_length_le (Nat.le_refl _)]
      simp

end Kcf.Keyed
