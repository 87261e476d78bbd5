import Mathlib.Data.List.Basic

/-!
# Tables with one record per key

A bounded table that is searched by a key: a record is read, or a new one is made
if there is room, and written back.  The table is described by what a search
finds.
-/

namespace Kcf.Records

open List

variable {α κ : Type} [DecidableEq κ] (key : α → κ)

/-- The first record with this key. -/
def find (records : List α) (wanted : κ) : Option α :=
  records.find? fun record => key record = wanted

/-- The record with the key of `fresh`, or `fresh` itself if the table has room. -/
def lookup (records : List α) (limit : Nat) (fresh : α) : Option α :=
  match find key records (key fresh) with
  | some record => some record
  | none => if limit ≤ records.length then none else some fresh

/-- Overwrite the first record with the same key, or add one. -/
def store : List α → α → List α
  | [], record => [record]
  | first :: rest, record =>
    if key first = key record then record :: rest else first :: store rest record

variable {key}

theorem find_store_self (records : List α) (record : α) :
    find key (store key records record) (key record) = some record := by
  induction records with
  | nil => simp [store, find]
  | cons first rest ih =>
    unfold store
    split
    · simp [find]
    next other =>
      unfold find at ih ⊢
      rw [find?_cons_of_neg (by simpa using other)]
      exact ih

theorem find_store_ne (records : List α) (record : α) {wanted : κ} (other : key record ≠ wanted) :
    find key (store key records record) wanted = find key records wanted := by
  induction records with
  | nil => simp [store, find, other]
  | cons first rest ih =>
    unfold store
    split
    next same =>
      unfold find
      rw [find?_cons_of_neg (by simpa using other), find?_cons_of_neg (by simpa [same] using other)]
    · unfold find at ih ⊢
      rw [find?_cons, find?_cons, ih]

theorem key_of_find {records : List α} {wanted : κ} {record : α}
    (found : find key records wanted = some record) : key record = wanted := by
  have matched := find?_some found
  simpa using matched

/-- A record that was looked up is in the table or new. -/
theorem lookup_cases {records : List α} {limit : Nat} {fresh record : α}
    (found : lookup key records limit fresh = some record) :
    find key records (key fresh) = some record ∨
      find key records (key fresh) = none ∧ record = fresh := by
  unfold lookup at found
  split at found
  next present =>
    cases found
    exact .inl present
  next absent =>
    split at found
    · cases found
    · cases found
      exact .inr ⟨absent, rfl⟩

theorem key_of_lookup {records : List α} {limit : Nat} {fresh record : α}
    (found : lookup key records limit fresh = some record) : key record = key fresh := by
  rcases lookup_cases found with present | ⟨_, rfl⟩
  · exact key_of_find present
  · rfl

end Kcf.Records
