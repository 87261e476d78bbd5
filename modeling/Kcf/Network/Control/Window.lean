import Mathlib.Data.List.Nodup
import Mathlib.Data.UInt
import Mathlib.Order.Lattice

/-!
# The replay window

`Impl::Window` remembers which of the last 256 identifiers were admitted: bit `i`
stands for `high - i`.
-/

namespace Kcf.Network.Control

open List

structure Window where
  high : UInt64 := 0
  bits : BitVec 256 := 0
  deriving DecidableEq

namespace Window

/-- A new highest identifier moves the window. -/
def advance (w : Window) (id : UInt64) : Window :=
  if w.high < id then
    { high := id
      bits := if 256 ≤ (id - w.high).toNat then 0 else w.bits <<< (id - w.high).toNat }
  else w

/-- The identifier is out of the window, or its bit is set. -/
def Refuses (w : Window) (id : UInt64) : Prop :=
  256 ≤ (w.high - id).toNat ∨ w.bits.getLsbD (w.high - id).toNat = true
  deriving Decidable

/-- Set the bit of an identifier. -/
def mark (w : Window) (id : UInt64) : Window :=
  { w with bits := w.bits ||| BitVec.twoPow 256 (w.high - id).toNat }

/-- `Window::Admit`. -/
def admitId (w : Window) (id : UInt64) : Window × Bool :=
  if (w.advance id).Refuses id then (w.advance id, false) else ((w.advance id).mark id, true)

/-- The window knows which identifiers were admitted, as far back as it reaches. -/
structure Tracks (w : Window) (admitted : UInt64 → Prop) : Prop where
  below : ∀ {id}, admitted id → id ≤ w.high
  exact : ∀ {id}, id ≤ w.high → (w.high - id).toNat < 256 →
    (w.bits.getLsbD (w.high - id).toNat = true ↔ admitted id)

theorem tracks_empty : Tracks {} fun _ => False where
  below := False.elim
  exact := by
    intro id _ _
    simp

theorem le_advance (w : Window) (id : UInt64) : id ≤ (w.advance id).high := by
  unfold advance
  split
  · exact UInt64.le_refl id
  next above => exact UInt64.not_lt.mp above

variable {w : Window} {admitted : UInt64 → Prop} {id : UInt64}

section

variable (tracks : w.Tracks admitted)
include tracks

theorem Tracks.advance : (w.advance id).Tracks admitted := by
  unfold Window.advance
  split
  next above =>
    constructor
    case below =>
      intro other known
      exact UInt64.le_trans (tracks.below known) (UInt64.le_of_lt above)
    case exact =>
      intro other reach near
      dsimp only at reach near ⊢
      have shift : (id - w.high).toNat = id.toNat - w.high.toNat :=
        UInt64.toNat_sub_of_le _ _ (UInt64.le_of_lt above)
      have distance : (id - other).toNat = id.toNat - other.toNat :=
        UInt64.toNat_sub_of_le _ _ reach
      have higher : w.high.toNat < id.toNat := UInt64.lt_iff_toNat_lt.mp above
      by_cases old : other ≤ w.high
      · -- an identifier the old window reached is `delta` bits further now
        have older : other.toNat ≤ w.high.toNat := UInt64.le_iff_toNat_le.mp old
        have before : (w.high - other).toNat = w.high.toNat - other.toNat :=
          UInt64.toNat_sub_of_le _ _ old
        have small : ¬256 ≤ (id - w.high).toNat := by omega
        have moved : (id - other).toNat = (id - w.high).toNat + (w.high - other).toNat := by omega
        rw [if_neg small, moved, BitVec.getLsbD_shiftLeft, ← tracks.exact old (by omega)]
        have inside : (id - w.high).toNat + (w.high - other).toNat < 256 := by omega
        simp [inside]
      · have newer : w.high.toNat < other.toNat :=
          UInt64.lt_iff_toNat_lt.mp (UInt64.not_le.mp old)
        constructor
        · intro set
          split at set
          · simp at set
          rw [BitVec.getLsbD_shiftLeft] at set
          have inside : (id - other).toNat < (id - w.high).toNat := by omega
          simp [inside] at set
        · intro known
          exact absurd (tracks.below known) old
  · exact tracks

/-- A window that is already at `id` refuses it exactly if it was admitted or is
out of reach. -/
theorem Tracks.refuses_iff (reach : id ≤ w.high) :
    w.Refuses id ↔ 256 ≤ (w.high - id).toNat ∨ admitted id := by
  unfold Refuses
  by_cases near : (w.high - id).toNat < 256
  · rw [tracks.exact reach near]
  · exact ⟨fun _ => .inl (not_lt.mp near), fun _ => .inl (not_lt.mp near)⟩

theorem Tracks.mark (reach : id ≤ w.high)
    (near : (w.high - id).toNat < 256) :
    (w.mark id).Tracks fun other => admitted other ∨ other = id := by
  constructor
  case below =>
    intro other known
    rcases known with known | rfl
    · exact tracks.below known
    · exact reach
  case exact =>
    intro other older close
    change (w.bits ||| BitVec.twoPow 256 (w.high - id).toNat).getLsbD (w.high - other).toNat =
      true ↔ _
    rw [BitVec.getLsbD_or, BitVec.getLsbD_twoPow, Bool.or_eq_true, tracks.exact older close]
    have same : (w.high - id).toNat = (w.high - other).toNat ↔ other = id := by
      constructor
      · intro equal
        have first : (w.high - id).toNat = w.high.toNat - id.toNat :=
          UInt64.toNat_sub_of_le _ _ reach
        have second : (w.high - other).toNat = w.high.toNat - other.toNat :=
          UInt64.toNat_sub_of_le _ _ older
        have low : id.toNat ≤ w.high.toNat := UInt64.le_iff_toNat_le.mp reach
        have lower : other.toNat ≤ w.high.toNat := UInt64.le_iff_toNat_le.mp older
        exact UInt64.toNat_inj.mp (by omega)
      · rintro rfl
        rfl
    simp [near, same]

/-- `Admit` accepts exactly the identifiers that were not admitted before and are
less than 256 behind the newest one. -/
theorem Tracks.admitId_iff (id : UInt64) :
    (w.admitId id).2 = true ↔ ¬admitted id ∧ ((w.advance id).high - id).toNat < 256 := by
  have refuses := tracks.advance.refuses_iff (w.le_advance id)
  unfold admitId
  split
  next refused =>
    have reason := refuses.mp refused
    constructor
    · exact fun accepted => absurd accepted Bool.false_ne_true
    · rintro ⟨fresh, near⟩
      rcases reason with far | known
      · exact absurd near (not_lt.mpr far)
      · exact absurd known fresh
  next passed =>
    have reason := not_or.mp (mt refuses.mpr passed)
    exact ⟨fun _ => ⟨reason.2, not_le.mp reason.1⟩, fun _ => rfl⟩

/-- What the window tracks after a call of `Admit`. -/
theorem Tracks.admitId (id : UInt64) :
    (w.admitId id).1.Tracks fun other => admitted other ∨
      ((w.admitId id).2 = true ∧ other = id) := by
  have accepts := tracks.admitId_iff id
  unfold Window.admitId at accepts ⊢
  split
  · simpa using tracks.advance
  next passed =>
    rw [if_neg passed] at accepts
    simpa using tracks.advance.mark (w.le_advance id) (accepts.mp rfl).2

end

/-! ## Sequences of calls -/

/-- A window and the identifiers it has admitted so far. -/
structure Log where
  window : Window := {}
  admitted : List UInt64 := []

/-- A call of `Admit`. -/
def Log.call (log : Log) (id : UInt64) : Log where
  window := (log.window.admitId id).1
  admitted := if (log.window.admitId id).2 then log.admitted ++ [id] else log.admitted

/-- The calls of a sequence, from an empty window on. -/
def calls (ids : List UInt64) : Log := ids.foldl Log.call {}

/-- The largest identifier of a sequence. -/
def largest (ids : List UInt64) : Nat := ids.foldl (fun high id => max high id.toNat) 0

/-- What a log and the calls made so far have in common. -/
structure Log.Follows (log : Log) (ids : List UInt64) : Prop where
  tracks : log.window.Tracks fun id => id ∈ log.admitted
  high : log.window.high.toNat = largest ids
  once : log.admitted.Nodup

theorem toNat_high_advance (w : Window) (id : UInt64) :
    (w.advance id).high.toNat = max w.high.toNat id.toNat := by
  unfold Window.advance
  split
  next above => exact (Nat.max_eq_right (Nat.le_of_lt (UInt64.lt_iff_toNat_lt.mp above))).symm
  next below => exact (Nat.max_eq_left (UInt64.le_iff_toNat_le.mp (UInt64.not_lt.mp below))).symm

theorem high_admitId (w : Window) (id : UInt64) : (w.admitId id).1.high = (w.advance id).high := by
  unfold Window.admitId
  split <;> rfl

namespace Log

variable {log : Log} {ids : List UInt64}

/-- `Admit` as the history of calls has it. -/
theorem Follows.admits_iff (follows : log.Follows ids) (id : UInt64) :
    (log.window.admitId id).2 = true ↔
      id ∉ log.admitted ∧ max (largest ids) id.toNat - id.toNat < 256 := by
  have distance : ((log.window.advance id).high - id).toNat =
      max (largest ids) id.toNat - id.toNat := by
    rw [UInt64.toNat_sub_of_le _ _ (log.window.le_advance id), toNat_high_advance, follows.high]
  rw [follows.tracks.admitId_iff id, distance]

theorem Follows.call (follows : log.Follows ids) (id : UInt64) :
    (log.call id).Follows (ids ++ [id]) := by
  have high : (log.call id).window.high.toNat = largest (ids ++ [id]) := by
    rw [largest, foldl_append]
    change (log.window.admitId id).1.high.toNat = max (largest ids) id.toNat
    rw [high_admitId, toNat_high_advance, follows.high]
  have tracks : (log.call id).window.Tracks fun other =>
      other ∈ log.admitted ∨ ((log.window.admitId id).2 = true ∧ other = id) :=
    follows.tracks.admitId id
  cases admits : (log.window.admitId id).2 with
  | false =>
    have same : (log.call id).admitted = log.admitted := by
      rw [Log.call, admits]
      rfl
    refine ⟨?_, high, ?_⟩
    · rw [same]
      simpa only [admits, Bool.false_eq_true, false_and, or_false] using tracks
    · rw [same]
      exact follows.once
  | true =>
    have new := ((follows.admits_iff id).mp admits).1
    have more : (log.call id).admitted = log.admitted ++ [id] := by
      rw [Log.call, admits]
      rfl
    refine ⟨?_, high, ?_⟩
    · rw [more]
      simpa only [admits, true_and, mem_append, mem_singleton] using tracks
    · rw [more, ← concat_eq_append]
      exact follows.once.concat new

end Log

theorem follows_calls (ids : List UInt64) : (calls ids).Follows ids := by
  induction ids using reverseRecOn with
  | nil =>
    refine ⟨?_, rfl, nodup_nil⟩
    simpa only [calls, foldl_nil, not_mem_nil] using tracks_empty
  | append_singleton ids id ih =>
    have last : calls (ids ++ [id]) = (calls ids).call id := by
      rw [calls, foldl_append]
      rfl
    rw [last]
    exact ih.call id

/-- After any calls, `Admit` accepts exactly the identifiers that it has not accepted yet
and that are less than 256 behind the largest one; so it accepts none twice. -/
theorem replay_window_exact (ids : List UInt64) :
    (∀ id, ((calls ids).window.admitId id).2 = true ↔
      id ∉ (calls ids).admitted ∧ max (largest ids) id.toNat - id.toNat < 256) ∧
    (calls ids).admitted.Nodup :=
  ⟨(follows_calls ids).admits_iff, (follows_calls ids).once⟩

end Window

end Kcf.Network.Control
