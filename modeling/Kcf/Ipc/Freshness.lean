import Kcf.Errno
import Kcf.Data.Trace
import Mathlib.Data.List.DropRight

/-!
# Freshness of commands

`BasicCommandFreshnessMonitor` tells a control thread whether the command it observed last is
still young enough to be followed.  What it answers is a function of the calls since the last
`Reset`.
-/

namespace Kcf.Ipc

open Kcf.Data List

/-- `CommandFreshnessState`. -/
inductive CommandFreshnessState where
  | invalid | valid | expired
  deriving DecidableEq

/-- `BasicCommandFreshnessMonitor`.  Time points and durations are 64-bit counts of the ticks
of its clock, and nothing checks that the difference of two of them fits. -/
structure CommandFreshnessMonitor where
  timeout : Int64
  last : Int64 := 0
  sequence : UInt64 := 0
  observed : Bool := false
  fault : Bool := false
  deriving DecidableEq

namespace CommandFreshnessMonitor

/-- `Snapshot`. -/
structure Snapshot where
  state : CommandFreshnessState := .invalid
  hasObservation : Bool := false
  sequence : UInt64 := 0
  lastObserved : Int64 := 0
  age : Int64 := 0
  deriving DecidableEq

def reset (m : CommandFreshnessMonitor) : CommandFreshnessMonitor :=
  { m with sequence := 0, last := 0, observed := false, fault := false }

def invalidate (m : CommandFreshnessMonitor) : CommandFreshnessMonitor := { m with fault := true }

/-- `Observe`: whether the sequence was accepted, and the monitor behind it. -/
def observe (m : CommandFreshnessMonitor) (sequence : UInt64) (now : Int64) :
    Bool × CommandFreshnessMonitor :=
  if m.fault = true ∨ m.timeout ≤ 0 then (false, m)
  else if sequence = 0 ∨ m.observed = true ∧ (sequence < m.sequence ∨ now < m.last) then
    (false, m.invalidate)
  else if m.observed = true ∧ sequence = m.sequence then (false, m)
  else (true, { m with sequence, last := now, observed := true })

/-- `ObserveRead`. -/
def observeRead (m : CommandFreshnessMonitor) (result : Int) (sequence : UInt64) (now : Int64) :
    Bool × CommandFreshnessMonitor :=
  if result = -Errno.eagain then (false, m)
  else if result ≠ 0 then (false, m.invalidate)
  else m.observe sequence now

/-- `GetSnapshot`. -/
def getSnapshot (m : CommandFreshnessMonitor) (now : Int64) : Snapshot :=
  let out : Snapshot :=
    { hasObservation := m.observed
      sequence := m.sequence
      lastObserved := m.last
      age := if m.observed = true ∧ m.last ≤ now then now - m.last else 0 }
  if m.observed = false ∨ m.fault = true ∨ m.timeout ≤ 0 ∨ now < m.last then out
  else { out with state := if m.timeout ≤ out.age then .expired else .valid }

/-- A call that may change the monitor. -/
inductive Call where
  | observe (sequence : UInt64) (now : Int64)
  | observeRead (result : Int) (sequence : UInt64) (now : Int64)
  | invalidate
  | reset
  deriving DecidableEq

def apply (m : CommandFreshnessMonitor) : Call → CommandFreshnessMonitor
  | .observe sequence now => (m.observe sequence now).2
  | .observeRead result sequence now => (m.observeRead result sequence now).2
  | .invalidate => m.invalidate
  | .reset => m.reset

/-- A new monitor behind these calls. -/
def after (timeout : Int64) (calls : List Call) : CommandFreshnessMonitor :=
  calls.foldl apply { timeout }

/-! ## What the calls say -/

/-- What a call means to the monitor. -/
inductive Event where
  | reading (sequence : UInt64) (now : Int64)
  | fault
  | quiet
  | reset
  deriving DecidableEq

/-- A read error other than `-EAGAIN` is a fault like an explicit one. -/
def Call.event : Call → Event
  | .observe sequence now => .reading sequence now
  | .observeRead result sequence now =>
    if result = -Errno.eagain then .quiet
    else if result ≠ 0 then .fault
    else .reading sequence now
  | .invalidate => .fault
  | .reset => .reset

/-- The events since the last `Reset`. -/
def history (calls : List Call) : List Event := (calls.map Call.event).rtakeWhile (· ≠ .reset)

/-- The last reading of a sequence above all that were read before it. -/
def Newest (events : List Event) (sequence : UInt64) (time : Int64) : Prop :=
  ∃ before event later, events = before ++ event :: later ∧ event = .reading sequence time ∧
    (∀ other now, .reading other now ∈ before → other < sequence) ∧
    ∀ other now, .reading other now ∈ later → other ≤ sequence

/-- The event is no fault: a sequence is not zero, and neither it nor its time is behind the
newest one. -/
def Harmless (before : List Event) : Event → Prop
  | .reading sequence now =>
    sequence ≠ 0 ∧ ∀ newest time, Newest before newest time → newest ≤ sequence ∧ time ≤ now
  | .fault => False
  | .quiet => True
  | .reset => True

/-! ## The monitor follows the calls -/

variable {m : CommandFreshnessMonitor} {events : List Event} {event : Event} {sequence : UInt64}
  {now : Int64}

/-- The monitor behind an event. -/
def handle (m : CommandFreshnessMonitor) : Event → CommandFreshnessMonitor
  | .reading sequence now => (m.observe sequence now).2
  | .fault => m.invalidate
  | .quiet => m
  | .reset => { timeout := m.timeout }

theorem apply_eq_handle (m : CommandFreshnessMonitor) (call : Call) :
    m.apply call = m.handle call.event := by
  cases call with
  | observeRead result sequence now =>
    unfold apply Call.event observeRead
    dsimp only
    split_ifs <;> rfl
  | observe => rfl
  | invalidate => rfl
  | reset => rfl

theorem newest_snoc {time : Int64} :
    Newest (events ++ [event]) sequence time ↔
      event = .reading sequence time ∧
          (∀ other now, .reading other now ∈ events → other < sequence) ∨
        Newest events sequence time ∧
          ∀ other now, event = .reading other now → other ≤ sequence := by
  rw [Newest, exists_split_snoc]
  simp only [mem_append, mem_singleton, or_imp, forall_and, not_mem_nil,
    false_imp_iff, implies_true, and_true, ← and_assoc, exists_and_right, Newest, eq_comm]

/-- What the monitor holds behind events without a `Reset`. -/
structure Tracks (m : CommandFreshnessMonitor) (events : List Event) : Prop where
  positive : 0 < m.timeout
  fault : m.fault = true ↔ ¬Lawful Harmless events
  newest : m.fault = false → ∀ sequence time,
    Newest events sequence time ↔ m.observed = true ∧ m.sequence = sequence ∧ m.last = time
  bound : m.fault = false → ∀ sequence now, .reading sequence now ∈ events →
    m.observed = true ∧ sequence ≤ m.sequence

namespace Tracks

theorem new {timeout : Int64} (positive : 0 < timeout) : Tracks { timeout } [] :=
  ⟨positive, by simp [Lawful.nil], by simp [Newest], by simp⟩

theorem latched (positive : 0 < m.timeout) (fault : m.fault = true)
    (unlawful : ¬Lawful Harmless events) : m.Tracks events :=
  ⟨positive, iff_of_true fault unlawful, by simp [fault], by simp [fault]⟩

section

variable (tracks : m.Tracks events) (clear : m.fault = false)
include tracks clear

theorem lawful : Lawful Harmless events := by
  simpa [clear] using tracks.fault

theorem quiet : m.Tracks (events ++ [.quiet]) := by
  have harmless : Harmless events .quiet := trivial
  refine ⟨tracks.positive, ?_, ?_, ?_⟩
  · simp [clear, lawful_snoc, tracks.lawful clear, harmless]
  · simpa [newest_snoc] using tracks.newest
  · simpa using tracks.bound

/-- `Observe` takes a sequence or a time behind the newest one for a fault, passes over the
newest sequence again, and accepts what is above it. -/
theorem observe (sequence : UInt64)
    (now : Int64) : (m.observe sequence now).2.Tracks (events ++ [.reading sequence now]) := by
  have newest := tracks.newest clear
  have bound := tracks.bound clear
  have lawful := tracks.lawful clear
  have harmless : Harmless events (.reading sequence now) ↔
      ¬(sequence = 0 ∨ m.observed = true ∧ (sequence < m.sequence ∨ now < m.last)) := by
    simp [Harmless, newest]
  unfold CommandFreshnessMonitor.observe
  rw [if_neg (by simp [clear, tracks.positive])]
  split_ifs with faulty same
  · exact latched tracks.positive rfl fun both => harmless.mp (lawful_snoc.mp both).2 faulty
  · obtain ⟨seen, rfl⟩ := same
    have known := (newest _ _).mpr ⟨seen, rfl, rfl⟩
    refine ⟨tracks.positive, ?_, fun _ other time => ?_, fun _ other time inside => ?_⟩
    · simp [clear, lawful_snoc, lawful, harmless.mpr faulty]
    · rw [newest_snoc, newest]
      constructor
      · rintro (⟨same, fresh⟩ | ⟨older, -⟩)
        · cases same
          obtain ⟨before, _, later, rfl, rfl, -⟩ := known
          exact absurd (fresh m.sequence m.last (by simp)) (UInt64.lt_irrefl _)
        · exact older
      · rintro ⟨-, rfl, rfl⟩
        exact .inr ⟨⟨seen, rfl, rfl⟩, by simp⟩
    · rcases Data.mem_snoc inside with old | new
      · exact bound other time old
      · cases new
        exact ⟨seen, UInt64.le_refl _⟩
  · have newer (seen : m.observed = true) : m.sequence < sequence := by
      refine UInt64.lt_of_le_of_ne ?_ fun equal => same ⟨seen, equal.symm⟩
      exact UInt64.not_lt.mp fun less => faulty (.inr ⟨seen, .inl less⟩)
    have above (other : UInt64) (time : Int64) (old : .reading other time ∈ events) :
        other < sequence :=
      UInt64.lt_of_le_of_lt (bound other time old).2 (newer (bound other time old).1)
    refine ⟨tracks.positive, ?_, fun _ other time => ?_, fun _ other time inside => ?_⟩
    · simp [clear, lawful_snoc, lawful, harmless.mpr faulty]
    · rw [newest_snoc, newest]
      constructor
      · rintro (⟨same, -⟩ | ⟨⟨seen, rfl, -⟩, below⟩)
        · cases same
          exact ⟨rfl, rfl, rfl⟩
        · exact absurd (newer seen) (UInt64.not_lt.mpr (below sequence now rfl))
      · rintro ⟨-, rfl, rfl⟩
        exact .inl ⟨rfl, above⟩
    · rcases Data.mem_snoc inside with old | new
      · exact ⟨rfl, UInt64.le_of_lt (above other time old)⟩
      · cases new
        exact ⟨rfl, UInt64.le_refl _⟩

end

theorem handle (tracks : m.Tracks events) (kept : event ≠ .reset) :
    (m.handle event).Tracks (events ++ [event]) := by
  cases fault : m.fault with
  | true =>
    have unlawful : ¬Lawful Harmless (events ++ [event]) := fun both =>
      tracks.fault.mp fault both.of_append
    cases event with
    | reading sequence now =>
      rw [CommandFreshnessMonitor.handle, CommandFreshnessMonitor.observe, if_pos (.inl fault)]
      exact latched tracks.positive fault unlawful
    | fault => exact latched tracks.positive rfl unlawful
    | quiet => exact latched tracks.positive fault unlawful
    | reset => exact absurd rfl kept
  | false =>
    cases event with
    | reading sequence now => exact tracks.observe fault sequence now
    | fault => exact latched tracks.positive rfl fun both => (lawful_snoc.mp both).2
    | quiet => exact tracks.quiet fault
    | reset => exact absurd rfl kept

end Tracks

theorem handle_timeout (m : CommandFreshnessMonitor) (event : Event) :
    (m.handle event).timeout = m.timeout := by
  cases event with
  | reading sequence now =>
    unfold handle observe
    dsimp only
    split_ifs <;> rfl
  | fault => rfl
  | quiet => rfl
  | reset => rfl

theorem after_snoc (timeout : Int64) (calls : List Call) (call : Call) :
    after timeout (calls ++ [call]) = (after timeout calls).handle call.event := by
  rw [after, foldl_concat, apply_eq_handle, after]

theorem after_timeout (timeout : Int64) (calls : List Call) :
    (after timeout calls).timeout = timeout := by
  induction calls using reverseRecOn with
  | nil => rfl
  | append_singleton calls call ih => rw [after_snoc, handle_timeout, ih]

/-- Run lemma: the monitor holds what happened since the last `Reset`. -/
theorem tracks_after {timeout : Int64} (positive : 0 < timeout) (calls : List Call) :
    (after timeout calls).Tracks (history calls) := by
  induction calls using reverseRecOn with
  | nil => exact .new positive
  | append_singleton calls call ih =>
    rw [after_snoc, history, map_append, map_singleton, rtakeWhile_concat]
    split_ifs with kept
    · exact ih.handle (of_decide_eq_true kept)
    · rw [decide_eq_true_eq, not_not] at kept
      rw [kept]
      exact .new ih.positive

/-! ## Snapshots -/

theorem getSnapshot_lastObserved (m : CommandFreshnessMonitor) (now : Int64) :
    (m.getSnapshot now).lastObserved = m.last := by
  unfold getSnapshot
  dsimp only
  split_ifs <;> rfl

theorem getSnapshot_valid (m : CommandFreshnessMonitor) (now : Int64) :
    (m.getSnapshot now).state = .valid ↔
      m.fault = false ∧ 0 < m.timeout ∧ m.observed = true ∧ m.last ≤ now ∧
        now - m.last < m.timeout := by
  unfold getSnapshot
  dsimp only
  split
  next closed =>
    refine ⟨nofun, fun ⟨clear, positive, seen, young, _⟩ => ?_⟩
    rcases closed with unseen | faulty | negative | early
    · rw [seen] at unseen
      cases unseen
    · rw [clear] at faulty
      cases faulty
    · exact absurd positive (Int64.not_lt.mpr negative)
    · exact absurd early (Int64.not_lt.mpr young)
  next opened =>
    simp only [not_or, Bool.not_eq_false, Bool.not_eq_true, Int64.not_le, Int64.not_lt] at opened
    obtain ⟨seen, clear, positive, young⟩ := opened
    simp only [seen, young, and_self, if_true]
    split
    next old => exact ⟨nofun, fun limit => absurd limit.2.2.2.2 (Int64.not_lt.mpr old)⟩
    next fresh =>
      exact ⟨fun _ => ⟨clear, positive, trivial, trivial, Int64.not_le.mp fresh⟩, fun _ => rfl⟩

/-- A difference that fits is the difference of the times. -/
theorem sub_lt_iff {time timeout : Int64} (young : time ≤ now)
    (fits : now.toInt - time.toInt < 0x8000000000000000) :
    now - time < timeout ↔ now.toInt < time.toInt + timeout.toInt := by
  have ordered := Int64.le_iff_toInt_le.mp young
  have exact : (now - time).toInt = now.toInt - time.toInt := by
    rw [Int64.toInt_sub]
    exact Int.bmod_eq_of_le (by omega) (by omega)
  rw [Int64.lt_iff_toInt_lt, exact]
  omega

theorem lawful_of_valid {timeout : Int64} {calls : List Call}
    (valid : ((after timeout calls).getSnapshot now).state = .valid) :
    Lawful Harmless (history calls) := by
  obtain ⟨clear, positive, _⟩ := (getSnapshot_valid _ _).mp valid
  rw [after_timeout] at positive
  exact (tracks_after positive calls).lawful clear

theorem snapshot_valid_iff (timeout : Int64) (calls : List Call) (now : Int64)
    (fits : ∀ sequence time, Newest (history calls) sequence time →
      now.toInt - time.toInt < 0x8000000000000000) :
    ((after timeout calls).getSnapshot now).state = .valid ↔
      Lawful Harmless (history calls) ∧ 0 < timeout ∧
        ∃ sequence time, Newest (history calls) sequence time ∧
          time ≤ now ∧ now.toInt < time.toInt + timeout.toInt := by
  rw [getSnapshot_valid, after_timeout]
  by_cases positive : 0 < timeout
  · have tracks := tracks_after positive calls
    constructor
    · rintro ⟨clear, -, seen, young, limit⟩
      have newest := (tracks.newest clear _ _).mpr ⟨seen, rfl, rfl⟩
      refine ⟨tracks.lawful clear, positive, _, _, newest, young, ?_⟩
      exact (sub_lt_iff young (fits _ _ newest)).mp limit
    · rintro ⟨lawful, -, sequence, time, newest, young, limit⟩
      have clear : (after timeout calls).fault = false := by simpa [lawful] using tracks.fault
      have within := (sub_lt_iff young (fits _ _ newest)).mpr limit
      obtain ⟨seen, -, rfl⟩ := (tracks.newest clear _ _).mp newest
      exact ⟨clear, positive, seen, young, within⟩
  · exact iff_of_false (fun both => positive both.2.1) fun both => positive both.2.1

theorem observe_last (seen : m.observed = true) : (m.observe m.sequence now).2.last = m.last := by
  unfold observe
  split_ifs with closed faulty same
  · rfl
  · rfl
  · rfl
  · exact absurd ⟨seen, rfl⟩ same

theorem event_ne_reset {call : Call} (other : call ≠ .reset) : call.event ≠ .reset := by
  cases call with
  | observeRead result sequence now =>
    unfold Call.event
    dsimp only
    split_ifs <;> nofun
  | observe => nofun
  | invalidate => nofun
  | reset => exact absurd rfl other

theorem history_append {calls later : List Call} (kept : Call.reset ∉ later) :
    history (calls ++ later) = history calls ++ later.map Call.event := by
  induction later using reverseRecOn with
  | nil => simp
  | append_singleton later call ih =>
    rw [mem_append, not_or, mem_singleton] at kept
    have other : call.event ≠ .reset := event_ne_reset (Ne.symm kept.2)
    simp only [history, map_append, map_singleton, ← append_assoc,
      rtakeWhile_concat, decide_eq_true other, if_true] at ih ⊢
    rw [ih kept.1]

/-- A snapshot is valid exactly if no fault happened since the last `Reset` and the newest
sequence was first read less than the timeout ago, where that difference fits into 64 bits.
Reading it again, or nothing, does not move that time, and behind a fault only a `Reset`
helps. -/
theorem command_freshness_exact (timeout : Int64) (calls : List Call) :
    (∀ now, (∀ sequence time, Newest (history calls) sequence time →
        now.toInt - time.toInt < 0x8000000000000000) →
      (((after timeout calls).getSnapshot now).state = .valid ↔
        Lawful Harmless (history calls) ∧ 0 < timeout ∧
          ∃ sequence time, Newest (history calls) sequence time ∧
            time ≤ now ∧ now.toInt < time.toInt + timeout.toInt)) ∧
    (∀ call, (∃ time, call.event = .reading (after timeout calls).sequence time ∧
        (after timeout calls).observed = true) ∨ call.event = .quiet →
      ∀ now, ((after timeout (calls ++ [call])).getSnapshot now).lastObserved =
        ((after timeout calls).getSnapshot now).lastObserved) ∧
    (¬Lawful Harmless (history calls) → ∀ later, Call.reset ∉ later →
      ∀ now, ((after timeout (calls ++ later)).getSnapshot now).state ≠ .valid) := by
  refine ⟨snapshot_valid_iff timeout calls, fun call unmoved now => ?_,
    fun faulty later kept now valid => ?_⟩
  · rw [getSnapshot_lastObserved, getSnapshot_lastObserved, after_snoc]
    rcases unmoved with ⟨time, again, seen⟩ | nothing
    · rw [again]
      exact observe_last seen
    · rw [nothing]
      rfl
  · have lawful := lawful_of_valid valid
    rw [history_append kept] at lawful
    exact faulty lawful.of_append

/-- Behind an error of the storage the next command is not followed. -/
theorem command_freshness_exact_error :
    ((after 100 [.observe 7 5, .observeRead 0 7 50, .observeRead (-Errno.eagain) 0 60]).getSnapshot
        104).state = .valid ∧
      ∀ now, ((after 100 ([.observe 7 5, .observeRead (-Errno.eio) 0 6] ++
        [.observe 8 7])).getSnapshot now).state ≠ .valid := by
  refine ⟨by decide, fun now => ?_⟩
  refine (command_freshness_exact 100 [.observe 7 5, .observeRead (-Errno.eio) 0 6]).2.2 ?_
    [.observe 8 7] (by decide) now
  intro lawful
  exact lawful [.reading 7 5] .fault [] rfl

/-- A command that was observed at tick `-2` is valid again at the last tick: the age wraps. -/
theorem stale_command_valid :
    Newest (history [.observe 1 (-2)]) 1 (-2) ∧
      ¬Int64.maxValue.toInt < (-2 : Int64).toInt + (100 : Int64).toInt ∧
      ((after 100 [.observe 1 (-2)]).getSnapshot Int64.maxValue).state = .valid :=
  ⟨⟨[], _, [], rfl, rfl, by simp, by simp⟩, by decide, by decide⟩

end CommandFreshnessMonitor

end Kcf.Ipc
