import Kcf.Network.Topic.Routes

/-!
# The send schedule of a route

An outgoing route is visited by every `Transmit`.  The deadlines of its attempts keep the
phase of the first one, whatever the clock and the duration of the attempts are, and no two
attempts are made in one period.
-/

namespace Kcf.Network.Topic

open List

variable {period : Int}

/-- The last instant of a phase that is not later than `now`. -/
theorem round_eq (start now : Int) :
    start + (now - start) / period * period = now - (now - start) % period := by
  have parts := Int.mul_ediv_add_emod (now - start) period
  rw [Int.mul_comm] at parts
  omega

/-- The next deadline is the first instant of the phase behind the attempt. -/
theorem nextDeadline_spec {start due finish : Int} (positive : 0 < period) (reached : start ≤ due)
    (later : due ≤ finish) :
    finish < nextDeadline start due finish period ∧
      nextDeadline start due finish period ≤ finish + period ∧
      period ∣ nextDeadline start due finish period - start := by
  let deadline := start + (due - start) / period * period
  have rounded : deadline = due - (due - start) % period := round_eq start due
  have passed := Int.emod_nonneg (due - start) (Int.ne_of_gt positive)
  have same : nextDeadline start due finish period =
      deadline + (finish - deadline) / period * period + period := by
    change start + (due - start).tdiv period * period + _ = _
    rw [Int.tdiv_eq_ediv_of_nonneg (by omega)]
    change deadline + ((finish - deadline).tdiv period + 1) * period = _
    rw [Int.tdiv_eq_ediv_of_nonneg (by omega), Int.add_mul, Int.one_mul, ← Int.add_assoc]
  have low := Int.emod_nonneg (finish - deadline) (Int.ne_of_gt positive)
  have high := Int.emod_lt_of_pos (finish - deadline) positive
  have last := @round_eq period deadline finish
  refine ⟨by omega, by omega, (due - start) / period + (finish - deadline) / period + 1, ?_⟩
  rw [same]
  ring

/-- A visit of `Transmit` to a route.  What else happens to the route before it is arbitrary. -/
structure Visit where
  route : Outgoing
  attempt : Attempt

namespace Visit

/-- The attempt is made: the route is active and its deadline has come. -/
def Made (v : Visit) : Prop := v.route.stats.state = .active ∧ v.route.next ≤ v.attempt.due
  deriving Decidable

/-- The deadline behind the visit. -/
def next (config : Config) (v : Visit) : Int := (v.route.transmit config v.attempt).1.next

variable {config : Config} {v : Visit}

theorem next_of_not_made (missed : ¬v.Made) : v.next config = v.route.next := by
  have skipped : v.route.stats.state ≠ .active ∨ v.attempt.due < v.route.next := by
    by_contra both
    push Not at both
    exact missed both
  rw [next, Outgoing.transmit, if_pos skipped]

theorem sample_next (r : Outgoing) (sampleSequence : UInt64) (attempt : Attempt) :
    (r.sample sampleSequence attempt).1.next = r.next := by
  unfold Outgoing.sample
  dsimp only
  split
  · rfl
  split
  · rfl
  · split <;> rfl

theorem next_of_made (made : v.Made) :
    v.next config = nextDeadline (if v.route.next = 0 then v.attempt.due else v.route.next)
      v.attempt.due v.attempt.finish (config.period v.route.packet.name) := by
  have tried : ¬(v.route.stats.state ≠ .active ∨ v.attempt.due < v.route.next) := by
    push Not
    exact made
  rw [next, Outgoing.transmit, if_neg tried]
  dsimp only
  split
  · split <;> rfl
  split
  · rfl
  split
  · rfl
  split
  · rfl
  · exact sample_next _ _ _

end Visit

/-- Visits to one route with a fixed period: only they move its deadline, and the clock does
not go back. -/
def Consecutive (config : Config) (period : Int) : Int → Int → List Visit → Prop
  | _, _, [] => True
  | clock, deadline, v :: rest =>
    v.route.next = deadline ∧ config.period v.route.packet.name = period ∧
      clock ≤ v.attempt.due ∧ v.attempt.due ≤ v.attempt.finish ∧
      Consecutive config period v.attempt.finish (v.next config) rest

/-- The attempts that are made. -/
def attempts (visits : List Visit) : List Visit := visits.filter Visit.Made

theorem attempts_of_made {v : Visit} (made : v.Made) (rest : List Visit) :
    attempts (v :: rest) = v :: attempts rest :=
  filter_cons_of_pos (by simpa using made)

theorem attempts_of_not_made {v : Visit} (missed : ¬v.Made) (rest : List Visit) :
    attempts (v :: rest) = attempts rest :=
  filter_cons_of_neg (by simpa using missed)

/-- The attempt `v` is followed by a deadline of the phase that starts at `first`. -/
structure Keeps (config : Config) (period first : Int) (v : Visit) : Prop where
  behind : v.attempt.finish < v.next config
  soon : v.next config ≤ v.attempt.finish + period
  phase : period ∣ v.next config - first

/-- The period of the phase that an instant falls into. -/
def slot (period first now : Int) : Int := (now - first) / period

variable {config : Config} {clock deadline first : Int} {visits : List Visit}

/-- An attempt of a route whose phase is known. -/
theorem Visit.Made.keeps {v : Visit} (made : v.Made)
    (positive : 0 < config.period v.route.packet.name)
    (later : v.attempt.due ≤ v.attempt.finish) (started : v.route.next ≠ 0)
    (phase : config.period v.route.packet.name ∣ v.route.next - first) :
    Keeps config (config.period v.route.packet.name) first v := by
  have same : v.next config = _ := Visit.next_of_made made
  rw [if_neg started] at same
  obtain ⟨behind, soon, shift⟩ := nextDeadline_spec positive made.2 later
  rw [← same] at behind soon shift
  have parts : v.next config - first = v.next config - v.route.next + (v.route.next - first) := by
    omega
  exact ⟨behind, soon, parts ▸ Int.dvd_add shift phase⟩

/-- A route with a phase keeps it, and waits for the deadline behind every attempt. -/
theorem keeps_of_consecutive (positive : 0 < period)
    (calls : Consecutive config period clock deadline visits) (started : 0 < deadline)
    (phase : period ∣ deadline - first) :
    (∀ v ∈ attempts visits, deadline ≤ v.attempt.due ∧ Keeps config period first v) ∧
      (attempts visits).Pairwise fun a b => a.next config ≤ b.attempt.due := by
  induction visits generalizing clock deadline with
  | nil => simp [attempts]
  | cons v rest ih =>
    obtain ⟨rfl, rfl, -, later, calls⟩ := calls
    by_cases made : v.Made
    · have keeps := made.keeps positive later (Int.ne_of_gt started) phase
      have grows := Int.lt_of_le_of_lt (Int.le_trans made.2 later) keeps.behind
      obtain ⟨each, apart⟩ := ih calls (Int.lt_trans started grows) keeps.phase
      rw [attempts_of_made made]
      refine ⟨forall_mem_cons.mpr ⟨⟨made.2, keeps⟩, fun w inside => ?_⟩,
        pairwise_cons.mpr ⟨fun w inside => (each w inside).1, apart⟩⟩
      exact ⟨Int.le_trans (Int.le_of_lt grows) (each w inside).1, (each w inside).2⟩
    · rw [Visit.next_of_not_made made] at calls
      rw [attempts_of_not_made made]
      exact ih calls started phase

/-- The attempts of a new route: the first one starts the phase. -/
theorem keeps_of_new (positive : 0 < period) (calls : Consecutive config period clock 0 visits)
    {v : Visit} {rest : List Visit} (made : attempts visits = v :: rest) :
    (∀ w ∈ attempts visits, Keeps config period v.attempt.due w) ∧
      (attempts visits).Pairwise fun a b => a.next config ≤ b.attempt.due := by
  induction visits generalizing clock with
  | nil => cases made
  | cons w later ih =>
    obtain ⟨unset, rfl, -, ended, calls⟩ := calls
    by_cases here : w.Made
    · rw [attempts_of_made here] at made ⊢
      obtain ⟨rfl, rfl⟩ := cons.inj made
      have same : w.next config = _ := Visit.next_of_made here
      rw [if_pos unset] at same
      obtain ⟨behind, soon, phase⟩ := nextDeadline_spec positive (Int.le_refl _) ended
      rw [← same] at behind soon phase
      have start := here.2
      obtain ⟨each, apart⟩ := keeps_of_consecutive positive calls (by omega) phase
      exact ⟨forall_mem_cons.mpr ⟨⟨behind, soon, phase⟩, fun x inside => (each x inside).2⟩,
        pairwise_cons.mpr ⟨fun x inside => (each x inside).1, apart⟩⟩
    · rw [Visit.next_of_not_made here, unset] at calls
      rw [attempts_of_not_made here] at made ⊢
      exact ih calls made

/-- An instant of the phase starts a slot. -/
theorem slot_lt_slot {now instant later : Int} (positive : 0 < period) (before : now < instant)
    (phase : period ∣ instant - first) (reached : instant ≤ later) :
    slot period first now < slot period first later := by
  obtain ⟨count, same⟩ := phase
  have high : count ≤ slot period first later :=
    (Int.le_ediv_iff_mul_le positive).mpr (by rw [Int.mul_comm, ← same]; omega)
  have low : slot period first now < count :=
    (Int.ediv_lt_iff_lt_mul positive).mpr (by rw [Int.mul_comm, ← same]; omega)
  exact Int.lt_of_lt_of_le low high

/-- Whatever the clock reads and however long the attempts take: the deadline behind an
attempt is the first instant behind its end in the phase of the first attempt, and an attempt
starts in a later slot than the one in which the attempt before it has ended. -/
theorem send_schedule_keeps_phase (positive : 1 ≤ period)
    (calls : Consecutive config period clock 0 visits) {v : Visit} {rest : List Visit}
    (made : attempts visits = v :: rest) :
    (∀ w ∈ attempts visits, w.attempt.finish < w.next config ∧
      w.next config ≤ w.attempt.finish + period ∧
      w.next config % period = v.attempt.due % period) ∧
    (attempts visits).Pairwise fun a b =>
      slot period v.attempt.due a.attempt.finish < slot period v.attempt.due b.attempt.due := by
  obtain ⟨each, apart⟩ := keeps_of_new positive calls made
  refine ⟨fun w inside => ?_, apart.imp_of_mem fun inside _ later => ?_⟩
  · have keeps := each w inside
    exact ⟨keeps.behind, keeps.soon, Int.emod_eq_emod_iff_emod_sub_eq_zero.mpr
      (Int.emod_eq_zero_of_dvd keeps.phase)⟩
  · exact slot_lt_slot positive (each _ inside).behind (each _ inside).phase later

/-- A visit to an active route. -/
def sampleVisit (deadline due finish : Int) : Visit where
  route :=
    { packet := {}, expires := 0, next := deadline, freshStart := false, baseline := 0,
      address := 0, port := 0, stats := { state := .active } }
  attempt := { due, finish, latest := .error (-Errno.eagain), encoded := .ok [] }

/-- An attempt that takes more than a period, and a visit ahead of the next deadline. -/
theorem send_schedule_keeps_phase_late :
    attempts [sampleVisit 0 3 17, sampleVisit 23 18 18, sampleVisit 23 40 41] =
      [sampleVisit 0 3 17, sampleVisit 23 40 41] ∧
    (sampleVisit 23 40 41).next { period := fun _ => 10 } % 10 = 3 % 10 ∧
    slot 10 3 17 < slot 10 3 40 := by
  have made : attempts [sampleVisit 0 3 17, sampleVisit 23 18 18, sampleVisit 23 40 41] =
      [sampleVisit 0 3 17, sampleVisit 23 40 41] := rfl
  have calls : Consecutive { period := fun _ => 10 } 10 0 0
      [sampleVisit 0 3 17, sampleVisit 23 18 18, sampleVisit 23 40 41] := by
    refine ⟨rfl, rfl, by decide, by decide, ?_, rfl, by decide, by decide, ?_, rfl, by decide,
      by decide, trivial⟩ <;> decide +kernel
  obtain ⟨each, apart⟩ := send_schedule_keeps_phase (by decide) calls made
  rw [made] at each apart
  exact ⟨made, (each _ (by simp)).2.2, (pairwise_cons.mp apart).1 (sampleVisit 23 40 41) (by simp)⟩

end Kcf.Network.Topic
