import Kcf.Ipc.Parameter.Atomic

/-!
# Transactions over whole runs

Steps, runs and single `Set` calls of the parameter system, and the statement
that its transactions are crash-atomic.
-/

namespace Kcf.Ipc.Parameter

open Kcf.Transition Kcf.Posix List Function

variable {layout : Layout} {ι : Type} [DecidableEq ι]

@[simp]
theorem State.goto_self (state : State layout ι) (process : ι) (pc : Pc layout.size ι) :
    (state.goto process pc).processes process = pc :=
  update_self _ _ _

/-! ## Every step keeps the invariant -/

theorem Invariant.crash {state : State layout ι} (invariant : Invariant state) (process : ι) :
    Invariant ((state.setMutex (state.mutex.died process)).goto process .crashed) := by
  refine invariant.move rfl invariant.sound ?_ ?_ ?_ trivial (.inr rfl) prefix_rfl
    invariant.served invariant.ordered
  · simp [State.goto, State.setMutex, RobustMutex.died_owner, Pc.possesses]
  · intro other distinct
    simp [State.goto, State.setMutex, RobustMutex.died_owner, distinct]
  · intro none alive
    simp only [State.goto, State.setMutex, RobustMutex.died] at none alive
    split at none
    next mine => exact absurd (if_pos mine) alive
    next notMine =>
      rw [if_neg notMine] at alive
      exact invariant.quiet none alive

variable {state next : State layout ι} {action : Action layout ι} {initial : Payload layout.size}
  {process : ι} {outcome : Int}

theorem Invariant.step (invariant : Invariant state) (stepped : step state action = some next) :
    Invariant next := by
  cases action with
  | call process operation =>
    simp only [Parameter.step] at stepped
    split at stepped <;> cases stepped
    next current =>
      have entered : Invariant (state.goto process (.lock operation)) :=
        invariant.outside (by rw [current]; rfl) rfl trivial
      exact { entered with }
  | advance process outcome => exact invariant.processStep stepped
  | finish process =>
    simp only [Parameter.step] at stepped
    split at stepped <;> cases stepped
    next current => exact invariant.outside (by rw [current]; rfl) rfl trivial
  | crash process =>
    cases stepped
    exact invariant.crash process

theorem Invariant.of_reachable {state : State layout ι}
    (reachable : (system layout ι initial).Reachable state) : Invariant state :=
  reachable.invariant (fun _ => Invariant.of_fresh) (fun _ _ _ step holds => holds.step step)

/-! ## What one step does to the records -/

/-- The value that a call is to commit. -/
def Operation.pending {size : Nat} : Operation size ι → Option (Payload size)
  | .set value => some value
  | .get | .wait _ | .stopWait _ => none

/-- The value that a call has still to commit. -/
def Pc.pending {size : Nat} : Pc size ι → Option (Payload size)
  | .lock operation | .recover operation | .restoreActive operation
  | .restoreVersion operation | .rollback operation | .consistent operation
  | .enter operation => operation.pending
  | .checkVersion value | .saveActive value | .saveVersion value | .start value | .choose value
  | .copyIn value _ _ | .flip value _ | .bump value | .commit value => some value
  | _ => none

/-- A call goes on with what it has still to commit, or fails. -/
def Pc.Onward {size : Nat} (pending : Option (Payload size)) (after : Pc size ι) : Prop :=
  (∀ value version, after ≠ .done (.value value version)) ∧
    (after.pending = pending ∨
      ∃ code, code ≠ 0 ∧ (after = .unlock code ∨ after = .done (.code code)))

/-- Where a step that touches no record takes a process. -/
def Pc.Leads {size : Nat} (after : Pc size ι) : Pc size ι → Prop
  | .idle | .done _ | .crashed => False
  | .unlock code => after = .done (.code code)
  | .unlockSet => after = .broadcast
  | .broadcast => ∃ code, after = .done (.code code) ∧ (code = 0 ∨ code = -Errno.einval)
  | before => after.Onward before.pending

/-- A step that only moves a process. -/
structure Moves (state : State layout ι) (process : ι) (pc : Pc layout.size ι)
    (next : State layout ι) : Prop where
  processes : next.processes = update state.processes process pc
  committed : next.committed = state.committed
  returned : next.returned = state.returned
  own : next.own = state.own

/-- Everything a step can do to the control states and to the records. -/
inductive Effect (state : State layout ι) : Action layout ι → State layout ι → Prop where
  | called {process : ι} {operation : Operation layout.size ι} :
      state.processes process = .idle → Effect state (.call process operation)
        ({ state with own := update state.own process [] }.goto process (.lock operation))
  | finished {process : ι} {outcome : Outcome layout.size} :
      state.processes process = .done outcome →
      Effect state (.finish process) (state.goto process .idle)
  | crashed {process : ι} : Effect state (.crash process)
      ((state.setMutex (state.mutex.died process)).goto process .crashed)
  | moved {process : ι} {outcome : Int} {next : State layout ι} (pc : Pc layout.size ι) :
      pc.Leads (state.processes process) → Moves state process pc next →
      Effect state (.advance process outcome) next
  | committed {process : ι} {outcome : Int} {value : Payload layout.size} :
      state.processes process = .commit value →
      Effect state (.advance process outcome) (state.commit process value)
  | served {process : ι} {outcome : Int} {buffer : Payload layout.size} {version : Nat} :
      state.processes process = .unlockValue buffer version →
      Effect state (.advance process outcome) (state.serve process buffer version)

omit [DecidableEq ι] in
theorem Pc.Onward.beginRecover (operation : Operation layout.size ι) (result : Int) :
    (beginRecover operation result).Onward operation.pending := by
  unfold Parameter.beginRecover afterRecover
  split
  · exact ⟨by simp, .inl rfl⟩
  split
  · exact ⟨by simp, .inl rfl⟩
  next failed => exact ⟨by simp, .inr ⟨-result, Int.neg_ne_zero.mpr failed, .inr rfl⟩⟩

theorem enterStep_moves (state : State layout ι) (process : ι) (outcome : Int)
    (operation : Operation layout.size ι) :
    ∃ pc : Pc layout.size ι, pc.Onward operation.pending ∧
      Moves state process pc (enterStep state process outcome operation) := by
  have refuse {code : Int} (failed : code ≠ 0) :
      (Pc.unlock code : Pc layout.size ι).Onward operation.pending :=
    ⟨by simp, .inr ⟨code, failed, .inl rfl⟩⟩
  fun_cases enterStep state process outcome operation
  case case1 | case3 | case5 => exact ⟨_, refuse (by decide), rfl, rfl, rfl, rfl⟩
  case case7 failed => exact ⟨_, refuse (Int.neg_ne_zero.mpr failed), rfl, rfl, rfl, rfl⟩
  all_goals exact ⟨_, ⟨by simp, .inl rfl⟩, rfl, rfl, rfl, rfl⟩

theorem effect_of_processStep (stepped : processStep state process outcome = some next) :
    Effect state (.advance process outcome) next := by
  unfold processStep at stepped
  split at stepped
  all_goals try cases stepped
  all_goals rename_i current
  case h_4 operation =>
    split at stepped
    next failed =>
      split at stepped <;> cases stepped
      refine .moved _ ?_ ⟨rfl, rfl, rfl, rfl⟩
      rw [current]
      exact ⟨by simp, .inr ⟨_, Int.neg_ne_zero.mpr failed, .inr rfl⟩⟩
    · obtain ⟨_, _, rfl⟩ := Option.map_eq_some_iff.mp stepped
      refine .moved _ ?_ ⟨rfl, rfl, rfl, rfl⟩
      rw [current]
      exact .beginRecover operation _
  case h_5 =>
    refine .moved _ ?_ ⟨rfl, rfl, rfl, rfl⟩
    rw [current]
    split <;> exact ⟨by simp, .inl rfl⟩
  case h_9 =>
    split
    · refine .moved _ ?_ ⟨rfl, rfl, rfl, rfl⟩
      rw [current]
      exact ⟨by simp, .inl rfl⟩
    next failed =>
      refine .moved _ ?_ ⟨rfl, rfl, rfl, rfl⟩
      rw [current]
      exact ⟨by simp, .inr ⟨_, Int.neg_ne_zero.mpr failed, .inl rfl⟩⟩
  case h_10 operation =>
    obtain ⟨pc, onward, moves⟩ := enterStep_moves state process outcome operation
    refine .moved pc ?_ moves
    rw [current]
    exact onward
  case h_14 =>
    exact .served current
  case h_15 =>
    refine .moved _ ?_ ⟨rfl, rfl, rfl, rfl⟩
    rw [current]
    split
    · exact ⟨by simp, .inr ⟨_, by decide, .inl rfl⟩⟩
    · exact ⟨by simp, .inl rfl⟩
  case h_24 =>
    exact .committed current
  case h_25 | h_29 =>
    refine .moved _ ?_ ⟨rfl, rfl, rfl, rfl⟩
    rw [current]
    rfl
  case h_26 =>
    split at stepped <;> cases stepped
    next possible =>
      refine .moved _ ?_ ⟨rfl, rfl, rfl, rfl⟩
      rw [current]
      exact ⟨_, rfl, possible.imp Int.neg_eq_zero.mpr (congrArg Neg.neg)⟩
  case h_27 lastVersion =>
    obtain ⟨_, _, rfl⟩ := Option.map_eq_some_iff.mp stepped
    refine .moved _ ?_ ⟨rfl, rfl, rfl, rfl⟩
    rw [current]
    exact .beginRecover (.wait lastVersion) _
  all_goals
    refine .moved _ ?_ ⟨rfl, rfl, rfl, rfl⟩
    rw [current]
    exact ⟨by simp, .inl rfl⟩

theorem effect_of_step (stepped : step state action = some next) : Effect state action next := by
  cases action with
  | call process operation =>
    simp only [step] at stepped
    split at stepped <;> cases stepped
    next current => exact .called current
  | advance process outcome => exact effect_of_processStep stepped
  | finish process =>
    simp only [step] at stepped
    split at stepped <;> cases stepped
    next current => exact .finished current
  | crash process =>
    cases stepped
    exact .crashed

/-- Every step commits nothing or is the commit of one `Set`. -/
theorem step_committed (stepped : step state action = some next) :
    (next.committed = state.committed ∧
      ∀ process, next.own process = state.own process ∨
        ∃ operation, action = .call process operation ∧ next.own process = []) ∨
      ∃ process outcome value, action = .advance process outcome ∧
        state.processes process = .commit value ∧
        next.committed = state.committed ++ [value] ∧
        next.own = update state.own process (state.own process ++ [value]) := by
  cases effect_of_step stepped with
  | @called caller operation =>
    refine .inl ⟨rfl, fun process => ?_⟩
    by_cases same : process = caller
    · rw [same]
      exact .inr ⟨operation, rfl, update_self ..⟩
    · exact .inl (update_of_ne same ..)
  | finished | crashed | served => exact .inl ⟨rfl, fun _ => .inl rfl⟩
  | moved pc leads moves => exact .inl ⟨moves.committed, fun _ => .inl (by rw [moves.own])⟩
  | committed current => exact .inr ⟨_, _, _, rfl, current, rfl, rfl⟩

/-- With the same commits a sound storage shows the same value and version. -/
theorem Sound.visible_eq {size : Nat} {storage after : Storage size}
    {committed : List (Payload size)} (before : Sound storage committed)
    (now : Sound after committed) :
    after.visibleVersion = storage.visibleVersion ∧ after.visibleValue = storage.visibleValue := by
  have version : after.visibleVersion = storage.visibleVersion := by
    have := before.number
    have := now.number
    omega
  have value := now.value
  rw [version, before.value] at value
  exact ⟨version, (Option.some.inj value).symm⟩

/-- One more commit shows the new value under the next version. -/
theorem Sound.visible_append {size : Nat} {storage after : Storage size}
    {committed : List (Payload size)} {value : Payload size} (before : Sound storage committed)
    (now : Sound after (committed ++ [value])) :
    after.visibleVersion = storage.visibleVersion + 1 ∧ after.visibleValue = value := by
  have old := before.number
  have new := now.number
  rw [length_append, length_singleton] at new
  have version : after.visibleVersion = committed.length := by omega
  have shown := now.value
  rw [version, getElem?_concat_length] at shown
  exact ⟨by omega, (Option.some.inj shown).symm⟩

/-- The initial value stays the zeroth commit. -/
theorem committed_initial {state : State layout ι}
    (reachable : (system layout ι initial).Reachable state) :
    state.committed[0]? = some initial := by
  have preserves : (system layout ι initial).Preserves
      fun state => state.committed[0]? = some initial := by
    intro state action next stepped holds
    rcases step_committed stepped with ⟨same, _⟩ | ⟨_, _, value, _, _, grown, _⟩
    · rw [same]
      exact holds
    · rw [grown, List.getElem?_append_left (List.getElem?_eq_some_iff.mp holds).1]
      exact holds
  refine reachable.invariant (fun state fresh => ?_) preserves
  rw [fresh.committed]
  rfl

/-! ## Returned values are recorded -/

/-- A process that has returned a value has it in the record. -/
def Recorded (state : State layout ι) : Prop :=
  ∀ process value version, state.processes process = .done (.value value version) →
    (value, version) ∈ state.returned

/-- A process moves to a new control state; the record only grows. -/
theorem Recorded.goto {state : State layout ι} (recorded : Recorded state)
    {next : State layout ι} {pc : Pc layout.size ι}
    (processes : next.processes = update state.processes process pc)
    (returned : state.returned <+: next.returned)
    (new : ∀ value version, pc = .done (.value value version) →
      (value, version) ∈ next.returned) : Recorded next := by
  intro other value version current
  rw [processes, update_apply] at current
  split at current
  · exact new value version current
  · exact returned.subset (recorded other value version current)

omit [DecidableEq ι] in
/-- No step but the one that records a value returns it. -/
theorem Pc.Leads.ne_value {size : Nat} {before after : Pc size ι} (leads : after.Leads before)
    (value : Payload size) (version : Nat) : after ≠ .done (.value value version) := by
  cases before with
  | idle | done | crashed => exact leads.elim
  | unlock | unlockSet =>
    rw [show after = _ from leads]
    simp
  | broadcast =>
    obtain ⟨code, rfl, _⟩ := leads
    simp
  | _ => exact leads.1 value version

theorem Recorded.of_reachable {state : State layout ι}
    (reachable : (system layout ι initial).Reachable state) : Recorded state := by
  refine reachable.invariant ?_ ?_
  · intro state fresh process value version current
    rw [fresh.processes] at current
    cases current
  · intro state action next stepped recorded
    cases effect_of_step stepped with
    | called | finished | crashed | committed =>
      exact recorded.goto rfl prefix_rfl (by simp)
    | moved pc leads moves =>
      refine recorded.goto moves.processes (moves.returned ▸ prefix_rfl) ?_
      exact fun value version same => absurd same (leads.ne_value value version)
    | served =>
      refine recorded.goto rfl (prefix_append _ _) ?_
      rintro _ _ ⟨⟩
      simp [State.serve, State.goto]

/-! ## One call of `Set` -/

/-- What a process has committed in its call of `Set`, at each point of it. -/
def Phase {size : Nat} (value : Payload size) (own : List (Payload size)) : Pc size ι → Prop
  | .unlock code => code ≠ 0 ∧ own = []
  | .unlockSet | .broadcast => own = [value]
  | .done (.code code) =>
    own = [] ∧ code ≠ 0 ∨ own = [value] ∧ (code = 0 ∨ code = -Errno.einval)
  | .crashed => own = [] ∨ own = [value]
  | pc => pc.pending = some value ∧ own = []

/-- Control states after the commit of a call. -/
def Pc.Committed {size : Nat} : Pc size ι → Prop
  | .unlockSet | .broadcast | .crashed => True
  | .done (.code code) => code = 0 ∨ code = -Errno.einval
  | _ => False

omit [DecidableEq ι] in
theorem Phase.of_pending {size : Nat} {value : Payload size} {pc : Pc size ι}
    (pending : pc.pending = some value) : Phase value [] pc := by
  cases pc with
  | unlock | unlockSet | broadcast | done | crashed => cases pending
  | _ => exact ⟨pending, rfl⟩

omit [DecidableEq ι] in
theorem Phase.crashed {size : Nat} {value : Payload size} {own : List (Payload size)}
    {pc : Pc size ι} (phase : Phase value own pc) : Phase value own (.crashed : Pc size ι) := by
  cases pc with
  | unlockSet | broadcast => exact .inr phase
  | crashed => exact phase
  | done outcome =>
    cases outcome with
    | code => exact phase.imp And.left And.left
    | value => exact .inl phase.2
  | _ => exact .inl phase.2

omit [DecidableEq ι] in
theorem Phase.leads {size : Nat} {value : Payload size} {own : List (Payload size)}
    {before after : Pc size ι} (phase : Phase value own before) (leads : after.Leads before) :
    Phase value own after := by
  cases before with
  | idle | done | crashed => exact leads.elim
  | unlock code =>
    rw [show after = _ from leads]
    exact .inl phase.symm
  | unlockSet =>
    rw [show after = _ from leads]
    exact phase
  | broadcast =>
    obtain ⟨code, rfl, possible⟩ := leads
    exact .inr ⟨phase, possible⟩
  | _ =>
    obtain ⟨pending, rfl⟩ := phase
    rcases leads.2 with same | ⟨code, failed, rfl | rfl⟩
    · exact .of_pending (same.trans pending)
    · exact ⟨failed, rfl⟩
    · exact .inl ⟨rfl, failed⟩

omit [DecidableEq ι] in
theorem Pc.Committed.leads {size : Nat} {before after : Pc size ι} (committed : before.Committed)
    (leads : after.Leads before) : after.Committed := by
  cases before with
  | unlockSet =>
    rw [show after = _ from leads]
    trivial
  | broadcast =>
    obtain ⟨code, rfl, possible⟩ := leads
    exact possible
  | idle | done | crashed => exact leads.elim
  | _ => exact committed.elim

/-- A property of a process inside its call that every step of the call keeps holds to the
end of the call. -/
theorem follow_call {start finish : State layout ι} {actions : List (Action layout ι)}
    (property : List (Payload layout.size) → Pc layout.size ι → Prop)
    (idle : ∀ own, ¬property own .idle)
    (leads : ∀ own before after, property own before → after.Leads before → property own after)
    (commit : ∀ own value, property own (.commit value) → property (own ++ [value]) .unlockSet)
    (serve : ∀ own buffer version, ¬property own (.unlockValue buffer version))
    (crash : ∀ own pc, property own pc → property own .crashed)
    (run : (system layout ι initial).Run start actions finish) (inside : .finish process ∉ actions)
    (holds : property (start.own process) (start.processes process)) :
    property (finish.own process) (finish.processes process) := by
  induction run with
  | nil => exact holds
  | @snoc middle finish actions action _ stepped ih =>
    simp only [mem_append, mem_singleton, not_or] at inside
    have before := ih inside.1
    -- a step of another process leaves this one alone
    have others {other : ι} {pc : Pc layout.size ι} (distinct : process ≠ other)
        (processes : finish.processes = update middle.processes other pc)
        (own : finish.own process = middle.own process) :
        property (finish.own process) (finish.processes process) := by
      rw [own, processes, update_of_ne distinct]
      exact before
    cases effect_of_step stepped with
    | @called other operation current =>
      by_cases same : process = other
      · rw [same, current] at before
        exact absurd before (idle _)
      · exact others same rfl (update_of_ne same ..)
    | @finished other =>
      by_cases same : process = other
      · exact absurd (congrArg Action.finish same) inside.2
      · exact others same rfl rfl
    | @crashed other =>
      by_cases same : process = other
      · subst same
        rw [State.goto_self]
        exact crash _ _ before
      · exact others same rfl rfl
    | @moved other outcome _ pc moved moves =>
      by_cases same : process = other
      · subst same
        rw [moves.processes, moves.own, update_self]
        exact leads _ _ _ before moved
      · exact others same moves.processes (by rw [moves.own])
    | @committed other outcome value current =>
      by_cases same : process = other
      · subst same
        rw [current] at before
        simp only [State.commit, State.goto, update_self]
        exact commit _ value before
      · exact others same rfl (update_of_ne same ..)
    | @served other outcome buffer version current =>
      by_cases same : process = other
      · rw [same, current] at before
        exact absurd before (serve _ _ _)
      · exact others same rfl rfl

section

variable {last : State layout ι} {actions : List (Action layout ι)} {value : Payload layout.size}
  (run : (system layout ι initial).Run next actions last) (inside : .finish process ∉ actions)
include run inside

theorem Phase.of_call (stepped : step state (.call process (.set value)) = some next) :
    Phase value (last.own process) (last.processes process) := by
  refine follow_call (Phase value) (by simp [Phase, Pc.pending]) (fun _ _ _ => Phase.leads) ?_
    (by simp [Phase, Pc.pending]) (fun _ _ => Phase.crashed) run inside ?_
  · rintro own other ⟨⟨⟩, rfl⟩
    rfl
  · cases effect_of_step stepped
    simp only [State.goto, update_self]
    exact ⟨rfl, rfl⟩

theorem Pc.Committed.of_commit (commits : state.commit process value = next) :
    (last.processes process).Committed := by
  refine follow_call (fun _ pc => pc.Committed) (fun _ => id) (fun _ _ _ => Pc.Committed.leads)
    (fun _ _ => False.elim) (fun _ _ _ => id) (fun _ _ _ => trivial) run inside ?_
  rw [← commits, State.commit, State.goto_self]
  trivial

end

/-! ## Crash atomicity -/

/-- **Parameter transactions are crash-atomic.**  Every value that `Get` or `Wait`
returns is the commit of the version returned with it, and returned versions
never go back.  A step, a crash included, leaves the visible value and version
alone or is the commit of one whole `Set`, which raises the version by one.  A
`Set` that returns `0` has committed its own value and nothing else.  A call that
returns `-EOVERFLOW` or `-EPROTO` changes nothing with any of its steps. -/
theorem parameter_crash_atomic {initial : Payload layout.size} {state : State layout ι}
    (reachable : (system layout ι initial).Reachable state) :
    state.committed[0]? = some initial ∧
    (∀ process value version, state.processes process = .done (.value value version) →
      (value, version) ∈ state.returned) ∧
    (∀ value version, (value, version) ∈ state.returned →
      state.committed[version]? = some value) ∧
    (state.returned.Pairwise fun earlier later => earlier.2 ≤ later.2) ∧
    (∀ action next, step state action = some next →
      (next.committed = state.committed ∧
        (∀ process, next.own process = state.own process ∨
          ∃ operation, action = .call process operation ∧ next.own process = []) ∧
        next.storage.visibleVersion = state.storage.visibleVersion ∧
        next.storage.visibleValue = state.storage.visibleValue) ∨
      ∃ process outcome value, action = .advance process outcome ∧
        state.processes process = .commit value ∧
        next.committed = state.committed ++ [value] ∧
        next.own = update state.own process (state.own process ++ [value]) ∧
        next.storage.visibleVersion = state.storage.visibleVersion + 1 ∧
        next.storage.visibleValue = value) ∧
    (∀ process value next actions last code,
      step state (.call process (.set value)) = some next →
      (system layout ι initial).Run next actions last → .finish process ∉ actions →
      last.processes process = .done (.code code) →
        (code = 0 → last.own process = [value]) ∧
        (code ≠ 0 → code ≠ -Errno.einval → last.own process = [])) ∧
    (∀ process outcome next actions last code,
      step state (.advance process outcome) = some next →
      (system layout ι initial).Run next actions last → .finish process ∉ actions →
      last.processes process = .done (.code code) →
      code = -Errno.eoverflow ∨ code = -Errno.eproto →
        next.committed = state.committed ∧
        next.storage.visibleVersion = state.storage.visibleVersion ∧
        next.storage.visibleValue = state.storage.visibleValue) := by
  have invariant := Invariant.of_reachable reachable
  have unchanged : ∀ {action next}, step state action = some next →
      next.committed = state.committed →
        next.storage.visibleVersion = state.storage.visibleVersion ∧
        next.storage.visibleValue = state.storage.visibleValue := by
    intro action next stepped same
    have sound := (invariant.step stepped).sound
    rw [same] at sound
    exact invariant.sound.visible_eq sound
  refine ⟨committed_initial reachable, Recorded.of_reachable reachable,
    fun value version => invariant.served (value, version), invariant.ordered, ?_, ?_, ?_⟩
  · intro action next stepped
    rcases step_committed stepped with
      ⟨same, own⟩ | ⟨process, outcome, value, rfl, current, grown, own⟩
    · exact .inl ⟨same, own, unchanged stepped same⟩
    · have sound := (invariant.step stepped).sound
      rw [grown] at sound
      exact .inr ⟨process, outcome, value, rfl, current, grown, own,
        invariant.sound.visible_append sound⟩
  · intro process value next actions last code stepped run inside returned
    have phase := Phase.of_call run inside stepped
    rw [returned] at phase
    rcases phase with ⟨own, failed⟩ | ⟨own, possible⟩
    · exact ⟨fun zero => absurd zero failed, fun _ _ => own⟩
    · refine ⟨fun _ => own, fun nonzero other => ?_⟩
      exact absurd possible (not_or.mpr ⟨nonzero, other⟩)
  · intro process outcome next actions last code stepped run inside returned failed
    suffices same : next.committed = state.committed from ⟨same, unchanged stepped same⟩
    cases effect_of_step stepped with
    | moved pc leads moves => exact moves.committed
    | served => rfl
    | committed current =>
      -- after its commit a call returns another code
      have settled := Pc.Committed.of_commit run inside rfl
      rw [returned] at settled
      rcases failed with rfl | rfl <;> rcases settled with zero | einval <;> contradiction

/-- Two-byte parameters. -/
def pairLayout : Layout where
  size := 2
  order := finRange 2
  order_covers := mem_finRange

/-- A parameter created with zero bytes. -/
def created : State pairLayout Bool where
  storage := ⟨0, 0, 0, 0, 0, fun _ _ => 0⟩
  mutex := .free
  processes _ := .idle
  stopped _ := false
  committed := [fun _ => 0]
  returned := []
  own _ := []

def storedPair : Payload 2
  | 0 => 7
  | 1 => 9

/-- A `Set` from its call to its return. -/
def setPair : List (Action pairLayout Bool) :=
  .call false (.set storedPair) :: replicate 15 (.advance false 0)

def stored : State pairLayout Bool := (setPair.foldlM step created).get rfl

/-- The same process dies in the middle of copying its next value; another one reads. -/
def crashThenGet : List (Action pairLayout Bool) :=
  [.finish false, .call false (.set fun _ => 3)] ++ replicate 8 (.advance false 0) ++
    [.crash false, .call true .get] ++ replicate 12 (.advance true 0)

theorem parameter_crash_atomic_pair :
    ∃ (read : State pairLayout Bool) (value : Payload 2),
      (system pairLayout Bool fun _ => 0).Run created setPair stored ∧
      stored.processes false = .done (.code 0) ∧ stored.own false = [storedPair] ∧
      (system pairLayout Bool fun _ => 0).Run stored crashThenGet read ∧
      read.processes false = .crashed ∧ read.processes true = .done (.value value 1) ∧
      value 0 = 7 ∧ value 1 = 9 ∧ read.committed[1]? = some value := by
  have start : (system pairLayout Bool fun _ => 0).Reachable created :=
    .of_initial ⟨rfl, rfl, rfl, rfl, rfl, fun _ => rfl, fun _ => rfl, rfl, rfl⟩
  have set : (system pairLayout Bool fun _ => 0).Run created setPair stored :=
    .of_foldlM (fun _ _ _ computed => computed) rfl
  have get : (system pairLayout Bool fun _ => 0).Run stored crashThenGet _ :=
    .of_foldlM (fun _ _ _ computed => computed) rfl
  obtain ⟨_, _, _, _, _, stores, _⟩ := parameter_crash_atomic start
  obtain ⟨committed, _⟩ := stores false storedPair _ (replicate 15 (.advance false 0)) _ 0 rfl
    (.of_foldlM (fun _ _ _ computed => computed) rfl) (by simp) rfl
  obtain ⟨_, recorded, served, _⟩ := parameter_crash_atomic ((start.run set).run get)
  exact ⟨_, _, set, rfl, committed rfl, get, rfl, rfl, rfl, rfl,
    served _ _ (recorded true _ _ rfl)⟩

end Kcf.Ipc.Parameter
