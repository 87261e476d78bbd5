import Kcf.Supervisor.Steps

/-!
# Generations

How the children of a generation are started, watched and stopped.  A child is started only
when those of all earlier generations have been collected, and an element gives up its child
only after that child was collected.
-/

namespace Kcf.Supervisor

open Kcf.Program List

variable {exempt : Option (Nat × Nat)} {world : World}

/-! ## Adoption -/

/-- Whether the elements are started and whether they have failed. -/
def Bringup.flags (own : Bringup) : List (Bool × Bool) :=
  own.marks.map fun mark => (mark.1, mark.2.1)

theorem flags_of_marks {own other : Bringup} (same : other.marks = own.marks) :
    other.flags = own.flags := by
  unfold Bringup.flags
  rw [same]

theorem failures_of_flags {own other : Bringup} (same : other.flags = own.flags) :
    other.marks.map (·.2.1) = own.marks.map (·.2.1) := by
  have failures := congrArg (map Prod.snd) same
  simp only [Bringup.flags, map_map] at failures
  exact failures

/-- What the start of one child changes. -/
structure Begun (i : Nat) (world next : World) : Prop extends Lasting world next where
  generation : next.own.generation = world.own.generation
  forks : ∀ j g, .forked j g ∈ next.trace →
    .forked j g ∈ world.trace ∨ j = i ∧ g = world.own.generation
  state : next.own.state = world.own.state
  valid : next.own.error.valid = world.own.error.valid
  flags : next.own.flags = world.own.flags

theorem Tended.begun {next : World} (tended : Tended world next) (i : Nat) :
    Begun i world next where
  __ := tended
  forks := fun j g forked => .inl (tended.forks j g forked)
  flags := flags_of_marks tended.marks

theorem Begun.trans {i : Nat} {first second third : World} (before : Begun i first second)
    (after : Begun i second third) : Begun i first third where
  toLasting := before.toLasting.trans after.toLasting
  generation := after.generation.trans before.generation
  forks := by
    intro j g forked
    rcases after.forks j g forked with old | new
    · exact before.forks j g old
    · exact .inr (before.generation ▸ new)
  state := after.state.trans before.state
  valid := after.valid.trans before.valid
  flags := after.flags.trans before.flags

/-- The state machine only needs to know which elements have failed. -/
theorem Orderly.remark {state : ApplicationState} {valid : Bool}
    {marks marks' : List (Bool × Bool × Nat)} {gate : Gate} {requested : Prop} {polls : Nat}
    {trace : List Event} (orderly : Orderly state valid marks gate requested polls trace)
    (same : marks'.map (·.2.1) = marks.map (·.2.1)) :
    Orderly state valid marks' gate requested polls trace := by
  refine { orderly with quiet := fun invalid mark member => ?_ }
  have failed : mark.2.1 ∈ marks'.map (·.2.1) := mem_map_of_mem member
  rw [same] at failed
  obtain ⟨old, member, failed⟩ := mem_map.mp failed
  rw [← failed]
  exact orderly.quiet invalid old member

section

variable {elements : List ManagedElement} {generation i : Nat} {trace : List Event}
  {entry : ManagedElement}

/-- A new child is in nobody's charge yet. -/
theorem Custody.fork {pid : Int32} (custody : Custody none elements generation trace)
    (found : elements[i]? = some entry) (unstarted : entry.started = false)
    (fresh : .forked i generation ∉ trace) :
    Custody (some (i, generation))
      (elements.modify i fun entry =>
        { entry with process := entry.process.adopt pid, child := generation })
      generation (trace ++ [.forked i generation]) := by
  have about {j g : Nat} (member : .forked j g ∈ trace ++ [.forked i generation]) :
      .forked j g ∈ trace ∨ (i, generation) = (j, g) := by
    refine (Data.mem_snoc member).imp_right fun new => ?_
    cases new
    rfl
  have uncollected : .collected i generation ∉ trace :=
    fun collected => fresh (custody.known i generation (.inl collected))
  have unlost : .lost i generation ∉ trace :=
    fun lost => fresh (custody.known i generation (.inr lost))
  constructor
  case care => exact custody.care.snoc trivial
  case young =>
    intro j g forked
    rcases about forked with old | new
    · exact custody.young j g old
    · cases new
      exact Nat.le_refl _
  case known =>
    rintro j g (collected | lost)
    · exact mem_append_left _ (custody.known j g (.inl (by simpa using collected)))
    · exact mem_append_left _ (custody.known j g (.inr (by simpa using lost)))
  case kept =>
    intro j g forked
    rcases about forked with old | new
    · rcases custody.kept j g old with reaped | none | ⟨owner, lookup, started, child⟩
      · exact .inl (reaped.imp (mem_append_left _) (mem_append_left _))
      · cases none
      · have elsewhere : i ≠ j := by
          rintro rfl
          cases found.symm.trans lookup
          cases unstarted.symm.trans started
        exact .inr (.inr ⟨owner, by simp [elsewhere, lookup], started, child⟩)
    · exact .inr (.inl (congrArg some new))
  case owned =>
    intro j new lookup alive
    rcases modify_cases lookup with ⟨rfl, old, _, rfl⟩ | ⟨elsewhere, lookup⟩
    · refine ⟨by simp, ?_, ?_⟩
      · simpa using uncollected
      · simpa using unlost
    · obtain ⟨forked, uncollected, unlost⟩ := custody.owned j new lookup alive
      refine ⟨mem_append_left _ forked, ?_, ?_⟩
      · simpa using uncollected
      · simpa using unlost
  case ended =>
    intro j new lookup exited
    rcases modify_cases lookup with ⟨rfl, old, _, rfl⟩ | ⟨elsewhere, lookup⟩
    · cases exited
    · exact mem_append_left _ (custody.ended j new lookup exited)

/-- The new child is taken into charge. -/
theorem Custody.release (custody : Custody (some (i, generation)) elements generation trace)
    (kept : Reaped trace i generation ∨
      ∃ entry, elements[i]? = some entry ∧ entry.started = true ∧ entry.child = generation) :
    Custody none elements generation trace := by
  refine { custody with kept := fun j g forked => ?_ }
  rcases custody.kept j g forked with reaped | new | owner
  · exact .inl reaped
  · cases new
    exact kept.imp_right .inr
  · exact .inr (.inr owner)

end

variable {i : Nat} {next first second third : World}
  {post : Int32 → World → Prop} {rest : List Nat}

theorem Sound.adopt {entry : ManagedElement} (sound : Sound none world)
    (found : world.own.elements[i]? = some entry) (unstarted : entry.started = false)
    (fresh : .forked i world.own.generation ∉ world.trace) (pid : Int32) :
    Sound (some (i, world.own.generation)) (world.adopt i pid) ∧
      Begun i world (world.adopt i pid) := by
  have flags : (world.adopt i pid).own.flags = world.own.flags := by
    unfold Bringup.flags Bringup.marks
    rw [map_map, map_map]
    exact map_modify _ fun _ _ => rfl
  refine ⟨⟨⟨?_, sound.custody.fork found unstarted fresh⟩, sound.settled, sound.fits⟩, ?_⟩
  · exact (sound.orderly.custody rfl).remark (failures_of_flags flags)
  · refine ⟨⟨id, id, subset_append_left _ _⟩, rfl, fun j g forked => ?_, rfl, rfl, flags⟩
    refine (Data.mem_snoc forked).imp_right fun new => ?_
    cases new
    exact ⟨rfl, rfl⟩

/-- The last child of an element. -/
def World.Child (world : World) (i g : Nat) : Prop :=
  ∃ entry, world.own.elements[i]? = some entry ∧ entry.child = g

theorem Tended.child {i g : Nat} (tended : Tended world next)
    (child : world.Child i g) : next.Child i g := by
  obtain ⟨entry, found, child⟩ := child
  obtain ⟨new, found, mark⟩ := exists_of_map_eq tended.marks.symm found
  simp only [ManagedElement.mark, Prod.mk.injEq] at mark
  exact ⟨new, found, mark.2.2.trans child⟩

theorem Sound.release (sound : Sound (some (i, world.own.generation)) world)
    (reaped : Reaped world.trace i world.own.generation) : Sound none world :=
  ⟨⟨sound.orderly, sound.custody.release (.inl reaped)⟩, sound.settled, sound.fits⟩

theorem wp_abandon {stop : Bool} {post : Unit → World → Prop}
    (sound : Sound (some (i, world.own.generation)) world)
    (child : world.Child i world.own.generation)
    (next : ∀ later, Sound none later → Tended world later → post () later) :
    wp Decent (abandon i stop) post world := by
  suffices rest : ∀ first, Sound (some (i, world.own.generation)) first → Tended world first →
      wp Decent (do
        let _ ← waitProcess i
        let entry ← element i
        if entry.process.exited = false then emit (.unreaped i entry.child)) post first by
    refine wp_ite (fun _ => wp_bind ?_) (fun _ => rest world sound (.refl world))
    exact sound.follow keeps_stopProcess fun _ => rest
  intro first sound tended
  refine wp_bind (sound.follow keeps_waitProcess fun _ second sound tended' => ?_)
  have tended := tended.trans tended'
  refine wp_bind (wp_element sound.decent fun entry found => ?_)
  obtain ⟨same, lookup, child⟩ := tended.child child
  cases found.symm.trans lookup
  rw [← tended.generation] at sound child
  refine wp_ite (fun _ => wp_emit ?_) (fun exited => wp_pure ?_)
  · have allowed : Care second.trace (.unreaped i entry.child) := trivial
    obtain ⟨sound, tended'⟩ := sound.note rfl rfl allowed
    refine next _ (sound.release (.inr ?_)) (tended.trans tended')
    rw [← child]
    exact mem_append_right _ (mem_singleton_self _)
  · refine next _ (sound.release (.inl ?_)) tended
    rw [← child]
    exact sound.custody.ended i entry found (eq_true_of_ne_false exited)

/-- An element that is not started. -/
def World.Idle (world : World) (i : Nat) : Prop :=
  ∀ flag, world.own.flags[i]? = some flag → flag.1 = false

theorem World.Idle.entry {entry : ManagedElement} (idle : world.Idle i)
    (found : world.own.elements[i]? = some entry) : entry.started = false := by
  refine idle (entry.started, entry.failureDetected) ?_
  simp [Bringup.flags, Bringup.marks, ManagedElement.mark, found]

theorem Begun.length (begun : Begun i world next) :
    next.own.elements.length = world.own.elements.length := by
  have lengths := congrArg List.length begun.flags
  simpa only [Bringup.flags, Bringup.marks, List.length_map] using lengths

theorem Begun.idle {i j : Nat} (begun : Begun i world next) (idle : world.Idle j) :
    next.Idle j := by
  unfold World.Idle
  rw [begun.flags]
  exact idle

section

variable (sound : Sound none world) (present : i < world.own.elements.length)
  (idle : world.Idle i) (fresh : .forked i world.own.generation ∉ world.trace)
  (fails : ∀ code later, code ≠ 0 → Sound none later → Begun i world later → post code later)
  (succeeds : ∀ later, Sound (some (i, world.own.generation)) later → Begun i world later →
    later.Child i world.own.generation → post 0 later)
include sound present idle fresh fails succeeds

theorem wp_launchProcess : wp Decent (launchProcess i) post world := by
  refine wp_bind (wp_ask_sound sound fun launch first sound tended own => ?_)
  rw [← own] at present
  have found := getElem?_eq_getElem present
  rw [← tended.generation] at succeeds
  have fresh : .forked i first.own.generation ∉ first.trace := by
    rw [tended.generation]
    exact fun forked => fresh (tended.forks _ _ forked)
  have begun := tended.begun i
  have adopted := sound.adopt found ((begun.idle idle).entry found) fresh
  have child (pid : Int32) : (first.adopt i pid).Child i first.own.generation := by
    simp [World.Child, World.adopt, found]
  cases launch with
  | refused error => exact wp_pure (fails _ _ (Int32.ne_of_lt error.2) sound begun)
  | threw => exact wp_pure (fails _ _ (by decide) sound begun)
  | started pid =>
    obtain ⟨sound, begun'⟩ := adopted pid
    exact wp_bind (wp_modify (wp_pure (succeeds _ sound (begun.trans begun') (child pid))))
  | failed pid stop error =>
    obtain ⟨sound, begun'⟩ := adopted pid
    refine wp_bind (wp_modify (wp_bind (wp_abandon sound (child pid) fun later sound tended => ?_)))
    exact wp_pure (fails _ _ (Int32.ne_of_lt error.2) sound
      ((begun.trans begun').trans (tended.begun i)))

theorem wp_startProcess (alone : Care world.trace (.start i world.own.generation)) :
    wp Decent (startProcess i) post world := by
  obtain ⟨sound, tended⟩ := sound.note rfl rfl alone
  refine wp_bind (wp_getOwn (wp_bind (wp_emit ?_)))
  suffices rest : ∀ first, Sound none first → Tended world first →
      wp Decent (launchProcess i) post first by
    refine wp_bind (wp_element sound.decent fun entry found => ?_)
    refine wp_ite (fun pid => ?_) (fun _ => rest _ sound tended)
    refine wp_bind (wp_collectExit sound found pid fun code first sound tended' _ => ?_)
    have tended := tended.trans tended'
    refine wp_ite (fun ended => wp_pure ?_) (fun _ => rest first sound tended)
    refine fails _ first ?_ sound (tended.begun i)
    split
    · decide
    · assumption
  intro first sound tended
  have begun := tended.begun i
  rw [← tended.generation] at succeeds
  refine wp_launchProcess sound ?_ (begun.idle idle) ?_ ?_ ?_
  · rwa [begun.length]
  · rw [tended.generation]
    exact fun forked => fresh (tended.forks _ _ forked)
  · exact fun code later failed sound begun' => fails code later failed sound (begun.trans begun')
  · exact fun later sound begun' child => succeeds later sound (begun.trans begun') child

end

/-! ## Start -/

/-- The outcome of bringing up the children: unless it succeeds or a shutdown is requested,
an error is latched. -/
structure Attempted (code : Int32) (world next : World) : Prop extends Lasting world next where
  failed : code ≠ 0 → next.Requested ∨ next.own.error.valid = true
  latched : world.own.error.valid = true → next.own.error.valid = true
  state : next.own.state = world.own.state ∨
    next.own.state = .error ∧ world.own.error.valid = false ∧
      (world.own.state = .initializing ∨ world.own.state = .running)
  done : code = 0 → next.own.state = world.own.state ∧
    next.own.error.valid = world.own.error.valid ∧
    next.own.marks.map (·.2.1) = world.own.marks.map (·.2.1)

theorem Attempted.trans {code : Int32}
    (before : Attempted 0 first second) (after : Attempted code second third) :
    Attempted code first third := by
  obtain ⟨state, valid, failures⟩ := before.done rfl
  refine ⟨before.toLasting.trans after.toLasting, after.failed, after.latched ∘ before.latched,
    ?_, ?_⟩
  · have kept := after.state
    rw [state, valid] at kept
    exact kept
  · intro succeeded
    obtain ⟨state', valid', failures'⟩ := after.done succeeded
    exact ⟨state'.trans state, valid'.trans valid, failures'.trans failures⟩

theorem Attempted.of_flags (lasting : Lasting world next) (state : next.own.state = world.own.state)
    (valid : next.own.error.valid = world.own.error.valid)
    (failures : next.own.marks.map (·.2.1) = world.own.marks.map (·.2.1)) :
    Attempted 0 world next :=
  ⟨lasting, fun failed => absurd rfl failed, valid.trans, .inl state,
    fun _ => ⟨state, valid, failures⟩⟩

theorem Begun.attempted (begun : Begun i world next) : Attempted 0 world next :=
  .of_flags begun.toLasting begun.state begun.valid (failures_of_flags begun.flags)

theorem Tended.attempted (tended : Tended world next) : Attempted 0 world next :=
  (tended.begun 0).attempted

theorem Noted.attempted {code : Int32} (noted : Noted world next)
    (failed : code ≠ 0) : Attempted code world next :=
  { noted with
    failed := fun _ => noted.effective
    done := fun succeeded => absurd succeeded failed }

/-- An element has started its child. -/
theorem Sound.launch (sound : Sound (some (i, world.own.generation)) world)
    (child : world.Child i world.own.generation) (now : Nat) :
    let next : World :=
      { world with
        own :=
          { world.own with
            elements := world.own.elements.modify i fun entry => entry.launched now } }
    Sound none next ∧ Attempted 0 world next := by
  obtain ⟨entry, found, child⟩ := child
  have failures : ((world.own.elements.modify i fun entry => entry.launched now).map
      ManagedElement.mark).map (·.2.1) = world.own.marks.map (·.2.1) := by
    unfold Bringup.marks
    rw [map_map, map_map]
    exact map_modify _ fun _ _ => rfl
  have custody : Custody (some (i, world.own.generation))
      (world.own.elements.modify i fun entry => entry.launched now) world.own.generation
      world.trace := by
    refine sound.custody.regard (map_modify _ fun _ _ => rfl) fun j old lookup started => .inr ?_
    by_cases here : i = j
    · subst here
      exact ⟨old.launched now, by simp [lookup], rfl, rfl⟩
    · exact ⟨old, by simp [here, lookup], started, rfl⟩
  have owner : ∃ new, (world.own.elements.modify i fun entry => entry.launched now)[i]? = some new ∧
      new.started = true ∧ new.child = world.own.generation :=
    ⟨entry.launched now, by simp [found], rfl, child⟩
  exact ⟨⟨⟨sound.orderly.remark failures, custody.release (.inr owner)⟩, sound.settled,
    sound.fits⟩, .of_flags ⟨id, id, Subset.refl _⟩ rfl rfl failures⟩

/-- The elements of a generation that are still to be started. -/
structure Awaiting (rest : List Nat) (world : World) : Prop where
  unique : rest.Nodup
  present : ∀ i ∈ rest, i < world.own.elements.length
  idle : ∀ i ∈ rest, world.Idle i
  fresh : ∀ i ∈ rest, .forked i world.own.generation ∉ world.trace
  alone : ∀ i g, .forked i g ∈ world.trace → g < world.own.generation → Reaped world.trace i g

theorem Awaiting.begun (awaiting : Awaiting rest world) (begun : Begun i world next)
    (other : i ∈ rest → ∀ g, .forked i g ∈ next.trace → .forked i g ∈ world.trace) :
    Awaiting rest next where
  unique := awaiting.unique
  present := begun.length ▸ awaiting.present
  idle := fun j member => begun.idle (awaiting.idle j member)
  fresh := by
    intro j member forked
    rw [begun.generation] at forked
    rcases begun.forks j _ forked with old | ⟨rfl, _⟩
    · exact awaiting.fresh j member old
    · exact awaiting.fresh j member (other member _ forked)
  alone := by
    intro j g forked earlier
    rw [begun.generation] at earlier
    rcases begun.forks j g forked with old | ⟨_, rfl⟩
    · exact (awaiting.alone j g old earlier).imp (@begun.grows _) (@begun.grows _)
    · exact absurd earlier (Nat.lt_irrefl _)

theorem Awaiting.tail (awaiting : Awaiting (i :: rest) world) : Awaiting rest world :=
  ⟨awaiting.unique.of_cons, fun j member => awaiting.present j (.tail i member),
    fun j member => awaiting.idle j (.tail i member),
    fun j member => awaiting.fresh j (.tail i member), awaiting.alone⟩

theorem Awaiting.launch (awaiting : Awaiting rest world) (other : i ∉ rest) (now : Nat) :
    Awaiting rest
      { world with
        own :=
          { world.own with
            elements := world.own.elements.modify i fun entry => entry.launched now } } where
  unique := awaiting.unique
  present := by simpa using awaiting.present
  idle := by
    intro j member flag found
    have elsewhere : i ≠ j := by
      rintro rfl
      exact other member
    refine awaiting.idle j member flag ?_
    simpa [Bringup.flags, Bringup.marks, elsewhere] using found
  fresh := awaiting.fresh
  alone := awaiting.alone

theorem wp_startElements (sound : Sound none world) (awaiting : Awaiting rest world)
    (next : ∀ code later, Sound none later → Attempted code world later → post code later) :
    wp Decent (startElements rest) post world := by
  induction rest generalizing world with
  | nil => exact wp_pure (next 0 world sound (Tended.refl world).attempted)
  | cons i rest ih =>
    have other : i ∉ rest := (nodup_cons.mp awaiting.unique).1
    refine wp_bind (wp_shutdownRequested sound fun requested first sound tended own yes no => ?_)
    have awaiting := awaiting.begun (tended.begun i) fun _ => tended.forks i
    have attempted := tended.attempted
    refine wp_ite (fun isRequested => wp_pure ?_) (fun _ => ?_)
    · refine next _ first sound (attempted.trans ⟨⟨id, id, Subset.refl _⟩, ?_, id, .inl rfl, nofun⟩)
      exact fun _ => .inl (yes isRequested)
    refine wp_bind (wp_startProcess sound (awaiting.present i (.head _))
      (awaiting.idle i (.head _)) (awaiting.fresh i (.head _)) ?_ ?_ awaiting.alone)
    · intro code second failed sound begun
      refine wp_ite (fun _ => wp_bind ?_) (fun zero => absurd failed zero)
      refine wp_recordFailure sound fun later sound noted => wp_pure ?_
      exact next code later sound ((attempted.trans begun.attempted).trans (noted.attempted failed))
    · intro second sound begun child
      have attempted := attempted.trans begun.attempted
      have awaiting := awaiting.tail.begun begun fun member => absurd member other
      refine wp_ite (fun failed => absurd rfl failed) (fun _ => ?_)
      refine wp_bind (wp_ask_sound sound fun now third sound tended own => ?_)
      have attempted := attempted.trans tended.attempted
      have awaiting := awaiting.begun (tended.begun i) fun member => absurd member other
      have child := tended.child child
      rw [← begun.generation, ← tended.generation] at sound child
      obtain ⟨sound, launched⟩ := sound.launch child now
      refine wp_bind (wp_updateElement (wp_bind ?_))
      refine wp_publishSystemStatus sound fun fourth sound tended _ => ?_
      have attempted := (attempted.trans launched).trans tended.attempted
      have awaiting := (awaiting.launch other now).begun (tended.begun i)
        fun member => absurd member other
      exact ih sound awaiting fun code later sound attempted' =>
        next code later sound (attempted.trans attempted')

theorem started_of_isClear {own : Bringup} {entry : ManagedElement}
    (clear : own.isClear = true) (found : own.elements[i]? = some entry) :
    entry.started = false := by
  have unstarted := all_eq_true.mp clear entry (mem_of_getElem? found)
  exact Bool.not_eq_true' _ ▸ unstarted

theorem idle_of_isClear (clear : world.own.isClear = true) (i : Nat) : world.Idle i := by
  intro flag found
  unfold Bringup.flags Bringup.marks at found
  rw [map_map, getElem?_map] at found
  obtain ⟨entry, lookup, rfl⟩ := Option.map_eq_some_iff.mp found
  exact started_of_isClear clear lookup

theorem Sound.awaiting (sound : Sound none world) (clear : world.own.isClear = true) :
    Awaiting (range world.own.elements.length)
      { world with own := { world.own with generation := world.own.generation + 1 } } where
  unique := nodup_range
  present := fun i member => mem_range.mp member
  idle := fun i _ => idle_of_isClear clear i
  fresh := fun i _ forked => absurd (sound.custody.young i _ forked) (Nat.not_succ_le_self _)
  alone := by
    intro i g forked _
    rcases sound.custody.kept i g forked with reaped | none | ⟨entry, found, started, _⟩
    · exact reaped
    · cases none
    · cases (started_of_isClear clear found).symm.trans started

theorem wp_startGeneration (sound : Sound none world) (clear : world.own.isClear = true)
    (next : ∀ code later, Sound none later → Attempted code world later → post code later) :
    wp Decent startGeneration post world := by
  refine wp_bind (wp_update (wp_bind (wp_indices ?_)))
  have custody : Custody none world.own.elements (world.own.generation + 1) world.trace :=
    { sound.custody with young := fun i g forked => .step (sound.custody.young i g forked) }
  refine wp_startElements ⟨⟨sound.orderly, custody⟩, sound.settled, sound.fits⟩
    (sound.awaiting clear) fun code later sound attempted => next code later sound ?_
  have counted : Attempted 0 world
      { world with own := { world.own with generation := world.own.generation + 1 } } :=
    .of_flags ⟨id, id, Subset.refl _⟩ rfl rfl rfl
  exact counted.trans attempted

/-! ## Status -/

theorem keeps_requestRuntimeStatus :
    Keeps Decent (Watched exempt first) (requestRuntimeStatus i) := by
  refine keeps_element.bind fun entry => keeps_getOwn.bind fun own => ?_
  refine .ite (.pure ()) (keeps_ask.bind fun sent => ?_)
  exact .ite (keeps_adjustElement (fun _ => rfl) (fun _ => rfl)) (.pure ())

theorem charge_receive (process : Process) (received : Received) :
    (process.receiveRuntimeStatus received).1.pid = process.pid ∧
      (process.receiveRuntimeStatus received).1.exited = process.exited := by
  unfold Process.receiveRuntimeStatus
  split
  · exact ⟨rfl, rfl⟩
  · exact ⟨rfl, rfl⟩
  · exact ⟨rfl, rfl⟩
  · split
    · exact ⟨rfl, rfl⟩
    · split
      · exact ⟨rfl, rfl⟩
      · split <;> exact ⟨rfl, rfl⟩

theorem keeps_receiveRuntimeStatuses {i packets : Nat} :
    Keeps Decent (Watched exempt first) (receiveRuntimeStatuses i packets) := by
  induction packets generalizing first with
  | zero => exact .pure ()
  | succ packets ih =>
    refine keeps_watched fun world sound => ?_
    refine wp_bind (wp_element sound.decent fun entry found => ?_)
    refine wp_ite (fun _ => wp_pure sound.watched) (fun _ => ?_)
    refine wp_bind (wp_ask_sound sound fun received first sound tended own => ?_)
    rw [← own] at found
    obtain ⟨pid, exited⟩ := charge_receive entry.process received
    generalize entry.process.receiveRuntimeStatus received = answer at pid exited ⊢
    obtain ⟨process, result⟩ := answer
    dsimp only at pid exited
    refine wp_bind (wp_adjustElement sound (fun _ _ => rfl) ?_ fun second sound tended' => ?_)
    · intro other lookup
      cases found.symm.trans lookup
      simp only [ManagedElement.owner, ManagedElement.charge, pid, exited]
    have watched : Watched exempt world second := ⟨sound, tended.trans tended'⟩
    cases result with
    | ok status =>
      refine keeps_ask.bind (fun now => .bind ?_ fun _ => ih) watched
      exact keeps_adjustElement (fun _ => rfl) (fun _ => rfl)
    | error code => exact Keeps.ite (.pure ()) ih watched

theorem keeps_receiveFrom : Keeps Decent (Watched exempt first) (receiveFrom i) :=
  keeps_element.bind fun _ => .ite keeps_receiveRuntimeStatuses (.pure ())

/-- A poll takes the next request number, which there is. -/
theorem Sound.poll (sound : Sound exempt world) (left : world.polls ≠ 0) :
    world.own.requestId ≠ 0xffffffffffffffff ∧
      Sound exempt
        { world with
          own := { world.own with requestId := world.own.requestId + 1 }
          polls := world.polls - 1 } := by
  have bound := sound.orderly.polls
  have more : world.own.requestId ≠ 0xffffffffffffffff := by
    intro last
    rw [last] at bound
    exact absurd bound (by simp)
  refine ⟨more, ⟨{ sound.orderly with polls := ?_ }, sound.custody⟩, sound.settled, sound.fits⟩
  have counted : (world.own.requestId + 1).toNat = world.own.requestId.toNat + 1 := by
    rw [UInt64.toNat_add]
    exact Nat.mod_eq_of_lt (by simp; omega)
  change (world.own.requestId + 1).toNat + (world.polls - 1) < _
  omega

theorem wp_pollRuntimeStatuses (sound : Sound exempt world)
    (next : ∀ later, Sound exempt later → Tended world later → post 0 later) :
    wp Decent pollRuntimeStatuses post world := by
  refine wp_bind (wp_bind (wp_get ?_))
  refine wp_ite (fun _ => wp_throw sound.decent) (fun left => wp_modify ?_)
  obtain ⟨more, polled⟩ := sound.poll left
  refine wp_bind (wp_getOwn (wp_ite (fun last => absurd last more) (fun _ => ?_)))
  refine wp_bind (wp_update (wp_bind (wp_indices (wp_bind ?_))))
  have counted : Tended world
      { world with
        own := { world.own with requestId := world.own.requestId + 1 }
        polls := world.polls - 1 } := { Tended.refl world with }
  refine polled.follow (.foldlM (fun _ _ => keeps_requestRuntimeStatus) _ _)
    fun _ first sound tended => wp_bind ?_
  refine sound.follow (.foldlM (fun _ _ => keeps_receiveFrom) _ _)
    fun _ later sound tended' => wp_pure ?_
  exact next later sound ((counted.trans tended).trans tended')

/-! ## The startup barrier -/

theorem Attempted.tended {code : Int32}
    (attempted : Attempted code first second) (tended : Tended second third) :
    Attempted code first third where
  toLasting := attempted.toLasting.trans tended.toLasting
  failed := fun failed => (attempted.failed failed).imp tended.requested tended.valid.trans
  latched := fun valid => tended.valid.trans (attempted.latched valid)
  state := tended.state ▸ attempted.state
  done := by
    intro succeeded
    rw [tended.state, tended.valid, tended.marks]
    exact attempted.done succeeded

theorem Attempted.noted {code result : Int32}
    (attempted : Attempted code first second) (noted : Noted second third) (failed : result ≠ 0) :
    Attempted result first third where
  toLasting := attempted.toLasting.trans noted.toLasting
  failed := fun _ => noted.effective
  latched := noted.latched ∘ attempted.latched
  state := by
    rcases noted.state with same | ⟨state, invalid, started⟩
    · rw [same]
      exact attempted.state
    rcases attempted.state with same | ⟨ended, _⟩
    · refine .inr ⟨state, eq_false_of_ne_true fun valid => ?_, same ▸ started⟩
      cases invalid.symm.trans (attempted.latched valid)
    · rw [ended] at started
      rcases started with started | started <;> cases started
  done := fun succeeded => absurd succeeded failed

theorem Attempted.cancel {code result : Int32} (attempted : Attempted code world next)
    (requested : next.Requested) (failed : result ≠ 0) : Attempted result world next :=
  { attempted with
    failed := fun _ => .inl requested, done := fun succeeded => absurd succeeded failed }

theorem Tended.noted (tended : Tended first second) (noted : Noted second third) :
    Noted first third where
  toFollowed := tended.toFollowed.trans noted.toFollowed
  effective := noted.effective
  latched := fun valid => noted.latched (tended.valid.trans valid)
  state := by
    have state := noted.state
    rw [tended.state, tended.valid] at state
    exact state

theorem wp_awaitElement {found : Int32 × Bool} {post : Int32 × Bool → World → Prop}
    (sound : Sound none world) (next : ∀ result later, Sound none later →
      result.1 = found.1 ∧ Tended world later ∨ result.1 ≠ 0 ∧ Noted world later →
      post result later) :
    wp Decent (awaitElement found i) post world := by
  refine wp_bind (sound.follow keeps_isRunning fun alive first sound tended => ?_)
  refine wp_bind (wp_element sound.decent fun entry _ => ?_)
  have late {limit : Nat} {ready : Bool} {result : Int32 × Bool} (same : result.1 = found.1) :
      wp Decent (do
        let now ← ask Input.time?
        if limit ≤ now then
          recordFailure i .statusTimeout (errorCode Errno.etimedout)
          return (errorCode Errno.etimedout, ready)
        return result) post first := by
    refine wp_bind (wp_ask_sound sound fun now second sound tended' _ => ?_)
    have tended := tended.trans tended'
    refine wp_ite (fun _ => ?_) (fun _ => wp_pure (next _ _ sound (.inl ⟨same, tended⟩)))
    refine wp_bind (wp_recordFailure sound fun later sound noted => wp_pure ?_)
    exact next _ later sound (.inr
      ⟨show errorCode Errno.etimedout ≠ 0 by decide, tended.noted noted⟩)
  refine wp_ite (fun _ => ?_) (fun _ => wp_ite (fun _ => ?_) (fun _ => ?_))
  · refine wp_bind (wp_adjustElement sound (fun _ _ => rfl) (fun _ _ => rfl)
      fun _ sound tended' => ?_)
    refine wp_bind (wp_recordFailure sound fun later sound noted => wp_pure ?_)
    exact next _ later sound (.inr
      ⟨show errorCode Errno.echild ≠ 0 by decide, (tended.trans tended').noted noted⟩)
  · refine wp_bind (wp_recordFailure sound fun later sound noted => wp_pure ?_)
    refine next _ later sound (.inr ⟨?_, tended.noted noted⟩)
    dsimp only
    split
    · assumption
    · decide
  · exact wp_ite (fun _ => late rfl) (fun _ => late rfl)

theorem wp_awaitRound {start : World} {post : Unit ⊕ Int32 → World → Prop}
    (sound : Sound none world) (attempted : Attempted 0 start world)
    (stays : ∀ later, Sound none later → Attempted 0 start later → post (.inl ()) later)
    (ends : ∀ code later, Sound none later → Attempted code start later →
      post (.inr code) later) :
    wp Decent (awaitRound ()) post world := by
  refine wp_bind (wp_ask_sound sound fun _ first sound tended _ => ?_)
  have attempted := attempted.tended tended
  refine wp_bind (wp_shutdownRequested sound fun _ second sound tended _ yes _ => ?_)
  have attempted := attempted.tended tended
  refine wp_ite (fun requested => wp_pure ?_) (fun _ => ?_)
  · exact ends _ second sound (attempted.cancel (yes requested) (by decide))
  refine wp_bind (wp_pollRuntimeStatuses sound fun third sound tended => wp_bind (wp_indices ?_))
  refine wp_bind (wp_foldlM (fun _ found later => Sound none later ∧ Attempted found.1 start later)
    ?_ ?_ ⟨sound, attempted.tended tended⟩)
  · rintro i _ found later ⟨sound, attempted⟩
    refine wp_awaitElement sound fun result later sound outcome => ⟨sound, ?_⟩
    rcases outcome with ⟨same, tended⟩ | ⟨failed, noted⟩
    · rw [same]
      exact attempted.tended tended
    · exact attempted.noted noted failed
  rintro ⟨failure, ready⟩ fourth ⟨sound, attempted⟩
  refine wp_bind (wp_shutdownRequested sound fun _ fifth sound tended _ yes _ => ?_)
  have attempted := attempted.tended tended
  refine wp_ite (fun requested => wp_pure ?_) (fun _ => ?_)
  · exact ends _ fifth sound (attempted.cancel (yes requested) (by decide))
  refine wp_ite (fun _ => wp_pure (ends _ fifth sound attempted)) (fun succeeded => ?_)
  rw [not_not] at succeeded
  cases succeeded
  refine wp_ite (fun _ => wp_pure (ends _ fifth sound attempted)) (fun _ => wp_bind ?_)
  exact wp_publishSystemStatus sound fun later sound tended _ =>
    wp_pure (stays later sound (attempted.tended tended))

theorem wp_awaitRunning (sound : Sound none world)
    (next : ∀ code later, Sound none later → Attempted code world later → post code later) :
    wp Decent awaitRunning post world := by
  refine wp_bind (wp_get (wp_iterate
    (fun _ later => Sound none later ∧ Attempted 0 world later) ?_ ?_ _
    ⟨sound, (Tended.refl world).attempted⟩))
  · exact fun _ _ holds => holds.1.decent
  · rintro _ later ⟨sound, attempted⟩
    exact wp_awaitRound sound attempted (fun _ sound attempted => ⟨sound, attempted⟩) next

/-! ## Stop -/

/-- What `StopGeneration` leaves alone. -/
structure Wound (world next : World) : Prop extends Followed world next where
  state : next.own.state = world.own.state ∨ next.own.state = .shuttingDown
  valid : next.own.error.valid = world.own.error.valid
  failures : next.own.marks.map (·.2.1) = world.own.marks.map (·.2.1)
  idle : ∀ i, world.Idle i → next.Idle i

theorem Wound.trans (before : Wound first second) (after : Wound second third) :
    Wound first third where
  toFollowed := before.toFollowed.trans after.toFollowed
  state := by
    rcases after.state with same | ended
    · rw [same]
      exact before.state
    · exact .inr ended
  valid := after.valid.trans before.valid
  failures := after.failures.trans before.failures
  idle := fun i idle => after.idle i (before.idle i idle)

theorem Wound.of_marks (followed : Followed world next)
    (state : next.own.state = world.own.state ∨ next.own.state = .shuttingDown)
    (valid : next.own.error.valid = world.own.error.valid)
    (marks : next.own.marks = world.own.marks) : Wound world next where
  toFollowed := followed
  state := state
  valid := valid
  failures := by rw [marks]
  idle := fun i idle => by
    unfold World.Idle
    rw [flags_of_marks marks]
    exact idle

theorem Tended.wound (tended : Tended world next) : Wound world next :=
  .of_marks tended.toFollowed (.inl tended.state) tended.valid tended.marks

theorem Wound.length (wound : Wound world next) :
    next.own.elements.length = world.own.elements.length := by
  have lengths := congrArg List.length wound.failures
  simpa only [Bringup.marks, List.length_map] using lengths

/-- An element gives up a child that was collected. -/
theorem Sound.clear {entry : ManagedElement} (sound : Sound none world)
    (found : world.own.elements[i]? = some entry)
    (collected : .collected i entry.child ∈ world.trace) :
    let next : World :=
      { world with
        own :=
          { world.own with
            elements := world.own.elements.modify i fun entry =>
              { entry with started := false, processAlive := false } }
        trace := world.trace ++ [.cleared i entry.child] }
    Sound none next ∧ Wound world next ∧ next.Idle i := by
  have failures : ((world.own.elements.modify i fun entry =>
      { entry with started := false, processAlive := false }).map
        ManagedElement.mark).map (·.2.1) = world.own.marks.map (·.2.1) := by
    unfold Bringup.marks
    rw [map_map, map_map]
    exact map_modify _ fun _ _ => rfl
  have custody : Custody none
      (world.own.elements.modify i fun entry =>
        { entry with started := false, processAlive := false })
      world.own.generation world.trace := by
    refine sound.custody.regard (map_modify _ fun _ _ => rfl) fun j old lookup started => ?_
    by_cases here : i = j
    · subst here
      cases found.symm.trans lookup
      exact .inl (.inl collected)
    · exact .inr ⟨old, by simp [here, lookup], started, rfl⟩
  intro next
  have idle (j : Nat) (idle : j ≠ i → world.Idle j) : next.Idle j := by
    intro flag lookup
    unfold Bringup.flags Bringup.marks at lookup
    rw [map_map, getElem?_map] at lookup
    obtain ⟨new, lookup', rfl⟩ := Option.map_eq_some_iff.mp lookup
    rcases modify_cases lookup' with ⟨rfl, old, _, rfl⟩ | ⟨elsewhere, lookup'⟩
    · rfl
    · exact (idle elsewhere).entry lookup'
  refine ⟨⟨⟨?_, custody.note rfl collected⟩, sound.settled, sound.fits⟩,
    ⟨⟨⟨id, id, ?_⟩, rfl, ?_⟩, .inl rfl, rfl, failures, ?_⟩, ?_⟩
  · exact (sound.orderly.custody rfl).remark failures
  · exact subset_append_left _ _
  · exact fun _ _ forked => mem_of_snoc rfl rfl forked
  · exact fun j old => idle j fun _ => old
  · exact idle i fun other => absurd rfl other

theorem keeps_requestStopElement {failure : Int32} :
    Keeps Decent (Watched exempt first) (requestStopElement failure i) :=
  keeps_element.bind fun _ => .ite (.pure _) (keeps_isRunning.bind fun _ =>
    .ite (.pure _) (keeps_stopProcess.bind fun _ => .pure _))

theorem wp_reapElement {start cycle i : Nat} {reap : Reap} {post : Reap → World → Prop}
    (sound : Sound none world)
    (next : ∀ result later, Sound none later → Wound world later →
      (result.remaining = false → reap.remaining = false ∧ later.Idle i) → post result later) :
    wp Decent (reapElement start cycle reap i) post world := by
  refine wp_bind (wp_element sound.decent fun entry found => ?_)
  refine wp_ite (fun unstarted => wp_pure ?_) (fun _ => wp_bind ?_)
  · refine next _ _ sound (Tended.refl world).wound fun none => ⟨none, ?_⟩
    intro flag lookup
    simp only [Bringup.flags, Bringup.marks, getElem?_map, found, Option.map_some,
      Option.some.injEq] at lookup
    subst lookup
    exact unstarted
  refine sound.follow keeps_isRunning fun alive first sound tended => ?_
  refine wp_bind (wp_element sound.decent fun entry found => ?_)
  refine wp_ite (fun ended => wp_bind ?_) (fun _ => ?_)
  · rw [Process.available_getExitInfo] at ended
    have collected := sound.custody.ended i entry found ended.2
    refine sound.follow keeps_updateExitInfo fun _ second sound tended' => ?_
    obtain ⟨same, lookup, child⟩ := tended'.child ⟨entry, found, rfl⟩
    rw [← child] at collected ⊢
    obtain ⟨sound, wound, idle⟩ := sound.clear lookup (tended'.grows collected)
    refine wp_bind (wp_updateElement (wp_bind (wp_emit (wp_pure ?_))))
    exact next _ _ sound ((tended.trans tended').wound.trans wound) fun none => ⟨none, idle⟩
  · refine wp_ite (fun _ => wp_pure (next _ _ sound tended.wound nofun)) (fun _ => ?_)
    refine wp_ite (fun _ => wp_pure (next _ _ sound tended.wound nofun)) (fun _ => wp_bind ?_)
    exact sound.follow keeps_stopProcess fun _ later sound tended' =>
      wp_pure (next _ later sound (tended.trans tended').wound nofun)

theorem moves_shuttingDown {state : ApplicationState} (other : state ≠ .shuttingDown) :
    moves state .shuttingDown = true := by
  cases state with
  | shuttingDown => exact absurd rfl other
  | initializing | running | error | resetting | stopped => rfl

theorem wp_enterShutdown {post : Unit → World → Prop} (sound : Sound exempt world)
    (requested : world.Requested)
    (next : ∀ later, Sound exempt later → Moved world later .shuttingDown → post () later) :
    wp Decent (setApplicationState .shuttingDown) post world :=
  wp_setApplicationState sound.toHeld sound.settled rfl moves_shuttingDown
    (fun _ => requested) nofun
    next

theorem isClear_of_idle (idle : ∀ i < world.own.elements.length, world.Idle i) :
    world.own.isClear = true := by
  refine all_eq_true.mpr fun entry member => ?_
  obtain ⟨i, present, rfl⟩ := getElem_of_mem member
  rw [(idle i present).entry (getElem?_eq_getElem present)]
  rfl

theorem wp_reapElements {start cycle : Nat} {reap : Reap} {post : Reap → World → Prop}
    (sound : Sound none world)
    (next : ∀ result later, Sound none later → Wound world later →
      (result.remaining = false → later.own.isClear = true) → post result later) :
    wp Decent
      ((range world.own.elements.length).foldlM (reapElement start cycle) reap)
      post world := by
  -- what has been passed is not started, unless something remains
  refine wp_foldlM (fun rest result later => Sound none later ∧ Wound world later ∧
    (result.remaining = false → ∀ i < world.own.elements.length, i ∉ rest → later.Idle i))
    ?_ ?_ ⟨sound, (Tended.refl world).wound, ?_⟩
  · rintro i rest result later ⟨sound, wound, passed⟩
    refine wp_reapElement sound fun result later sound wound' ended => ?_
    refine ⟨sound, wound.trans wound', fun none j present outside => ?_⟩
    obtain ⟨before, idle⟩ := ended none
    by_cases here : j = i
    · rw [here]
      exact idle
    · refine wound'.idle j (passed before j present ?_)
      exact fun member => (mem_cons.mp member).elim here outside
  · rintro result later ⟨sound, wound, passed⟩
    refine next result later sound wound fun none => isClear_of_idle ?_
    rw [wound.length]
    exact fun i present => passed none i present nofun
  · exact fun _ i present outside => absurd (mem_range.mpr present) outside

theorem wp_reapRound {start deadline : Nat} {reap : Reap} {post : Reap ⊕ Int32 → World → Prop}
    (sound : Sound none world)
    (stays : ∀ reap later, Sound none later → Wound world later → post (.inl reap) later)
    (ends : ∀ code later, Sound none later → Wound world later →
      (code = 0 → later.own.isClear = true) → post (.inr code) later) :
    wp Decent (reapRound start deadline reap) post world := by
  refine wp_bind (wp_ask_sound sound fun cycle first sound tended _ => ?_)
  refine wp_bind (wp_shutdownRequested sound fun requested second sound tended' _ yes _ => ?_)
  have wound := (tended.trans tended').wound
  suffices rest : ∀ third, Sound none third → Wound world third → wp Decent (do
      let reap ← (← indices).foldlM (reapElement start cycle) { reap with remaining := false }
      if reap.remaining = false then return .inr reap.failure
      let now ← ask Input.time?
      if deadline ≤ now then
        return .inr (if reap.failure ≠ 0 then reap.failure else errorCode Errno.etimedout)
      publishSystemStatus
      return .inl reap) post third by
    refine wp_ite (fun isRequested => wp_bind ?_) (fun _ => rest second sound wound)
    refine wp_enterShutdown sound (yes isRequested) fun third sound moved => ?_
    exact rest third sound (wound.trans
      (.of_marks moved.toFollowed (.inr moved.state) moved.valid moved.marks))
  intro third sound wound
  refine wp_bind (wp_indices (wp_bind ?_))
  refine wp_reapElements sound fun result fourth sound wound' clear => ?_
  have wound := wound.trans wound'
  refine wp_ite (fun none => wp_pure ?_) (fun _ => wp_bind ?_)
  · exact ends _ fourth sound wound fun _ => clear none
  refine wp_ask_sound sound fun now fifth sound tended _ => ?_
  have wound := wound.trans tended.wound
  refine wp_ite (fun _ => wp_pure (ends _ fifth sound wound fun succeeded => ?_))
    (fun _ => wp_bind ?_)
  · split at succeeded
    · exact absurd succeeded ‹_›
    · cases succeeded
  · exact wp_publishSystemStatus sound fun later sound tended _ =>
      wp_pure (stays _ later sound (wound.trans tended.wound))

theorem wp_stopGeneration (sound : Sound none world)
    (next : ∀ code later, Sound none later → Wound world later →
      (code = 0 → later.own.isClear = true) → post code later) :
    wp Decent stopGeneration post world := by
  refine wp_bind (wp_ask_sound sound fun start first sound tended _ => ?_)
  refine wp_bind (wp_getOwn (wp_bind (wp_indices (wp_bind ?_))))
  refine sound.follow (.foldlM (fun _ _ => keeps_requestStopElement) _ _)
    fun failure second sound tended' => ?_
  have wound := (tended.trans tended').wound
  refine wp_bind (wp_get (wp_bind (wp_iterate (fun _ later => Sound none later ∧ Wound world later)
    (fun _ _ holds => holds.1.decent) ?_ _ ⟨sound, wound⟩)))
  rintro reap third ⟨sound, wound⟩
  refine wp_reapRound sound (fun _ later sound wound' => ⟨sound, wound.trans wound'⟩) ?_
  intro code fourth sound wound' clear
  have honest : Care fourth.trace (.stopped code fourth.own.isClear) := clear
  obtain ⟨sound, tended⟩ := sound.note rfl rfl honest
  refine wp_bind (wp_getOwn (wp_bind (wp_emit (wp_pure ?_))))
  exact next code _ sound ((wound.trans wound').trans tended.wound) clear

end Kcf.Supervisor
