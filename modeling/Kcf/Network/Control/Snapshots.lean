import Kcf.Network.Control.Bookkeeping

/-!
# Snapshots of remote goals

The snapshot of an Action session is written by the completion of its goal, by
the events of the other gateway, and when a connection is lost.  A snapshot that
is final belongs to a session that none of them reaches any more.
-/

namespace Kcf.Network.Control

open Kcf.Wire Kcf.Transition List
open Kcf.Network.Discovery (PeerInfo)

/-! ## One snapshot over time -/

namespace ActionSnapshot

/-- The goal has a result, or contact with it was lost. -/
def Final (a : ActionSnapshot) : Prop := a.terminal = true ∨ a.communicationLost = true

structure Coherent (a : ActionSnapshot) : Prop where
  apart : ¬(a.terminal = true ∧ a.communicationLost = true)
  accepted : a.terminal = true → a.accepted = true

/-- The outcome of the goal is the same. -/
structure SameOutcome (a b : ActionSnapshot) : Prop where
  accepted : b.accepted = a.accepted
  state : b.state = a.state
  feedbackSequence : b.feedbackSequence = a.feedbackSequence
  feedback : b.feedback = a.feedback
  result : b.result = a.result
  terminal : b.terminal = a.terminal
  communicationLost : b.communicationLost = a.communicationLost

/-- Feedback and its number stay, or both are those of a newer feedback frame. -/
def FeedbackFrom (heard : Option Frame) (a b : ActionSnapshot) : Prop :=
  b.feedbackSequence = a.feedbackSequence ∧ b.feedback = a.feedback ∨
    a.feedbackSequence < b.feedbackSequence ∧ ∃ f, heard = some f ∧
      f.operation = .actionFeedback ∧ b.feedbackSequence = f.feedbackSequence ∧
      b.feedback = f.payload

/-- What a step may make of a snapshot, while it receives a frame or not. -/
structure Becomes (heard : Option Frame) (a b : ActionSnapshot) : Prop where
  feedback : a.FeedbackFrom heard b
  final : a.Final → a.SameOutcome b

/-- What a run may make of a snapshot. -/
structure Precedes (a b : ActionSnapshot) : Prop where
  feedback : b.feedbackSequence = a.feedbackSequence ∧ b.feedback = a.feedback ∨
    a.feedbackSequence < b.feedbackSequence
  final : a.Final → a.SameOutcome b

variable {heard : Option Frame} {a b c : ActionSnapshot}

theorem SameOutcome.refl : a.SameOutcome a := ⟨rfl, rfl, rfl, rfl, rfl, rfl, rfl⟩

theorem SameOutcome.trans (first : a.SameOutcome b) (second : b.SameOutcome c) :
    a.SameOutcome c where
  accepted := second.accepted.trans first.accepted
  state := second.state.trans first.state
  feedbackSequence := second.feedbackSequence.trans first.feedbackSequence
  feedback := second.feedback.trans first.feedback
  result := second.result.trans first.result
  terminal := second.terminal.trans first.terminal
  communicationLost := second.communicationLost.trans first.communicationLost

theorem SameOutcome.final (same : a.SameOutcome b) (final : a.Final) : b.Final := by
  unfold Final
  rw [same.terminal, same.communicationLost]
  exact final

theorem SameOutcome.coherent (same : a.SameOutcome b) (coherent : a.Coherent) : b.Coherent := by
  constructor
  · rw [same.terminal, same.communicationLost]
    exact coherent.apart
  · rw [same.terminal, same.accepted]
    exact coherent.accepted

theorem Coherent.of_open (open_ : a.terminal = false) : a.Coherent :=
  ⟨by simp [open_], by simp [open_]⟩

theorem SameOutcome.becomes (same : a.SameOutcome b) : a.Becomes heard b :=
  ⟨.inl ⟨same.feedbackSequence, same.feedback⟩, fun _ => same⟩

theorem Becomes.refl : a.Becomes heard a := SameOutcome.refl.becomes

theorem Becomes.precedes (becomes : a.Becomes heard b) : a.Precedes b :=
  ⟨becomes.feedback.imp id fun newer => newer.1, becomes.final⟩

theorem Precedes.trans (first : a.Precedes b) (second : b.Precedes c) : a.Precedes c := by
  constructor
  · rcases second.feedback with ⟨sequence, same⟩ | above
    · rw [sequence, same]
      exact first.feedback
    · refine .inr ?_
      rcases first.feedback with ⟨sequence, _⟩ | earlier
      · exact sequence ▸ above
      · exact UInt64.lt_trans earlier above
  · intro final
    have same := first.final final
    exact same.trans (second.final (same.final final))

theorem Becomes.trans (first : a.Becomes heard b) (second : b.Becomes heard c) :
    a.Becomes heard c := by
  refine ⟨?_, (first.precedes.trans second.precedes).final⟩
  rcases second.feedback with ⟨sequence, same⟩ | ⟨above, frame⟩
  · unfold FeedbackFrom
    rw [sequence, same]
    exact first.feedback
  · refine .inr ⟨?_, frame⟩
    rcases first.feedback with ⟨sequence, _⟩ | ⟨earlier, _⟩
    · exact sequence ▸ above
    · exact UInt64.lt_trans earlier above

end ActionSnapshot

/-! ## Sessions in the books -/

/-- What a result is about: its session, and whether its request starts a goal or cancels one. -/
structure Purpose where
  starts : Bool
  cancels : Bool
  session : Option Nat

def Batch.purpose (batch : Batch) (index : Nat) : Option Purpose :=
  batch.result.endpoints[index]?.map fun result =>
    ⟨batch.startsGoals, batch.cancel.isSome, result.action⟩

namespace Books

variable (books : Books)

def purposeAt (key : Nat × Nat) : Option Purpose :=
  books.batches[key.1]?.bind fun batch => batch.purpose key.2

/-- The session of the goal that a result belongs to. -/
def goalAt (key : Nat × Nat) : Option Nat :=
  (books.purposeAt key).bind fun purpose => if purpose.starts then purpose.session else none

/-- The books know where each snapshot can still be written from.  `gone` is a
connection that is being dropped: its goals may be lost before they are completed. -/
structure Tracks (gone : Option UInt64) : Prop where
  known : ∀ ⦃key s⦄, books.goalAt key = some s → s < books.sessions.length
  unique : ∀ ⦃key other s⦄, books.goalAt key = some s → books.goalAt other = some s → key = other
  cancels : ∀ key s, books.purposeAt key ≠ some ⟨false, false, some s⟩
  outgoing : ∀ o ∈ books.outgoing, o.session < books.sessions.length
  single : (books.outgoing.map Outgoing.session).Nodup
  owner : ∀ p ∈ books.pending, ∀ o ∈ books.outgoing,
    books.goalAt (p.batch, p.index) = some o.session → p.sent = true ∧ p.connection = o.connection
  untouched : ∀ p ∈ books.pending, ∀ ⦃s session⦄, books.goalAt (p.batch, p.index) = some s →
    books.sessions[s]? = some session →
    session.snapshot.accepted = false ∧ session.snapshot.state = .idle ∧
      session.snapshot.terminal = false ∧
      (session.snapshot.communicationLost = true → p.sent = true ∧ gone = some p.connection)
  live : ∀ o ∈ books.outgoing, ∀ ⦃session⦄, books.sessions[o.session]? = some session →
    ¬session.snapshot.Final
  coherent : ∀ session ∈ books.sessions, session.snapshot.Coherent

/-- Every session stays, and its snapshot only moves forward. -/
def Advances (heard : Option Frame) (books next : Books) : Prop :=
  ∀ ⦃s : Nat⦄ ⦃session : ActionSession⦄, books.sessions[s]? = some session → ∃ later,
    next.sessions[s]? = some later ∧
    session.snapshot.Becomes heard later.snapshot

end Books

namespace Books

variable {heard : Option Frame} {gone : Option UInt64} {books middle next : Books}

theorem Advances.refl : books.Advances heard books := fun _ session known => ⟨session, known, .refl⟩

theorem Advances.trans (first : books.Advances heard middle)
    (second : middle.Advances heard next) : books.Advances heard next := by
  intro s session known
  obtain ⟨between, known, early⟩ := first known
  obtain ⟨later, known, late⟩ := second known
  exact ⟨later, known, early.trans late⟩

/-- The books go on as they should. -/
def Tends (heard : Option Frame) (gone : Option UInt64) (books next : Books) : Prop :=
  next.Tracks gone ∧ books.Advances heard next

/-- What forgets requests and goals only, and writes to sessions that it says enough about. -/
theorem Tracks.edit {after : Option UInt64} (tracks : books.Tracks gone)
    (drops : gone = none ∨ after = gone) (purposes : next.purposeAt = books.purposeAt)
    (pending : next.pending ⊆ books.pending) (outgoing : next.outgoing.Sublist books.outgoing)
    (length : next.sessions.length = books.sessions.length)
    (sessions : ∀ ⦃s : Nat⦄ ⦃later : ActionSession⦄, next.sessions[s]? = some later → ∃ old,
      books.sessions[s]? = some old ∧ (old.snapshot.SameOutcome later.snapshot ∨
        old.snapshot.Becomes heard later.snapshot ∧ later.snapshot.Coherent ∧
        (∀ o ∈ next.outgoing, o.session = s → ¬later.snapshot.Final) ∧
        ∀ p ∈ next.pending, books.goalAt (p.batch, p.index) = some s →
          later.snapshot.accepted = false ∧ later.snapshot.state = .idle ∧
            later.snapshot.terminal = false ∧ (later.snapshot.communicationLost = true →
              p.sent = true ∧ after = some p.connection))) :
    books.Tends heard after next := by
  have goals : next.goalAt = books.goalAt :=
    funext fun key => congrArg (Option.bind · _) (congrFun purposes key)
  refine ⟨?_, fun s old found => ?_⟩
  · constructor
    case known =>
      rw [goals, length]
      exact tracks.known
    case unique =>
      rw [goals]
      exact tracks.unique
    case cancels =>
      rw [purposes]
      exact tracks.cancels
    case outgoing =>
      rw [length]
      exact fun o member => tracks.outgoing o (outgoing.subset member)
    case single => exact tracks.single.sublist (outgoing.map _)
    case owner =>
      rw [goals]
      exact fun p inPending o inOutgoing =>
        tracks.owner p (pending inPending) o (outgoing.subset inOutgoing)
    case untouched =>
      rw [goals]
      intro p member s later goal found
      obtain ⟨old, known, same | ⟨_, _, _, untouched⟩⟩ := sessions found
      · rw [same.accepted, same.state, same.terminal, same.communicationLost]
        obtain ⟨accepted, state, terminal, lost⟩ := tracks.untouched p (pending member) goal known
        refine ⟨accepted, state, terminal, fun gone => ?_⟩
        rcases drops with none_ | same
        · cases none_.symm.trans (lost gone).2
        · exact same ▸ lost gone
      · exact untouched p member goal
    case live =>
      intro o member later found
      obtain ⟨old, known, same | ⟨_, _, live, _⟩⟩ := sessions found
      · intro final
        refine tracks.live o (outgoing.subset member) known ?_
        unfold ActionSnapshot.Final at final ⊢
        rw [← same.terminal, ← same.communicationLost]
        exact final
      · exact live o member rfl
    case coherent =>
      intro later member
      obtain ⟨s, found⟩ := mem_iff_getElem?.mp member
      obtain ⟨old, known, same | ⟨_, coherent, _⟩⟩ := sessions found
      · exact same.coherent (tracks.coherent old (mem_of_getElem? known))
      · exact coherent
  · have inside := (List.getElem?_eq_some_iff.mp found).1
    have found' := List.getElem?_eq_getElem (inside.trans_eq length.symm)
    obtain ⟨old, known, outcome⟩ := sessions found'
    cases found.symm.trans known
    exact ⟨_, found', outcome.elim ActionSnapshot.SameOutcome.becomes And.left⟩

end Books

/-! ## Completion -/

/-- The session that the completion of a request writes to. -/
def Batch.sessionAt (batch : Batch) (index : Nat) : Option Nat :=
  batch.result.endpoints[index]?.bind EndpointResult.action

/-- The sessions after one call of `Finish`. -/
def Books.settled (books : Books) (p : Pending) (batch : Batch) (completion : Completion) :
    List ActionSession :=
  match batch.sessionAt p.index with
  | some s => books.sessions.modify s (completion.settle batch p.sent)
  | none => books.sessions

/-- The goals that are tracked after one call of `Finish`. -/
def Books.remaining (books : Books) (p : Pending) (batch : Batch) (completion : Completion) :
    List Outgoing :=
  match batch.sessionAt p.index with
  | some s =>
    if batch.cancel.isNone ∧ completion.code ≠ 0 then
      books.outgoing.filter fun o => o.session ≠ s
    else books.outgoing
  | none => books.outgoing

theorem Node.finish_books_eq {node : Node} {index : Nat} {p : Pending} {batch : Batch}
    (completion : Completion) (present : node.pending[index]? = some p)
    (known : node.batches[p.batch]? = some batch) :
    (node.finish index completion).books =
      node.books.finish index p batch completion (node.books.remaining p batch completion)
        (node.books.settled p batch completion) := by
  unfold finish Books.remaining Books.settled
  cases found : batch.sessionAt p.index with
  | none =>
    unfold Batch.sessionAt at found
    simp only [present, known, found]
    rfl
  | some s =>
    unfold Batch.sessionAt at found
    simp only [present, known, found]
    unfold settleAction
    dsimp only
    by_cases failed : batch.cancel.isNone ∧ completion.code ≠ 0
    · rw [if_pos failed, if_pos failed]
      rfl
    · rw [if_neg failed, if_neg failed]
      rfl

variable {session : ActionSession} {s : Nat}

namespace Books

variable {gone : Option UInt64} {books : Books} {index : Nat} {p : Pending} {batch : Batch}
variable {completion : Completion}

theorem remaining_sublist : (books.remaining p batch completion).Sublist books.outgoing := by
  unfold remaining
  split
  · split
    · exact filter_sublist
    · exact .refl _
  · exact .refl _

theorem settled_length : (books.settled p batch completion).length = books.sessions.length := by
  unfold settled
  split
  · exact length_modify _ _ _
  · rfl

/-- A batch is replaced by one whose results are about the same. -/
theorem purposeAt_set {next : Books} {b : Nat} {after : Batch}
    (known : books.batches[b]? = some batch) (set : next.batches = books.batches.set b after)
    (same : after.purpose = batch.purpose) : next.purposeAt = books.purposeAt := by
  funext ⟨c, i⟩
  unfold purposeAt
  rw [set, getElem?_set]
  split_ifs with here inside
  · subst here
    rw [known, Option.bind_some, Option.bind_some, same]
  · rw [← here, getElem?_eq_none (not_lt.mp inside)]
  · rfl

theorem purpose_finish (sent : Bool) : (batch.finish index sent completion).purpose =
    batch.purpose := by
  funext i
  change ((batch.result.endpoints.modify index (completion.record batch sent))[i]?).map _ = _
  rw [getElem?_modify, Option.map_eq_map, Option.map_map]
  refine congrArg (Option.map · _) (funext fun result => ?_)
  dsimp only [Function.comp]
  split <;> rfl

theorem purposeAt_of_known {b i : Nat} (known : books.batches[b]? = some batch) :
    books.purposeAt (b, i) = batch.purpose i := by
  unfold purposeAt
  rw [known]
  rfl

/-- `Finish` writes to one session at most. -/
theorem settled_getElem? (t : Nat) :
    (books.settled p batch completion)[t]? = books.sessions[t]?.map fun session =>
      if batch.sessionAt p.index = some t then completion.settle batch p.sent session
      else session := by
  unfold settled
  split
  next s found =>
    rw [getElem?_modify, found]
    congr 1
    funext session
    by_cases same : s = t
    · rw [if_pos same, if_pos (congrArg some same)]
    · rw [if_neg same, if_neg fun equal => same (Option.some.inj equal)]
  next found =>
    rw [found]
    simp

theorem settled_cases {t : Nat} {later : ActionSession}
    (known : (books.settled p batch completion)[t]? = some later) :
    ∃ session, books.sessions[t]? = some session ∧
      (batch.sessionAt p.index = some t ∧ later = completion.settle batch p.sent session ∨
        batch.sessionAt p.index ≠ some t ∧ later = session) := by
  rw [settled_getElem?] at known
  obtain ⟨session, found, same⟩ := Option.map_eq_some_iff.mp known
  refine ⟨session, found, ?_⟩
  split at same
  next here => exact .inl ⟨here, same.symm⟩
  next other => exact .inr ⟨other, same.symm⟩

/-- A cancel request does not touch the outcome of its goal. -/
theorem settle_cancel (cancel : batch.cancel.isSome = true) :
    session.snapshot.SameOutcome (completion.settle batch p.sent session).snapshot := by
  unfold Completion.settle
  dsimp only
  rw [if_pos cancel]
  exact ⟨rfl, rfl, rfl, rfl, rfl, rfl, rfl⟩

/-- What `Finish` writes to the session of a goal that was not answered. -/
theorem settle_goal (starts : batch.startsGoals = true)
    (accepted : session.snapshot.accepted = false) (state : session.snapshot.state = .idle)
    (terminal : session.snapshot.terminal = false)
    (lost : session.snapshot.communicationLost = true →
      p.sent = true ∧ completion.code ≠ 0 ∧ completion.confirmed = false) :
    session.snapshot.Becomes none (completion.settle batch p.sent session).snapshot ∧
      (completion.settle batch p.sent session).snapshot.terminal = false := by
  obtain ⟨action, cancel⟩ : batch.action = true ∧ batch.cancel.isNone = true := by
    simpa [Batch.startsGoals] using starts
  have goal : ¬batch.cancel.isSome = true := by simpa using cancel
  unfold Completion.settle
  dsimp only
  rw [if_neg goal]
  refine ⟨⟨.inl ⟨rfl, rfl⟩, fun final => ?_⟩, terminal⟩
  have gone : session.snapshot.communicationLost = true := by
    rcases final with ended | gone
    · rw [terminal] at ended
      cases ended
    · exact gone
  obtain ⟨sent, failed, unconfirmed⟩ := lost gone
  constructor
  case accepted =>
    dsimp only
    rw [accepted]
    exact decide_eq_false failed
  case state =>
    dsimp only
    rw [if_neg failed, state]
  case communicationLost =>
    dsimp only
    rw [if_neg failed, gone]
    simp [Completion.executionUnknown, sent, failed, unconfirmed, action, cancel]
  case feedbackSequence | feedback | result | terminal => rfl

theorem goalAt_of_known {i : Nat} (known : books.batches[p.batch]? = some batch) :
    books.goalAt (p.batch, i) = if batch.startsGoals then batch.sessionAt i else none := by
  unfold goalAt
  rw [purposeAt_of_known known]
  unfold Batch.purpose Batch.sessionAt
  cases batch.result.endpoints[i]? with
  | none => simp
  | some result => rfl

/-- Nothing but the cancel fields of a session changes unless a goal is answered. -/
theorem Tracks.finish_other (tracks : books.Tracks gone)
    (known : books.batches[p.batch]? = some batch)
    (cancel : ∀ t, batch.sessionAt p.index = some t → batch.cancel.isSome = true) :
    books.Tends none gone (books.finish index p batch completion
      (books.remaining p batch completion) (books.settled p batch completion)) := by
  refine tracks.edit (.inr rfl) (purposeAt_set known rfl (purpose_finish p.sent))
    eraseIdx_subset remaining_sublist settled_length fun t later found => ?_
  obtain ⟨session, found, ⟨here, same⟩ | ⟨_, same⟩⟩ := settled_cases found
  · exact ⟨session, found, .inl (same ▸ settle_cancel (cancel t here))⟩
  · exact ⟨session, found, .inl (same ▸ .refl)⟩

/-- A goal that is still tracked after it was answered has succeeded so far. -/
theorem Tracks.settled_live (tracks : books.Tracks gone) (member : p ∈ books.pending)
    {o : Outgoing}
    (own : books.goalAt (p.batch, p.index) = some s) (found : books.sessions[s]? = some session)
    (starts : batch.startsGoals = true) (here : batch.sessionAt p.index = some s)
    (allowed : gone ≠ none → completion.code ≠ 0 ∧ completion.confirmed = false)
    (still : o ∈ books.remaining p batch completion) (same : o.session = s) :
    ¬(completion.settle batch p.sent session).snapshot.Final := by
  obtain ⟨-, -, terminal, lost⟩ := tracks.untouched p member own found
  have cancel : batch.cancel.isNone = true := by
    simp only [Batch.startsGoals, Bool.and_eq_true] at starts
    exact starts.2
  have goal : ¬batch.cancel.isSome = true := by simpa using cancel
  by_cases failed : completion.code ≠ 0
  · unfold remaining at still
    simp only [here, cancel, failed, ne_eq, not_false_eq_true, and_self, if_true] at still
    simp [same] at still
  · have kept : ¬session.snapshot.communicationLost = true := by
      intro gone
      have dropped := (lost gone).2
      exact failed (allowed (by rw [dropped]; exact Option.some_ne_none _)).1
    unfold Completion.settle ActionSnapshot.Final
    dsimp only
    rw [if_neg goal]
    dsimp only
    rw [if_pos (not_not.mp failed), terminal]
    simpa using kept

/-- A goal is answered: its request is taken off the list, and if it failed it is not
tracked any more. -/
theorem Tracks.finish_goal (tracks : books.Tracks gone) (apart : books.keys.Nodup)
    (present : books.pending[index]? = some p) (known : books.batches[p.batch]? = some batch)
    (starts : batch.startsGoals = true) (here : batch.sessionAt p.index = some s)
    (allowed : gone ≠ none → completion.code ≠ 0 ∧ completion.confirmed = false) :
    books.Tends none gone (books.finish index p batch completion
      (books.remaining p batch completion) (books.settled p batch completion)) := by
  let next := books.finish index p batch completion (books.remaining p batch completion)
    (books.settled p batch completion)
  have own : books.goalAt (p.batch, p.index) = some s := by
    rw [goalAt_of_known known, if_pos starts, here]
  have member : p ∈ books.pending := mem_of_getElem? present
  have answered {q : Pending} (still : q ∈ next.pending) :
      books.goalAt (q.batch, q.index) ≠ some s := by
    intro goal
    exact ((mem_finish apart present).mp (mem_map_of_mem still)).2 (tracks.unique goal own)
  refine tracks.edit (.inr rfl) (purposeAt_set known rfl (purpose_finish p.sent))
    eraseIdx_subset remaining_sublist settled_length fun t later found => ?_
  obtain ⟨session, before, ⟨same, rfl⟩ | ⟨_, rfl⟩⟩ := settled_cases found
  · cases here.symm.trans same
    obtain ⟨accepted, state, terminal, lost⟩ := tracks.untouched p member own before
    have written : session.snapshot.Becomes none (completion.settle batch p.sent session).snapshot ∧
        (completion.settle batch p.sent session).snapshot.terminal = false := by
      refine settle_goal starts accepted state terminal fun gone => ?_
      obtain ⟨sent, dropped⟩ := lost gone
      exact ⟨sent, allowed (by rw [dropped]; exact Option.some_ne_none _)⟩
    refine ⟨session, before, .inr ⟨written.1, .of_open written.2, ?_, ?_⟩⟩
    · exact fun o inside => tracks.settled_live member own before starts here allowed inside
    · exact fun q still goal => absurd goal (answered still)
  · exact ⟨later, before, .inl .refl⟩

theorem Tends.trans {heard : Option Frame} {before after : Option UInt64} {middle next : Books}
    (first : books.Tends heard before middle)
    (second : middle.Tracks before → middle.Tends heard after next) :
    books.Tends heard after next :=
  ⟨(second first.1).1, first.2.trans (second first.1).2⟩

theorem Tends.quietly {heard : Option Frame} {next : Books} (tends : books.Tends none gone next) :
    books.Tends heard gone next := by
  refine ⟨tends.1, fun s session known => ?_⟩
  obtain ⟨later, known, becomes⟩ := tends.2 known
  refine ⟨later, known, ?_, becomes.final⟩
  exact becomes.feedback.imp id fun ⟨_, _, here, _⟩ => nomatch here

end Books

variable {f : Frame} {connection : UInt64}

namespace Node

variable {gone : Option UInt64} {node : Node}

theorem tends_finish {index : Nat} {p : Pending} {completion : Completion}
    (balanced : node.books.Balanced) (tracks : node.books.Tracks gone)
    (present : node.pending[index]? = some p)
    (allowed : gone ≠ none → completion.code ≠ 0 ∧ completion.confirmed = false) :
    node.books.Tends none gone (node.finish index completion).books := by
  obtain ⟨batch, known⟩ := balanced.batch_of_pending present
  rw [finish_books_eq completion present known]
  cases starts : batch.startsGoals with
  | false =>
    refine tracks.finish_other known fun t here => ?_
    obtain ⟨result, placed, action⟩ := Option.bind_eq_some_iff.mp here
    by_contra other
    refine tracks.cancels (p.batch, p.index) t ?_
    rw [Books.purposeAt_of_known known, Batch.purpose, placed, starts, eq_false_of_ne_true other,
      Option.map_some, action]
  | true =>
    cases here : batch.sessionAt p.index with
    | none => exact tracks.finish_other known fun t found => nomatch here.symm.trans found
    | some s => exact tracks.finish_goal balanced.apart present known starts here allowed

theorem finish_pending {index : Nat} {p : Pending} {completion : Completion}
    (balanced : node.books.Balanced) (present : node.pending[index]? = some p) :
    (node.finish index completion).pending = node.pending.eraseIdx index := by
  obtain ⟨batch, known⟩ := balanced.batch_of_pending present
  exact congrArg Books.pending (finish_books_eq completion present known)

/-! ## Lost connections -/

/-- The same edit in several places of a list. -/
theorem getElem?_foldl_modify {α β : Type} (edit : α → α) (key : β → Nat)
    (idempotent : ∀ item, edit (edit item) = edit item) (places : List β) (items : List α)
    (t : Nat) :
    (places.foldl (fun items place => items.modify (key place) edit) items)[t]? =
      items[t]?.map fun item => if t ∈ places.map key then edit item else item := by
  induction places generalizing items with
  | nil => simp
  | cons place places ih =>
    rw [foldl_cons, ih, getElem?_modify, Option.map_eq_map, Option.map_map]
    congr 1
    funext item
    simp only [Function.comp_apply, map_cons, mem_cons]
    by_cases first : key place = t
    · simp only [first.symm, true_or, if_true, idempotent, ite_self]
    · simp only [if_neg first, Ne.symm first, false_or]

theorem length_foldl_modify {α β : Type} (edit : α → α) (key : β → Nat) (places : List β)
    (items : List α) :
    (places.foldl (fun items place => items.modify (key place) edit) items).length =
      items.length := by
  induction places generalizing items with
  | nil => rfl
  | cons place places ih => rw [foldl_cons, ih, length_modify]

/-- What `Drop` writes to the session of a goal. -/
def lose (session : ActionSession) : ActionSession :=
  { session with snapshot := { session.snapshot with
      communicationLost := true, error := errorCode Errno.econnreset } }

theorem detach_sessions (connection : UInt64) :
    (node.detach connection).sessions =
      (node.outgoing.filter fun o => o.connection = connection).foldl
        (fun sessions o => sessions.modify o.session lose) node.sessions :=
  rfl

theorem detach_session {t : Nat} {later : ActionSession}
    (found : (node.detach connection).sessions[t]? = some later) :
    ∃ session, node.sessions[t]? = some session ∧
      ((∃ o ∈ node.outgoing, o.connection = connection ∧ o.session = t) ∧ later = lose session ∨
        (∀ o ∈ node.outgoing, o.session = t → o.connection ≠ connection) ∧ later = session) := by
  have idempotent (session : ActionSession) : lose (lose session) = lose session := rfl
  rw [detach_sessions, getElem?_foldl_modify lose Outgoing.session idempotent] at found
  obtain ⟨session, found, same⟩ := Option.map_eq_some_iff.mp found
  refine ⟨session, found, ?_⟩
  split at same
  next inside =>
    obtain ⟨o, member, here⟩ := mem_map.mp inside
    obtain ⟨member, lost⟩ := mem_filter.mp member
    exact .inl ⟨⟨o, member, of_decide_eq_true lost, here⟩, same.symm⟩
  next outside =>
    refine .inr ⟨fun o member here lost => outside ?_, same.symm⟩
    exact mem_map.mpr ⟨o, mem_filter.mpr ⟨member, decide_eq_true lost⟩, here⟩

/-- `Drop` loses the goals of the connection, whether they were answered or not. -/
theorem tends_detach (tracks : node.books.Tracks none) (connection : UInt64) :
    node.books.Tends none (some connection) (node.detach connection).books := by
  have length : (node.detach connection).sessions.length = node.sessions.length := by
    rw [detach_sessions]
    exact length_foldl_modify _ _ _ _
  refine tracks.edit (.inl rfl) rfl (Subset.refl _) filter_sublist length fun s later found => ?_
  obtain ⟨session, before, ⟨⟨o, member, lost, rfl⟩, rfl⟩ | ⟨_, rfl⟩⟩ := detach_session found
  · have live := tracks.live o member before
    obtain ⟨open_, _⟩ := not_or.mp live
    refine ⟨session, before, .inr
      ⟨⟨.inl ⟨rfl, rfl⟩, fun final => absurd final live⟩, ⟨?_, ?_⟩, ?_, ?_⟩⟩
    · exact fun both => open_ both.1
    · exact fun ended => absurd ended open_
    · intro other inside same
      obtain ⟨inside, kept⟩ := mem_filter.mp inside
      have equal := inj_on_of_nodup_map tracks.single inside member same
      rw [equal] at kept
      exact absurd lost (of_decide_eq_true kept)
    · intro p waiting goal
      obtain ⟨accepted, state, terminal, -⟩ := tracks.untouched p waiting goal before
      obtain ⟨sent, same⟩ := tracks.owner p waiting o member goal
      exact ⟨accepted, state, terminal, fun _ => ⟨sent, by rw [same, lost]⟩⟩
  · exact ⟨later, before, .inl .refl⟩

/-- `Drop` completes the requests of the connection from the last one on. -/
theorem tends_finishSent {count : Nat} (balanced : node.books.Balanced)
    (tracks : node.books.Tracks (some connection))
    (done : ∀ i p, count ≤ i → node.pending[i]? = some p →
      ¬(p.sent = true ∧ p.connection = connection)) :
    node.books.Tends none none (node.finishSent connection { code := errorCode Errno.econnreset }
      count).books := by
  induction count generalizing node with
  | zero =>
    refine ⟨{ tracks with untouched := ?_ }, .refl⟩
    intro p waiting s session goal found
    obtain ⟨accepted, state, terminal, lost⟩ := tracks.untouched p waiting goal found
    refine ⟨accepted, state, terminal, fun gone => ?_⟩
    obtain ⟨i, present⟩ := mem_iff_getElem?.mp waiting
    obtain ⟨sent, same⟩ := lost gone
    exact absurd ⟨sent, (Option.some.inj same).symm⟩ (done i p (Nat.zero_le _) present)
  | succ index ih =>
    have skip (p : Pending) (present : node.pending[index]? = some p)
        (other : ¬(p.sent = true ∧ p.connection = connection)) (i : Nat) (q : Pending)
        (bound : index ≤ i) (found : node.pending[i]? = some q) :
        ¬(q.sent = true ∧ q.connection = connection) := by
      rcases Nat.eq_or_lt_of_le bound with rfl | above
      · cases present.symm.trans found
        exact other
      · exact done i q above found
    unfold finishSent
    cases present : node.pending[index]? with
    | none =>
      refine ih balanced tracks fun i p bound found => ?_
      have short := List.getElem?_eq_none_iff.mp present
      have inside := (List.getElem?_eq_some_iff.mp found).1
      omega
    | some p =>
      by_cases own : p.sent = true ∧ p.connection = connection
      · simp only [own, and_self, if_true]
        have failed : errorCode Errno.econnreset ≠ 0 := by decide
        have first : node.books.Tends none (some connection)
            (node.finish index { code := errorCode Errno.econnreset }).books :=
          tends_finish balanced tracks present fun _ => ⟨failed, rfl⟩
        refine first.trans fun tracks => ?_
        refine ih (keeps_finish balanced index _).1 tracks fun i q bound found => ?_
        rw [finish_pending balanced present, getElem?_eraseIdx_of_ge bound] at found
        exact done (i + 1) q (Nat.add_le_add_right bound 1) found
      · simp only [own, if_false]
        exact ih balanced tracks (skip p present own)

theorem tends_abandon (balanced : node.books.Balanced) (tracks : node.books.Tracks none)
    (connection : UInt64) : node.books.Tends none none (node.abandon connection).books := by
  refine (tends_detach tracks connection).trans fun tracks => ?_
  have detached : node.books.Keeps (node.detach connection).books :=
    balanced.keeps_untrack filter_sublist
  refine tends_finishSent detached.1 tracks fun i p bound found => ?_
  have inside := (List.getElem?_eq_some_iff.mp found).1
  exact absurd inside (not_lt.mpr bound)

/-! ## Events -/

/-- The tracked goal that an event is about. -/
theorem findOutgoing_eq_some {c : Connection}
    (found : node.findOutgoing c f = some (s, session)) :
    ∃ o ∈ node.outgoing, o.session = s ∧ o.connection = c.id ∧
      node.sessions[s]? = some session := by
  obtain ⟨o, member, matches_⟩ := exists_of_findSome?_eq_some found
  split at matches_
  next known =>
    split at matches_
    next same =>
      cases matches_
      exact ⟨o, member, rfl, same.1, known⟩
    · cases matches_
  · cases matches_

/-- What an event does to the snapshot of an accepted goal. -/
theorem observe_becomes {a : ActionSnapshot} (live : ¬a.Final)
    (newer : f.operation = .actionFeedback → a.feedbackSequence < f.feedbackSequence) :
    a.Becomes (some f) (a.observe f) := by
  refine ⟨?_, fun final => absurd final live⟩
  unfold ActionSnapshot.observe
  split
  next feedback => exact .inr ⟨newer feedback, f, rfl, feedback, rfl, rfl⟩
  split
  · exact .inl ⟨rfl, rfl⟩
  · exact .inl ⟨rfl, rfl⟩

theorem observe_coherent {a : ActionSnapshot} (live : ¬a.Final)
    (accepted : a.accepted = true) : (a.observe f).Coherent := by
  unfold ActionSnapshot.Final at live
  simp only [not_or, Bool.not_eq_true] at live
  unfold ActionSnapshot.observe
  split
  · exact .of_open live.1
  split
  · exact .of_open live.1
  · exact ⟨fun both => by simp [live.2] at both, fun _ => accepted⟩

/-- Feedback leaves the goal open. -/
theorem observe_live {a : ActionSnapshot} (live : ¬a.Final)
    (feedback : f.operation = .actionFeedback) : ¬(a.observe f).Final := by
  unfold ActionSnapshot.observe
  rw [if_pos feedback]
  exact live

/-- The goal of a result is not tracked any more. -/
theorem eraseP_session {outgoing : List Outgoing}
    (single : (outgoing.map Outgoing.session).Nodup)
    (present : ∃ o ∈ outgoing, o.connection = connection ∧ o.session = s) {o : Outgoing}
    (left : o ∈ outgoing.eraseP fun o => o.connection = connection ∧ o.session = s) :
    o.session ≠ s := by
  obtain ⟨first, inside, matches_⟩ := present
  obtain ⟨a, before, after, _, own, split, erased⟩ :=
    exists_of_eraseP (p := fun o => o.connection = connection ∧ o.session = s) inside
      (decide_eq_true matches_)
  rw [erased] at left
  rw [split, map_append, map_cons, nodup_middle] at single
  have fresh := (nodup_cons.mp single).1
  rw [← map_append] at fresh
  intro same
  refine fresh (mem_map.mpr ⟨o, left, ?_⟩)
  exact same.trans (of_decide_eq_true own).2.symm

end Node

/-- An event of a tracked goal. -/
theorem Books.Tracks.event {books : Books}
    {outgoing : List Outgoing} (tracks : books.Tracks none)
    (known : books.sessions[s]? = some session) (live : ¬session.snapshot.Final)
    (accepted : session.snapshot.accepted = true)
    (newer : f.operation = .actionFeedback →
      session.snapshot.feedbackSequence < f.feedbackSequence)
    (fewer : outgoing.Sublist books.outgoing)
    (open_ : ∀ o ∈ outgoing, o.session = s → f.operation = .actionFeedback) :
    books.Tends (some f) none { books with
      sessions := books.sessions.set s { session with snapshot := session.snapshot.observe f }
      outgoing } := by
  refine tracks.edit (.inl rfl) rfl (Subset.refl _) fewer length_set fun t later found => ?_
  rcases getElem?_set_cases found with ⟨rfl, rfl⟩ | ⟨_, found⟩
  · refine ⟨session, known, .inr ⟨Node.observe_becomes live newer,
      Node.observe_coherent live accepted, ?_, fun p waiting goal => ?_⟩⟩
    · exact fun o member same => Node.observe_live live (open_ o member same)
    · cases accepted.symm.trans (tracks.untouched p waiting goal known).1
  · exact ⟨later, found, .inl .refl⟩

namespace Node

variable {node : Node}

theorem tends_event (tracks : node.books.Tracks none) (c : Connection) (f : Frame) :
    node.books.Tends (some f) none (node.receiveEvent c f).node.books := by
  unfold receiveEvent
  split
  · exact ⟨tracks, .refl⟩
  next s session found =>
    obtain ⟨o, member, rfl, own, known⟩ := findOutgoing_eq_some found
    split
    · exact ⟨tracks, .refl⟩
    next passed =>
      split
      · exact ⟨tracks, .refl⟩
      next newer =>
        have accepted : session.snapshot.accepted = true := by
          by_contra refused
          exact passed (.inr (eq_false_of_ne_true refused))
        have live : ¬session.snapshot.Final := tracks.live o member known
        have newer (feedback : f.operation = .actionFeedback) :
            session.snapshot.feedbackSequence < f.feedbackSequence :=
          UInt64.not_le.mp fun old => newer ⟨feedback, old⟩
        by_cases feedback : f.operation = .actionFeedback
        · rw [if_pos feedback]
          exact tracks.event known live accepted newer (.refl _) fun _ _ _ => feedback
        · rw [if_neg feedback]
          refine tracks.event known live accepted newer eraseP_sublist ?_
          exact fun other left same =>
            absurd same (eraseP_session tracks.single ⟨o, member, own, rfl⟩ left)

/-! ## Sending -/

/-- The goal that a request tracks once it is sent, if it starts one. -/
def trackedBy (p : Pending) (batch : Batch) (connection : UInt64) : List Outgoing :=
  if batch.startsGoals then
    match batch.sessionAt p.index with
    | some s => [⟨s, connection⟩]
    | none => []
  else []

theorem markSent_outgoing (index : Nat) (p : Pending) (batch : Batch) (connection : UInt64) :
    (node.markSent index p batch connection).outgoing =
      node.outgoing ++ trackedBy p batch connection := by
  unfold markSent trackedBy Batch.sessionAt
  dsimp only
  cases batch.startsGoals with
  | false => simp
  | true =>
    cases batch.result.endpoints[p.index]?.bind EndpointResult.action with
    | none => simp
    | some s => simp

theorem trackedBy_cases {p : Pending} {batch : Batch} :
    trackedBy p batch connection = [] ∨ ∃ s, trackedBy p batch connection = [⟨s, connection⟩] ∧
      batch.startsGoals = true ∧ batch.sessionAt p.index = some s := by
  unfold trackedBy
  split
  next starts =>
    split
    next s here => exact .inr ⟨s, rfl, starts, here⟩
    · exact .inl rfl
  · exact .inl rfl

theorem tends_send {index : Nat} {p : Pending} {batch : Batch}
    (balanced : node.books.Balanced) (tracks : node.books.Tracks none) (connection : UInt64)
    (present : node.pending[index]? = some p) (unsent : p.sent = false)
    (known : node.batches[p.batch]? = some batch) :
    node.books.Tends none none
      (node.markSent index { p with frame := f } batch connection).books := by
  let sent : Pending := { p with frame := f, sent := true, connection }
  let added := trackedBy { p with frame := f } batch connection
  let next := (node.markSent index { p with frame := f } batch connection).books
  have outgoing : next.outgoing = node.outgoing ++ added := markSent_outgoing index _ _ _
  have member : p ∈ node.books.pending := mem_of_getElem? present
  have keys : next.keys = node.books.keys := Keyed.map_set present rfl
  have inside : sent ∈ next.pending := List.mem_set (List.getElem?_eq_some_iff.mp present).1 sent
  have new {o : Outgoing} (here : o ∈ added) :
      node.books.goalAt (p.batch, p.index) = some o.session ∧ o.connection = connection := by
    rcases trackedBy_cases (p := { p with frame := f }) with none_ | ⟨s, one, starts, session⟩
    · rw [show added = [] from none_] at here
      cases here
    · rw [show added = [⟨s, connection⟩] from one, mem_singleton] at here
      subst here
      rw [Books.goalAt_of_known known, if_pos starts]
      exact ⟨session, rfl⟩
  have pending {q : Pending} (waiting : q ∈ next.pending) : q = sent ∨ q ∈ node.pending :=
    (mem_or_eq_of_mem_set waiting).symm
  refine ⟨?_, .refl⟩
  change next.Tracks none
  refine { tracks with
    outgoing := ?outgoing, single := ?single, owner := ?owner, untouched := ?untouched,
    live := ?live }
  case outgoing =>
    intro o tracked
    rw [outgoing] at tracked
    rcases mem_append.mp tracked with old | here
    · exact tracks.outgoing o old
    · exact tracks.known (new here).1
  case single =>
    rw [outgoing, map_append]
    refine nodup_append.mpr ⟨tracks.single, ?_, ?_⟩
    · rcases trackedBy_cases (p := { p with frame := f }) with none_ | ⟨s, one, _, _⟩
      · rw [show added = [] from none_]
        exact nodup_nil
      · rw [show added = [⟨s, connection⟩] from one]
        exact nodup_singleton _
    · intro s old t here same
      obtain ⟨first, tracked, rfl⟩ := mem_map.mp old
      obtain ⟨o, added, rfl⟩ := mem_map.mp here
      have early := (tracks.owner p member first tracked (same ▸ (new added).1)).1
      rw [unsent] at early
      cases early
  case owner =>
    intro q waiting o tracked goal
    rw [outgoing] at tracked
    rcases mem_append.mp tracked with old | here
    · rcases pending waiting with rfl | before
      · have early := (tracks.owner p member o old goal).1
        rw [unsent] at early
        cases early
      · exact tracks.owner q before o old goal
    · have key := tracks.unique goal (new here).1
      have equal : q = sent := by
        refine inj_on_of_nodup_map (f := fun p : Pending => (p.batch, p.index)) ?_ waiting
          inside key
        exact (congrArg Nodup keys).mpr balanced.apart
      rw [equal]
      exact ⟨rfl, (new here).2.symm⟩
  case untouched =>
    intro q waiting s session goal found
    rcases pending waiting with rfl | before
    · obtain ⟨accepted, state, terminal, lost⟩ := tracks.untouched p member goal found
      exact ⟨accepted, state, terminal, fun gone => nomatch (lost gone).2⟩
    · exact tracks.untouched q before goal found
  case live =>
    intro o tracked session found
    rw [outgoing] at tracked
    rcases mem_append.mp tracked with old | here
    · exact tracks.live o old found
    · obtain ⟨-, -, terminal, lost⟩ := tracks.untouched p member (new here).1 found
      rintro (ended | gone)
      · rw [terminal] at ended
        cases ended
      · cases (lost gone).2

end Node

/-! ## Submission and admission -/

namespace Books

variable {books : Books}

/-- A batch without results has no goals. -/
theorem Tracks.append (tracks : books.Tracks none) {batch : Batch} {submissions : List Nat}
    (empty : batch.result.endpoints = []) :
    books.Tends none none { books with batches := books.batches ++ [batch], submissions } := by
  refine tracks.edit (.inl rfl) ?_ (Subset.refl _) (.refl _) rfl
    fun s session known => ⟨session, known, .inl .refl⟩
  funext ⟨b, i⟩
  change ((books.batches ++ [batch])[b]?).bind _ = (books.batches[b]?).bind _
  rw [getElem?_append]
  split_ifs with inside
  · rfl
  · rw [getElem?_eq_none (not_lt.mp inside)]
    cases found : [batch][b - books.batches.length]? with
    | none => rfl
    | some last =>
      rw [mem_singleton.mp (mem_of_getElem? found)]
      simp [Batch.purpose, empty]

/-- A batch that is decided as a whole keeps its results. -/
theorem Tracks.reject (tracks : books.Tracks none) {b : Nat} {batch : Batch} (code : Int32)
    (known : books.batches[b]? = some batch) :
    books.Tends none none (books.setBatch b (batch.reject code)) :=
  tracks.edit (.inl rfl) (purposeAt_set known rfl rfl) (Subset.refl _) (.refl _) rfl
    fun _ session known => ⟨session, known, .inl .refl⟩

end Books

namespace Node

variable {gateway : Gateway} {node : Node} {b position : Nat} {batch old : Batch}
variable {endpoint : NetworkEndpointMetadata}

/-- The session that `Admit` creates for a goal. -/
def newSessions (gateway : Gateway) (node : Node) (batch : Batch)
    (endpoint : NetworkEndpointMetadata) : List ActionSession :=
  if batch.startsGoals then
    [{ snapshot := { goal := (node.requestFor gateway batch endpoint).goal,
                     endpoint := endpoint.identity }
       request := node.requestFor gateway batch endpoint }]
  else []

theorem enqueue_sessions (b position : Nat) :
    (node.enqueue gateway b batch endpoint position).sessions =
      node.sessions ++ newSessions gateway node batch endpoint := by
  unfold enqueue newSessions
  dsimp only
  split
  · rfl
  · exact (append_nil _).symm

theorem newSessions_fresh
    (new : session ∈ newSessions gateway node batch endpoint) :
    session.snapshot.accepted = false ∧ session.snapshot.state = .idle ∧
      session.snapshot.terminal = false ∧ session.snapshot.communicationLost = false := by
  unfold newSessions at new
  split at new
  · rw [mem_singleton] at new
    rw [new]
    exact ⟨rfl, rfl, rfl, rfl⟩
  · cases new

section Enqueue

variable (known : node.batches[b]? = some old) (starts : old.startsGoals = batch.startsGoals)
  (cancel : old.cancel = batch.cancel) (place : old.result.endpoints.length = position)
include known starts cancel place

/-- The results of the batches, with one more for the next endpoint. -/
theorem purposeAt_enqueue (key : Nat × Nat) :
    (node.enqueue gateway b batch endpoint position).books.purposeAt key =
      if key = (b, position) then
        some ⟨batch.startsGoals, batch.cancel.isSome, node.sessionFor batch⟩
      else node.books.purposeAt key := by
  obtain ⟨c, i⟩ := key
  by_cases here : c = b
  · subst here
    have before : node.books.batches[c]? = some old := known
    have after : (node.enqueue gateway c batch endpoint position).books.batches[c]? = _ :=
      (getElem?_modify_eq _ _ _).trans (congrArg _ known)
    rw [Books.purposeAt_of_known before, Books.purposeAt_of_known after]
    change ((old.result.endpoints ++ [_])[i]?).map
      (fun result => Purpose.mk old.startsGoals old.cancel.isSome result.action) = _
    rw [starts, cancel]
    split
    next last =>
      rw [(Prod.mk.inj last).2, ← place, getElem?_concat_length]
      rfl
    next other =>
      have apart : i ≠ old.result.endpoints.length := fun same => other (by rw [same, place])
      have same (result : EndpointResult) : (old.result.endpoints ++ [result])[i]? =
          old.result.endpoints[i]? := by grind
      rw [same, Batch.purpose, starts, cancel]
  · have apart : (c, i) ≠ (b, position) := fun same => here (Prod.mk.inj same).1
    rw [if_neg apart]
    exact congrArg (Option.bind · _) (getElem?_modify_ne _ _ (Ne.symm here))

/-- `Admit` adds one request, and for a goal a session of its own. -/
theorem tends_enqueue (tracks : node.books.Tracks none) :
    node.books.Tends none none (node.enqueue gateway b batch endpoint position).books := by
  let next := (node.enqueue gateway b batch endpoint position).books
  have sessions : next.sessions = node.sessions ++ newSessions gateway node batch endpoint :=
    enqueue_sessions b position
  have grows : node.sessions.length ≤ next.sessions.length := by
    rw [sessions, length_append]
    exact Nat.le_add_right _ _
  have kept {t : Nat} (inside : t < node.sessions.length) :
      next.sessions[t]? = node.sessions[t]? := by
    rw [sessions, getElem?_append_left inside]
  have purposes : ∀ key, next.purposeAt key = _ := purposeAt_enqueue known starts cancel place
  -- a goal is an old one, or the new one of the next session
  have goals {key : Nat × Nat} {s : Nat} (goal : next.goalAt key = some s) :
      node.books.goalAt key = some s ∨
        key = (b, position) ∧ batch.startsGoals = true ∧ s = node.sessions.length := by
    unfold Books.goalAt at goal
    rw [purposes] at goal
    split at goal
    next here =>
      obtain ⟨begins, action⟩ := Option.ite_none_right_eq_some.mp goal
      rw [sessionFor, if_pos begins] at action
      exact .inr ⟨here, begins, (Option.some.inj action).symm⟩
    · exact .inl goal
  let entry : Pending :=
    { batch := b, index := position, frame := node.requestFor gateway batch endpoint }
  have request : next.pending = node.pending ++ [entry] := rfl
  have waiting {q : Pending} (member : q ∈ next.pending) :
      q ∈ node.pending ∨ (q.batch, q.index) = (b, position) := by
    rw [request] at member
    exact (Data.mem_snoc member).imp_right fun new => by rw [new]
  have unplaced : node.books.goalAt (b, position) = none := by
    have before : node.books.batches[b]? = some old := known
    rw [Books.goalAt, Books.purposeAt_of_known before, Batch.purpose, getElem?_eq_none place.le]
    rfl
  have earlier {q : Pending} {s : Nat} (member : q ∈ next.pending)
      (goal : node.books.goalAt (q.batch, q.index) = some s) : q ∈ node.pending := by
    refine (waiting member).resolve_right fun key => ?_
    rw [key, unplaced] at goal
    cases goal
  constructor
  · change next.Tracks none
    constructor
    case known =>
      intro key s goal
      rcases goals goal with old | ⟨_, begins, rfl⟩
      · exact (tracks.known old).trans_le grows
      · rw [sessions, newSessions, if_pos begins, length_append]
        exact Nat.lt_succ_self _
    case unique =>
      intro key other s first second
      rcases goals first with old | ⟨rfl, _, new⟩ <;>
        rcases goals second with before | ⟨rfl, _, now⟩
      · exact tracks.unique old before
      · exact absurd (tracks.known old) (by rw [now]; exact lt_irrefl _)
      · exact absurd (tracks.known before) (by rw [new]; exact lt_irrefl _)
      · rfl
    case cancels =>
      intro key s
      rw [purposes]
      split
      · simp only [sessionFor, ne_eq, Option.some.injEq, Purpose.mk.injEq, not_and]
        intro other none_ action
        rw [if_neg (by rw [other]; decide)] at action
        rw [action] at none_
        cases none_
      · exact tracks.cancels key s
    case outgoing => exact fun o tracked => (tracks.outgoing o tracked).trans_le grows
    case single => exact tracks.single
    case owner =>
      intro q member o tracked goal
      rcases goals goal with old | ⟨_, _, new⟩
      · exact tracks.owner q (earlier member old) o tracked old
      · exact absurd (tracks.outgoing o tracked) (by rw [new]; exact lt_irrefl _)
    case untouched =>
      intro q member s session goal found
      rcases goals goal with old | ⟨_, _, rfl⟩
      · rw [kept (tracks.known old)] at found
        exact tracks.untouched q (earlier member old) old found
      · rw [sessions, getElem?_append_right (le_refl _)] at found
        obtain ⟨accepted, state, terminal, lost⟩ := newSessions_fresh (mem_of_getElem? found)
        exact ⟨accepted, state, terminal, fun gone => by simp [lost] at gone⟩
    case live =>
      intro o tracked session found
      rw [kept (tracks.outgoing o tracked)] at found
      exact tracks.live o tracked found
    case coherent =>
      intro session member
      rw [sessions] at member
      rcases mem_append.mp member with old | new
      · exact tracks.coherent session old
      · obtain ⟨_, _, terminal, _⟩ := newSessions_fresh new
        exact .of_open terminal
  · intro s session found
    have inside := (List.getElem?_eq_some_iff.mp found).1
    exact ⟨session, (kept inside).trans found, .refl⟩

theorem tends_enqueueAll {endpoints : List NetworkEndpointMetadata}
    (tracks : node.books.Tracks none) :
    node.books.Tends none none (enqueueAll gateway b batch endpoints position node).books := by
  induction endpoints generalizing node position old with
  | nil => exact ⟨tracks, .refl⟩
  | cons endpoint rest ih =>
    have first : node.books.Tends none none
        (node.enqueue gateway b batch endpoint position).books :=
      tends_enqueue known starts cancel place tracks
    refine first.trans fun tracks => ?_
    refine ih ((getElem?_modify_eq _ _ _).trans (congrArg _ known)) starts cancel ?_ tracks
    change (old.result.endpoints ++ [_]).length = position + 1
    rw [length_append, place, length_singleton]

end Enqueue

theorem tends_admitBatch {queue : List Nat} (balanced : (node.books.queue (b :: queue)).Balanced)
    (tracks : node.books.Tracks none) (peers : List PeerInfo) :
    node.books.Tends none none (node.admitBatch gateway peers b).books := by
  obtain ⟨batch, known⟩ := balanced.submitted b mem_cons_self
  have empty := (balanced.taken known).empty
  change node.batches[b]? = some batch at known
  unfold admitBatch
  simp only [known]
  split_ifs
  · exact tracks.reject _ known
  · exact tracks.reject _ known
  · exact tracks.reject _ known
  · refine tends_enqueueAll known rfl rfl ?_ tracks
    rw [empty]
    rfl

/-- The submissions are taken, and a loop works through them. -/
theorem tends_taken {turn : Node → Nat → Node}
    (each : ∀ {node : Node} {b queue}, (node.books.queue (b :: queue)).Balanced →
    node.books.Tracks none →
      ((turn node b).books.queue queue).Balanced ∧ node.books.Tends none none (turn node b).books)
    (balanced : node.books.Balanced) (tracks : node.books.Tracks none) :
    node.books.Tends none none
      (node.submissions.foldl turn { node with submissions := [] }).books := by
  have all (queue : List Nat) (node : Node) (balanced : (node.books.queue queue).Balanced)
      (tracks : node.books.Tracks none) :
        node.books.Tends none none (queue.foldl turn node).books := by
    induction queue generalizing node with
    | nil => exact ⟨tracks, .refl⟩
    | cons b queue ih =>
      obtain ⟨balanced, first⟩ := each balanced tracks
      exact first.trans (ih _ balanced)
  exact all _ { node with submissions := [] } balanced { tracks with }

theorem tends_admitPeers (balanced : node.books.Balanced) (tracks : node.books.Tracks none)
    (peers : List PeerInfo) :
    node.books.Tends none none (node.admitPeers gateway peers).books :=
  tends_taken (fun balanced tracks =>
    ⟨(keeps_admitBatch balanced peers).1, tends_admitBatch balanced tracks peers⟩) balanced tracks

theorem tends_submit (tracks : node.books.Tracks none) (submission : Submission) (now : Int) :
    node.books.Tends none none (node.submit submission now).books := by
  unfold submit
  dsimp only
  split_ifs
  · exact tracks.append rfl
  · exact tracks.append rfl
  · exact tracks.append rfl

/-! ## Every step -/

variable {heard : Option Frame} {next : Node}
variable (balanced : node.books.Balanced) (tracks : node.books.Tracks none)
include balanced tracks

theorem Act.tends (act : node.Act gateway heard next) :
    node.books.Tends heard none next.books := by
  cases act with
  | quiet same =>
    rw [same]
    exact ⟨tracks, .refl⟩
  | submit submission now => exact (tends_submit tracks submission now).quietly
  | admitPeers peers => exact (tends_admitPeers balanced tracks peers).quietly
  | finish completion present success =>
    exact (tends_finish balanced tracks present fun some_ => absurd rfl some_).quietly
  | send timeoutMs connection present unsent known =>
    exact (tends_send balanced tracks connection present unsent known).quietly
  | event c here =>
    rw [here]
    exact tends_event tracks c _
  | abandon connection => exact (tends_abandon balanced tracks connection).quietly

theorem Acts.tends (acts : node.Acts gateway heard next) :
    node.books.Tends heard none next.books := by
  induction acts with
  | refl => exact ⟨tracks, .refl⟩
  | tail earlier act ih =>
    exact ih.trans fun tracks => act.tends (Acts.keeps earlier balanced).1 tracks

theorem tends_withdraw : node.books.Tends none none node.withdraw.books := by
  refine tends_taken (fun {node b _} balanced tracks => ⟨(keeps_withdrawBatch balanced).1, ?_⟩)
    balanced tracks
  obtain ⟨batch, known⟩ := balanced.submitted b mem_cons_self
  change node.batches[b]? = some batch at known
  unfold withdrawBatch
  rw [modify_eq_set_getElem?, known]
  exact tracks.reject _ known

theorem Move.tends (move : node.Move heard next) :
    node.books.Tends heard none next.books := by
  cases move with
  | acts gateway acts => exact acts.tends balanced tracks
  | refuse submission now same =>
    rw [same]
    exact (tracks.append rfl).quietly
  | withdraw same =>
    rw [same]
    exact (tends_withdraw balanced tracks).quietly

end Node

/-- A new node has no sessions. -/
theorem Books.Tracks.empty : (Node.books {}).Tracks none := by
  constructor <;> simp [Node.books, Books.goalAt, Books.purposeAt]

theorem tracks_of_reachable {period : Period} (reachable : lifetime.Reachable period) :
    period.node.books.Tracks none := by
  obtain ⟨start, occasions, ⟨gateway, rfl⟩, run⟩ := reachable
  have started : lifetime.initial { gateway } := ⟨gateway, rfl⟩
  induction run with
  | nil => exact .empty
  | snoc earlier step ih =>
    have balanced := balanced_of_reachable ⟨_, _, started, earlier⟩
    exact ((Period.advance_move step).tends balanced ih).1

theorem advances_of_step {period next : Period} {occasion : Occasion}
    (reachable : lifetime.Reachable period) (step : period.advance occasion = some next) :
    period.node.books.Advances (period.heard occasion) next.node.books :=
  ((Period.advance_move step).tends (balanced_of_reachable reachable)
    (tracks_of_reachable reachable)).2

/-- A run moves every snapshot forward. -/
theorem precedes_of_run {period finish : Period} {occasions : List Occasion}
    (reachable : lifetime.Reachable period) (run : lifetime.Run period occasions finish)
    (known : period.node.sessions[s]? = some session) :
    ∃ later, finish.node.sessions[s]? = some later ∧
      session.snapshot.Precedes later.snapshot := by
  induction run with
  | nil => exact ⟨session, known, ⟨.inl ⟨rfl, rfl⟩, fun _ => .refl⟩⟩
  | snoc earlier step ih =>
    obtain ⟨between, known, first⟩ := ih
    obtain ⟨later, known, becomes⟩ := advances_of_step (reachable.run earlier) step known
    exact ⟨later, known, first.trans becomes.precedes⟩

/-- Whatever frames arrive and whatever connections are lost, every snapshot is
coherent; its feedback and the number of the feedback change together, to those of
the frame that is being received; and once it is final its outcome stays. -/
theorem snapshots_move_forward {period : Period} (reachable : lifetime.Reachable period) :
    (∀ session ∈ period.node.sessions,
      ¬(session.snapshot.terminal = true ∧ session.snapshot.communicationLost = true) ∧
        (session.snapshot.terminal = true → session.snapshot.accepted = true)) ∧
    (∀ occasion next, lifetime.step period occasion next →
      ∀ (s : Nat) (session : ActionSession), period.node.sessions[s]? = some session →
        ∃ later, next.node.sessions[s]? = some later ∧
          session.snapshot.FeedbackFrom (period.heard occasion) later.snapshot) ∧
    (∀ occasions finish, lifetime.Run period occasions finish →
      ∀ (s : Nat) (session : ActionSession), period.node.sessions[s]? = some session →
        ∃ later, finish.node.sessions[s]? = some later ∧
          session.snapshot.Precedes later.snapshot) := by
  refine ⟨fun session member => ?_, ?_, ?_⟩
  · have coherent := (tracks_of_reachable reachable).coherent session member
    exact ⟨coherent.apart, coherent.accepted⟩
  · intro occasion next step s session known
    obtain ⟨later, known, becomes⟩ := advances_of_step reachable step known
    exact ⟨later, known, becomes.feedback⟩
  · exact fun occasions finish run s session known => precedes_of_run reachable run known

/-- A goal with feedback, which later ends. -/
theorem snapshots_move_forward_crane : ∃ period finish occasions session later,
    lifetime.Reachable period ∧ lifetime.Run period occasions finish ∧
      period.node.sessions[0]? = some session ∧ finish.node.sessions[0]? = some later ∧
      session.snapshot.feedbackSequence = 3 ∧ session.snapshot.terminal = false ∧
      later.snapshot.terminal = true ∧ session.snapshot.Precedes later.snapshot := by
  have computed : ((Crane.send ++ Crane.progress).foldlM Period.advance
      { gateway := Crane.gateway }).map (fun period =>
        (period.node.sessions[0]?.map fun session =>
          (session.snapshot.feedbackSequence, session.snapshot.terminal),
        (Crane.finish.foldlM Period.advance period).map fun finish =>
          finish.node.sessions[0]?.map fun session => session.snapshot.terminal)) =
      some (some (3, false), some (some true)) := by
    decide +kernel
  obtain ⟨period, reachable, seen⟩ := lifetime_computed _ _ computed
  obtain ⟨first, rest⟩ := Prod.mk.inj seen
  obtain ⟨session, known, fields⟩ := Option.map_eq_some_iff.mp first
  obtain ⟨sequence, terminal⟩ := Prod.mk.inj fields
  obtain ⟨finish, steps, last⟩ := Option.map_eq_some_iff.mp rest
  obtain ⟨later, found, ended⟩ := Option.map_eq_some_iff.mp last
  have run : lifetime.Run period Crane.finish finish := .of_foldlM (fun _ _ _ done => done) steps
  obtain ⟨_, again, precedes⟩ := (snapshots_move_forward reachable).2.2 _ _ run 0 session known
  cases found.symm.trans again
  exact ⟨period, finish, _, session, later, reachable, run, known, found, sequence, terminal, ended,
    precedes⟩

end Kcf.Network.Control
