import Kcf.Data.Snoc
import Kcf.Ipc.Channel.Reading

/-!
# What a reader has consumed

A log of the reads that one reader has completed is kept beside the channel.  The
successful `ReadNext` calls of the log cut the sequences between the start cursor
and the cursor into intervals: a delivered sequence, and behind it the missed ones.
-/

namespace Kcf.Ipc.Channel

open Kcf.Transition List Function

variable {ring : Ring} {ι : Type} {size : Nat}

/-! ## Intervals of sequences -/

/-- The sequence is counted in `missed`. -/
def Delivery.Misses (delivery : Delivery) (sequence : Nat) : Prop :=
  delivery.sequence ≤ sequence + delivery.missed ∧ sequence < delivery.sequence
  deriving Decidable

/-- Each delivery goes on where the one before it ended. -/
inductive Consumes (start : Nat) : List Delivery → Nat → Prop where
  | nil : Consumes start [] start
  | snoc {deliveries : List Delivery} {cursor : Nat} (missed : Nat) :
      Consumes start deliveries cursor →
        Consumes start (deliveries ++ [⟨cursor + 1 + missed, missed⟩]) (cursor + 1 + missed)

namespace Consumes

variable {start cursor : Nat} {deliveries : List Delivery}

section

variable (consumes : Consumes start deliveries cursor)
include consumes

theorem cursor_eq : cursor = start + (deliveries.map fun delivery => 1 + delivery.missed).sum := by
  induction consumes with
  | nil => rfl
  | snoc missed _ ih =>
    rw [map_append, sum_append, ← Nat.add_assoc, ← ih]
    exact Nat.add_assoc _ _ _

theorem bounds :
    start ≤ cursor ∧ ∀ delivery ∈ deliveries,
      start + delivery.missed < delivery.sequence ∧ delivery.sequence ≤ cursor := by
  induction consumes with
  | nil => exact ⟨le_rfl, nofun⟩
  | @snoc deliveries cursor missed _ ih =>
    obtain ⟨grown, before⟩ := ih
    refine ⟨by omega, Data.forall_snoc (fun delivery earlier => ?_) ?_⟩
    · have bounds := before delivery earlier
      omega
    · dsimp only
      omega

theorem increasing : (deliveries.map Delivery.sequence).Pairwise (· < ·) := by
  induction consumes with
  | nil => exact .nil
  | @snoc deliveries cursor missed consumes ih =>
    rw [map_append]
    refine Data.pairwise_snoc ih fun earlier member => ?_
    obtain ⟨delivery, inside, rfl⟩ := mem_map.mp member
    have bound := (consumes.bounds.2 delivery inside).2
    dsimp only
    omega

/-- A sequence behind the start is delivered once, or missed once. -/
theorem once (sequence : Nat) :
    deliveries.countP (fun delivery => delivery.sequence = sequence) +
        deliveries.countP (fun delivery => delivery.Misses sequence) =
      if start < sequence ∧ sequence ≤ cursor then 1 else 0 := by
  induction consumes with
  | nil =>
    rw [if_neg (by omega)]
    rfl
  | @snoc deliveries cursor missed consumes ih =>
    have grown := consumes.bounds.1
    have last : (if cursor + 1 + missed = sequence then 1 else 0) +
        (if Delivery.Misses ⟨cursor + 1 + missed, missed⟩ sequence then 1 else 0) =
          if cursor < sequence ∧ sequence ≤ cursor + 1 + missed then 1 else 0 := by
      have missing : Delivery.Misses ⟨cursor + 1 + missed, missed⟩ sequence ↔
          cursor < sequence ∧ sequence < cursor + 1 + missed := by
        unfold Delivery.Misses
        dsimp only
        omega
      by_cases reached : cursor + 1 + missed = sequence
      · rw [if_pos reached, if_neg (by rw [missing]; omega), if_pos (by omega)]
      · by_cases inside : cursor < sequence ∧ sequence ≤ cursor + 1 + missed
        · rw [if_neg reached, if_pos (by rw [missing]; omega), if_pos inside]
        · rw [if_neg reached, if_neg (by rw [missing]; omega), if_neg inside]
    have whole : (if start < sequence ∧ sequence ≤ cursor then 1 else 0) +
        (if cursor < sequence ∧ sequence ≤ cursor + 1 + missed then 1 else 0) =
          if start < sequence ∧ sequence ≤ cursor + 1 + missed then 1 else 0 := by
      by_cases early : sequence ≤ cursor
      · rw [if_neg (by omega : ¬(cursor < sequence ∧ _)), Nat.add_zero]
        exact if_congr (by omega) rfl rfl
      · rw [if_neg (by omega : ¬(start < sequence ∧ sequence ≤ cursor)), Nat.zero_add]
        exact if_congr (by omega) rfl rfl
    rw [countP_append, countP_append, countP_singleton, countP_singleton, ← whole, ← ih, ← last]
    simp only [decide_eq_true_eq]
    omega

end

end Consumes

/-! ## The log of a reader -/

/-- The lookup of the read in progress. -/
def ReaderPc.lookup : ReaderPc size → Option Lookup
  | .idle | .load _ | .done _ => none
  | .loadUsers lookup | .pin lookup _ | .loadVersion lookup | .loadPublished lookup _
  | .check lookup _ _ | .reject lookup | .copy lookup _ _ _ | .reloadVersion lookup _ _
  | .unpin lookup _ _ _ => some lookup

/-- The kind of the read in progress. -/
def ReaderPc.kind : ReaderPc size → Option ReadKind
  | .load kind => some kind
  | pc => pc.lookup.map Lookup.kind

/-- A read that has come to its result. -/
abbrev Completed (size : Nat) := ReadKind × ReadResult size

/-- The result, if this is the end of a read. -/
def ReaderPc.ended (kind : ReadKind) : ReaderPc size → Option (Completed size)
  | .done result => some (kind, result)
  | _ => none

variable {actions : List (Action ring ι)}

section Log

variable [DecidableEq ι]

/-- The read of this reader that a step completes. -/
def completed (reader : ι) (state next : State ring ι) :
    Action ring ι → Option (Completed ring.size)
  | .read other kind _ => if other = reader then (next.readers reader).pc.ended kind else none
  | .reader other =>
    if other = reader then
      (state.readers reader).pc.kind.bind fun kind => (next.readers reader).pc.ended kind
    else none
  | _ => none

/-- The channel with the log of one reader, which stays open. -/
def accounting (ring : Ring) (ι : Type) [DecidableEq ι] (reader : ι) :
    System (State ring ι × List (Completed ring.size)) (Action ring ι) where
  initial state := Fresh state.1 ∧ state.2 = []
  step state action next :=
    step state.1 action = some next.1 ∧ action ≠ .close reader ∧
      (∀ start, action ≠ .openAt reader start) ∧
      next.2 = state.2 ++ (completed reader state.1 next.1 action).toList

/-- Every run in which the reader stays open has a log. -/
theorem accounting_of_run {reader : ι} {first last : State ring ι}
    (run : (system ring ι).Run first actions last)
    (open_ : .close reader ∉ actions ∧ ∀ start, .openAt reader start ∉ actions)
    (log : List (Completed ring.size)) :
    ∃ later, (accounting ring ι reader).Run (first, log) actions (last, later) := by
  induction run with
  | nil => exact ⟨log, .nil _⟩
  | snoc _ stepped ih =>
    simp only [mem_append, mem_singleton, not_or] at open_
    obtain ⟨later, before⟩ := ih ⟨open_.1.1, fun start => (open_.2 start).1⟩
    exact ⟨later ++ (completed reader _ _ _).toList,
      .snoc before ⟨stepped, Ne.symm open_.1.2, fun start => Ne.symm (open_.2 start).2, rfl⟩⟩

end Log

/-- The successful `ReadNext` calls of a log. -/
def delivery : Completed size → Option Delivery
  | (.next, .ok sequence missed _) => some ⟨sequence, missed⟩
  | _ => none

/-! ## The outputs of the caller -/

/-- What the caller's `value` and `info` hold. -/
def Reader.outputs (reader : Reader size) : Payload size × Delivery := (reader.value, reader.info)

/-- No read of this log has succeeded. -/
def AllFailed (log : List (Completed size)) : Prop :=
  ∀ entry ∈ log, ∃ code, entry.2 = .error code

/-- One turn of the loop of `ReadLatestSnapshot`: `stopped_` is set, or `ReadLatest` is called
and `publish_sequence` loaded behind it. -/
inductive SnapshotTurn (size : Nat) where
  | stopped
  | attempt (result : ReadResult size) (published : Nat)

/-- `ReadLatestSnapshot`: what it returns after these turns. -/
def readLatestSnapshot : List (SnapshotTurn size) → Option (Except Int (Nat × Payload size))
  | [] => none
  | .stopped :: _ => some (.error (-Errno.ecanceled))
  | .attempt (.ok sequence _ value) _ :: _ => some (.ok (sequence, value))
  | .attempt (.error code) published :: turns =>
    if code ≠ -Errno.eagain ∨ published = 0 then some (.error code)
    else readLatestSnapshot turns

/-- The call of `ReadLatest` in a turn. -/
def SnapshotTurn.completed : SnapshotTurn size → Option (Completed size)
  | .stopped => none
  | .attempt result _ => some (.latest, result)

/-! ## Steps -/

/-- A lookup of `ReadNext` has counted what it skips. -/
def Counting (reader : Reader size) : Prop :=
  ∀ lookup, reader.pc.lookup = some lookup → lookup.kind = .next →
    lookup.wanted = reader.cursor + 1 + lookup.missed

/-- How a completed read moves the cursor. -/
def Advances (before after : Nat) (entry : Option (Completed size)) : Prop :=
  match entry.bind delivery with
  | some delivery => after = delivery.sequence ∧ delivery.sequence = before + 1 + delivery.missed
  | none => after = before

/-- What a step does to a reader, given the read that it completes. -/
structure Leaves (before after : Reader size) (entry : Option (Completed size)) : Prop where
  counting : Counting after
  cursor : Advances before.cursor after.cursor entry
  outputs : AllFailed entry.toList → after.outputs = before.outputs

theorem lookup_nextLookup (lookup : Lookup) :
    (nextLookup lookup : ReaderPc ring.size).lookup =
      if lookup.lane < 2 then some { lookup with lane := lookup.lane + 1 } else none := by
  unfold nextLookup
  split <;> rfl

variable {reader : Reader ring.size}

theorem Counting.nextLookup (counting : Counting reader)
    {lookup : Lookup} (current : reader.pc.lookup = some lookup) :
    Counting { reader with pc := (Channel.nextLookup lookup : ReaderPc ring.size) } := by
  intro other present next
  dsimp only at present
  rw [lookup_nextLookup] at present
  split at present <;> cases present
  exact counting lookup current next

/-- A read that did not end with a sample leaves the cursor and the outputs. -/
theorem Leaves.of_error {kind : ReadKind} {reader : Reader size} {pc : ReaderPc size}
    (counting : Counting { reader with pc })
    (failed : ∀ sequence missed value, pc ≠ .done (.ok sequence missed value)) :
    Leaves reader { reader with pc } (pc.ended kind) := by
  refine ⟨counting, ?_, fun _ => rfl⟩
  cases pc with
  | done result =>
    cases result with
    | ok sequence missed value => exact absurd rfl (failed sequence missed value)
    | error code => cases kind <;> rfl
  | _ => rfl

/-- A step that completes nothing. -/
theorem Leaves.of_none {reader : Reader size} {pc : ReaderPc size}
    (counting : Counting { reader with pc }) : Leaves reader { reader with pc } none :=
  ⟨counting, rfl, fun _ => rfl⟩

/-- Only `ReadNext` moves the cursor, to the sample that it delivers. -/
theorem Leaves.deliver {lookup : Lookup} (value : Payload ring.size)
    (counted : lookup.kind = .next → lookup.wanted = reader.cursor + 1 + lookup.missed) :
    Leaves reader (deliver reader lookup value)
      (some (lookup.kind, ReadResult.ok lookup.wanted lookup.missed value)) := by
  refine ⟨nofun, ?_, fun failed => ?_⟩
  · obtain ⟨kind, wanted, missed, lane⟩ := lookup
    cases kind with
    | next => exact ⟨rfl, counted rfl⟩
    | latest => rfl
    | sequence other => rfl
  · obtain ⟨code, error⟩ := failed _ (mem_singleton.mpr rfl)
    cases error

theorem nextLookup_ne_ok (lookup : Lookup) (sequence missed : Nat) (value : Payload ring.size) :
    nextLookup lookup ≠ .done (.ok sequence missed value) := by
  unfold nextLookup
  split <;> nofun

theorem beginLookup_ne_ok (cursor latest : Nat) (kind : ReadKind) (sequence missed : Nat)
    (value : Payload ring.size) :
    beginLookup ring cursor latest kind ≠ .done (.ok sequence missed value) := by
  unfold beginLookup
  split
  · split <;> nofun
  · split <;> nofun
  · nofun

theorem counting_beginLookup (reader : Reader ring.size) (latest : Nat) (kind : ReadKind) :
    Counting { reader with pc := beginLookup ring reader.cursor latest kind } := by
  intro lookup present next
  unfold beginLookup at present
  split at present
  · split at present <;> cases present
    cases next
  · split at present <;> cases present
    dsimp only
    repeat' split
    all_goals omega
  · cases present
    cases next

theorem counting_beginRead {kind : ReadKind} {stopped : Bool} {pc : ReaderPc ring.size}
    (begun : beginRead reader stopped kind = some pc) :
    Counting { reader with pc } ∧
      ∀ sequence missed value, pc ≠ .done (.ok sequence missed value) := by
  unfold beginRead at begun
  split at begun
  · split at begun <;> cases begun
    refine ⟨fun lookup present next => ?_, nofun⟩
    cases present
    cases next
  · cases begun
    repeat' split
    all_goals exact ⟨nofun, nofun⟩

theorem readerStep_leaves {storage after : Storage ring.size} {reader moved : Reader ring.size}
    (counting : Counting reader)
    (stepped : readerStep ring storage reader = some (after, moved)) :
    Leaves reader moved (reader.pc.kind.bind fun kind => moved.pc.ended kind) := by
  obtain ⟨opened, cursor, pc, value, info⟩ := reader
  cases pc with
  | idle | done => cases stepped
  | load kind =>
    cases stepped
    exact .of_error (counting_beginLookup _ _ kind) (beginLookup_ne_ok _ _ _)
  | loadUsers lookup =>
    cases stepped
    dsimp only
    split
    · exact .of_error (counting.nextLookup rfl) (nextLookup_ne_ok _)
    · exact .of_none counting
  | pin lookup users =>
    simp only [readerStep] at stepped
    split at stepped <;> cases stepped
    · exact .of_none counting
    · exact .of_error (counting.nextLookup rfl) (nextLookup_ne_ok _)
  | check lookup before latest =>
    cases stepped
    dsimp only
    split <;> exact .of_none counting
  | reject lookup =>
    cases stepped
    exact .of_error (counting.nextLookup rfl) (nextLookup_ne_ok _)
  | unpin lookup before after buffer =>
    cases stepped
    dsimp only
    split
    · exact .deliver buffer (counting lookup rfl)
    · exact .of_error (counting.nextLookup rfl) (nextLookup_ne_ok _)
  | copy lookup before todo buffer => cases todo <;> cases stepped <;> exact .of_none counting
  | loadVersion | loadPublished | reloadVersion =>
    cases stepped
    exact .of_none counting

section Runs

variable [DecidableEq ι] {reader : ι}

/-- A step of the channel, seen by one reader that stays open. -/
theorem step_leaves {state next : State ring ι} {action : Action ring ι}
    (counting : Counting (state.readers reader)) (stepped : step state action = some next)
    (closed : action ≠ .close reader) (opened : ∀ start, action ≠ .openAt reader start) :
    Leaves (state.readers reader) (next.readers reader) (completed reader state next action) := by
  have unmoved : Leaves (state.readers reader) (state.readers reader) none := .of_none counting
  cases action with
  | publish call =>
    simp only [Channel.step] at stepped
    split at stepped <;> cases stepped
    exact unmoved
  | publisher outcome =>
    rw [(publisherStep_frame stepped).readers]
    exact unmoved
  | publishReturn =>
    simp only [Channel.step] at stepped
    split at stepped <;> cases stepped
    exact unmoved
  | openAt other start =>
    simp only [Channel.step] at stepped
    split at stepped <;> cases stepped
    have apart : reader ≠ other := fun same => opened start (by rw [same])
    simp only [State.setReader, update_of_ne apart]
    exact unmoved
  | close other =>
    simp only [Channel.step] at stepped
    split at stepped <;> cases stepped
    have apart : reader ≠ other := fun same => closed (by rw [same])
    simp only [State.setReader, update_of_ne apart]
    exact unmoved
  | read other kind stopped =>
    simp only [Channel.step] at stepped
    split at stepped <;> try cases stepped
    obtain ⟨pc, begun, rfl⟩ := Option.map_eq_some_iff.mp stepped
    by_cases same : other = reader
    · subst same
      obtain ⟨begins, failed⟩ := counting_beginRead begun
      simp only [State.setReader, update_self, completed, if_true]
      exact .of_error begins failed
    · simp only [State.setReader, update_of_ne (Ne.symm same), completed, if_neg same]
      exact unmoved
  | reader other =>
    obtain ⟨⟨storage, moved⟩, moves, rfl⟩ := Option.map_eq_some_iff.mp stepped
    by_cases same : other = reader
    · subst same
      simp only [State.setReader, State.setStorage, update_self, completed, if_true]
      exact readerStep_leaves counting moves
    · simp only [State.setReader, State.setStorage, update_of_ne (Ne.symm same),
        completed, if_neg same]
      exact unmoved
  | readReturn other =>
    simp only [Channel.step] at stepped
    split at stepped <;> cases stepped
    by_cases same : other = reader
    · subst same
      simp only [State.setReader, update_self]
      exact .of_none fun _ found => by cases found
    · simp only [State.setReader, update_of_ne (Ne.symm same)]
      exact unmoved

/-- A read that is logged goes on where the log ends. -/
theorem Advances.consumes {start before after : Nat} {deliveries : List Delivery}
    {entry : Option (Completed size)} (advances : Advances before after entry)
    (consumes : Consumes start deliveries before) :
    Consumes start (deliveries ++ entry.toList.filterMap delivery) after := by
  unfold Advances at advances
  cases entry with
  | none =>
    cases advances
    simpa using consumes
  | some entry =>
    rw [Option.bind_some] at advances
    cases delivered : delivery entry with
    | none =>
      rw [delivered] at advances
      cases advances
      simpa [delivered] using consumes
    | some delivery =>
      obtain ⟨sequence, missed⟩ := delivery
      rw [delivered] at advances
      obtain ⟨rfl, counted⟩ := advances
      dsimp only at counted
      subst counted
      simpa [delivered] using consumes.snoc missed

variable {first last : State ring ι × List (Completed ring.size)}

/-- The log of a reader, and where it has brought the cursor. -/
theorem accounting_run
    (run : (accounting ring ι reader).Run first actions last)
    (counting : Counting (first.1.readers reader)) :
    Counting (last.1.readers reader) ∧ ∃ new, last.2 = first.2 ++ new ∧
      (AllFailed new → (last.1.readers reader).outputs = (first.1.readers reader).outputs) ∧
      ∀ start deliveries, Consumes start deliveries (first.1.readers reader).cursor →
        Consumes start (deliveries ++ new.filterMap delivery) (last.1.readers reader).cursor := by
  induction run with
  | nil =>
    refine ⟨counting, [], (append_nil _).symm, fun _ => rfl, fun start deliveries consumes => ?_⟩
    rwa [filterMap_nil, append_nil]
  | @snoc middle finish _ action _ stepped ih =>
    obtain ⟨held, new, whole, outputs, before⟩ := ih
    obtain ⟨stepped, closed, opened, logged⟩ := stepped
    have leaves := step_leaves held stepped closed opened
    refine ⟨leaves.counting, new ++ (completed reader middle.1 finish.1 action).toList,
      logged.trans ?_, fun failed => ?_, fun start deliveries consumes => ?_⟩
    · rw [whole, append_assoc]
    · obtain ⟨earlier, last⟩ := forall_mem_append.mp failed
      exact (leaves.outputs last).trans (outputs earlier)
    · rw [filterMap_append, ← append_assoc]
      exact leaves.cursor.consumes (before start deliveries consumes)

/-- A run in which no `ReadNext` of the reader succeeds leaves its cursor, and one in which no
read succeeds leaves its outputs. -/
theorem accounting_unmoved
    (run : (accounting ring ι reader).Run first actions last)
    (counting : Counting (first.1.readers reader)) {new : List (Completed ring.size)}
    (logged : last.2 = first.2 ++ new) :
    (new.filterMap delivery = [] →
      (last.1.readers reader).cursor = (first.1.readers reader).cursor) ∧
    (AllFailed new → (last.1.readers reader).outputs = (first.1.readers reader).outputs) := by
  obtain ⟨-, entries, whole, outputs, consumes⟩ := accounting_run run counting
  obtain rfl := append_cancel_left (logged.symm.trans whole)
  refine ⟨fun none => ?_, outputs⟩
  have ended := consumes _ _ .nil
  rw [none, append_nil] at ended
  exact ended.cursor_eq

/-- A call of `ReadLatestSnapshot` that returns an error has had no success. -/
theorem readLatestSnapshot_error {turns : List (SnapshotTurn size)} {code : Int}
    (returned : readLatestSnapshot turns = some (.error code))
    (last : readLatestSnapshot turns.dropLast = none) :
    AllFailed (turns.filterMap SnapshotTurn.completed) := by
  induction turns with
  | nil => nofun
  | cons turn turns ih =>
    cases turns with
    | nil =>
      intro entry member
      cases turn with
      | stopped => cases member
      | attempt result published =>
        obtain rfl : entry = (.latest, result) := by simpa [SnapshotTurn.completed] using member
        cases result with
        | ok sequence missed value => cases returned
        | error code => exact ⟨code, rfl⟩
    | cons next rest =>
      rw [dropLast_cons_cons] at last
      cases turn with
      | stopped => cases last
      | attempt result published =>
        cases result with
        | ok sequence missed value => cases last
        | error refusal =>
          simp only [readLatestSnapshot] at returned last
          split at last
          · cases last
          next goes =>
            rw [if_neg goes] at returned
            rw [filterMap_cons, SnapshotTurn.completed]
            exact forall_mem_cons.mpr ⟨⟨refusal, rfl⟩, ih returned last⟩

/-- `ReadNext` accounts for every message behind the start cursor, and nothing else moves the
cursor. -/
theorem readNext_accounts_for_messages {state opened last : State ring ι} {start : StartPosition}
    {actions : List (Action ring ι)} {log : List (Completed ring.size)}
    (opens : step state (.openAt reader start) = some opened)
    (run : (accounting ring ι reader).Run (opened, []) actions (last, log)) :
    let first := startCursor ring state.storage.publishSequence start
    let cursor := (last.readers reader).cursor
    let deliveries := log.filterMap delivery
    (opened.readers reader).cursor = first ∧
      (deliveries.map Delivery.sequence).Pairwise (· < ·) ∧
      cursor = first + (deliveries.map fun delivery => 1 + delivery.missed).sum ∧
      (∀ sequence, deliveries.countP (fun delivery => delivery.sequence = sequence) +
          deliveries.countP (fun delivery => delivery.Misses sequence) =
        if first < sequence ∧ sequence ≤ cursor then 1 else 0) ∧
      (start = .oldest → ∀ delivery ∈ deliveries, ∀ sequence, delivery.Misses sequence →
        state.storage.publishSequence < sequence + ring.depth) ∧
      ∀ {actions final new},
        (accounting ring ι reader).Run (last, log) actions (final, log ++ new) →
        ((∀ entry ∈ new, entry.1 = .next → ∃ code, entry.2 = .error code) →
          (final.readers reader).cursor = cursor) ∧
        ((∀ entry ∈ new, ∃ code, entry.2 = .error code) →
          (final.readers reader).value = (last.readers reader).value ∧
            (final.readers reader).info = (last.readers reader).info) ∧
        ∀ turns, new = turns.filterMap SnapshotTurn.completed →
          (final.readers reader).cursor = cursor ∧
          ∀ code, readLatestSnapshot turns = some (.error code) →
            readLatestSnapshot turns.dropLast = none →
              (final.readers reader).value = (last.readers reader).value ∧
                (final.readers reader).info = (last.readers reader).info := by
  intro first cursor deliveries
  have entry : (opened.readers reader).cursor = first ∧ Counting (opened.readers reader) := by
    simp only [Channel.step] at opens
    split at opens <;> cases opens
    next idle _ =>
      simp only [State.setReader, update_self]
      refine ⟨rfl, fun lookup present => ?_⟩
      rw [idle] at present
      cases present
  obtain ⟨counting, new, whole, -, consumes⟩ := accounting_run run entry.2
  obtain rfl : log = new := whole
  have consumed : Consumes first deliveries cursor := consumes first [] (entry.1 ▸ .nil)
  refine ⟨entry.1, consumed.increasing, consumed.cursor_eq, consumed.once, ?_, ?_⟩
  · rintro rfl delivery member sequence ⟨low, high⟩
    have bound := (consumed.bounds.2 delivery member).1
    have behind : first = if state.storage.publishSequence > ring.depth then
        state.storage.publishSequence - ring.depth else 0 := rfl
    split at behind <;> omega
  · intro actions final new later
    have unmoved : (∀ entry ∈ new, entry.1 = .next → ∃ code, entry.2 = .error code) →
        (final.readers reader).cursor = cursor := by
      intro failed
      refine (accounting_unmoved later counting rfl).1 (filterMap_eq_nil_iff.mpr ?_)
      rintro ⟨kind, result⟩ member
      cases kind with
      | next =>
        obtain ⟨code, error⟩ := failed _ member rfl
        cases error
        rfl
      | latest => rfl
      | sequence wanted => rfl
    have kept : AllFailed new → (final.readers reader).value = (last.readers reader).value ∧
        (final.readers reader).info = (last.readers reader).info := by
      intro failed
      exact Prod.mk.inj ((accounting_unmoved later counting rfl).2 failed)
    refine ⟨unmoved, kept, fun turns same => ⟨unmoved ?_, fun code returned ended => kept ?_⟩⟩
    · intro entry member next
      rw [same] at member
      obtain ⟨turn, -, known⟩ := mem_filterMap.mp member
      cases turn with
      | stopped => cases known
      | attempt result published =>
        cases known
        cases next
    · rw [same]
      exact readLatestSnapshot_error returned ended

end Runs

/-- The steps of a publish without notification, on the first lane or the second one. -/
def publishPair (steps : Nat) : List (Action pairRing Unit) :=
  .publish ⟨fun _ => 7, false⟩ :: replicate steps (.publisher 0) ++ [.publishReturn]

def openedPair : State pairRing Unit := (created pairRing Unit).setReader () { opened := true }

/-- Two publishes, and a reader that comes after both. -/
def publishTwiceThenRead : List (Action pairRing Unit) :=
  publishPair 11 ++ publishPair 14 ++ .read () .next false :: replicate 17 (.reader ())

/-- With one retained sample, the reader misses the first publish. -/
theorem readNext_accounts_for_pair :
    ∃ (last : State pairRing Unit) (log : List (Completed pairRing.size)) (value : Payload 2),
      step (created pairRing Unit) (.openAt () .next) = some openedPair ∧
      (accounting pairRing Unit ()).Run (openedPair, []) publishTwiceThenRead (last, log) ∧
      (last.readers ()).pc = .done (.ok 2 1 value) ∧ value 0 = 7 ∧ value 1 = 7 ∧
      (last.readers ()).cursor = 2 ∧
      ((log.filterMap delivery).map fun delivery => 1 + delivery.missed).sum = 2 := by
  obtain ⟨last, value, run, returned, first, second, moved⟩ :
      ∃ (last : State pairRing Unit) (value : Payload 2),
        publishTwiceThenRead.foldlM step openedPair = some last ∧
        (last.readers ()).pc = .done (.ok 2 1 value) ∧ value 0 = 7 ∧ value 1 = 7 ∧
        (last.readers ()).cursor = 2 :=
    ⟨_, _, rfl, rfl, rfl, rfl, rfl⟩
  have opens : step (created pairRing Unit) (.openAt () .next) = some openedPair := rfl
  have stays : .close () ∉ publishTwiceThenRead ∧
      ∀ start, .openAt () start ∉ publishTwiceThenRead := by
    simp [publishTwiceThenRead, publishPair]
  obtain ⟨log, logged⟩ := accounting_of_run (.of_foldlM (fun _ _ _ done => done) run) stays []
  obtain ⟨-, -, counted, -⟩ := readNext_accounts_for_messages opens logged
  refine ⟨last, log, value, opens, logged, returned, first, second, moved, ?_⟩
  rw [moved] at counted
  simpa [startCursor, created] using counted.symm

end Kcf.Ipc.Channel
