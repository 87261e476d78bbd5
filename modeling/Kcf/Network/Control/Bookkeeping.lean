import Kcf.Data.Keyed
import Kcf.Data.Snoc
import Kcf.Network.Control.Lifetime

/-!
# Completion of requests

What the counts, the results and the promises of submitted batches say about each
other, from the submission of a batch to the end of the I/O thread.
-/

namespace Kcf.Network.Control

open List

open Kcf.Wire Kcf.Transition
open Kcf.Network.Discovery (PeerInfo maxUInt64)

/-! ## The account -/

/-- A result as `Admit` creates it. -/
def EndpointResult.Fresh (result : EndpointResult) : Prop :=
  result = { endpoint := result.endpoint, action := result.action }

/-- The result of a request is what `Finish` was called with. -/
structure FinishCall.Wrote (call : FinishCall) (batch : Batch) (result : EndpointResult) :
    Prop where
  error : result.error = call.completion.code
  reason : result.reason = call.completion.reason
  value : result.value = call.completion.value
  executionUnknown : result.executionUnknown = call.completion.executionUnknown batch call.sent
  cancelUnknown : result.cancelUnknown = call.completion.cancelUnknown batch call.sent

/-- The calls of `Finish` for one request of a batch. -/
def Batch.calls (batch : Batch) (index : Nat) : List FinishCall :=
  batch.finishes.filter fun call => call.index = index

namespace Books

variable (books : Books)

/-- The results that are still awaited, as pairs of a batch and an index. -/
def keys : List (Nat × Nat) := books.pending.map fun p => (p.batch, p.index)

/-- The batch starts goals. -/
def startsGoals (batch : Nat) : Bool := books.batches[batch]?.any Batch.startsGoals

/-- Goals that were not sent yet. -/
def unsentGoals : Nat := books.pending.countP fun p => !p.sent && books.startsGoals p.batch

/-- The account of one batch: `Finish` was not called for a result that is awaited, and called
once for every other. -/
structure Accounts (b : Nat) (batch : Batch) : Prop where
  left : batch.left = books.keys.countP fun key => key.1 = b
  placed : ∀ ⦃i⦄, (b, i) ∈ books.keys → ∃ result, batch.result.endpoints[i]? = some result
  promise : batch.promise = if b ∈ books.submissions ∨ 0 < batch.left then [] else [batch.result]
  submitted : b ∈ books.submissions → batch.left = 0 ∧ batch.result = {} ∧ batch.finishes = []
  awaited : ∀ ⦃i result⦄, batch.result.endpoints[i]? = some result → (b, i) ∈ books.keys →
    result.Fresh ∧ batch.calls i = []
  written : ∀ ⦃i result⦄, batch.result.endpoints[i]? = some result → (b, i) ∉ books.keys →
    ∃ call, batch.calls i = [call] ∧ call.Wrote batch result

/-- The books are in order. -/
structure Balanced : Prop where
  accounts : ∀ ⦃b batch⦄, books.batches[b]? = some batch → books.Accounts b batch
  known : ∀ key ∈ books.keys, ∃ batch, books.batches[key.1]? = some batch
  submitted : ∀ b ∈ books.submissions, ∃ batch, books.batches[b]? = some batch
  apart : books.keys.Nodup
  ids : (books.pending.map fun p => p.frame.requestId).Pairwise (· < ·)
  issued : ∀ p ∈ books.pending, p.frame.requestId ≤ books.nextRequest
  waiting : books.submissions.Nodup
  few : books.pending.length ≤ maxPending
  tracked : books.outgoing.length + books.unsentGoals ≤ maxPending

/-- What becomes of one result: it stays as it is, or it is awaited no longer and `Finish` was
called for it once. -/
def Settles (books next : Books) (b i : Nat) (batch later : Batch) : Prop :=
  later.result.endpoints[i]? = batch.result.endpoints[i]? ∧ later.calls i = batch.calls i ∧
      ((b, i) ∈ books.keys ↔ (b, i) ∈ next.keys) ∨
    (b, i) ∈ books.keys ∧ (b, i) ∉ next.keys ∧ ∃ call, later.calls i = batch.calls i ++ [call]

/-- Batches and results are kept; promises are not taken back; and a result is
written when it stops being awaited and at no other time. -/
def Follows (books next : Books) : Prop :=
  ∀ ⦃b batch⦄, books.batches[b]? = some batch → ∃ later, next.batches[b]? = some later ∧
    batch.promise <+: later.promise ∧
    ∀ ⦃i result⦄, batch.result.endpoints[i]? = some result →
      ∃ after, later.result.endpoints[i]? = some after ∧
        after.endpoint = result.endpoint ∧ after.action = result.action ∧
        books.Settles next b i batch later

end Books

/-! ## Results over time -/

namespace Books

variable {books middle next : Books}

theorem Settles.trans {b i : Nat} {batch between later : Batch}
    (first : books.Settles middle b i batch between)
    (second : middle.Settles next b i between later) : books.Settles next b i batch later := by
  obtain ⟨result, calls, same⟩ | ⟨awaited, done, call, called⟩ := first
  · obtain ⟨after, still, later⟩ | ⟨awaited, done, call, called⟩ := second
    · exact .inl ⟨after.trans result, still.trans calls, same.trans later⟩
    · exact .inr ⟨same.mpr awaited, done, call, calls ▸ called⟩
  · obtain ⟨_, still, later⟩ | ⟨again, _⟩ := second
    · exact .inr ⟨awaited, fun again => done (later.mpr again), call, still.trans called⟩
    · exact absurd again done

theorem Follows.trans (first : books.Follows middle) (second : middle.Follows next) :
    books.Follows next := by
  intro b batch known
  obtain ⟨between, known, start, results⟩ := first known
  obtain ⟨later, known, rest, finals⟩ := second known
  refine ⟨later, known, start.trans rest, fun i result found => ?_⟩
  obtain ⟨middleResult, found, endpoint, action, early⟩ := results found
  obtain ⟨after, found, endpoint', action', late⟩ := finals found
  exact ⟨after, found, endpoint'.trans endpoint, action'.trans action, early.trans late⟩

/-- Books whose batches and awaited results are the same follow each other. -/
theorem Follows.of_same (batches : next.batches = books.batches) (keys : next.keys = books.keys) :
    books.Follows next := by
  intro b batch known
  refine ⟨batch, batches ▸ known, prefix_rfl, fun i result found => ⟨result, found, rfl, rfl, ?_⟩⟩
  exact .inl ⟨rfl, rfl, by rw [keys]⟩

theorem Follows.refl : books.Follows books := .of_same rfl rfl

/-! ## Changes of one batch -/

theorem Accounts.congr {b : Nat} {batch : Batch} (accounts : books.Accounts b batch)
    (keys : next.keys = books.keys) (submissions : next.submissions = books.submissions) :
    next.Accounts b batch := by
  obtain ⟨left, placed, promise, submitted, awaited, written⟩ := accounts
  rw [← keys] at left placed awaited written
  rw [← submissions] at promise submitted
  exact ⟨left, placed, promise, submitted, awaited, written⟩

/-- The books differ in one batch and its requests. -/
structure Alters (books next : Books) (b : Nat) : Prop where
  batches : ∀ other ≠ b, next.batches[other]? = books.batches[other]?
  keys : (next.keys.filter fun key => key.1 ≠ b).Perm (books.keys.filter fun key => key.1 ≠ b)
  submissions : ∀ other ≠ b, other ∈ next.submissions ↔ other ∈ books.submissions

section

variable {b : Nat} {batch after : Batch}

theorem Alters.mem_keys (alters : books.Alters next b) {other i : Nat} (apart : other ≠ b) :
    (other, i) ∈ next.keys ↔ (other, i) ∈ books.keys := by
  have same := alters.keys.mem_iff (a := (other, i))
  simpa [mem_filter, apart] using same

/-- The other batches keep their accounts. -/
theorem Alters.accounts (alters : books.Alters next b) {other : Nat} (apart : other ≠ b)
    (accounts : books.Accounts other batch) : next.Accounts other batch := by
  have keys (i : Nat) : (other, i) ∈ next.keys ↔ (other, i) ∈ books.keys := alters.mem_keys apart
  have restrict (keys : List (Nat × Nat)) : keys.countP (fun key => key.1 = other) =
      (keys.filter fun key => key.1 ≠ b).countP fun key => key.1 = other := by
    rw [countP_filter]
    refine countP_congr fun key _ => ?_
    simp only [decide_eq_true_eq, Bool.and_eq_true]
    exact ⟨fun same => ⟨same, same ▸ apart⟩, And.left⟩
  constructor
  case left => rw [restrict, alters.keys.countP_eq, ← restrict, accounts.left]
  case placed => exact fun i member => accounts.placed ((keys i).mp member)
  case promise => simpa only [alters.submissions other apart] using accounts.promise
  case submitted =>
    exact fun member => accounts.submitted ((alters.submissions other apart).mp member)
  case awaited => exact fun i result found member => accounts.awaited found ((keys i).mp member)
  case written =>
    exact fun i result found absent => accounts.written found fun member =>
      absent ((keys i).mpr member)

/-- Books are in order if the batch that changes has its account. -/
theorem Balanced.alter (balanced : books.Balanced) (alters : books.Alters next b)
    (own : next.batches[b]? = some after) (accounts : next.Accounts b after)
    (apart : next.keys.Nodup)
    (ids : (next.pending.map fun p => p.frame.requestId).Pairwise (· < ·))
    (issued : ∀ p ∈ next.pending, p.frame.requestId ≤ next.nextRequest)
    (waiting : next.submissions.Nodup) (few : next.pending.length ≤ maxPending)
    (tracked : next.outgoing.length + next.unsentGoals ≤ maxPending) : next.Balanced := by
  have each {other : Nat} {found : Batch} (known : next.batches[other]? = some found) :
      next.Accounts other found := by
    by_cases same : other = b
    · subst same
      cases own.symm.trans known
      exact accounts
    · exact alters.accounts same (balanced.accounts ((alters.batches other same).symm.trans known))
  refine ⟨fun _ _ => each, ?_, ?_, apart, ids, issued, waiting, few, tracked⟩
  · rintro ⟨other, i⟩ member
    by_cases same : other = b
    · exact same ▸ ⟨after, own⟩
    · rw [alters.batches other same]
      exact balanced.known _ ((alters.mem_keys same).mp member)
  · intro other member
    by_cases same : other = b
    · exact same ▸ ⟨after, own⟩
    · rw [alters.batches other same]
      exact balanced.submitted other ((alters.submissions other same).mp member)

/-- Books follow each other if the batch that changes does. -/
theorem Alters.follows (alters : books.Alters next b) (own : next.batches[b]? = some after)
    (promise : ∀ batch, books.batches[b]? = some batch → batch.promise <+: after.promise)
    (settles : ∀ batch, books.batches[b]? = some batch → ∀ ⦃i result⦄,
      batch.result.endpoints[i]? = some result →
        ∃ later, after.result.endpoints[i]? = some later ∧ later.endpoint = result.endpoint ∧
          later.action = result.action ∧ books.Settles next b i batch after) :
    books.Follows next := by
  intro other found known
  by_cases same : other = b
  · subst same
    exact ⟨after, own, promise found known, settles found known⟩
  · refine ⟨found, (alters.batches other same).trans known, prefix_rfl,
      fun i result placed => ⟨result, placed, rfl, rfl, .inl ⟨rfl, rfl, ?_⟩⟩⟩
    exact (alters.mem_keys same).symm

/-- Which batches start goals does not change. -/
theorem Alters.startsGoals (alters : books.Alters next b) (known : books.batches[b]? = some batch)
    (own : next.batches[b]? = some after) (same : after.startsGoals = batch.startsGoals)
    (other : Nat) : next.startsGoals other = books.startsGoals other := by
  unfold Books.startsGoals
  by_cases equal : other = b
  · rw [equal, own, known]
    exact same
  · rw [alters.batches other equal]

end

end Books

/-! ## Completion of one request -/

theorem getElem?_set_cases {α : Type} {items : List α} {i j : Nat} {item found : α}
    (at_ : (items.set i item)[j]? = some found) :
    j = i ∧ found = item ∨ j ≠ i ∧ items[j]? = some found := by
  rw [getElem?_set] at at_
  split_ifs at at_ with same inside
  · exact .inl ⟨same.symm, (Option.some.inj at_).symm⟩
  · exact .inr ⟨Ne.symm same, at_⟩

theorem getElem?_set_of_some {α : Type} {items : List α} {i : Nat} {item old : α}
    (present : items[i]? = some old) : (items.set i item)[i]? = some item :=
  List.getElem?_set_self (List.getElem?_eq_some_iff.mp present).1

namespace Batch

variable (batch : Batch) (index : Nat) (sent : Bool) (completion : Completion)

/-- `Finish` changes one result. -/
theorem finish_endpoint {i : Nat} {result : EndpointResult}
    (found : (batch.finish index sent completion).result.endpoints[i]? = some result) :
    ∃ before, batch.result.endpoints[i]? = some before ∧
      result = if index = i then completion.record batch sent before else before := by
  change (batch.result.endpoints.modify index (completion.record batch sent))[i]? = _ at found
  rw [getElem?_modify] at found
  obtain ⟨before, present, changed⟩ := Option.map_eq_some_iff.mp found
  exact ⟨before, present, changed.symm⟩

theorem endpoint_finish {i : Nat} {before : EndpointResult}
    (present : batch.result.endpoints[i]? = some before) :
    (batch.finish index sent completion).result.endpoints[i]? =
      some (if index = i then completion.record batch sent before else before) := by
  change (batch.result.endpoints.modify index (completion.record batch sent))[i]? = _
  rw [getElem?_modify, present]
  rfl

/-- `Finish` is called for one request. -/
theorem calls_finish (i : Nat) : (batch.finish index sent completion).calls i =
    batch.calls i ++ if index = i then [⟨index, sent, completion⟩] else [] := by
  change (batch.finishes ++ [_]).filter _ = _
  rw [filter_append, filter_singleton]
  simp [calls]

end Batch

/-- The books after one call of `Finish`. -/
def Books.finish (books : Books) (index : Nat) (p : Pending) (batch : Batch)
    (completion : Completion) (outgoing : List Outgoing) (sessions : List ActionSession) : Books :=
  { books with
    pending := books.pending.eraseIdx index
    outgoing
    sessions
    batches := books.batches.set p.batch (batch.finish p.index p.sent completion) }

theorem Node.finish_books {node : Node} {index : Nat} {p : Pending} {batch : Batch}
    (completion : Completion) (present : node.pending[index]? = some p)
    (known : node.batches[p.batch]? = some batch) :
    ∃ outgoing sessions, outgoing.Sublist node.outgoing ∧
      (node.finish index completion).books =
        node.books.finish index p batch completion outgoing sessions := by
  unfold finish
  simp only [present, known]
  split
  · unfold settleAction
    dsimp only
    split
    · exact ⟨_, _, filter_sublist, rfl⟩
    · exact ⟨_, _, .refl _, rfl⟩
  · exact ⟨_, _, .refl _, rfl⟩

namespace Books

variable {books : Books}

theorem Balanced.batch_of_pending (balanced : books.Balanced) {index : Nat} {p : Pending}
    (present : books.pending[index]? = some p) : ∃ batch, books.batches[p.batch]? = some batch :=
  balanced.known _ (mem_map_of_mem (mem_of_getElem? present))

/-- Books with fewer tracked sessions are still in order. -/
theorem Balanced.untrack (balanced : books.Balanced) {outgoing : List Outgoing}
    {sessions : List ActionSession} (fewer : outgoing.Sublist books.outgoing) :
    ({ books with outgoing, sessions } : Books).Balanced :=
  { balanced with
    accounts := fun _ _ known => (balanced.accounts known).congr rfl rfl
    tracked := le_trans (Nat.add_le_add_right fewer.length_le _) balanced.tracked }

section

variable {index : Nat} {p : Pending} {batch : Batch} {completion : Completion}
variable {outgoing : List Outgoing} {sessions : List ActionSession}

theorem finish_keys (present : books.pending[index]? = some p) :
    books.keys.Perm
      ((p.batch, p.index) :: (books.finish index p batch completion outgoing sessions).keys) :=
  (Keyed.perm_cons_eraseIdx present).map fun q : Pending => (q.batch, q.index)

/-- The result that is written is awaited no longer. -/
theorem mem_finish (apart : books.keys.Nodup) (present : books.pending[index]? = some p)
    {key : Nat × Nat} :
    key ∈ (books.finish index p batch completion outgoing sessions).keys ↔
      key ∈ books.keys ∧ key ≠ (p.batch, p.index) := by
  let next := books.finish index p batch completion outgoing sessions
  have perm : books.keys.Perm ((p.batch, p.index) :: next.keys) := finish_keys present
  obtain ⟨gone, -⟩ := nodup_cons.mp (perm.nodup_iff.mp apart)
  rw [perm.mem_iff, mem_cons]
  exact ⟨fun member => ⟨.inr member, fun same => gone (same ▸ member)⟩,
    fun member => member.1.resolve_left member.2⟩

theorem finish_alters (present : books.pending[index]? = some p) :
    books.Alters (books.finish index p batch completion outgoing sessions) p.batch where
  batches other apart := getElem?_set_ne (Ne.symm apart)
  keys := by
    let next := books.finish index p batch completion outgoing sessions
    have perm : books.keys.Perm ((p.batch, p.index) :: next.keys) := finish_keys present
    have others := perm.filter fun key => key.1 ≠ p.batch
    rw [filter_cons_of_neg (by simp)] at others
    exact others.symm
  submissions _ _ := Iff.rfl

section

variable (balanced : books.Balanced)
  (present : books.pending[index]? = some p)
  (known : books.batches[p.batch]? = some batch)
include balanced present known

theorem Balanced.accounts_finish :
    (books.finish index p batch completion outgoing sessions).Accounts p.batch
      (batch.finish p.index p.sent completion) := by
  let next := books.finish index p batch completion outgoing sessions
  have perm : books.keys.Perm ((p.batch, p.index) :: next.keys) := finish_keys present
  have awaited {key : Nat × Nat} : key ∈ next.keys ↔ key ∈ books.keys ∧ key ≠ (p.batch, p.index) :=
    mem_finish balanced.apart present
  have account := balanced.accounts known
  have counted : batch.left = next.keys.countP (fun key => key.1 = p.batch) + 1 := by
    rw [account.left, perm.countP_eq, countP_cons, if_pos (decide_eq_true rfl)]
  have started : p.batch ∉ books.submissions := by
    intro member
    have none := (account.submitted member).1
    omega
  have own : (p.batch, p.index) ∈ books.keys := perm.mem_iff.mpr mem_cons_self
  change next.Accounts p.batch _
  constructor
  case left =>
    change batch.left - 1 = _
    omega
  case placed =>
    intro i member
    obtain ⟨result, placed⟩ := account.placed (awaited.mp member).1
    exact ⟨_, batch.endpoint_finish p.index p.sent completion placed⟩
  case promise =>
    have unset : batch.promise = [] := by rw [account.promise, if_pos (.inr (by omega))]
    change (if batch.left - 1 = 0 then batch.promise ++ [_] else batch.promise) = _
    rw [unset]
    by_cases last : batch.left - 1 = 0
    · rw [if_pos last, if_neg]
      · rfl
      · rintro (member | more)
        · exact started member
        · exact absurd last (Nat.pos_iff_ne_zero.mp more)
    · rw [if_neg last, if_pos (.inr (Nat.pos_iff_ne_zero.mpr last))]
  case submitted => exact fun member => absurd member started
  case awaited =>
    intro i result placed member
    obtain ⟨before, old, rfl⟩ := batch.finish_endpoint _ _ _ placed
    obtain ⟨member, apart⟩ := awaited.mp member
    have other : p.index ≠ i := fun same => apart (by rw [same])
    rw [if_neg other, batch.calls_finish, if_neg other, append_nil]
    exact account.awaited old member
  case written =>
    intro i result placed absent
    obtain ⟨before, old, rfl⟩ := batch.finish_endpoint _ _ _ placed
    by_cases same : p.index = i
    · rw [if_pos same, batch.calls_finish, (account.awaited old (same ▸ own)).2, if_pos same]
      exact ⟨_, rfl, rfl, rfl, rfl, rfl, rfl⟩
    · rw [if_neg same, batch.calls_finish, if_neg same, append_nil]
      obtain ⟨call, once, wrote⟩ := account.written old fun member =>
        absent (awaited.mpr ⟨member, fun equal => same (Prod.mk.inj equal).2.symm⟩)
      exact ⟨call, once, wrote.error, wrote.reason, wrote.value, wrote.executionUnknown,
        wrote.cancelUnknown⟩

theorem Balanced.finish (fewer : outgoing.Sublist books.outgoing) :
    (books.finish index p batch completion outgoing sessions).Balanced := by
  let next := books.finish index p batch completion outgoing sessions
  have perm : books.keys.Perm ((p.batch, p.index) :: next.keys) := finish_keys present
  have sublist : next.pending.Sublist books.pending := eraseIdx_sublist _ _
  have alters : books.Alters next p.batch := finish_alters present
  have own : next.batches[p.batch]? = some (batch.finish p.index p.sent completion) :=
    getElem?_set_of_some known
  have goals : next.unsentGoals ≤ books.unsentGoals := by
    unfold unsentGoals
    simp only [alters.startsGoals known own rfl]
    exact sublist.countP_le
  exact balanced.alter alters own
    (balanced.accounts_finish present known)
    (nodup_cons.mp (perm.nodup_iff.mp balanced.apart)).2 (balanced.ids.sublist (sublist.map _))
    (fun q member => balanced.issued q (sublist.subset member)) balanced.waiting
    (le_trans sublist.length_le balanced.few)
    (le_trans (Nat.add_le_add fewer.length_le goals) balanced.tracked)

theorem Balanced.follows_finish :
    books.Follows (books.finish index p batch completion outgoing sessions) := by
  refine (finish_alters present).follows (getElem?_set_of_some known) ?_ ?_
  · intro old again
    cases known.symm.trans again
    change batch.promise <+: if _ then batch.promise ++ [_] else batch.promise
    split
    · exact prefix_append _ _
    · exact prefix_rfl
  · intro old again i result placed
    cases known.symm.trans again
    have found := batch.endpoint_finish p.index p.sent completion placed
    refine ⟨_, found, by split <;> rfl, by split <;> rfl, ?_⟩
    unfold Settles
    rw [batch.calls_finish, found, placed, mem_finish balanced.apart present]
    by_cases index : p.index = i
    · rw [if_pos index, if_pos index, ← index]
      exact .inr ⟨mem_map_of_mem (mem_of_getElem? present), fun still => still.2 rfl, _, rfl⟩
    · rw [if_neg index, if_neg index, append_nil]
      have apart : (p.batch, i) ≠ (p.batch, p.index) := fun equal =>
        index (Prod.mk.inj equal).2.symm
      exact .inl ⟨rfl, rfl, (and_iff_left apart).symm⟩

end

end

/-- Books that are in order and follow the earlier ones. -/
def Keeps (books next : Books) : Prop := next.Balanced ∧ books.Follows next

theorem Keeps.trans {middle next : Books} (first : books.Keeps middle)
    (second : middle.Balanced → middle.Keeps next) : books.Keeps next :=
  ⟨(second first.1).1, first.2.trans (second first.1).2⟩

theorem Balanced.keeps_untrack (balanced : books.Balanced) {outgoing : List Outgoing}
    {sessions : List ActionSession} (fewer : outgoing.Sublist books.outgoing) :
    books.Keeps { books with outgoing, sessions } :=
  ⟨balanced.untrack fewer, .of_same rfl rfl⟩

end Books

/-! ## Sending, events and lost connections -/

namespace Node

variable {node : Node}

section

variable (balanced : node.books.Balanced)
include balanced

theorem keeps_finish (index : Nat) (completion : Completion) :
    node.books.Keeps (node.finish index completion).books := by
  cases present : node.pending[index]? with
  | none =>
    unfold finish
    rw [present]
    exact ⟨balanced, .refl⟩
  | some p =>
    obtain ⟨batch, known⟩ := balanced.batch_of_pending present
    obtain ⟨_, _, fewer, same⟩ := finish_books completion present known
    rw [same]
    exact ⟨balanced.finish present known fewer, balanced.follows_finish present known⟩

theorem keeps_finishSent (connection : UInt64)
    (completion : Completion) (count : Nat) :
    node.books.Keeps (node.finishSent connection completion count).books := by
  induction count generalizing node with
  | zero => exact ⟨balanced, .refl⟩
  | succ index ih =>
    unfold finishSent
    dsimp only
    split
    · split
      · exact (keeps_finish balanced index completion).trans ih
      · exact ih balanced
    · exact ih balanced

theorem keeps_abandon (connection : UInt64) : node.books.Keeps (node.abandon connection).books := by
  have detached : node.books.Keeps (node.detach connection).books :=
    balanced.keeps_untrack filter_sublist
  exact detached.trans fun balanced => keeps_finishSent balanced connection _ _

theorem keeps_event (c : Connection) (f : Frame) :
    node.books.Keeps (node.receiveEvent c f).node.books := by
  unfold receiveEvent
  split
  · exact ⟨balanced, .refl⟩
  split_ifs
  · exact ⟨balanced, .refl⟩
  · exact ⟨balanced, .refl⟩
  · exact balanced.keeps_untrack (.refl _)
  · exact balanced.keeps_untrack eraseP_sublist

/-- Sending a goal moves it from the unsent ones to the tracked ones. -/
theorem keeps_send {index : Nat} {p : Pending} {batch : Batch}
    {f : Frame} (connection : UInt64) (present : node.pending[index]? = some p)
    (unsent : p.sent = false) (known : node.batches[p.batch]? = some batch)
    (request : f.requestId = p.frame.requestId) :
    node.books.Keeps (node.markSent index { p with frame := f } batch connection).books := by
  let next := (node.markSent index { p with frame := f } batch connection).books
  have pending : next.pending =
      node.pending.set index { p with frame := f, sent := true, connection } := rfl
  have keys : next.keys = node.books.keys := Keyed.map_set present rfl
  have ids : (next.pending.map fun q => q.frame.requestId) =
      node.books.pending.map fun q => q.frame.requestId := Keyed.map_set present request
  have starts : batch.startsGoals = node.books.startsGoals p.batch := by
    change _ = (node.batches[p.batch]?).any _
    rw [known]
    rfl
  have goals : next.unsentGoals + (if batch.startsGoals then 1 else 0) =
      node.books.unsentGoals := by
    obtain ⟨inside, _⟩ := List.getElem?_eq_some_iff.mp present
    have after := (List.set_perm_cons_eraseIdx inside
      { p with frame := f, sent := true, connection }).countP_eq
        fun q => !q.sent && node.books.startsGoals q.batch
    have before := (Keyed.perm_cons_eraseIdx present).countP_eq
      fun q => !q.sent && node.books.startsGoals q.batch
    rw [countP_cons] at after before
    change countP _ (node.pending.set index _) + _ = countP _ node.pending
    rw [before, starts]
    simp only [unsent, Bool.not_false, Bool.not_true, Bool.true_and, Bool.false_and] at after ⊢
    simp only [Bool.false_eq_true, if_false, Nat.add_zero] at after
    exact congrArg (· + _) after
  have outgoing : next.outgoing.length ≤
      node.outgoing.length + if batch.startsGoals then 1 else 0 := by
    change length (if batch.startsGoals then _ else node.outgoing) ≤ _
    split
    · split
      · simp
      · simp
    · simp
  refine ⟨?_, .of_same rfl keys⟩
  change next.Balanced
  constructor
  case accounts => exact fun _ _ known => (balanced.accounts known).congr keys rfl
  case known =>
    rw [keys]
    exact balanced.known
  case apart =>
    rw [keys]
    exact balanced.apart
  case ids =>
    rw [ids]
    exact balanced.ids
  case issued =>
    intro q member
    have found : q.frame.requestId ∈ next.pending.map fun q => q.frame.requestId :=
      mem_map_of_mem member
    rw [ids] at found
    obtain ⟨old, member, same⟩ := mem_map.mp found
    rw [← same]
    exact balanced.issued old member
  case waiting => exact balanced.waiting
  case submitted => exact balanced.submitted
  case few =>
    rw [pending, length_set]
    exact balanced.few
  case tracked =>
    have bound : node.outgoing.length + node.books.unsentGoals ≤ maxPending := balanced.tracked
    omega

end

end Node

/-! ## Submission and admission -/

namespace Books

variable {books : Books}

/-- A batch that is new in the books. -/
theorem Balanced.keeps_append (balanced : books.Balanced) {batch : Batch} {submissions : List Nat}
    (left : batch.left = 0) (endpoints : batch.result.endpoints = [])
    (added : submissions = books.submissions ∧ batch.promise = [batch.result] ∨
      submissions = books.submissions ++ [books.batches.length] ∧ batch.promise = [] ∧
        batch.result = {} ∧ batch.finishes = []) :
    books.Keeps { books with batches := books.batches ++ [batch], submissions } := by
  let next : Books := { books with batches := books.batches ++ [batch], submissions }
  have beyond {found : Batch} : books.batches[books.batches.length]? ≠ some found := by
    rw [getElem?_eq_none le_rfl]
    exact nofun
  have fresh : ∀ i, (books.batches.length, i) ∉ books.keys := by
    intro i member
    obtain ⟨_, known⟩ := balanced.known _ member
    exact beyond known
  have waits : books.batches.length ∉ books.submissions := by
    intro member
    obtain ⟨_, known⟩ := balanced.submitted _ member
    exact beyond known
  have own : next.batches[books.batches.length]? = some batch := getElem?_concat_length
  have alters : books.Alters next books.batches.length := by
    refine ⟨fun other apart => ?_, .refl _, fun other apart => ?_⟩
    · change (books.batches ++ [batch])[other]? = _
      rw [getElem?_append]
      split_ifs with inside
      · rfl
      · rw [getElem?_eq_none (not_lt.mp inside), getElem?_eq_none]
        simp only [length_singleton]
        omega
    · change other ∈ submissions ↔ _
      rcases added with ⟨rfl, -⟩ | ⟨rfl, -⟩
      · rfl
      · simp [apart]
  have accounts : next.Accounts books.batches.length batch := by
    have none {i : Nat} {result : EndpointResult} : batch.result.endpoints[i]? ≠ some result := by
      rw [endpoints]
      exact nofun
    refine ⟨?_, fun i member => absurd member (fresh i), ?_, fun member => ?_,
      fun i result placed => absurd placed none, fun i result placed => absurd placed none⟩
    · rw [left]
      symm
      refine countP_eq_zero.mpr fun key member => ?_
      simp only [decide_eq_true_eq]
      exact fun same => fresh key.2 (same ▸ member)
    · change _ = if _ ∈ submissions ∨ _ then _ else _
      rcases added with ⟨rfl, set_⟩ | ⟨rfl, unset, -⟩
      · rw [set_, if_neg]
        rintro (member | more)
        · exact waits member
        · omega
      · rw [unset, if_pos (.inl (by simp))]
    · rcases added with ⟨rfl, -⟩ | ⟨-, -, empty⟩
      · exact absurd member waits
      · exact ⟨left, empty⟩
  have waiting : submissions.Nodup := by
    rcases added with ⟨rfl, -⟩ | ⟨rfl, -⟩
    · exact balanced.waiting
    · exact Data.nodup_snoc balanced.waiting waits
  have goals : next.unsentGoals = books.unsentGoals := by
    refine countP_congr fun p member => ?_
    have apart : p.batch ≠ books.batches.length := fun same =>
      fresh p.index (same ▸ mem_map_of_mem member)
    simp only [startsGoals, alters.batches p.batch apart]
  exact ⟨balanced.alter alters own accounts balanced.apart balanced.ids balanced.issued waiting
    balanced.few (goals ▸ balanced.tracked),
    alters.follows own (fun _ known => absurd known beyond) fun _ known => absurd known beyond⟩

end Books

theorem Node.keeps_submit {node : Node} (balanced : node.books.Balanced) (submission : Submission)
    (now : Int) : node.books.Keeps (node.submit submission now).books := by
  unfold Node.submit
  dsimp only
  split
  · exact balanced.keeps_append rfl rfl (.inl ⟨rfl, rfl⟩)
  split
  · exact balanced.keeps_append rfl rfl (.inl ⟨rfl, rfl⟩)
  · exact balanced.keeps_append rfl rfl (.inr ⟨rfl, rfl, rfl, rfl⟩)

/-- The books with other submissions.  While `Admit` works through the submissions it
has taken, those that are left still count as submissions. -/
def Books.queue (books : Books) (submissions : List Nat) : Books := { books with submissions }

/-- The books with another batch in one place. -/
def Books.setBatch (books : Books) (b : Nat) (batch : Batch) : Books :=
  { books with batches := books.batches.set b batch }

/-- What is known of a batch that is taken off the submissions. -/
structure Books.Taken (books : Books) (b : Nat) (queue : List Nat) (batch : Batch) : Prop where
  head : b ∉ queue
  nodup : queue.Nodup
  left : batch.left = 0
  empty : batch.result = {}
  unset : batch.promise = []
  uncalled : batch.finishes = []
  none : ∀ i, (b, i) ∉ books.keys

section

variable {books next : Books} {b : Nat} {queue : List Nat} {batch after : Batch}

theorem Books.Balanced.taken (balanced : (books.queue (b :: queue)).Balanced)
    (known : books.batches[b]? = some batch) : books.Taken b queue batch := by
  obtain ⟨head, nodup⟩ := nodup_cons.mp balanced.waiting
  have account := balanced.accounts known
  obtain ⟨left, empty, uncalled⟩ := account.submitted mem_cons_self
  refine ⟨head, nodup, left, empty, ?_, uncalled, fun i member => ?_⟩
  · rw [account.promise, if_pos (.inl mem_cons_self)]
  · obtain ⟨_, placed⟩ := account.placed member
    rw [empty] at placed
    cases placed

/-- Only the batch changes, and the requests that are added are its own. -/
theorem Books.alters_taken (own : List Nat)
    (batches : ∀ other ≠ b, next.batches[other]? = books.batches[other]?)
    (keys : next.keys = books.keys ++ own.map fun i => (b, i)) :
    (books.queue (b :: queue)).Alters (next.queue queue) b where
  batches := batches
  keys := by
    have nothing : (own.map fun i => (b, i)).filter (fun key => key.1 ≠ b) = [] := by simp
    change (next.keys.filter _).Perm _
    rw [keys, filter_append, nothing, append_nil]
    rfl
  submissions other apart := by simp [Books.queue, apart]

/-- A batch without results follows from nothing. -/
theorem Books.Taken.follows (taken : books.Taken b queue batch)
    (known : books.batches[b]? = some batch)
    (alters : (books.queue (b :: queue)).Alters (next.queue queue) b)
    (own : next.batches[b]? = some after) :
    (books.queue (b :: queue)).Follows (next.queue queue) := by
  refine alters.follows own ?_ ?_
  · intro old again
    cases known.symm.trans again
    rw [taken.unset]
    exact nil_prefix
  · intro old again i result placed
    cases known.symm.trans again
    rw [taken.empty] at placed
    cases placed

/-- A batch that is decided as a whole when it is taken off the submissions. -/
theorem Books.Balanced.keeps_reject (balanced : (books.queue (b :: queue)).Balanced)
    (known : books.batches[b]? = some batch) (code : Int32) :
    (books.queue (b :: queue)).Keeps ((books.setBatch b (batch.reject code)).queue queue) := by
  have taken := balanced.taken known
  let next := books.setBatch b (batch.reject code)
  have own : next.batches[b]? = some (batch.reject code) := getElem?_set_of_some known
  have alters : (books.queue (b :: queue)).Alters (next.queue queue) b :=
    Books.alters_taken [] (fun _ apart => getElem?_set_ne (Ne.symm apart)) (append_nil _).symm
  have accounts : (next.queue queue).Accounts b (batch.reject code) := by
    have nothing {i : Nat} {result : EndpointResult} :
        (batch.reject code).result.endpoints[i]? ≠ some result := by
      change batch.result.endpoints[i]? ≠ _
      rw [taken.empty]
      exact nofun
    have left : (batch.reject code).left = books.keys.countP fun key => key.1 = b :=
      (balanced.accounts known).left
    refine ⟨left, fun i member => absurd member (taken.none i), ?_,
      fun member => absurd member taken.head, fun i result placed => absurd placed nothing,
      fun i result placed => absurd placed nothing⟩
    change batch.promise ++ [_] = if b ∈ queue ∨ 0 < batch.left then [] else [_]
    rw [taken.unset, taken.left, if_neg (not_or.mpr ⟨taken.head, Nat.lt_irrefl 0⟩)]
    rfl
  have goals : (next.queue queue).unsentGoals = books.unsentGoals := by
    unfold Books.unsentGoals
    simp only [alters.startsGoals known own rfl]
    rfl
  exact ⟨balanced.alter alters own accounts balanced.apart balanced.ids balanced.issued taken.nodup
    balanced.few (goals ▸ balanced.tracked), taken.follows known alters own⟩

end

/-- More results that are awaited. -/
def Batch.extend (batch : Batch) (results : List EndpointResult) : Batch :=
  { batch with
    left := batch.left + results.length
    result := { batch.result with endpoints := batch.result.endpoints ++ results } }

/-- What `Admit` adds to the books for the endpoints of one batch. -/
structure Books.Enqueues (books next : Books) (b position : Nat) (entries : List Pending)
    (results : List EndpointResult) : Prop where
  keys : (entries.map fun p => (p.batch, p.index)) =
    (range' position results.length).map fun i => (b, i)
  ids : (entries.map fun p => p.frame.requestId).Pairwise (· < ·)
  above : ∀ p ∈ entries, books.nextRequest < p.frame.requestId
  below : ∀ p ∈ entries, p.frame.requestId ≤ next.nextRequest
  unsent : ∀ p ∈ entries, p.sent = false
  fresh : ∀ result ∈ results, result.Fresh
  grows : books.nextRequest ≤ next.nextRequest
  pending : next.pending = books.pending ++ entries
  outgoing : next.outgoing = books.outgoing
  submissions : next.submissions = books.submissions
  batches : next.batches = books.batches.modify b fun batch => batch.extend results

theorem Node.enqueueAll_books (gateway : Gateway) (b : Nat) (batch : Batch)
    (endpoints : List NetworkEndpointMetadata) (position : Nat) (node : Node)
    (room : node.nextRequest.toNat + endpoints.length < UInt64.size) :
    ∃ entries results, results.length = endpoints.length ∧
      node.books.Enqueues (enqueueAll gateway b batch endpoints position node).books b position
        entries results := by
  induction endpoints generalizing position node with
  | nil =>
    refine ⟨[], [], rfl, ?_⟩
    constructor
    case keys => rfl
    case ids => exact Pairwise.nil
    case above | below | unsent | fresh => exact forall_mem_nil _
    case grows => exact UInt64.le_refl _
    case pending => exact (append_nil _).symm
    case outgoing | submissions => rfl
    case batches =>
      have same : (fun batch : Batch => batch.extend []) = id := by
        funext batch
        simp [Batch.extend]
      rw [same, modify_id]
      rfl
  | cons endpoint rest ih =>
    rw [length_cons] at room
    let first := node.enqueue gateway b batch endpoint position
    let request := node.requestFor gateway batch endpoint
    have next : first.nextRequest.toNat = node.nextRequest.toNat + 1 := by
      change (node.nextRequest + 1).toNat = _
      rw [UInt64.toNat_add, Nat.mod_eq_of_lt]
      · rfl
      · change node.nextRequest.toNat + 1 < UInt64.size
        omega
    have small : first.nextRequest.toNat + rest.length < UInt64.size := by omega
    have new : node.nextRequest < request.requestId := UInt64.lt_iff_toNat_lt.mpr (by
      change _ < first.nextRequest.toNat
      omega)
    obtain ⟨entries, results, length, later⟩ := ih (position + 1) first small
    refine ⟨{ batch := b, index := position, frame := request } :: entries,
      { endpoint := endpoint.identity, action := node.sessionFor batch } :: results, ?_, ?_⟩
    · rw [length_cons, length, length_cons]
    constructor
    case keys => rw [map_cons, later.keys, length_cons, range'_succ, map_cons]
    case ids =>
      refine pairwise_cons.mpr ⟨fun id member => ?_, later.ids⟩
      obtain ⟨p, entry, rfl⟩ := mem_map.mp member
      exact later.above p entry
    case above =>
      exact forall_mem_cons.mpr
        ⟨new, fun p member => UInt64.lt_trans new (later.above p member)⟩
    case below => exact forall_mem_cons.mpr ⟨later.grows, later.below⟩
    case unsent => exact forall_mem_cons.mpr ⟨rfl, later.unsent⟩
    case fresh => exact forall_mem_cons.mpr ⟨rfl, later.fresh⟩
    case grows => exact UInt64.le_trans (UInt64.le_of_lt new) later.grows
    case pending =>
      rw [enqueueAll, later.pending]
      exact append_assoc _ _ _
    case outgoing =>
      rw [enqueueAll, later.outgoing]
      rfl
    case submissions =>
      rw [enqueueAll, later.submissions]
      rfl
    case batches =>
      rw [enqueueAll, later.batches]
      change (node.batches.modify b _).modify b _ = node.batches.modify b _
      rw [modify_modify_eq]
      congr 1
      funext old
      have count : old.left + 1 + results.length = old.left + (results.length + 1) := by omega
      simp [Batch.extend, count]

namespace Books

variable {books next : Books} {b : Nat} {queue : List Nat} {batch : Batch}
variable {entries : List Pending} {results : List EndpointResult}

section

variable (enqueues : books.Enqueues next b 0 entries results)
include enqueues

theorem Enqueues.length : entries.length = results.length := by
  have same := congrArg List.length enqueues.keys
  simpa using same

theorem Enqueues.split :
    next.keys = books.keys ++ (range results.length).map fun i => (b, i) := by
  unfold Books.keys
  rw [enqueues.pending, map_append, enqueues.keys, range_eq_range']

theorem Enqueues.own
    (known : books.batches[b]? = some batch) :
    next.batches[b]? = some (batch.extend results) := by
  rw [enqueues.batches, getElem?_modify, known]
  exact congrArg some (if_pos rfl)

theorem Enqueues.alters : (books.queue (b :: queue)).Alters (next.queue queue) b := by
  refine alters_taken _ (fun other apart => ?_) enqueues.split
  rw [enqueues.batches, getElem?_modify_ne _ _ (Ne.symm apart)]

theorem Enqueues.unsentGoals
    (known : books.batches[b]? = some batch) :
    next.unsentGoals =
      books.unsentGoals + if batch.startsGoals then results.length else 0 := by
  have starts : books.startsGoals b = batch.startsGoals := by
    unfold Books.startsGoals
    rw [known]
    rfl
  have own : entries.countP (fun p => !p.sent && books.startsGoals p.batch) =
      entries.countP fun _ => batch.startsGoals := by
    apply countP_congr
    intro p member
    have key : (p.batch, p.index) ∈ entries.map fun p => (p.batch, p.index) := mem_map_of_mem member
    rw [enqueues.keys] at key
    obtain ⟨i, -, same⟩ := mem_map.mp key
    have batch : p.batch = b := congrArg Prod.fst same.symm
    rw [enqueues.unsent p member, batch, starts]
    rfl
  have alters : (books.queue [b]).Alters (next.queue []) b := enqueues.alters
  have same (other : Nat) : next.startsGoals other = books.startsGoals other :=
    alters.startsGoals known (enqueues.own known) rfl other
  unfold Books.unsentGoals
  simp only [same]
  rw [enqueues.pending, countP_append, own]
  cases batch.startsGoals with
  | true => simp [enqueues.length]
  | false => simp

/-- The account of a batch that is split into requests. -/
theorem Enqueues.accounts
    (taken : books.Taken b queue batch) (some_ : results ≠ []) :
    (next.queue queue).Accounts b (batch.extend results) := by
  have endpoints : (batch.extend results).result.endpoints = results := by
    change batch.result.endpoints ++ results = results
    rw [taken.empty]
    rfl
  have size : (batch.extend results).left = results.length := by
    change batch.left + results.length = _
    rw [taken.left, Nat.zero_add]
  have own {i : Nat} : (b, i) ∈ next.keys ↔ i < results.length := by
    rw [enqueues.split, mem_append, or_iff_right (taken.none i)]
    simp
  constructor
  case left =>
    have none : books.keys.countP (fun key => key.1 = b) = 0 := by
      refine countP_eq_zero.mpr fun key member => ?_
      simp only [decide_eq_true_eq]
      exact fun same => taken.none key.2 (same ▸ member)
    have all : countP (fun key : Nat × Nat => decide (key.1 = b))
        ((range results.length).map fun i => (b, i)) = results.length := by
      rw [countP_map, countP_eq_length.mpr, length_range]
      exact fun i _ => decide_eq_true rfl
    change _ = next.keys.countP _
    rw [enqueues.split, countP_append, none, all, size, Nat.zero_add]
  case placed =>
    intro i member
    rw [endpoints]
    exact ⟨_, getElem?_eq_getElem (own.mp member)⟩
  case promise =>
    have positive : 0 < results.length := length_pos_iff.mpr some_
    rw [if_pos (.inr (by omega))]
    exact taken.unset
  case submitted => exact fun member => absurd member taken.head
  case awaited =>
    intro i result placed _
    rw [endpoints] at placed
    have uncalled : (batch.extend results).finishes = [] := taken.uncalled
    rw [Batch.calls, uncalled]
    exact ⟨enqueues.fresh result (mem_of_getElem? placed), rfl⟩
  case written =>
    intro i result placed absent
    rw [endpoints] at placed
    exact absurd (own.mpr (List.getElem?_eq_some_iff.mp placed).1) absent

end

/-- A batch that is split into requests when it is taken off the submissions. -/
theorem Balanced.keeps_enqueue (balanced : (books.queue (b :: queue)).Balanced)
    (known : books.batches[b]? = some batch)
    (enqueues : books.Enqueues next b 0 entries results) (some_ : results ≠ [])
    (room : results.length + books.pending.length ≤ maxPending)
    (goals : batch.startsGoals = true →
      results.length + books.pending.length + books.outgoing.length ≤ maxPending) :
    (books.queue (b :: queue)).Keeps (next.queue queue) := by
  have taken := balanced.taken known
  have apart : next.keys.Nodup := by
    rw [enqueues.split]
    refine nodup_append.mpr ⟨balanced.apart, ?_, ?_⟩
    · exact Nodup.map (fun i j same => (Prod.ext_iff.mp same).2) nodup_range
    · rintro key member other range rfl
      obtain ⟨i, -, rfl⟩ := mem_map.mp range
      exact taken.none i member
  have ids : (next.pending.map fun p => p.frame.requestId).Pairwise (· < ·) := by
    rw [enqueues.pending, map_append]
    refine pairwise_append.mpr ⟨balanced.ids, enqueues.ids, ?_⟩
    intro old member new entry
    obtain ⟨p, pending, rfl⟩ := mem_map.mp member
    obtain ⟨q, added, rfl⟩ := mem_map.mp entry
    exact UInt64.lt_of_le_of_lt (balanced.issued p pending) (enqueues.above q added)
  have issued : ∀ p ∈ next.pending, p.frame.requestId ≤ next.nextRequest := by
    rw [enqueues.pending]
    refine forall_mem_append.mpr ⟨fun p old => ?_, enqueues.below⟩
    exact UInt64.le_trans (balanced.issued p old) enqueues.grows
  have few : next.pending.length ≤ maxPending := by
    rw [enqueues.pending, length_append, enqueues.length]
    omega
  have tracked : next.outgoing.length + next.unsentGoals ≤ maxPending := by
    have old : books.outgoing.length + books.unsentGoals ≤ maxPending := balanced.tracked
    have unsent : books.unsentGoals ≤ books.pending.length := countP_le_length
    rw [enqueues.outgoing, enqueues.unsentGoals known]
    split
    next starts =>
      have bound := goals starts
      omega
    · omega
  exact ⟨balanced.alter enqueues.alters (enqueues.own known) (enqueues.accounts taken some_) apart
    ids issued taken.nodup few tracked, taken.follows known enqueues.alters (enqueues.own known)⟩

end Books

namespace Node

variable {gateway : Gateway}

variable {node : Node} {queue : List Nat} {heard : Option Frame}

/-- One batch that `Admit` has taken. -/
theorem keeps_admitBatch {b : Nat}
    (balanced : (node.books.queue (b :: queue)).Balanced) (peers : List PeerInfo) :
    (node.books.queue (b :: queue)).Keeps
      ((node.admitBatch gateway peers b).books.queue queue) := by
  obtain ⟨batch, known⟩ := balanced.submitted b mem_cons_self
  change node.batches[b]? = some batch at known
  unfold admitBatch
  simp only [known]
  split_ifs with nothing exhausted full
  · exact balanced.keeps_reject known _
  · exact balanced.keeps_reject known _
  · exact balanced.keeps_reject known _
  · unfold Exhausted at exhausted
    unfold Full at full
    have largest : maxUInt64.toNat + 1 = UInt64.size := rfl
    have limit : maxPending < maxUInt64.toNat := by decide
    obtain ⟨room, goals⟩ := not_or.mp full
    obtain ⟨numbers, -⟩ := not_or.mp exhausted
    have small : node.nextRequest.toNat + (batch.selected peers).length < UInt64.size := by omega
    obtain ⟨entries, results, length, enqueues⟩ :=
      enqueueAll_books gateway b batch (batch.selected peers) 0 node small
    refine balanced.keeps_enqueue known enqueues ?_ ?_ ?_
    · intro empty
      rw [empty] at length
      exact nothing (length_eq_zero_iff.mp length.symm)
    · rw [length]
      exact not_lt.mp room
    · intro starts
      rw [length]
      exact not_lt.mp fun over_ => goals ⟨starts, over_⟩

theorem enqueueAll_submissions (b : Nat) (batch : Batch)
    (endpoints : List NetworkEndpointMetadata) (position : Nat) (node : Node) :
    (enqueueAll gateway b batch endpoints position node).submissions = node.submissions := by
  induction endpoints generalizing position node with
  | nil => rfl
  | cons endpoint rest ih => exact ih _ _

theorem admitBatch_submissions (node : Node) (peers : List PeerInfo) (b : Nat) :
    (node.admitBatch gateway peers b).submissions = node.submissions := by
  unfold admitBatch
  split
  · rfl
  dsimp only
  split_ifs
  · rfl
  · rfl
  · rfl
  · exact enqueueAll_submissions _ _ _ _ _

/-- The submissions are taken, and a loop works through them. -/
theorem keeps_taken {turn : Node → Nat → Node}
    (kept : ∀ node b, (turn node b).submissions = node.submissions)
    (each : ∀ {node : Node} {b queue}, (node.books.queue (b :: queue)).Balanced →
      (node.books.queue (b :: queue)).Keeps ((turn node b).books.queue queue))
    (balanced : node.books.Balanced) :
    node.books.Keeps (node.submissions.foldl turn { node with submissions := [] }).books := by
  have all (queue : List Nat) (node : Node) (balanced : (node.books.queue queue).Balanced)
      (none_ : node.submissions = []) :
      (node.books.queue queue).Keeps (queue.foldl turn node).books := by
    induction queue generalizing node with
    | nil =>
      have same : node.books.queue [] = node.books := by
        rw [← none_]
        rfl
      rw [same] at balanced ⊢
      exact ⟨balanced, .refl⟩
    | cons b queue ih =>
      exact (each balanced).trans fun balanced => ih _ balanced ((kept node b).trans none_)
  exact all _ { node with submissions := [] } balanced rfl

theorem keeps_admitPeers (balanced : node.books.Balanced) (peers : List PeerInfo) :
    node.books.Keeps (node.admitPeers gateway peers).books :=
  keeps_taken (fun node => admitBatch_submissions node peers)
    (fun balanced => keeps_admitBatch balanced peers) balanced

/-- Every act keeps the books in order. -/
theorem Act.keeps {node next : Node} (act : node.Act gateway heard next)
    (balanced : node.books.Balanced) : node.books.Keeps next.books := by
  cases act with
  | quiet same =>
    rw [same]
    exact ⟨balanced, .refl⟩
  | submit submission now => exact keeps_submit balanced submission now
  | admitPeers peers => exact keeps_admitPeers balanced peers
  | finish completion present success => exact keeps_finish balanced _ completion
  | send timeoutMs connection present unsent known =>
    exact keeps_send balanced connection present unsent known rfl
  | event c here => exact keeps_event balanced c _
  | abandon connection => exact keeps_abandon balanced connection

theorem Acts.keeps {node next : Node} (acts : node.Acts gateway heard next)
    (balanced : node.books.Balanced) : node.books.Keeps next.books := by
  induction acts with
  | refl => exact ⟨balanced, .refl⟩
  | tail _ act ih => exact ih.trans act.keeps

/-! ## The end of the I/O thread -/

theorem keeps_withdrawBatch {b : Nat} (balanced : (node.books.queue (b :: queue)).Balanced) :
    (node.books.queue (b :: queue)).Keeps ((node.withdrawBatch b).books.queue queue) := by
  obtain ⟨batch, known⟩ := balanced.submitted b mem_cons_self
  change node.batches[b]? = some batch at known
  unfold withdrawBatch
  rw [modify_eq_set_getElem?, known]
  exact balanced.keeps_reject known _

theorem withdrawAll_frame (queue : List Nat) (node : Node) :
    (queue.foldl withdrawBatch node).pending = node.pending ∧
      (queue.foldl withdrawBatch node).submissions = node.submissions := by
  induction queue generalizing node with
  | nil => exact ⟨rfl, rfl⟩
  | cons b queue ih => exact ih _

theorem keeps_withdraw (balanced : node.books.Balanced) : node.books.Keeps node.withdraw.books :=
  keeps_taken (fun _ _ => rfl) keeps_withdrawBatch balanced

/-- Every move keeps the books in order. -/
theorem Move.keeps {node next : Node}
    (move : node.Move heard next) (balanced : node.books.Balanced) :
    node.books.Keeps next.books := by
  cases move with
  | acts gateway acts => exact acts.keeps balanced
  | refuse submission now same =>
    rw [same]
    exact balanced.keeps_append rfl rfl (.inl ⟨rfl, rfl⟩)
  | withdraw same =>
    rw [same]
    exact keeps_withdraw balanced

end Node

/-- The books of a new node. -/
theorem Books.Balanced.empty : (Node.books {}).Balanced := by
  constructor <;> simp [Node.books, Books.keys, Books.unsentGoals]

/-- Outside its loop a node takes no submissions, and at the end nothing is left. -/
structure Period.Settled (period : Period) : Prop where
  stopped : period.phase ≠ .looping → period.running = false
  idle : period.phase = .ended → period.node.pending = [] ∧ period.node.submissions = []

/-- Steps of the backend do not touch the requests of the node's own user. -/
theorem Node.backend_books {node : Node} {event : Event} (gateway : Gateway)
    (backend : event.OfBackend = true) : (node.step gateway event).books = node.books := by
  cases event <;> cases backend
  case takeJob => rfl
  case reply =>
    unfold Node.step
    dsimp only
    split <;> rfl
  case abort => rfl

theorem Period.Settled.preserved : lifetime.Preserves Period.Settled := by
  intro period occasion next step settled
  change period.advance occasion = some next at step
  cases occasion <;> simp only [Period.advance, Option.ite_none_right_eq_some,
    Option.some.injEq] at step
  case start =>
    obtain ⟨-, rfl⟩ := step
    exact ⟨fun outside => absurd rfl outside, fun ended => by cases ended⟩
  case submit submission now =>
    obtain rfl := step
    refine ⟨settled.stopped, fun ended => ?_⟩
    have stopped : period.running = false := settled.stopped (by rw [ended]; decide)
    dsimp only
    rw [stopped]
    exact settled.idle ended
  case work event =>
    obtain ⟨⟨-, allowed⟩, rfl⟩ := step
    refine ⟨settled.stopped, fun ended => ?_⟩
    have backend := allowed.resolve_left (by rw [ended]; decide)
    have same := period.node.backend_books period.gateway backend
    exact (settled.idle ended).imp (congrArg Books.pending same).trans
      (congrArg Books.submissions same).trans
  case stop =>
    obtain rfl := step
    exact ⟨fun _ => rfl, settled.idle⟩
  case leave =>
    obtain ⟨-, rfl⟩ := step
    exact ⟨fun _ => rfl, fun ended => by cases ended⟩
  case cancel | close =>
    obtain ⟨⟨closing, -⟩, rfl⟩ := step
    exact ⟨settled.stopped, by simp [closing]⟩
  case withdraw =>
    obtain ⟨⟨closing, none_, -⟩, rfl⟩ := step
    refine ⟨fun _ => settled.stopped (by rw [closing]; decide), fun _ => ?_⟩
    exact (Node.withdrawAll_frame _ _).imp_left fun pending => pending.trans none_

theorem balanced_preserved : lifetime.Preserves fun period => period.node.books.Balanced :=
  fun _ _ _ step balanced => ((Period.advance_move step).keeps balanced).1

theorem balanced_of_reachable {period : Period} (reachable : lifetime.Reachable period) :
    period.node.books.Balanced := by
  refine reachable.invariant ?_ balanced_preserved
  rintro _ ⟨gateway, rfl⟩
  exact .empty

theorem settled_of_reachable {period : Period} (reachable : lifetime.Reachable period) :
    period.Settled := by
  refine reachable.invariant ?_ Period.Settled.preserved
  rintro _ ⟨gateway, rfl⟩
  exact ⟨fun _ => rfl, fun _ => ⟨rfl, rfl⟩⟩

/-- A run writes each result when it stops being awaited, and takes nothing back. -/
theorem follows_of_run {middle finish : Period} {occasions : List Occasion}
    (reachable : lifetime.Reachable middle) (run : lifetime.Run middle occasions finish) :
    middle.node.books.Follows finish.node.books := by
  induction run with
  | nil => exact .refl
  | snoc earlier step ih =>
    have balanced := balanced_of_reachable (reachable.run earlier)
    exact ih.trans ((Period.advance_move step).keeps balanced).2

/-- Whatever happens to a node, the count of every batch is the number of its pending
requests, which differ in their results and in their request numbers; a result is
fresh and `Finish` was not called for it while its request is pending, afterwards it was
called once and the result is what it was called with; a promise is set once, when nothing
of its batch is left; and at the end of the I/O thread all results are written and all
promises are set. -/
theorem requests_accounted {middle finish : Period} {occasions : List Occasion}
    (reachable : lifetime.Reachable middle) (run : lifetime.Run middle occasions finish) :
    middle.node.books.Balanced ∧ middle.node.books.Follows finish.node.books ∧
      middle.node.pending.length ≤ 256 ∧ middle.node.outgoing.length ≤ 256 ∧
      (middle.phase = .ended → ∀ batch ∈ middle.node.batches,
        batch.promise = [batch.result] ∧ ∀ i result, batch.result.endpoints[i]? = some result →
          ∃ call, batch.calls i = [call] ∧ call.Wrote batch result) := by
  have balanced := balanced_of_reachable reachable
  have settled := settled_of_reachable reachable
  refine ⟨balanced, follows_of_run reachable run, balanced.few, ?_, ?_⟩
  · exact le_trans (Nat.le_add_right _ _) balanced.tracked
  · intro ended batch member
    obtain ⟨b, known⟩ := mem_iff_getElem?.mp member
    have none_ : middle.node.books.keys = [] := by
      change middle.node.pending.map _ = []
      rw [(settled.idle ended).1, map_nil]
    have account := balanced.accounts known
    constructor
    · have nothing : ¬(b ∈ middle.node.submissions ∨ 0 < batch.left) := by
        rw [(settled.idle ended).2, account.left, none_]
        simp
      exact account.promise.trans (if_neg nothing)
    · exact fun i result found => account.written found (by rw [none_]; exact not_mem_nil)

/-- The codes that `Finish` was called with for every batch. -/
def Node.codes (node : Node) : List (List Int32) :=
  node.batches.map fun batch => batch.finishes.map fun call => call.completion.code

/-- A goal is pending on its connection; later it is done and the node has stopped. -/
theorem requests_accounted_crane : ∃ middle finish occasions,
    lifetime.Run middle occasions finish ∧ middle.node.pending.length = 1 ∧
      middle.node.codes = [[]] ∧ finish.phase = .ended ∧ finish.node.codes = [[0]] ∧
      middle.node.books.Balanced ∧ middle.node.books.Follows finish.node.books ∧
      ∀ batch ∈ finish.node.batches,
        batch.promise = [batch.result] ∧ ∀ i result, batch.result.endpoints[i]? = some result →
          ∃ call, batch.calls i = [call] ∧ call.Wrote batch result := by
  have computed : (Crane.send.foldlM Period.advance { gateway := Crane.gateway }).map
      (fun period => (period.node.pending.length, period.node.codes,
        ((Crane.progress ++ Crane.finish).foldlM Period.advance period).map fun finish =>
          (finish.phase, finish.node.codes))) = some (1, [[]], some (.ended, [[0]])) := by
    decide +kernel
  obtain ⟨middle, reachable, seen⟩ := lifetime_computed _ _ computed
  simp only [Prod.mk.injEq] at seen
  obtain ⟨one, none_, later⟩ := seen
  obtain ⟨finish, rest, last⟩ := Option.map_eq_some_iff.mp later
  obtain ⟨ended, called⟩ := Prod.mk.inj last
  have run : lifetime.Run middle (Crane.progress ++ Crane.finish) finish :=
    .of_foldlM (fun _ _ _ done => done) rest
  have accounted := requests_accounted reachable run
  have last := requests_accounted (reachable.run run) (.nil finish)
  exact ⟨middle, finish, _, run, one, none_, ended, called, accounted.1, accounted.2.1,
    last.2.2.2.2 ended⟩

end Kcf.Network.Control
